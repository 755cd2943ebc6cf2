/-
Where the descriptors of a transfer come from.  Every datagram that is received is put on
record; the descriptors of a live transfer are those of the request that created it, or of
a later SEND_OPEN, and they still refer to the open files the client sent.
-/
import Sendfiled.Leaks
import Sendfiled.Datagrams
import Sendfiled.Guards

namespace Sendfiled

open Prog Transition

/-- What is recorded of a datagram: who sent it, its first byte, and its descriptors with
the open files they stand for. -/
structure Receipt where
  pid : Nat
  cmd : Nat
  fds : List (Fd × Nat)
deriving DecidableEq, Repr

def Kernel.receipt (ans : Answers) (d : Datagram) (creds : Ucred) (k : Kernel) : Receipt where
  pid := creds.pid
  cmd := (d.data.headD 0).toNat
  fds := (k.received ans d).zip (k.arriving ans d)

/-- The datagrams a step receives.  Without credentials they are not handled. -/
def receipts : Answers × Label → State → List Receipt
  | (ans, .receive d), s => d.creds.toList.map fun creds => s.world.kern.receipt ans d creds
  | _, _ => []

/-- The server with the record of its datagrams. -/
def recordedServer : System Fault (State × List Receipt) (Answers × Label) :=
  server.recording receipts

/-- The descriptor came as the `i`-th one of the datagram and still is what came. -/
def Receipt.Gives (rc : Receipt) (i : Nat) (k : Kernel) (fd : Fd) : Prop :=
  ∃ n, rc.fds[i]? = some (fd, n) ∧ k.fds.lookup fd = some (.client n)

/-- Where the destination of a transfer comes from that the datagram `rc` created. -/
inductive DestSupplied (log : List Receipt) (k : Kernel) (x : ResrcXfer) (rc : Receipt) : Prop
  | none (hcmd : rc.cmd = ProtCmdReq.fileOpen.code) (h : x.destFd = -1)
  | read (hcmd : rc.cmd = ProtCmdReq.read.code) (h : rc.Gives 0 k x.destFd)
  | send (hcmd : rc.cmd = ProtCmdReq.send.code) (h : rc.Gives 1 k x.destFd)
  | sendOpen {rc' : Receipt} (hmem : rc' ∈ log) (hpid : rc'.pid = x.clientPid)
      (hcmd : rc'.cmd = ProtCmdReq.sendOpen.code) (h : rc'.Gives 0 k x.destFd)

/-- The descriptors of a transfer were sent by its client. -/
def Supplied (log : List Receipt) (k : Kernel) (x : ResrcXfer) : Prop :=
  ∃ rc ∈ log, rc.pid = x.clientPid ∧ fileCmd rc.cmd ≠ none ∧ rc.Gives 0 k x.statFd ∧
    DestSupplied log k x rc

/-- The next request is a SEND_OPEN for a transfer whose client could not be determined, and
comes from another one. -/
def State.fromStranger (s : State) : Bool :=
  match s.phase with
  | .requested r _ => (s.world.srv.namedBy .sendOpen r).any fun named =>
      named.2.defer != .cancel && named.2.clientPid != r.pid
  | _ => false

/-- The steps after which every transfer has what its client sent. -/
def bringsOwn : Answers × Label → State → Bool
  | (_, .request), s => !s.lacksDest && !s.fromStranger
  | _, _ => true

def BringsOwn (l : Answers × Label) (s : State) : Prop := bringsOwn l s = true

instance (l : Answers × Label) (s : State) : Decidable (BringsOwn l s) :=
  inferInstanceAs (Decidable (_ = true))

variable {ans : Answers} {l : Label} {s s' : State} {a : Action} {c c' : Config} {p : Ptr}
  {x y : ResrcXfer} {log : List Receipt} {k k' : Kernel} {rc : Receipt} {i : Nat} {fd : Fd}

section Closing

/-- An action that closes nothing leaves the open descriptors as they are. -/
theorem Performs.extends (h : Performs a c c') : c.world.kern.Extends c'.world.kern ∨
    ∃ tr fd b, c'.world.kern.trace = c.world.kern.trace ++ tr ∧ Effect.closed fd b ∈ tr := by
  have hclose : ∀ (ans : Answers) (k : Kernel) fd, ∃ tr fd' b,
      (k.close ans fd).2.trace = k.trace ++ tr ∧ Effect.closed fd' b ∈ tr := by
    intro ans k fd
    obtain ⟨b, hb⟩ := Kernel.close_trace ans k fd
    exact ⟨_, fd, b, hb, List.mem_singleton.mpr rfl⟩
  have hdismantle : ∀ (ans : Answers) (k : Kernel) (x : ResrcXfer), ∃ tr fd' b,
      (k.dismantle ans x).trace = k.trace ++ tr ∧ Effect.closed fd' b ∈ tr := by
    intro ans k x
    obtain ⟨tr, htr, -, hburied⟩ := Kernel.dismantle_trace ans k x
    obtain ⟨b, hb⟩ := hburied.stat
    exact ⟨tr, _, b, htr, hb⟩
  cases h with
  | quiet _ _ hk => exact Or.inl (.of_eq hk.fds)
  | say | seek | register | forget | enroll | skip | cancel | ready | release | assign | balk
  | addTimer | skipTimer | arm | addResp | skipResp => exact Or.inl (.of_eq rfl)
  | openFile | openTimer | arrive | dup => exact Or.inl (Kernel.install_extends _ _)
  | shut ans | reshut ans | retire ans | expire ans | botch ans | dropResp ans =>
      exact Or.inr (hclose ans _ _)
  | discard ans | bury ans => exact Or.inr (hdismantle ans _ _)
  | move ans _ _ _ _ hm => exact Or.inl (.of_eq (Kernel.moveBytes_fds ans _ hm).1)

/-- The same for a sequence of actions. -/
theorem Acts.extends {A : Action → Config → Prop} (h : Acts A c c') :
    c.world.kern.Extends c'.world.kern ∨
      ∃ tr fd b, c'.world.kern.trace = c.world.kern.trace ++ tr ∧ Effect.closed fd b ∈ tr := by
  induction h with
  | refl => exact Or.inl fun _ _ hf => hf
  | tail _ hstep ih =>
      obtain ⟨a, -, hp⟩ := hstep
      rcases ih with hext | ⟨tr, fd, b, htr, hmem⟩
      · rcases hp.extends with hext' | ⟨tr, fd, b, htr, hmem⟩
        · exact Or.inl fun fd f hf => hext' fd f (hext fd f hf)
        · obtain ⟨before, hbefore⟩ := Acts.trace_prefix ‹_›
          exact Or.inr ⟨before ++ tr, fd, b, by rw [htr, ← hbefore, List.append_assoc],
            List.mem_append_right _ hmem⟩
      · obtain ⟨tr', htr', -⟩ := hp.trace
        exact Or.inr ⟨tr ++ tr', fd, b, by rw [htr', htr, List.append_assoc],
          List.mem_append_left _ hmem⟩

end Closing

section Giving

theorem Receipt.Gives.congr (h : rc.Gives i k fd)
    (hfd : k'.fds.lookup fd = k.fds.lookup fd) : rc.Gives i k' fd := by
  obtain ⟨n, hn, hlookup⟩ := h
  exact ⟨n, hn, hfd.trans hlookup⟩

theorem Receipt.Gives.extends (h : rc.Gives i k fd) (hk : k.Extends k') : rc.Gives i k' fd := by
  obtain ⟨n, hn, hlookup⟩ := h
  exact ⟨n, hn, hk _ _ hlookup⟩

theorem Receipt.Gives.mem (h : rc.Gives i k fd) : fd ∈ k.fds := by
  obtain ⟨n, -, hlookup⟩ := h
  exact Kernel.mem_of_lookup hlookup

/-- A longer record supplies no less. -/
theorem Supplied.more (h : Supplied log k x) (more : List Receipt) :
    Supplied (log ++ more) k x := by
  obtain ⟨rc, hmem, hpid, hcmd, hstat, hdest⟩ := h
  refine ⟨rc, List.mem_append_left _ hmem, hpid, hcmd, hstat, ?_⟩
  cases hdest with
  | none hcmd h => exact .none hcmd h
  | read hcmd h => exact .read hcmd h
  | send hcmd h => exact .send hcmd h
  | sendOpen hmem hpid hcmd h => exact .sendOpen (List.mem_append_left _ hmem) hpid hcmd h

/-- A transfer keeps its supply while its descriptors are left alone. -/
theorem Supplied.congr (h : Supplied log k x) (hclient : y.clientPid = x.clientPid)
    (hstat : y.statFd = x.statFd) (hdest : y.destFd = x.destFd)
    (hfds : ∀ fd, fd = x.statFd ∨ fd = x.destFd → fd ∈ k.fds →
      k'.fds.lookup fd = k.fds.lookup fd) : Supplied log k' y := by
  obtain ⟨rc, hmem, hpid, hcmd, hgives, hd⟩ := h
  have hgiven : ∀ {rc : Receipt} {i : Nat}, rc.Gives i k x.destFd → rc.Gives i k' y.destFd := by
    intro rc i hg
    rw [hdest]
    exact hg.congr (hfds _ (Or.inr rfl) hg.mem)
  refine ⟨rc, hmem, hpid.trans hclient.symm, hcmd, ?_, ?_⟩
  · rw [hstat]
    exact hgives.congr (hfds _ (Or.inl rfl) hgives.mem)
  · cases hd with
    | none hcmd h => exact .none hcmd (hdest.trans h)
    | read hcmd h => exact .read hcmd (hgiven h)
    | send hcmd h => exact .send hcmd (hgiven h)
    | sendOpen hmem hpid hcmd h =>
        exact .sendOpen hmem (hpid.trans hclient.symm) hcmd (hgiven h)

end Giving

/-- The datagram that is being handled is on record. -/
def OnRecord (log : List Receipt) (w : World) (r : Received) : Prop :=
  ∃ rc ∈ log, rc.pid = r.pid ∧ rc.cmd = sfdGetCmd w.srv.recvbuf ∧
    (0 < r.nfds → rc.Gives 0 w.kern r.fds.1) ∧ (r.nfds = 2 → rc.Gives 1 w.kern r.fds.2)

/-- Between two steps, every transfer has what its client sent. -/
structure Supply (log : List Receipt) (s : State) : Prop where
  xfers : ∀ p x, s.world.srv.xferAt p = some x → Supplied log s.world.kern x
  request : ∀ r rest, s.phase = .requested r rest → r.nread ≠ 0 → OnRecord log s.world r

section Steps

theorem Performs.assign_kern (h : Performs (.assign p fd) c c') :
    c'.world.kern = c.world.kern := by
  cases h
  rfl

theorem BringsOwn.destination (hg : BringsOwn (ans, .request) s) : s.lacksDest = false := by
  unfold BringsOwn bringsOwn at hg
  simp only [Bool.and_eq_true, Bool.not_eq_true'] at hg
  exact hg.1

/-- A SEND_OPEN comes from the client of the transfer it names. -/
theorem BringsOwn.sender (hg : BringsOwn (ans, .request) s) {r : Received}
    {rest : List PollEvent} (hphase : s.phase = .requested r rest)
    (huid : r.uid = s.world.srv.uid) (hfds : 0 < r.nfds) {txnid : Nat}
    (htxnid : protUnmarshalSendOpen s.world.srv.recvbuf = some txnid)
    (hfind : s.world.srv.xfers.find txnid = some p) (hx : s.world.srv.xferAt p = some x)
    (hpid : pidMatches x r.pid = true) (hdefer : x.defer ≠ .cancel) : r.pid = x.clientPid := by
  have hnamed := Server.namedBy_eq huid (fun _ => Nat.ne_of_gt hfds) htxnid hfind hx hpid
  have hown : s.fromStranger = false := by
    unfold BringsOwn bringsOwn at hg
    simp only [Bool.and_eq_true, Bool.not_eq_true'] at hg
    exact hg.2
  by_contra hne
  simp [State.fromStranger, hphase, hnamed, hdefer, Ne.symm hne] at hown

theorem BringsOwn.entitled (hg : BringsOwn (ans, l) s) (hok : PhaseOk s)
    (ha : StepMay ans l s a c) : Descriptors.Entitled (0 ≤ ·) a c := by
  apply ha.entitled _ hok
  rintro rfl
  exact hg.destination

/-- Under these steps every descriptor has one owner. -/
theorem bringsOwn_kept : Kept (Descriptors.Entitled (0 ≤ ·)) BringsOwn (Descriptors (0 ≤ ·)) where
  grants := fun _ _ _ hg _ hok _ _ _ ha => hg.entitled hok ha
  acts := fun _ _ _ _ ha hp h => h.performs (fun _ hnonneg => hnonneg) ha hp

/-- What is known during a step of the transfers that were there before. -/
structure Supplying (s : State) (log : List Receipt) (c : Config) : Prop where
  descriptors : Descriptors (0 ≤ ·) c
  later : s.world.srv.nextPtr ≤ c.world.srv.nextPtr
  xfers : ∀ p x, p < s.world.srv.nextPtr → c.world.srv.xferAt p = some x →
    Supplied log c.world.kern x

theorem Supplying.performs (hg : BringsOwn (ans, l) s) (hok : PhaseOk s) (hs : Supply log s)
    (hread : ∀ r rest, l = .request → s.phase = .requested r rest → r.nread ≠ 0)
    (ha : StepMay ans l s a c) (hp : Performs a c c') (h : Supplying s log c) :
    Supplying s log c' := by
  refine ⟨h.descriptors.performs (fun _ hnonneg => hnonneg) (hg.entitled hok ha) hp,
    Nat.le_trans h.later hp.nextPtr_le, fun q y hlt hy => ?_⟩
  rcases hp.evolves hy with ⟨hnew, -⟩ | ⟨z, hz, hevolves⟩
  · exact absurd (Nat.lt_of_lt_of_le hlt h.later) (by rw [hnew]; exact Nat.lt_irrefl _)
  have hold := h.xfers q z hlt hz
  have hclient : y.clientPid = z.clientPid := by rw [hevolves.record]
  -- a descriptor the transfer keeps refers to the same open file
  have hkept : ∀ fd, (fd = z.statFd ∨ fd = z.destFd) → (fd = y.statFd ∨ fd = y.destFd) →
      fd ∈ c.world.kern.fds → c'.world.kern.fds.lookup fd = c.world.kern.fds.lookup fd :=
    fun fd howns howns' hopen => (Descriptors.spares hp h.descriptors (o := .channel q)
      (h.descriptors.nonneg fd hopen) ⟨z, hz, howns⟩ ⟨y, hy, howns'⟩).lookup
  rcases hevolves.cmd with ⟨-, hdest⟩ | ⟨-, rfl⟩
  · refine hold.congr hclient hevolves.statFd hdest fun fd howns hopen => ?_
    exact hkept fd howns (by rw [hevolves.statFd, hdest]; exact howns) hopen
  · -- a SEND_OPEN, whose datagram is on record
    obtain ⟨r, rest, txnid, z', rfl, hphase, huid, hnfds, htxnid, hfind, hz', hpid, hdefer, hfd,
      rfl⟩ := ha.assign_cases
    have hzz : z' = z := Option.some.inj (hz'.symm.trans hz)
    subst hzz
    have hcode := protUnmarshalTxnid_cmd htxnid
    have hpos : 0 < r.nfds := hnfds (by rw [hcode]; decide)
    obtain ⟨rc', hmem', hpid', hcmd', hgives', -⟩ :=
      hs.request r rest hphase (hread r rest rfl hphase)
    obtain ⟨rc, hmem, hrcpid, hcmd, hstat, -⟩ := hold
    have hfds : ∀ fd, c'.world.kern.fds.lookup fd = s.world.kern.fds.lookup fd := by
      intro fd
      rw [hp.assign_kern]
    refine ⟨rc, hmem, hrcpid.trans hclient.symm, hcmd, ?_, ?_⟩
    · rw [hevolves.statFd]
      exact hstat.congr (hfds _)
    · refine .sendOpen hmem' ?_ (hcmd'.trans hcode) ?_
      · rw [hpid', hclient]
        exact hg.sender hphase huid hpos htxnid hfind hz hpid hdefer
      · rw [hfd]
        exact (hgives' hpos).congr (hfds _)

end Steps

section Receiving

/-- Each descriptor that arrives refers to the open file sent in its place. -/
theorem Kernel.installAll_zip (files : List Nat) (k : Kernel) {entry : Fd × Nat}
    (h : entry ∈ (Kernel.installAll files k).1.zip files) :
    (Kernel.installAll files k).2.fds.lookup entry.1 = some (.client entry.2) := by
  induction files generalizing k with
  | nil => simp at h
  | cons n rest ih =>
      simp only [Kernel.installAll, List.zip_cons_cons, List.mem_cons] at h
      rcases h with rfl | h
      · exact Kernel.installAll_extends rest _ _ _ (Kernel.install_lookup _ k)
      · exact ih _ h

/-- A datagram that `us_recv` hands over is on record. -/
theorem wp_usRecv_recorded {w : World} {old : Fd × Fd} {d : Datagram} :
    wp (usRecv ans old d) (fun o w' => ∀ r, o = some r → r.nread ≠ 0 → ∃ creds,
      d.creds = some creds ∧ OnRecord [w.kern.receipt ans d creds] w' r) (fun _ _ => True) w := by
  simp only [usRecv, wp_bind, wp_sys, wp_onSrv]
  rw [wp_ite]
  simp only [Kernel.recvmsg]
  refine ⟨fun _ => by simp, fun _ => ?_⟩
  cases hcreds : d.creds with
  | none => simp
  | some creds =>
      simp only [wp_pure, Option.some.injEq]
      rintro _ rfl hread
      refine ⟨creds, rfl, _, List.mem_singleton.mpr rfl, rfl, ?_, ?_, ?_⟩
      · cases hdata : d.data with
        | nil => simp [hdata] at hread
        | cons b rest =>
            simp only [Kernel.receipt, hdata, List.headD_cons]
            exact (sfdGetCmd_receive _ rfl).symm
      all_goals
        have hzip := @Kernel.installAll_zip (w.kern.arriving ans d) w.kern
        simp only [Receipt.Gives, Kernel.receipt, Kernel.received, Kernel.succeed]
        generalize w.kern.arriving ans d = files at hzip ⊢
      · intro hpos
        cases files with
        | nil => simp [Kernel.installAll] at hpos
        | cons n rest =>
            refine ⟨n, ?_, @hzip (_, n) ?_⟩
            · cases rest <;> rfl
            · cases rest <;> simp [Kernel.installAll, recvFds]
      · intro htwo
        cases files with
        | nil => simp [Kernel.installAll] at htwo
        | cons n rest =>
            cases rest with
            | nil => simp [Kernel.installAll] at htwo
            | cons m rest =>
                refine ⟨m, rfl, @hzip (_, m) ?_⟩
                simp [Kernel.installAll, recvFds]

/-- A request is in hand after it was received, or when it was in hand before. -/
theorem next_requested {r : Received} {rest : List PollEvent}
    (hn : next (ans, l) s = some (.ok s')) (hphase : s'.phase = .requested r rest) :
    (∃ d, l = .receive d) ∨ ∃ n, l = .clientCloses n ∧ s' = ⟨clientClose n s.world, s.phase⟩ := by
  have hstop : ∀ w, shutdown ans w ≠ .ok s' := by
    intro w hw
    obtain ⟨_, _, hstopped⟩ := settle_ok hw
    cases hstopped
    cases hphase
  obtain ⟨w, phase⟩ := s
  cases l with
  | receive d => exact Or.inl ⟨d, rfl⟩
  | clientCloses n =>
      simp only [next] at hn
      split at hn <;> cases hn
      exact Or.inr ⟨n, rfl, rfl⟩
  | wait evs =>
      cases phase <;> simp only [next, reduceCtorEq] at hn
      split at hn <;> cases hn
      cases hphase
  | waitFailed e | receiveFailed e =>
      cases phase <;> simp only [next, reduceCtorEq] at hn
      split at hn
      · exact absurd (Option.some.inj hn) (hstop _)
      · cases hn
        cases hphase
  | event garbage =>
      cases phase with
      | waiting | receiving | requested | stopped => cases hn
      | events evs =>
          cases evs with
          | nil => cases hn
          | cons ev more =>
              simp only [next, Option.some.injEq] at hn
              obtain ⟨o, w', hw⟩ := settle_ok hn
              cases o with
              | stop => exact absurd hw (hstop _)
              | request | handled =>
                  cases hw
                  cases hphase
  | request =>
      cases phase <;> simp only [next, reduceCtorEq, Option.some.injEq] at hn
      obtain ⟨_, w', hw⟩ := settle_ok hn
      cases hw
      cases hphase
  | deferred =>
      cases phase with
      | waiting | receiving | requested | stopped => cases hn
      | events evs =>
          cases evs with
          | cons ev more => cases hn
          | nil =>
              simp only [next, Option.some.injEq] at hn
              obtain ⟨_, w', hw⟩ := settle_ok hn
              cases hw
              cases hphase

/-- A request that was handled was not empty, and without descriptors only a CANCEL has
any effect. -/
theorem next_request_nfds {r : Received} {rest : List PollEvent}
    (hphase : s.phase = .requested r rest) (hn : next (ans, .request) s = some (.ok s')) :
    r.nread ≠ 0 ∧ (0 < r.nfds ∨ sfdGetCmd s.world.srv.recvbuf = ProtCmdReq.cancel.code ∨
      s'.world = s.world) := by
  obtain ⟨w, phase⟩ := s
  subst hphase
  simp only [next, Option.some.injEq] at hn
  have hwp : wp (handleReceived ans r) (fun _ w' => r.nread ≠ 0 ∧ (0 < r.nfds ∨
      sfdGetCmd w.srv.recvbuf = ProtCmdReq.cancel.code ∨ w' = w)) (fun _ _ => True) w := by
    simp only [handleReceived, wp_bind, wp_gets, wp_assert]
    refine ⟨fun hread => ?_, fun _ => trivial⟩
    rw [wp_ite]
    refine ⟨fun _ => ⟨hread, Or.inr (Or.inr rfl)⟩, fun hfds => ?_⟩
    refine wp_of_forall (fun _ w' => ⟨hread, ?_⟩) fun _ _ => trivial
    by_cases hcmd : sfdGetCmd w.srv.recvbuf = ProtCmdReq.cancel.code
    · exact Or.inr (Or.inl hcmd)
    · exact Or.inl (by_contra fun hnone => hfds ⟨hcmd, Or.inl (by omega)⟩)
  revert hn
  refine settle_of_wp (P := fun res => res = .ok s' → _) hwp (fun _ w' h hs' => ?_)
    fun _ _ _ h => by cases h
  cases hs'
  exact h

end Receiving

section Running

theorem OnRecord.more {w : World} {r : Received} (h : OnRecord log w r) (more : List Receipt) :
    OnRecord (log ++ more) w r := by
  obtain ⟨rc, hmem, hrest⟩ := h
  exact ⟨rc, List.mem_append_left _ hmem, hrest⟩

/-- A transfer that a request creates gets what the request brought. -/
theorem Supply.born (hs : Supply log s) (hledger : Ledger s.world.srv) (hm : Minted s.world)
    (hok : PhaseOk s) (hg : BringsOwn (ans, l) s) (hn : next (ans, l) s = some (.ok s'))
    (hnone : s.world.srv.xferAt p = none) (hx : s'.world.srv.xferAt p = some x) :
    Supplied log s'.world.kern x := by
  obtain ⟨r, rest, rfl, hphase, huid, rfl, -, haccepted⟩ := next_born hledger hm hok hn hnone hx
  obtain ⟨hread, hfds⟩ := next_request_nfds hphase hn
  obtain ⟨rc, hmem, hpid, hcmd, hfst, hsnd⟩ := hs.request r rest hphase hread
  have hlive : ¬ s.world.srv.Unborn s'.world.srv := by
    intro hunborn
    rw [hunborn _ hnone] at hx
    cases hx
  cases haccepted with
  | assigned _ _ hq _ _ hsrv => exact absurd (hsrv ▸ Server.unborn_setXfer hq _) hlive
  | cancelled _ _ hq _ hworld => exact absurd (hworld ▸ Server.unborn_setXfer hq _) hlive
  | @created req y _ _ _ _ hreq hy hborn hinfo =>
      have hxy : y = x := Option.some.inj (hborn.xferAt.symm.trans hx)
      subst hxy
      -- no descriptor was closed on the way
      have hext : s.world.kern.Extends s'.world.kern := by
        obtain ⟨-, hacts⟩ := next_served hok hphase hn
        rcases hacts.extends with hext | ⟨tr, fd, b, htr, hclosed⟩
        · exact hext
        · dsimp only at htr
          rw [hinfo] at htr
          rw [← List.append_cancel_left htr, List.mem_singleton] at hclosed
          cases hclosed
      have hcode := ProtCmdReq.code_of_ofCode (protUnmarshalRequest_cmd hreq)
      have hpos : 0 < r.nfds := by
        rcases hfds with hpos | hcancel | hsame
        · exact hpos
        · rw [hcancel] at hcode
          rcases protUnmarshalRequest_kind hreq with hkind | hkind | hkind <;>
            exact absurd hcode (by rw [hkind]; decide)
        · rw [hsame, hnone] at hx
          cases hx
      refine ⟨rc, hmem, hpid.trans hy.clientPid.symm, ?_, ?_, ?_⟩
      · rw [hcmd, protUnmarshalRequest_fileCmd hreq]
        nofun
      · rw [hy.statFd]
        exact (hfst hpos).extends hext
      · have hdest := hy.destFd
        unfold ProtRequest.destFd at hdest
        rcases protUnmarshalRequest_kind hreq with hkind | hkind | hkind
        · rw [hkind] at hdest hcode
          exact .none (hcmd.trans hcode) hdest
        · rw [hkind] at hdest hcode
          exact .read (hcmd.trans hcode) (hdest ▸ (hfst hpos).extends hext)
        · have htwo : r.nfds = 2 := by
            have hle : r.nfds ≤ protMaxFds := by
              simp only [PhaseOk, hphase] at hok
              exact hok.nfds_le
            have hone : r.nfds ≠ 1 := by
              intro hone
              have hlacks := hg.destination
              simp [State.lacksDest, hphase, huid, hone, hreq, hkind] at hlacks
            simp only [protMaxFds] at hle
            omega
          rw [hkind] at hdest hcode
          exact .send (hcmd.trans hcode) (hdest ▸ (hsnd htwo).extends hext)

/-- A transfer that was there before keeps what it had, or gets what a SEND_OPEN brought. -/
theorem Supply.kept (hs : Supply log s) (hledger : Ledger s.world.srv) (hok : PhaseOk s)
    (hd : Descriptors (0 ≤ ·) s.config) (hg : BringsOwn (ans, l) s)
    (hn : next (ans, l) s = some (.ok s')) (hlt : p < s.world.srv.nextPtr)
    (hx : s'.world.srv.xferAt p = some x) : Supplied log s'.world.kern x := by
  have hread : ∀ r rest, l = .request → s.phase = .requested r rest → r.nread ≠ 0 := by
    rintro r rest rfl hphase
    exact (next_request_nfds hphase hn).1
  have hstart : Supplying s log s.config := ⟨hd, Nat.le_refl _, fun q y _ hy => hs.xfers q y hy⟩
  have hends := next_ends (A := StepMay ans l s) (fun a c ha => ha) hok hledger.nodup hn
  generalize hres : Except.ok s' = res at hends
  cases hends with
  | fault => cases hres
  | next _ hacts =>
      cases hres
      have hend := hacts.keeps (I := Supplying s log)
        (fun a c c' ha hp h => h.performs hg hok hs hread ha hp) hstart
      exact hend.xfers p x hlt hx
  | shut hacts =>
      obtain ⟨w', hw', hcleared⟩ := shutdown_cleared ans (hacts.ledger hledger)
      rw [hw'] at hres
      cases hres
      rw [hcleared.xferAt] at hx
      cases hx

/-- The datagram in hand after a step is on record. -/
theorem Supply.next_request (hs : Supply log s) (hn : next (ans, l) s = some (.ok s'))
    {r : Received} {rest : List PollEvent} (hphase : s'.phase = .requested r rest)
    (hread : r.nread ≠ 0) : OnRecord (log ++ receipts (ans, l) s) s'.world r := by
  rcases next_requested hn hphase with ⟨d, rfl⟩ | ⟨n, rfl, rfl⟩
  · obtain ⟨w, phase⟩ := s
    cases phase <;> simp only [next, reduceCtorEq, Option.some.injEq] at hn
    revert hn
    refine settle_of_wp (P := fun res => res = .ok s' → _) wp_usRecv_recorded
      (fun o w' ho hs' => ?_) fun _ _ _ h => by cases h
    cases o with
    | none =>
        dsimp only at hs'
        split at hs'
        · obtain ⟨_, _, hstopped⟩ := settle_ok hs'
          cases hstopped
          cases hphase
        · cases hs'
          cases hphase
    | some r' =>
        cases hs'
        cases hphase
        obtain ⟨creds, hcreds, rc, hmem, hrest⟩ := ho r rfl hread
        refine ⟨rc, List.mem_append_right _ ?_, hrest⟩
        simpa [receipts, hcreds] using hmem
  · have hold := (hs.request r rest hphase hread).more (receipts (ans, .clientCloses n) s)
    dsimp only
    unfold clientClose
    split
    · exact hold
    · exact hold

theorem Supply.next (hs : Supply log s) (hledger : Ledger s.world.srv) (hm : Minted s.world)
    (hok : PhaseOk s) (hd : Descriptors (0 ≤ ·) s.config) (hg : BringsOwn (ans, l) s)
    (hn : next (ans, l) s = some (.ok s')) : Supply (log ++ receipts (ans, l) s) s' := by
  refine ⟨fun p x hx => Supplied.more ?_ _, fun r rest hphase hread =>
    hs.next_request hn hphase hread⟩
  by_cases hlt : p < s.world.srv.nextPtr
  · exact hs.kept hledger hok hd hg hn hlt hx
  · refine hs.born hledger hm hok hg hn ?_ hx
    cases hnone : s.world.srv.xferAt p with
    | none => rfl
    | some y => exact absurd (hledger.xfer_lt p y hnone) hlt

/-- In every run in which each SEND brings its destination, the descriptors of every live
transfer are what its client sent. -/
theorem descriptors_supplied
    (hr : recordedServer.Reachable (fun l c => BringsOwn l c.1) (s, log)) :
    ∀ p x, s.world.srv.xferAt p = some x → Supplied log s.world.kern x := by
  suffices hsupply : Supply log s from hsupply.xfers
  obtain ⟨⟨s₀, log₀⟩, ⟨hinit, hempty⟩, hsteps⟩ := hr
  have hstart : server.Reachable BringsOwn s₀ ∧ Supply log₀ s₀ := by
    refine ⟨⟨s₀, hinit, Relation.ReflTransGen.refl⟩, ?_, ?_⟩
    · intro p x hx
      rw [(Initial.empty hinit).1] at hx
      cases hx
    · intro r rest hphase
      rw [hinit.1] at hphase
      cases hphase
  refine (hsteps.keeps (I := fun c => server.Reachable BringsOwn c.1 ∧ Supply c.2 c.1) ?_
    hstart).2
  rintro ⟨ans, l⟩ ⟨s, log⟩ ⟨s', log'⟩ ⟨hreach, hs⟩ hg hn
  obtain ⟨hnext, rfl⟩ := System.recording_next hn
  refine ⟨hreach.step hg hnext, ?_⟩
  have halways : server.Reachable System.always s := hreach.mono fun _ _ _ => trivial
  obtain ⟨hledger, hok⟩ := reachable_ledger halways
  have hd : Descriptors (0 ≤ ·) s.config := by
    rcases bringsOwn_kept.reachable (fun s hinit => hinit.descriptors _) hreach with
      hsound | hhalted
    · exact hsound.inv
    · rw [show server.next = Sendfiled.next from rfl, next_stopped hhalted.1] at hnext
      cases hnext
  exact hs.next hledger (Minted.reachable halways) hok hd hg hnext

end Running

section Runs

open Scenario

/-- A file that is opened by one datagram and sent by another. -/
def openedAndSent : List (Answers × Label) :=
  serve (answers tenBytes) [⟨fileRequest .fileOpen 0 0, [1], some client⟩,
    ⟨txnRequest .sendOpen 1, [2], some client⟩]

theorem descriptors_supplied_of_openedAndSent : ∃ s log x,
    recordedServer.Reachable (fun l c => BringsOwn l c.1) (s, log) ∧
    s.world.srv.xferAt 0 = some x ∧ x.destFd ≠ -1 ∧ Supplied log s.world.kern x := by
  obtain ⟨s, hr, hP⟩ := exists_reachable BringsOwn 4 4 openedAndSent
    (fun s => (s.world.srv.xferAt 0).any fun x => x.destFd != -1) (by decide +kernel)
  obtain ⟨x, hx, hdest⟩ := (Option.any_eq_true _ _).mp hP
  obtain ⟨log, hlog⟩ := hr.recorded receipts
  exact ⟨s, log, x, hlog, hx, by simpa using hdest, descriptors_supplied hlog 0 x hx⟩

/-- A SEND with a single descriptor is accepted, and its destination is the server's own
standard input. -/
theorem destination_not_supplied : ∃ s log x, recordedServer.Reachable System.always (s, log) ∧
    s.phase = .waiting ∧ s.world.srv.xferAt 0 = some x ∧ x.destFd = 0 ∧
    ¬ Supplied log s.world.kern x := by
  obtain ⟨s, hr, hP⟩ := exists_reachable System.always 4 4
    (serve (answers tenBytes) [⟨fileRequest .send 0 0, [1], some client⟩])
    (fun s => s.phase == .waiting && (s.world.kern.fds.lookup 0 == some (.inherited 0)) &&
      (s.world.srv.xferAt 0).any fun x => x.destFd == 0)
    (by decide +kernel)
  simp only [Bool.and_eq_true, beq_iff_eq, Option.any_eq_true] at hP
  obtain ⟨⟨hphase, hlookup⟩, x, hx, hdest⟩ := hP
  obtain ⟨log, hlog⟩ := hr.recorded receipts
  have hnot : ∀ (rc : Receipt) i, ¬ rc.Gives i s.world.kern x.destFd := by
    rintro rc i ⟨n, -, hn⟩
    rw [hdest, hlookup] at hn
    cases hn
  refine ⟨s, log, x, hlog, hphase, hx, hdest, ?_⟩
  rintro ⟨rc, -, -, -, -, hsupplied⟩
  cases hsupplied with
  | none _ h =>
      rw [hdest] at h
      cases h
  | read _ h | send _ h | sendOpen _ _ _ h => exact hnot _ _ h

end Runs

end Sendfiled
