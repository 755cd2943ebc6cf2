/-
Open files between FILE_OPEN and SEND_OPEN.  Until it is given a destination an open file is
what FILE_OPEN has made of it, and the transaction ID that its client was told finds it; a
SEND_OPEN by that client starts it, or tells the client why not and drops it.
-/
import Sendfiled.Delivery
import Sendfiled.Draining

namespace Sendfiled

open Prog Transition

variable {ans : Answers} {l : Label} {s s₀ s₁ s' : State} {a : Action} {c c' : Config}
  {w w' : World} {p : Ptr} {x y : ResrcXfer}

/-- While it has no destination, the open file `p` differs from `x` in its deferral at most. -/
structure Unstarted (p : Ptr) (x : ResrcXfer) (c : Config) : Prop where
  known : p < c.world.srv.nextPtr
  same : ∀ y, c.world.srv.xferAt p = some y → y.cmd = .fileOpen →
    y = { x with nbytesLeft := y.nbytesLeft, defer := y.defer }

theorem Unstarted.performs (h : Unstarted p x c) (hp : Performs a c c') : Unstarted p x c' := by
  refine ⟨Nat.lt_of_lt_of_le h.known hp.nextPtr_le, fun y hy hopen => ?_⟩
  rcases hp.evolves hy with ⟨hnew, -⟩ | ⟨z, hz, hevolves⟩
  · exact absurd h.known (by rw [hnew]; exact Nat.lt_irrefl _)
  · rcases hevolves.cmd with ⟨hcmd, hdest⟩ | ⟨hcmd, -⟩
    · have hsame := h.same z hz (hcmd ▸ hopen)
      rw [hevolves.record, hcmd, hdest, hsame]
    · rw [hcmd] at hopen
      cases hopen

theorem unstarted_preserved : Preserved anything System.always (Unstarted p x) :=
  Preserved.always (fun _ _ _ _ hp h => h.performs hp) fun w w' _ hcleared h =>
    ⟨hcleared.nextPtr ▸ h.known, fun y hy => by
      rw [show (Config.mk [] w').world.srv.xferAt p = none from hcleared.xferAt p] at hy
      cases hy⟩

theorem steps_known (hr : server.Reachable System.always s₁) (hknown : p < s₁.world.srv.nextPtr)
    (hsteps : server.Steps System.always s₁ s) :
    server.Reachable System.always s ∧ p < s.world.srv.nextPtr := by
  apply hsteps.keeps (I := fun s => server.Reachable System.always s ∧ p < s.world.srv.nextPtr) ?_
    ⟨hr, hknown⟩
  rintro ⟨ans, l⟩ s s' ⟨hr, hlt⟩ - hn
  obtain ⟨hledger, hok⟩ := reachable_ledger hr
  exact ⟨hr.step trivial hn, Nat.lt_of_lt_of_le hlt (next_nextPtr_le hledger hok hn)⟩

/-- An open file that waits for its destination is as it was created. -/
theorem unstarted_eq (hr : server.Reachable System.always s₀)
    (hn : next (ans, l) s₀ = some (.ok s₁)) (hnone : s₀.world.srv.xferAt p = none)
    (hx : s₁.world.srv.xferAt p = some x) (hsteps : server.Steps System.always s₁ s)
    (hy : s.world.srv.xferAt p = some y) (hopen : y.cmd = .fileOpen)
    (hcancel : y.defer ≠ .cancel) : y = x := by
  obtain ⟨hledger, hok⟩ := reachable_ledger hr
  have hr₁ : server.Reachable System.always s₁ := hr.step trivial hn
  obtain ⟨hledger₁, hok₁⟩ := reachable_ledger hr₁
  obtain ⟨-, -, -, -, -, -, hborn, -⟩ :=
    next_born hledger (Minted.reachable hr) hok hn hnone hx
  have hstart : Unstarted p x s₁.config := by
    refine ⟨hledger₁.xfer_lt p x hx, fun z hz _ => ?_⟩
    rw [show s₁.config.world.srv.xferAt p = some x from hx] at hz
    cases hz
    rfl
  have hs := unstarted_preserved.steps hsteps ⟨hledger₁, hok₁, hstart⟩
  have hsame := hs.inv.same y hy hopen
  have htyped := (reachable_typed (steps_known hr₁ hstart.known hsteps).1).typed
  have hdefer : y.defer = .none := by
    cases hd : y.defer with
    | none => rfl
    | ready => exact absurd hopen (htyped.ready p y hy hd)
    | cancel => exact absurd hd hcancel
  have hwhole := htyped.whole p y hy hopen
  have hfile : y.file = x.file := by rw [hsame]
  rw [hsame, hwhole, hfile, hdefer]
  generalize hv : s₁.world.view p = v at hborn
  cases hborn with
  | intro hxdefer hxleft =>
      rw [← hxleft, ← hxdefer]

/-- A transfer that is an open file now was one all along. -/
theorem was_open (hr : server.Reachable System.always s) (hknown : p < s.world.srv.nextPtr)
    (hn : next (ans, l) s = some (.ok s')) (hy : s'.world.srv.xferAt p = some y)
    (hopen : y.cmd = .fileOpen) : ∃ z, s.world.srv.xferAt p = some z ∧ z.cmd = .fileOpen := by
  obtain ⟨hledger, hok⟩ := reachable_ledger hr
  by_contra hnot
  have hstarted : s.config.world.srv.Started p :=
    ⟨hknown, fun z hz hzopen => hnot ⟨z, hz, hzopen⟩⟩
  have hkept := Preserved.always (I := fun c => c.world.srv.Started p)
    (fun _ _ _ _ hp h => h.performs hp)
    (fun w w' _ hcleared h => ⟨hcleared.nextPtr ▸ h.1, fun x hx => by
      rw [show (Config.mk [] w').world.srv.xferAt p = none from hcleared.xferAt p] at hx
      cases hx⟩)
  exact (hkept.next ⟨hledger, hok, hstarted⟩ trivial hn).inv.2 y hy hopen

/-- Whatever a request names, it is not an open file that has a destination. -/
theorem fixesDest_of_open (hy : s.world.srv.xferAt p = some y) (hopen : y.cmd = .fileOpen) :
    FixesDest p (ans, l) s := by
  change s.reassigns p l = false
  unfold State.reassigns
  split
  · rename_i r rest _
    cases hnamed : s.world.srv.namedBy .sendOpen r with
    | none => rfl
    | some named =>
        obtain ⟨q, z⟩ := named
        obtain ⟨t, ht⟩ := Server.namedBy_txnid hnamed
        obtain ⟨-, -, -, hz, -⟩ := Server.namedBy_eq_some hnamed ht
        by_cases hq : q = p
        · rw [hq, hy] at hz
          cases hz
          simp [hopen]
        · simp [hq]
  · rfl

/-- No request has replaced the destination of a transfer that has none. -/
theorem steps_undiverted (hr : server.Reachable System.always s₁)
    (hknown : p < s₁.world.srv.nextPtr) (hsteps : server.Steps Proper s₁ s)
    (hy : s.world.srv.xferAt p = some y) (hopen : y.cmd = .fileOpen) :
    server.Steps (Undiverted p) s₁ s := by
  induction hsteps generalizing y with
  | refl => exact Relation.ReflTransGen.refl
  | @tail s₂ s₃ hsteps hstep ih =>
      obtain ⟨⟨ans, l⟩, hg, hn⟩ := hstep
      obtain ⟨hr₂, hknown₂⟩ :=
        steps_known hr hknown (System.Steps.mono (fun _ _ _ => trivial) hsteps)
      obtain ⟨z, hz, hzopen⟩ := was_open hr₂ hknown₂ hn hy hopen
      exact (ih hz hzopen).tail ⟨(ans, l), ⟨fixesDest_of_open hz hzopen, hg⟩, hn⟩

/-- A SEND_OPEN brings what it needs. -/
theorem proper_of_sendOpen {r : Received} {rest : List PollEvent} {t : Nat}
    (hphase : s.phase = .requested r rest) (huid : r.uid = s.world.srv.uid)
    (ht : protUnmarshalSendOpen s.world.srv.recvbuf = some t) : Proper (ans, .request) s := by
  have hcode := protUnmarshalTxnid_cmd ht
  refine ⟨fun _ => ?_, fun _ => by simp [State.repliesStale, hphase, huid]⟩
  cases hreq : protUnmarshalRequest s.world.srv.recvbuf r.nread with
  | none => simp [State.lacksDest, hphase, hreq]
  | some req =>
      have hcmd := protUnmarshalRequest_fileCmd hreq
      rw [hcode] at hcmd
      cases hcmd

/-- What has become of a SEND_OPEN for the open file `p`: it has the descriptor that was
received for its destination, or the poller refuses that descriptor, and the transfer is
deleted when its client was told. -/
inductive Resumed (ans : Answers) (p : Ptr) (x : ResrcXfer) (dest : Fd) (w w' : World) : Prop
  | started {f : OpenFile} (hf : w.kern.fds.lookup dest = some f)
      (hsrv : w'.srv = w.srv.setXfer p { x with cmd := .send, destFd := dest })
      (hfds : w'.kern.fds = w.kern.fds)
      (hregs : w'.kern.regs = w.kern.regs ++ [⟨dest, f, .xfer p⟩])
      (htrace : w'.kern.trace = w.kern.trace)
  | rejected {e : Errno} {result : Except Errno Nat} {tr : List Effect}
      (herr : w.kern.epollAddError ans dest = some e)
      (hresult : result =
        ((w.kern.fail e).write ans (some p) x.statFd (.hdr .xferStat (e % 256))).1)
      (hsrv : w'.srv = (w.srv.discard p x.txnid).release x.addr)
      (htrace : w'.kern.trace =
        w.kern.trace ++ .sent (some p) x.statFd (.hdr .xferStat (e % 256)) result :: tr)
      (hquiet : ∀ e ∈ tr, e.onBehalf = none)

section SendOpen

variable {buf : RecvBuf} {clientPid t : Nat} {fds : Fd × Fd} {w : World}

/-- The branch of SEND_OPEN for a transfer that is live and was not cancelled. -/
theorem wp_processSendOpen_named (ht : protUnmarshalSendOpen buf = some t)
    (hfind : w.srv.xfers.find t = some p) (hx : w.srv.xferAt p = some x)
    (hpid : pidMatches x clientPid = true) (hdefer : x.defer ≠ .cancel) :
    wp (processSendOpen ans buf clientPid fds) (fun ok w' => Resumed ans p x fds.1 w w' ∧
      (ok = false → w'.srv.xferAt p = none)) (fun _ _ => True) w := by
  simp only [processSendOpen, ht, getOpenFile, wp_bind, wp_gets, hfind]
  apply wp_getXfer_live hx
  simp only [hpid, if_true, wp_pure, wp_bind]
  apply wp_getXfer_live hx
  rw [if_neg hdefer]
  simp only [startOpenFile, registerXfer, wp_bind, wp_onSrv]
  have hx' : (w.srv.setXfer p { x with cmd := .send, destFd := fds.1 }).xferAt p =
      some { x with cmd := .send, destFd := fds.1 } := Function.update_self ..
  refine wp_getXfer_live (by exact hx') ?_
  apply wp_syspollRegister_cases
  · intro e herr
    simp only [Bool.false_eq_true, if_false, wp_bind, wp_getErrno, sendXferErr]
    refine wp_sendPdu_result (fun _ k hk => ?_) fun _ _ => trivial
    refine wp_deleteUnregisteredXfer (by exact hx') ?_
    obtain ⟨b, hb⟩ := Kernel.close_trace ans k x.file.fd
    set result := ((w.kern.fail e).write ans (some p) x.statFd (.hdr .xferStat (e % 256))).1
    have htold : k.trace = w.kern.trace ++
        [.sent (some p) x.statFd (.hdr .xferStat (e % 256)) result] := hk.trace
    have htrace : (k.close ans x.file.fd).2.trace = w.kern.trace ++
        .sent (some p) x.statFd (.hdr .xferStat (e % 256)) result :: [.closed x.file.fd b] := by
      rw [hb, htold, List.append_assoc]
      rfl
    have hsrv : (w.srv.setXfer p { x with cmd := .send, destFd := fds.1 }).discard p x.txnid =
        w.srv.discard p x.txnid := by
      simp [Server.discard, Server.dropXfer, Server.setXfer]
    refine ⟨.rejected herr rfl (congrArg (Server.release x.addr) hsrv) htrace ?_,
      fun _ => Function.update_self ..⟩
    intro e he
    rw [List.mem_singleton.mp he]
    rfl
  · intro f herr hf
    exact ⟨.started hf rfl rfl rfl rfl, by simp⟩

/-- The descriptors that were received are closed after the transfer is. -/
theorem Resumed.ignored {dest : Fd} {w₁ w₂ : World} (h : Resumed ans p x dest w w₁)
    (hgone : w₁.srv.xferAt p = none) (hclosed : Ignored w₁ w₂) : Resumed ans p x dest w w₂ := by
  cases h with
  | started _ hsrv =>
      have hlive : w₁.srv.xferAt p = some { x with cmd := .send, destFd := dest } := by
        rw [hsrv]
        exact Function.update_self ..
      rw [hlive] at hgone
      cases hgone
  | @rejected e result tr herr hresult hsrv htrace hquiet =>
      obtain ⟨tr', htr', hquiet'⟩ := hclosed.trace
      have hall : w₂.kern.trace = w.kern.trace ++
          .sent (some p) x.statFd (.hdr .xferStat (e % 256)) result :: (tr ++ tr') := by
        rw [htr', htrace, List.append_assoc, List.cons_append]
      refine .rejected herr hresult (hclosed.srv.trans hsrv) hall fun e he => ?_
      rcases List.mem_append.mp he with he | he
      · exact hquiet e he
      · exact hquiet' e he

theorem wp_handleReceived_resumed {r : Received}
    (huid : r.uid = w.srv.uid) (hpos : 0 < r.nfds) (hmax : r.nfds ≤ protMaxFds)
    (ht : protUnmarshalSendOpen w.srv.recvbuf = some t) (hfind : w.srv.xfers.find t = some p)
    (hx : w.srv.xferAt p = some x) (hpid : pidMatches x r.pid = true)
    (hdefer : x.defer ≠ .cancel) :
    wp (handleReceived ans r) (fun _ w' => Resumed ans p x r.fds.1 w w') (fun _ _ => True) w := by
  simp only [handleReceived, wp_bind, wp_assert, wp_gets]
  refine ⟨fun _ => ?_, fun _ => trivial⟩
  rw [if_neg (fun hcount => hcount.2.elim (by omega) (by omega)), if_neg (not_not.mpr huid)]
  simp only [wp_bind, processRequest_txn (Or.inr rfl) ht, reduceCtorEq, if_false]
  apply wp_mono (wp_processSendOpen_named ht hfind hx hpid hdefer)
  · intro ok w₁ h
    rw [wp_ite]
    constructor
    · exact fun _ => h.1
    · intro hno
      have hgone := h.2 (by simpa using hno)
      exact wp_closeFds_ignored fun w₂ hclosed => h.1.ignored hgone hclosed
  · exact fun _ _ h => h

end SendOpen

/-- The step that handles a SEND_OPEN for a transfer that is live and was not cancelled. -/
theorem next_resumed {r : Received} {rest : List PollEvent} {t : Nat} (hok : PhaseOk s)
    (hphase : s.phase = .requested r rest)
    (huid : r.uid = s.world.srv.uid) (hpos : 0 < r.nfds)
    (ht : protUnmarshalSendOpen s.world.srv.recvbuf = some t)
    (hfind : s.world.srv.xfers.find t = some p) (hx : s.world.srv.xferAt p = some x)
    (hpid : pidMatches x r.pid = true) (hdefer : x.defer ≠ .cancel)
    (hn : next (ans, .request) s = some (.ok s')) :
    Resumed ans p x r.fds.1 s.world s'.world := by
  obtain ⟨w, phase⟩ := s
  subst hphase
  simp only [next, Option.some.injEq] at hn
  revert hn
  refine settle_of_wp (P := fun res => res = .ok s' → _)
    (wp_handleReceived_resumed huid hpos (Held.nfds_le hok) ht hfind hx hpid hdefer) ?_ ?_
  · intro _ w' h heq
    cases heq
    exact h
  · intro _ _ _ heq
    cases heq

/-- A request after which a transfer is gone has left no descriptor behind. -/
theorem next_gone {r : Received} {rest : List PollEvent} (hledger : Ledger s.world.srv)
    (hok : PhaseOk s) (hphase : s.phase = .requested r rest)
    (hx : s.world.srv.xferAt p = some x) (hgone : s'.world.srv.xferAt p = none)
    (hn : next (ans, .request) s = some (.ok s')) : ∀ fd ∈ r.arrived, fd ∉ s'.world.kern.fds := by
  obtain ⟨hserved, -⟩ := next_served hok hphase hn
  cases hserved with
  | refused hclosed => exact hclosed
  | accepted _ haccepted =>
      have hset : ∀ q z, s.world.srv.xferAt q ≠ none →
          (s.world.srv.setXfer q z).xferAt p ≠ none := by
        intro q z _
        by_cases hq : p = q <;> simp [Server.setXfer, hq, hx]
      cases haccepted with
      | created _ _ hborn =>
          rw [hborn.others p (Nat.ne_of_lt (hledger.xfer_lt p x hx)), hx] at hgone
          cases hgone
      | assigned _ _ hq _ _ hsrv =>
          rw [hsrv] at hgone
          exact absurd hgone (hset _ _ (by simp [hq]))
      | cancelled _ _ hq _ hworld =>
          rw [hworld] at hgone
          exact absurd hgone (hset _ _ (by simp [hq]))

end Sendfiled
