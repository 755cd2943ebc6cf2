/-
What becomes of descriptors.  A request that is accepted keeps the descriptors it uses and
forgets any others it brought; a datagram that `us_recv` refuses takes its descriptors with
it; and a SEND_OPEN whose destination the poller refuses forgets the status channel.  In
all other steps nothing is lost.
-/
import Sendfiled.Registrations
import Sendfiled.Cancellation
import Sendfiled.Life
import Sendfiled.Kinds
import Sendfiled.Refusals

namespace Sendfiled

open Prog Transition

variable {ans : Answers} {l : Label} {s s' : State} {a : Action} {c c' : Config} {p : Ptr}
  {x : ResrcXfer}

/-- The descriptor is closed, or it is a channel of a live transfer. -/
def World.Accounts (w : World) (fd : Fd) : Prop :=
  fd ∉ w.kern.fds ∨ ∃ p x, w.srv.xferAt p = some x ∧ (fd = x.statFd ∨ fd = x.destFd)

/-- The descriptors that arrive with a datagram. -/
def Kernel.received (ans : Answers) (d : Datagram) (k : Kernel) : List Fd :=
  (Kernel.installAll (k.arriving ans d) k).1

/-- A step loses no descriptor: those that arrived with a datagram are accounted for when
it has been handled, a transfer that is deleted had its descriptors closed, and so had one
that was made for a request and deleted in the same step. -/
structure LosesNothing (ans : Answers) (l : Label) (s s' : State) : Prop where
  taken : ∀ d r rest, l = .receive d → s'.phase = .requested r rest →
    ∀ fd ∈ s.world.kern.received ans d, fd ∈ r.arrived
  dropped : ∀ d, l = .receive d → (∀ r rest, s'.phase ≠ .requested r rest) →
    ∀ fd ∈ s.world.kern.received ans d, s'.world.Accounts fd
  handled : ∀ r rest, l = .request → s.phase = .requested r rest →
    ∀ fd ∈ r.arrived, s'.world.Accounts fd
  deleted : ∀ p x, s.world.srv.xferAt p = some x → s'.world.srv.xferAt p = none →
    ∃ tr, s'.world.kern.trace = s.world.kern.trace ++ tr ∧ Buried x tr
  fleeting : ∀ r rest req, l = .request → s.phase = .requested r rest →
    protUnmarshalRequest s.world.srv.recvbuf r.nread = some req →
    s'.world.srv.xferAt s.world.srv.nextPtr = none →
    ∀ fd ∈ s'.world.kern.fds, fd ∈ s.world.kern.fds ∧ fd ∉ r.arrived

/-- `us_recv` refuses the datagram: it was truncated in one of its parts, or it comes
without credentials. -/
def Kernel.refuses (ans : Answers) (d : Datagram) (k : Kernel) : Bool :=
  (decide (protReqMaxSize < d.data.length) !=
      decide ((k.arriving ans d).length < d.files.length)) || d.creds.isNone

/-- The next request brings more descriptors than it uses. -/
def State.surplus (s : State) : Bool :=
  match s.phase with
  | .requested r _ => r.uid == s.world.srv.uid &&
      ((protUnmarshalRequest s.world.srv.recvbuf r.nread).any (fun req =>
          decide ((if req.cmd = .send then 2 else 1) < r.nfds)) ||
        (s.world.srv.namedBy .sendOpen r).any (fun named =>
          named.2.defer != .cancel && decide (1 < r.nfds)) ||
        (s.world.srv.namedBy .cancel r).any fun _ => decide (0 < r.nfds))
  | _ => false

/-- The poller refuses the destination of the next request, a SEND_OPEN. -/
def State.refusesDest (ans : Answers) (s : State) : Bool :=
  match s.phase with
  | .requested r _ => (s.world.srv.namedBy .sendOpen r).any fun named =>
      named.2.defer != .cancel && (s.world.kern.epollAddError ans r.fds.1).isSome
  | _ => false

/-- The steps in which no descriptor goes astray. -/
def keepsTrack : Answers × Label → State → Bool
  | (ans, .receive d), s => (s.world.kern.arriving ans d).isEmpty || !s.world.kern.refuses ans d
  | (ans, .request), s => !s.surplus && !s.refusesDest ans
  | _, _ => true

def KeepsTrack (l : Answers × Label) (s : State) : Prop := keepsTrack l s = true

instance (l : Answers × Label) (s : State) : Decidable (KeepsTrack l s) :=
  inferInstanceAs (Decidable (_ = true))

theorem wp_usRecv_arrived {w : World} {old : Fd × Fd} {d : Datagram} :
    wp (usRecv ans old d) (fun o _ => match o with
      | some r => r.arrived = (w.kern.received ans d).reverse
      | none => w.kern.refuses ans d = true) (fun _ _ => False) w := by
  simp only [usRecv, wp_bind, wp_sys, wp_onSrv]
  rw [wp_ite]
  simp only [Kernel.recvmsg]
  refine ⟨fun hmangled => ?_, fun _ => ?_⟩
  · simp only [wp_bind, wp_setErrno, wp_pure, Kernel.refuses, Bool.or_eq_true, bne_iff_ne]
    exact Or.inl hmangled
  · cases hcreds : d.creds with
    | none => simp [Kernel.refuses, hcreds]
    | some creds =>
        apply arrived_eq_reverse
        rw [Kernel.installAll_length]
        simp only [Kernel.arriving, List.length_take]
        omega

/-- What arrives with a datagram is in the descriptor array, unless `us_recv` refuses the
datagram. -/
theorem next_receive {d : Datagram} (hn : next (ans, .receive d) s = some (.ok s')) :
    (∃ r rest, s'.phase = .requested r rest ∧ r.arrived = (s.world.kern.received ans d).reverse) ∨
    (s.world.kern.refuses ans d = true ∧ ∀ r rest, s'.phase ≠ .requested r rest) := by
  obtain ⟨w, phase⟩ := s
  cases phase <;> simp only [next, reduceCtorEq, Option.some.injEq] at hn
  rename_i old rest
  revert hn
  refine settle_of_wp (P := fun res => res = .ok s' → _) wp_usRecv_arrived ?_ fun _ _ hc => hc.elim
  intro o w' ho hres
  cases o with
  | some r =>
      cases hres
      exact Or.inl ⟨r, rest, rfl, ho⟩
  | none =>
      refine Or.inr ⟨ho, fun r rest' hphase => ?_⟩
      dsimp only at hres
      split at hres
      · obtain ⟨_, w'', hstopped⟩ := settle_ok hres
        cases hstopped
        cases hphase
      · cases hres
        cases hphase

theorem mem_arrived {r : Received} {fd : Fd} (h : fd ∈ r.arrived) :
    0 < r.nfds ∧ (fd = r.fds.1 ∨ (1 < r.nfds ∧ fd = r.fds.2)) := by
  unfold Received.arrived at h
  split at h
  · cases h
  · rename_i hone
    exact ⟨by omega, Or.inl (List.mem_singleton.mp h)⟩
  · rename_i hzero hone
    have hmany : 1 < r.nfds :=
      Nat.one_lt_iff_ne_zero_and_ne_one.mpr ⟨hzero, hone⟩
    simp only [List.mem_cons, List.not_mem_nil, or_false] at h
    exact ⟨by omega, h.symm.imp id fun heq => ⟨hmany, heq⟩⟩

/-- When a request has been handled, what it brought is accounted for. -/
theorem next_handled {r : Received} {rest : List PollEvent} (hok : PhaseOk s)
    (hg : s.surplus = false) (hphase : s.phase = .requested r rest)
    (hn : next (ans, .request) s = some (.ok s')) {fd : Fd} (hfd : fd ∈ r.arrived) :
    s'.world.Accounts fd := by
  obtain ⟨hserved, -⟩ := next_served hok hphase hn
  obtain ⟨hpos, hwhich⟩ := mem_arrived hfd
  simp only [State.surplus, hphase] at hg
  cases hserved with
  | refused hgone => exact Or.inl (hgone fd hfd)
  | accepted huid haccepted =>
      simp only [huid, beq_self_eq_true, Bool.true_and, Bool.or_eq_false_iff] at hg
      obtain ⟨⟨hfile, hsendOpen⟩, hcancel⟩ := hg
      right
      cases haccepted with
      | @created req y _ _ _ _ hreq hy hborn =>
          refine ⟨_, y, hborn.xferAt, ?_⟩
          rw [hy.statFd, hy.destFd]
          rcases hwhich with hfst | ⟨hmany, hsnd⟩
          · exact Or.inl hfst
          · -- only a SEND may bring two descriptors
            simp only [hreq, Option.any_some, decide_eq_false_iff_not, Nat.not_lt] at hfile
            have hsend : req.cmd = .send := by
              by_contra hother
              rw [if_neg hother] at hfile
              omega
            right
            simp [ProtRequest.destFd, hsend, hsnd]
      | @assigned txnid q y htxnid hfind hq hpid hdefer hsrv =>
          have hnamed := Server.namedBy_eq huid (fun _ => Nat.ne_of_gt hpos) htxnid hfind hq hpid
          have hone : ¬ 1 < r.nfds := by simpa [hnamed, hdefer] using hsendOpen
          rcases hwhich with hfst | ⟨hmany, -⟩
          · refine ⟨q, { y with cmd := .send, destFd := r.fds.1 }, ?_, Or.inr hfst⟩
            rw [hsrv]
            exact Function.update_self ..
          · exact absurd hmany hone
      | @cancelled txnid q y htxnid hfind hq hpid =>
          have hnamed := Server.namedBy_eq huid (fun hne => absurd rfl hne) htxnid hfind hq hpid
          simp [hnamed, hpos] at hcancel

/-- Since the trace was `before`, the transfer `p` has stayed live, with the descriptors it
had unless a request is being handled, or was deleted with its descriptors closed. -/
structure Tracked (l : Label) (p : Ptr) (x : ResrcXfer) (before : List Effect) (c : Config) :
    Prop where
  lt : p < c.world.srv.nextPtr
  since : ∃ tr, c.world.kern.trace = before ++ tr ∧
    ((∃ y, c.world.srv.xferAt p = some y ∧ (l ≠ .request →
        y.statFd = x.statFd ∧ y.destFd = x.destFd ∧ y.file = x.file)) ∨
      (c.world.srv.xferAt p = none ∧ Buried x tr))

theorem Buried.congr {y : ResrcXfer} {tr : List Effect} (h : Buried y tr)
    (hfds : y.statFd = x.statFd ∧ y.destFd = x.destFd ∧ y.file = x.file) : Buried x tr := by
  obtain ⟨hstat, hdest, hfile⟩ := hfds
  refine ⟨hstat ▸ h.stat, fun hpos => ?_, hfile ▸ h.file⟩
  rw [← hdest] at hpos ⊢
  exact h.dest hpos

/-- What may be done to a transfer that is tracked while the step `l` is taken. -/
def tracks (l : Label) (p : Ptr) : Action → Config → Prop
  | .retire q, _ => q ≠ p
  | .discard _, _ | .bury _, _ => l ≠ .request
  | .assign q _, _ => q ≠ p ∨ l = .request
  | _, _ => True

theorem Tracked.performs {before : List Effect} (ha : tracks l p a c) (hp : Performs a c c')
    (h : Tracked l p x before c) : Tracked l p x before c' := by
  obtain ⟨hlt, tr, htr, hstate⟩ := h
  refine ⟨Nat.lt_of_lt_of_le hlt hp.nextPtr_le, ?_⟩
  obtain ⟨tr', htr', -⟩ := hp.trace
  have hext : c'.world.kern.trace = before ++ (tr ++ tr') := by
    rw [htr', htr, List.append_assoc]
  rcases hstate with ⟨y, hy, hfds⟩ | ⟨hnone, hburied⟩
  · cases hz : c'.world.srv.xferAt p with
    | some z =>
        refine ⟨tr ++ tr', hext, Or.inl ⟨z, rfl, fun hl => ?_⟩⟩
        rcases hp.evolves hz with ⟨hnew, -⟩ | ⟨y', hy', hevolves⟩
        · exact absurd hlt (by rw [hnew]; exact Nat.lt_irrefl _)
        · rw [hy] at hy'
          cases hy'
          obtain ⟨hstat, hdest, hfile⟩ := hfds hl
          rcases hevolves.cmd with ⟨-, hsame⟩ | ⟨-, rfl⟩
          · exact ⟨hevolves.statFd.trans hstat, hsame.trans hdest, hevolves.file.trans hfile⟩
          · exact absurd rfl (Or.resolve_right ha hl)
    | none =>
        rcases hp.deletes hlt hy hz with rfl | hdel
        · exact absurd rfl ha
        · have hl : l ≠ .request := by
            rcases hdel with rfl | rfl <;> exact ha
          obtain ⟨-, tr'', htr'', -, hburied⟩ := hp.buries hdel hy
          refine ⟨tr ++ tr'', by rw [htr'', htr, List.append_assoc], Or.inr ⟨rfl, ?_⟩⟩
          exact (hburied.congr (hfds hl)).append_right
  · have hsub : a.subject ≠ some p := by
      intro hsub
      obtain ⟨y, hy⟩ := hp.needs_subject hsub
      rw [hnone] at hy
      cases hy
    refine ⟨tr ++ tr', hext, Or.inr ⟨?_, hburied.append⟩⟩
    rw [hp.frame hlt hsub, hnone]

/-- A step in which no descriptor goes astray deletes transfers only together with their
descriptors. -/
theorem StepMay.tracks (ha : StepMay ans l s a c) (hg : KeepsTrack (ans, l) s)
    (hx : s.world.srv.xferAt p = some x) (hlt : p < s.world.srv.nextPtr) :
    Sendfiled.tracks l p a c := by
  cases a with
  | retire q =>
      rintro rfl
      obtain ⟨r, rest, rfl, hphase, huid, hnfds, hwhy⟩ := ha.retire_cases
      rcases hwhy with ⟨hnew, -⟩ | ⟨txnid, y, e, htxnid, hfind, hq, hpid, hdefer, herr, -⟩
      · rw [hnew] at hlt
        exact Nat.lt_irrefl _ hlt
      · have hpos : r.nfds ≠ 0 := by
          apply Nat.ne_of_gt
          apply hnfds
          rw [protUnmarshalTxnid_cmd htxnid]
          decide
        have hnamed := Server.namedBy_eq huid (fun _ => hpos) htxnid hfind hq hpid
        have hrefused : s.refusesDest ans = true := by
          simp [State.refusesDest, hphase, hnamed, hdefer, herr]
        unfold KeepsTrack keepsTrack at hg
        simp [hrefused] at hg
  | discard q =>
      obtain ⟨garbage, ev, rest, rfl, -⟩ := ha.discard_cases
      nofun
  | bury q =>
      obtain ⟨rfl, -⟩ := ha.bury_cases
      nofun
  | assign q fd =>
      obtain ⟨r, rest, txnid, y, hl, -⟩ := ha.assign_cases
      exact Or.inr hl
  | _ => trivial

theorem next_request_phase (hn : next (ans, .request) s = some (.ok s')) :
    s'.phase ≠ .stopped := by
  obtain ⟨r, rest, hphase⟩ := requested_of_next hn
  obtain ⟨w, phase⟩ := s
  subst hphase
  simp only [next, Option.some.injEq] at hn
  obtain ⟨_, w', hs'⟩ := settle_ok hn
  cases hs'
  simp

/-- A transfer that a step deletes had its descriptors closed. -/
theorem next_deleted (hledger : Ledger s.world.srv) (hok : PhaseOk s)
    (hg : KeepsTrack (ans, l) s) (hn : next (ans, l) s = some (.ok s'))
    (hx : s.world.srv.xferAt p = some x) (hgone : s'.world.srv.xferAt p = none) :
    ∃ tr, s'.world.kern.trace = s.world.kern.trace ++ tr ∧ Buried x tr := by
  have hlt := hledger.xfer_lt p x hx
  have hkept : Kept (tracks l p) (fun l' s' => l' = (ans, l) ∧ s' = s)
      (Tracked l p x s.world.kern.trace) :=
    { grants := by
        rintro _ _ _ ⟨heq, rfl⟩ - - - a c ha
        cases heq
        exact ha.tracks hg hx hlt
      acts := fun _ _ _ _ ha hp h => h.performs ha hp }
  have hstart : Tracked l p x s.world.kern.trace s.config :=
    ⟨hlt, [], by simp [State.config], Or.inl ⟨x, hx, fun _ => ⟨rfl, rfl, rfl⟩⟩⟩
  rcases hkept.next ⟨hledger, hok, hstart⟩ ⟨rfl, rfl⟩ hn with hs' | hhalted
  · obtain ⟨-, tr, htr, ⟨y, hy, -⟩ | ⟨-, hburied⟩⟩ := hs'.inv
    · rw [show s'.config.world.srv.xferAt p = none from hgone] at hy
      cases hy
    · exact ⟨tr, htr, hburied⟩
  · obtain ⟨hstopped, w, -, ⟨-, tr, htr, hstate⟩, hcleared, -⟩ := hhalted
    obtain ⟨tr', htr', -, hburied⟩ := hcleared.trace
    refine ⟨tr ++ tr', ?_, ?_⟩
    · rw [htr', show w.kern.trace = _ from htr, List.append_assoc]
    · rcases hstate with ⟨y, hy, hfds⟩ | ⟨-, hgone'⟩
      · have hl : l ≠ .request := by
          rintro rfl
          exact next_request_phase hn hstopped
        exact ((hburied p y hy).congr (hfds hl)).append_right
      · exact hgone'.append

theorem wp_closeFds_subset {fds : Fd × Fd} {nfds : Nat} {w : World} :
    wp (closeFds ans fds nfds) (fun _ w' => ∀ fd ∈ w'.kern.fds, fd ∈ w.kern.fds)
      (fun _ _ => False) w := by
  have hclose : ∀ (k : Kernel) (closed fd : Fd), fd ∈ (k.close ans closed).2.fds → fd ∈ k.fds := by
    intro k closed fd hfd
    rw [Kernel.close_fds, AList.mem_erase] at hfd
    exact hfd.2
  unfold closeFds
  rw [wp_ite]
  refine ⟨fun _ => ?_, fun _ _ hfd => hfd⟩
  simp only [close, wp_bind, wp_sys, wp_pure]
  rw [wp_ite]
  refine ⟨fun _ => ?_, fun _ => hclose _ _⟩
  simp only [wp_bind, wp_sys, wp_pure]
  exact fun fd hfd => hclose _ _ fd (hclose _ _ fd hfd)

/-- A request for a file that leaves no transfer leaves no descriptor open that was not open
before it. -/
theorem wp_handleReceived_subset {r : Received} {req : ProtRequest} {w : World}
    (hledger : Ledger w.srv) (hnum : w.kern.Numbered) (hheld : Held r w.kern)
    (hreq : protUnmarshalRequest w.srv.recvbuf r.nread = some req) :
    wp (handleReceived ans r) (fun _ w' => w'.srv.xferAt w.srv.nextPtr = none →
      ∀ fd ∈ w'.kern.fds, fd ∈ w.kern.fds) (fun _ _ => True) w := by
  have hcmd : sfdGetCmd w.srv.recvbuf ≠ ProtCmdReq.cancel.code := by
    have hfile := protUnmarshalRequest_fileCmd hreq
    intro hcancel
    rw [hcancel] at hfile
    cases hfile
  simp only [handleReceived, wp_bind, wp_assert, wp_gets]
  refine ⟨fun _ => ?_, fun _ => trivial⟩
  rw [wp_ite]
  refine ⟨fun _ _ fd hfd => hfd, fun hcount => ?_⟩
  have hpos : 0 < r.nfds := by
    by_contra hzero
    exact hcount ⟨hcmd, Or.inl (by omega)⟩
  rw [wp_ite]
  refine ⟨fun _ => ?_, fun _ => ?_⟩
  · simp only [wp_bind, sendXferErr]
    refine wp_sendPdu_whole (fun b k result hquiet => ?_) fun _ _ => trivial
    refine wp_mono wp_closeFds_subset (fun _ w' h _ fd hfd => ?_) fun _ _ _ => trivial
    have hopen := h fd hfd
    rw [hquiet.fds] at hopen
    exact hopen
  · rw [wp_bind]
    refine wp_mono (wp_and (wp_processRequest_born hheld hpos hreq)
      (wp_processRequest_steps hledger hnum hreq)) ?_ fun _ _ _ => trivial
    rintro ok w₁ ⟨hborn, hrefused⟩
    rw [wp_ite]
    refine ⟨fun hok hgone => absurd hgone (hborn hok), fun hno => ?_⟩
    obtain ⟨tr, xfer, e, result, hundone, -⟩ := hrefused (Bool.eq_false_iff.mpr hno)
    refine wp_mono wp_closeFds_subset (fun _ w' h _ fd hfd => ?_) fun _ _ _ => trivial
    have hopen := h fd hfd
    rw [← AList.lookup_isSome, hundone.kern.lookup fd, AList.lookup_isSome] at hopen
    exact hopen

/-- A transfer made for a request and deleted in the same step leaves no descriptor behind. -/
theorem next_fleeting {r : Received} {rest : List PollEvent} {req : ProtRequest}
    (hr : server.Reachable System.always s) (hphase : s.phase = .requested r rest)
    (hn : next (ans, .request) s = some (.ok s'))
    (hreq : protUnmarshalRequest s.world.srv.recvbuf r.nread = some req)
    (hgone : s'.world.srv.xferAt s.world.srv.nextPtr = none) {fd : Fd}
    (hfd : fd ∈ s'.world.kern.fds) : fd ∈ s.world.kern.fds ∧ fd ∉ r.arrived := by
  obtain ⟨hledger, hok⟩ := reachable_ledger hr
  constructor
  · have hnum := reachable_numbered hr (by rw [hphase]; exact Phase.noConfusion)
    obtain ⟨w, phase⟩ := s
    subst hphase
    simp only [next, Option.some.injEq] at hn
    revert hn
    refine settle_of_wp (P := fun res => res = .ok s' → _)
      (wp_handleReceived_subset hledger hnum hok hreq) ?_ fun _ _ _ hc => by cases hc
    intro _ w' h heq
    cases heq
    exact h hgone fd hfd
  · obtain ⟨hserved, -⟩ := next_served hok hphase hn
    cases hserved with
    | refused hclosed => exact fun harrived => hclosed fd harrived hfd
    | accepted _ haccepted =>
        have hfile := protUnmarshalRequest_fileCmd hreq
        cases haccepted with
        | created _ _ hborn =>
            rw [hborn.xferAt] at hgone
            cases hgone
        | assigned htxnid | cancelled htxnid =>
            rw [protUnmarshalTxnid_cmd htxnid] at hfile
            cases hfile

/-- From every reachable state, a step that keeps track loses no descriptor. -/
theorem no_descriptor_lost (hr : server.Reachable System.always s) (hg : KeepsTrack (ans, l) s)
    (hn : server.next (ans, l) s = some (.ok s')) : LosesNothing ans l s s' := by
  obtain ⟨hledger, hok⟩ := reachable_ledger hr
  refine ⟨?_, ?_, ?_, fun p x hx hgone => next_deleted hledger hok hg hn hx hgone, ?_⟩
  · rintro d r rest rfl hphase fd hfd
    rcases next_receive hn with ⟨r', rest', hphase', harrived⟩ | ⟨-, hother⟩
    · rw [hphase] at hphase'
      cases hphase'
      rw [harrived]
      exact List.mem_reverse.mpr hfd
    · exact absurd hphase (hother r rest)
  · rintro d rfl hother fd hfd
    rcases next_receive hn with ⟨r, rest, hphase, -⟩ | ⟨hrefused, -⟩
    · exact absurd hphase (hother r rest)
    · -- a refused datagram may only be one that brought nothing
      have hempty : s.world.kern.arriving ans d = [] := by
        simpa [KeepsTrack, keepsTrack, hrefused] using hg
      rw [Kernel.received, hempty] at hfd
      cases hfd
  · rintro r rest rfl hphase fd hfd
    have hsurplus : s.surplus = false := by
      have hboth : s.surplus = false ∧ s.refusesDest ans = false := by
        simpa [KeepsTrack, keepsTrack] using hg
      exact hboth.1
    exact next_handled hok hsurplus hphase hn hfd
  · rintro r rest req rfl hphase hreq hgone fd hfd
    exact next_fleeting hr hphase hn hreq hgone hfd

section Runs

open Scenario

/-- A SEND with its two descriptors has just been received. -/
def sendReceived : List (Answers × Label) :=
  let ans := answers tenBytes
  [(ans, .wait [readable]), (ans, .event (-1, -1)),
    (ans, .receive ⟨fileRequest .send 0 0, [1, 2], some client⟩)]

theorem no_descriptor_lost_of_sendReceived : ∃ s s' r rest, server.Reachable System.always s ∧
    KeepsTrack (answers tenBytes, .request) s ∧
    server.next (answers tenBytes, .request) s = some (.ok s') ∧
    s.phase = .requested r rest ∧ r.arrived.length = 2 ∧
    LosesNothing (answers tenBytes) .request s s' := by
  obtain ⟨s, hr, hP⟩ := exists_reachable System.always 4 4 sendReceived
    (fun s => decide (KeepsTrack (answers tenBytes, .request) s) &&
      (match s.phase with
        | .requested r _ => r.arrived.length == 2
        | _ => false) &&
      (server.run System.always [(answers tenBytes, .request)] s).isSome)
    (by decide +kernel)
  simp only [Bool.and_eq_true, decide_eq_true_eq, Option.isSome_iff_exists] at hP
  obtain ⟨⟨hg, harrived⟩, s'', hrun⟩ := hP
  obtain ⟨s', -, hn, -⟩ := System.run_cons hrun
  split at harrived
  · rename_i r rest hphase
    exact ⟨s, s', r, rest, hr, hg, hn, hphase, by simpa using harrived,
      no_descriptor_lost hr hg hn⟩
  · cases harrived

/-- A READ that brings two descriptors is accepted, and its second descriptor stays open and
is nobody's. -/
theorem descriptor_leaked : ∃ s fd, server.Reachable System.always s ∧ s.phase = .waiting ∧
    fd ∈ s.world.kern.fds ∧ s.world.kern.fds.lookup fd = some (.client 2) ∧
    ¬ s.world.Accounts fd := by
  obtain ⟨s, hr, hP⟩ := exists_reachable System.always 4 4
    (serve (answers tenBytes) [⟨fileRequest .read 0 0, [1, 2], some client⟩])
    (fun s => (s.phase == .waiting) && (s.world.kern.fds.lookup 7 == some (.client 2)) &&
      (s.world.srv.xfers.stored == [0]) &&
      (s.world.srv.xferAt 0).any fun x => x.statFd != 7 && x.destFd != 7)
    (by decide +kernel)
  simp only [Bool.and_eq_true, beq_iff_eq, Option.any_eq_true, bne_iff_ne] at hP
  obtain ⟨⟨⟨hphase, hlookup⟩, hstored⟩, x, hx, hstat, hdest⟩ := hP
  have hopen : (7 : Fd) ∈ s.world.kern.fds := by
    rw [← AList.lookup_isSome, hlookup]
    rfl
  refine ⟨s, 7, hr, hphase, hopen, hlookup, ?_⟩
  rintro (hclosed | ⟨p, y, hy, hfd⟩)
  · exact hclosed hopen
  · have hmem := (reachable_ledger hr).1.mem_stored.mpr ⟨y, hy⟩
    rw [hstored, List.mem_singleton] at hmem
    subst hmem
    rw [hx] at hy
    cases hy
    rcases hfd with hfd | hfd
    · exact hstat hfd.symm
    · exact hdest hfd.symm

end Runs

end Sendfiled
