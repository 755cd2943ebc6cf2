/-
Every step of the server is a sequence of actions, possibly followed by the
shutdown.  From this one fact come the invariants of all runs.
-/
import Sendfiled.Run
import Sendfiled.LoopActs
import Sendfiled.Ledger
import Sendfiled.Traces

namespace Sendfiled

open Prog Transition

/-- The configuration between two steps: only while a datagram waits to be
handled are there descriptors in hand. -/
def State.config (s : State) : Config where
  loose :=
    match s.phase with
    | .requested r _ => r.arrived
    | _ => []
  world := s.world

/-- What holds between two steps because of the place the server has reached. -/
def PhaseOk (s : State) : Prop :=
  match s.phase with
  | .requested r _ => Held r s.world.kern
  | .waiting => ∀ q ∈ s.world.srv.deferredXfers,
      ∃ y, s.world.srv.xferAt q = some y ∧ y.defer = .ready
  | .stopped => ∀ p, s.world.srv.xferAt p = none
  | _ => True

/-- What a step may do. -/
inductive StepMay (ans : Answers) (l : Label) (s : State) : Action → Config → Prop
  | free {a : Action} {c : Config} (ha : a.free = true) : StepMay ans l s a c
  | deny {r : Received} {rest : List PollEvent} {pdu : Pdu} {c : Config} (hl : l = .request)
      (hphase : s.phase = .requested r rest) (huid : r.uid ≠ s.world.srv.uid)
      (hfd : r.fds.1 ∈ c.loose ∨ (r.nfds = 0 ∧
        sfdGetCmd s.world.srv.recvbuf = ProtCmdReq.cancel.code)) :
      StepMay ans l s (.say none r.fds.1 pdu) c
  | event {garbage : Fd × Fd} {ev : PollEvent} {rest : List PollEvent} {a : Action}
      {c : Config} (hl : l = .event garbage) (hphase : s.phase = .events (ev :: rest))
      (ha : EventMay [] s.world ev a c) : StepMay ans l s a c
  | request {r : Received} {rest : List PollEvent} {a : Action} {c : Config}
      (hl : l = .request) (hphase : s.phase = .requested r rest)
      (huid : r.uid = s.world.srv.uid)
      (hnfds : sfdGetCmd s.world.srv.recvbuf ≠ ProtCmdReq.cancel.code → 0 < r.nfds)
      (ha : RequestMay ans r.arrived s.world s.world.srv.recvbuf r.nread r.pid r.fds a c) :
      StepMay ans l s a c
  | deferred {p : Ptr} {a : Action} {c : Config} (hl : l = .deferred)
      (hphase : s.phase = .events []) (ha : DeferMay p a c) : StepMay ans l s a c

variable {A : Action → Config → Prop} {ans : Answers} {l : Label} {s : State}

namespace StepMay

variable {p : Ptr} {c : Config}

/-- A registered transfer is deleted outside the secondary loop when `transfer_file`
ends it or the poller reports an error on its destination. -/
theorem discard_cases (h : StepMay ans l s (.discard p) c) :
    ∃ garbage ev rest, l = .event garbage ∧ s.phase = .events (ev :: rest) ∧
      ev.udata = .xfer p ∧
      ((∃ x, c.world.srv.xferAt p = some x ∧ x.defer = .none ∧
          Concluded p x c.world.kern.trace) ∨
        ∃ x k, ev.err = true ∧ s.world.srv.xferAt p = some x ∧ x.defer ≠ .cancel ∧
          (k.regs = s.world.kern.regs ∧ k.fds = s.world.kern.fds) ∧
          c = ⟨[], ⟨s.world.srv, k⟩⟩) := by
  cases h with
  | free ha => cases ha
  | event hl hphase ha =>
      cases ha with
      | free ha => cases ha
      | xfer hu herr hk ha =>
          refine ⟨_, _, _, hl, hphase, ?_⟩
          cases ha with
          | free ha => cases ha
          | speak ha => cases ha
          | discard hp hdefer hend => exact ⟨hu, Or.inl ⟨_, hp, hdefer, hend⟩⟩
          | fail hp herr' hdefer => exact ⟨hu, Or.inr ⟨_, _, herr herr', hp, hdefer, hk, rfl⟩⟩
  | request _ _ _ _ ha =>
      cases ha with
      | free ha => cases ha
  | deferred _ _ ha =>
      cases ha with
      | free ha => cases ha
      | speak ha => cases ha

/-- An unregistered transfer is deleted when the request that creates it fails, or a
SEND_OPEN whose descriptor the poller refuses. -/
theorem retire_cases (h : StepMay ans l s (.retire p) c) :
    ∃ r rest, l = .request ∧ s.phase = .requested r rest ∧ r.uid = s.world.srv.uid ∧
      (sfdGetCmd s.world.srv.recvbuf ≠ ProtCmdReq.cancel.code → 0 < r.nfds) ∧
      ((p = s.world.srv.nextPtr ∧ ∃ x, c.world.srv.xferAt p = some x ∧ x.defer = .none ∧
          x.clientPid = r.pid ∧ (x.destFd = -1 ∨ c.world.kern.regs = s.world.kern.regs) ∧
          (x.destFd = -1 ∨ Attempted p x.statFd c.world.kern.trace)) ∨
        ∃ txnid x e, protUnmarshalSendOpen s.world.srv.recvbuf = some txnid ∧
          s.world.srv.xfers.find txnid = some p ∧ s.world.srv.xferAt p = some x ∧
          pidMatches x r.pid = true ∧ x.defer ≠ .cancel ∧
          s.world.kern.epollAddError ans r.fds.1 = some e ∧
          c.world.kern.regs = s.world.kern.regs ∧ Attempted p x.statFd c.world.kern.trace ∧
          c.world.srv.xferAt p = some { x with cmd := .send, destFd := r.fds.1 }) := by
  cases h with
  | free ha => cases ha
  | event _ _ ha =>
      cases ha with
      | free ha => cases ha
      | xfer _ _ _ ha =>
          cases ha with
          | free ha => cases ha
          | speak ha => cases ha
  | request hl hphase huid hnfds ha =>
      refine ⟨_, _, hl, hphase, huid, hnfds, ?_⟩
      cases ha with
      | free ha => cases ha
      | retire hreq hpid hdefer hregs htold hp =>
          exact Or.inl ⟨rfl, _, hp, hdefer, hpid, hregs, htold⟩
      | reject htxnid hfind hp hpid hdefer herr hregs htold hc =>
          exact Or.inr ⟨_, _, _, htxnid, hfind, hp, hpid, hdefer, herr, hregs, htold, hc⟩
  | deferred _ _ ha =>
      cases ha with
      | free ha => cases ha
      | speak ha => cases ha

/-- A transfer is marked CANCEL by its timer or by its client. -/
theorem cancel_cases (h : StepMay ans l s (.cancel p) c) :
    (∃ garbage ev rest t tm x, l = .event garbage ∧ s.phase = .events (ev :: rest) ∧
      ev.udata = .timer t ∧ s.world.srv.timerAt t = some tm ∧
      s.world.srv.xfers.find tm.txnid = some p ∧ s.world.srv.xferAt p = some x ∧
      x.addr = tm.xferAddr ∧ x.nbytesLeft = x.file.size ∧ c.world.srv = s.world.srv ∧
      Attempted p x.statFd c.world.kern.trace) ∨
    ∃ r rest txnid x, l = .request ∧ s.phase = .requested r rest ∧
      r.uid = s.world.srv.uid ∧ protUnmarshalCancel s.world.srv.recvbuf = some txnid ∧
      s.world.srv.xfers.find txnid = some p ∧ s.world.srv.xferAt p = some x ∧
      pidMatches x r.pid = true ∧ c = ⟨r.arrived, s.world⟩ := by
  cases h with
  | free ha => cases ha
  | event hl hphase ha =>
      cases ha with
      | free ha => cases ha
      | xfer _ _ _ ha =>
          cases ha with
          | free ha => cases ha
          | speak ha => cases ha
      | cancel hu ht hfind hp haddr hleft hsrv htold =>
          exact Or.inl ⟨_, _, _, _, _, _, hl, hphase, hu, ht, hfind, hp, haddr, hleft, hsrv, htold⟩
  | request hl hphase huid hnfds ha =>
      cases ha with
      | free ha => cases ha
      | cancel htxnid hfind hp hpid =>
          exact Or.inr ⟨_, _, _, _, hl, hphase, huid, htxnid, hfind, hp, hpid, rfl⟩
  | deferred _ _ ha =>
      cases ha with
      | free ha => cases ha
      | speak ha => cases ha

/-- A transfer is created by a request for a file. -/
theorem enroll_cases {x : ResrcXfer} (h : StepMay ans l s (.enroll x) c) :
    ∃ r rest req, l = .request ∧ s.phase = .requested r rest ∧ r.uid = s.world.srv.uid ∧
      0 < r.nfds ∧ protUnmarshalRequest s.world.srv.recvbuf r.nread = some req ∧
      Created req r.pid r.fds.1 (req.destFd r.fds) x ∧ c.loose = x.file.fd :: r.arrived ∧
      ans.Supplies req c.world.kern x.file.fd ∧
      c.world.srv.nextPtr = s.world.srv.nextPtr := by
  cases h with
  | free ha => cases ha
  | event _ _ ha =>
      cases ha with
      | free ha => cases ha
      | xfer _ _ _ ha =>
          cases ha with
          | free ha => cases ha
          | speak ha => cases ha
  | request hl hphase huid hnfds ha =>
      cases ha with
      | free ha => cases ha
      | enroll hreq hx hc hfile hptr =>
          refine ⟨_, _, _, hl, hphase, huid, hnfds fun hcode => ?_, hreq, hx, hc.symm, hfile, hptr⟩
          have hcmd := protUnmarshalRequest_fileCmd hreq
          rw [hcode] at hcmd
          cases hcmd
  | deferred _ _ ha =>
      cases ha with
      | free ha => cases ha
      | speak ha => cases ha

/-- A transfer is given a destination by SEND_OPEN. -/
theorem assign_cases {fd : Fd} (h : StepMay ans l s (.assign p fd) c) :
    ∃ r rest txnid x, l = .request ∧ s.phase = .requested r rest ∧ r.uid = s.world.srv.uid ∧
      (sfdGetCmd s.world.srv.recvbuf ≠ ProtCmdReq.cancel.code → 0 < r.nfds) ∧
      protUnmarshalSendOpen s.world.srv.recvbuf = some txnid ∧
      s.world.srv.xfers.find txnid = some p ∧ s.world.srv.xferAt p = some x ∧
      pidMatches x r.pid = true ∧ x.defer ≠ .cancel ∧ fd = r.fds.1 ∧
      c = ⟨r.arrived, s.world⟩ := by
  cases h with
  | free ha => cases ha
  | event _ _ ha =>
      cases ha with
      | free ha => cases ha
      | xfer _ _ _ ha =>
          cases ha with
          | free ha => cases ha
          | speak ha => cases ha
  | request hl hphase huid hnfds ha =>
      cases ha with
      | free ha => cases ha
      | assign htxnid hfind hp hpid hdefer =>
          exact ⟨_, _, _, _, hl, hphase, huid, hnfds, htxnid, hfind, hp, hpid, hdefer, rfl, rfl⟩
  | deferred _ _ ha =>
      cases ha with
      | free ha => cases ha
      | speak ha => cases ha

/-- The secondary loop deletes transfers that are marked CANCEL or that
`transfer_file` ends. -/
theorem bury_cases (h : StepMay ans l s (.bury p) c) :
    l = .deferred ∧ s.phase = .events [] ∧ ∃ x, c.world.srv.xferAt p = some x ∧
      (x.defer = .cancel ∨ Concluded p x c.world.kern.trace) := by
  cases h with
  | free ha => cases ha
  | event _ _ ha =>
      cases ha with
      | free ha => cases ha
      | xfer _ _ _ ha =>
          cases ha with
          | free ha => cases ha
          | speak ha => cases ha
  | request _ _ _ _ ha =>
      cases ha with
      | free ha => cases ha
  | deferred hl hphase ha =>
      cases ha with
      | free ha => cases ha
      | speak ha => cases ha
      | bury hp hend => exact ⟨hl, hphase, _, hp, hend⟩

/-- A timer is deleted when it expires, after the transfer it was created for was marked
CANCEL, or by the request that created it. -/
theorem expire_cases {t : Ptr} (h : StepMay ans l s (.expire t) c) :
    s.world.srv.nextPtr < t ∨ ∃ tm, s.world.srv.timerAt t = some tm ∧
      ∀ p x, s.world.srv.xfers.find tm.txnid = some p → s.world.srv.xferAt p = some x →
        x.addr = tm.xferAddr → x.nbytesLeft = x.file.size →
        ∃ y, c.world.srv.xferAt p = some y ∧ y.defer = .cancel := by
  cases h with
  | free ha => cases ha
  | event _ _ ha =>
      cases ha with
      | free ha => cases ha
      | xfer _ _ _ ha =>
          cases ha with
          | free ha => cases ha
          | speak ha => cases ha
      | expire _ ht hdone => exact Or.inr ⟨_, ht, hdone⟩
  | request _ _ _ _ ha =>
      cases ha with
      | free ha => cases ha
      | expire ht => exact Or.inl ht
  | deferred _ _ ha =>
      cases ha with
      | free ha => cases ha
      | speak ha => cases ha

/-- A descriptor that arrived is closed again when a SEND_OPEN finds no open file for
it. -/
theorem reshut_cases {fd : Fd} (h : StepMay ans l s (.reshut fd) c) :
    ∃ r rest txnid, l = .request ∧ s.phase = .requested r rest ∧ r.uid = s.world.srv.uid ∧
      (sfdGetCmd s.world.srv.recvbuf ≠ ProtCmdReq.cancel.code → 0 < r.nfds) ∧
      protUnmarshalSendOpen s.world.srv.recvbuf = some txnid ∧
      ∀ p x, s.world.srv.xfers.find txnid = some p → s.world.srv.xferAt p = some x →
        pidMatches x r.pid = true → x.defer = .cancel := by
  cases h with
  | free ha => cases ha
  | event _ _ ha =>
      cases ha with
      | free ha => cases ha
      | xfer _ _ _ ha =>
          cases ha with
          | free ha => cases ha
          | speak ha => cases ha
  | request hl hphase huid hnfds ha =>
      cases ha with
      | free ha => cases ha
      | reshut htxnid hnone => exact ⟨_, _, _, hl, hphase, huid, hnfds, htxnid, hnone⟩
  | deferred _ _ ha =>
      cases ha with
      | free ha => cases ha
      | speak ha => cases ha

/-- The number of a closed descriptor is closed again when a FILE_OPEN cannot register
its timer. -/
theorem botch_cases {t : Ptr} (h : StepMay ans l s (.botch t) c) :
    ∃ r rest req, l = .request ∧ s.phase = .requested r rest ∧ r.uid = s.world.srv.uid ∧
      0 < r.nfds ∧ protUnmarshalRequest s.world.srv.recvbuf r.nread = some req ∧
      req.cmd = .fileOpen ∧ s.world.srv.nextPtr < t ∧ ans.TimerRefused s.world.kern := by
  cases h with
  | free ha => cases ha
  | event _ _ ha =>
      cases ha with
      | free ha => cases ha
      | xfer _ _ _ ha =>
          cases ha with
          | free ha => cases ha
          | speak ha => cases ha
  | request hl hphase huid hnfds ha =>
      cases ha with
      | free ha => cases ha
      | botch hreq hcmd ht hrefused =>
          refine ⟨_, _, _, hl, hphase, huid, hnfds fun hcode => ?_, hreq, hcmd, ht, hrefused⟩
          have hfile := protUnmarshalRequest_fileCmd hreq
          rw [hcode] at hfile
          cases hfile
  | deferred _ _ ha =>
      cases ha with
      | free ha => cases ha
      | speak ha => cases ha

end StepMay

theorem settle_of_wp {α : Type} {m : M α} {w : World} {Q : α → World → Prop}
    {E : Fault → World → Prop} {f : α → World → Except Fault State}
    {P : Except Fault State → Prop} (h : wp m Q E w) (hQ : ∀ a w', Q a w' → P (f a w'))
    (hE : ∀ e w', E e w' → P (.error e)) : P (settle (m w) f) := by
  unfold wp at h
  cases hm : m w with
  | done a w' =>
      rw [hm] at h
      exact hQ a w' h
  | fault e w' =>
      rw [hm] at h
      exact hE e w' h

/-- The three ways a step can end: between two steps again, by leaving the loop,
or with a fault. -/
inductive Ends (A : Action → Config → Prop) (ans : Answers) (s : State) :
    Except Fault State → Prop
  | next {s' : State} (hrun : s'.phase ≠ .stopped) (hacts : Acts A s.config s'.config)
      (hok : PhaseOk s') : Ends A ans s (.ok s')
  | shut {w : World} (hacts : Acts A s.config ⟨[], w⟩) : Ends A ans s (shutdown ans w)
  | fault {e : Fault} {w : World} (hfaulty : Faulty A s.config e w) : Ends A ans s (.error e)

theorem Acts.withErrno (hA : Permissive A) {c₀ : Config} {L : List Fd} {w : World}
    (h : Acts A c₀ ⟨L, w⟩) (e : Errno) : Acts A c₀ ⟨L, withErrno e w⟩ :=
  h.kernQuiet hA (Kernel.quiet_errno e w.kern)

theorem Acts.clientClose (hA : Permissive A) {c₀ : Config} {L : List Fd} {w : World}
    (h : Acts A c₀ ⟨L, w⟩) (n : Nat) : Acts A c₀ ⟨L, clientClose n w⟩ := by
  unfold Sendfiled.clientClose
  split
  · exact h
  · rename_i hany
    refine h.snoc (hA (.forget n) _ rfl) (.forget ?_)
    intro entry hmem heq
    exact hany (List.any_eq_true.mpr ⟨entry, hmem, by simp [heq]⟩)

theorem next_ends (hG : ∀ a c, StepMay ans l s a c → A a c) (hok : PhaseOk s)
    (hnodup : s.world.srv.deferredXfers.Nodup) {r : Except Fault State}
    (hn : next (ans, l) s = some r) : Ends A ans s r := by
  have hA : Permissive A := fun a c ha => hG a c (.free ha)
  obtain ⟨w, phase⟩ := s
  have hrefl : Acts A (State.config ⟨w, phase⟩) (State.config ⟨w, phase⟩) := Acts.refl
  cases l with
  | wait evs =>
      cases phase <;> simp only [next, reduceCtorEq] at hn
      split at hn
      · cases hn
        exact .next (by simp) hrefl trivial
      · cases hn
  | waitFailed e =>
      cases phase <;> simp only [next, reduceCtorEq] at hn
      split at hn
      · cases hn
        exact .shut (hrefl.withErrno hA e)
      · cases hn
        exact .next (by simp) (hrefl.withErrno hA e) trivial
  | event garbage =>
      cases phase with
      | events evs =>
          cases evs with
          | nil => cases hn
          | cons ev rest =>
              simp only [next, Option.some.injEq] at hn
              subst hn
              refine settle_of_wp (wp_dispatchEvent hA hrefl
                (fun a c ha => hG a c (.event rfl rfl ha))
                (Q := fun _ w' => Acts A _ ⟨[], w'⟩) fun _ _ _ h => h) ?_ fun e w' h => .fault h
              intro o w' h'
              cases o with
              | stop => exact .shut h'
              | request => exact .next (by simp) h' trivial
              | handled => exact .next (by simp) h' trivial
      | waiting | receiving | requested | stopped => cases hn
  | receive d =>
      cases phase <;> simp only [next, reduceCtorEq, Option.some.injEq] at hn
      subst hn
      refine settle_of_wp (wp_usRecv hA hrefl (Q := fun o w' =>
          (o = none ∧ Acts A _ ⟨[], w'⟩) ∨
            ∃ r, o = some r ∧ Held r w'.kern ∧ Acts A _ ⟨r.arrived, w'⟩)
        (fun _ h => Or.inl ⟨rfl, h⟩) fun r _ hheld h => Or.inr ⟨r, rfl, hheld, h⟩) ?_
        fun e w' h => .fault h
      rintro o w' (⟨rfl, h'⟩ | ⟨r, rfl, hheld, h'⟩)
      · dsimp only
        split
        · exact .shut h'
        · exact .next (by simp) h' trivial
      · exact .next (by simp) h' hheld
  | receiveFailed e =>
      cases phase <;> simp only [next, reduceCtorEq] at hn
      split at hn
      · cases hn
        exact .shut (hrefl.withErrno hA e)
      · cases hn
        exact .next (by simp) (hrefl.withErrno hA e) trivial
  | request =>
      cases phase <;> simp only [next, reduceCtorEq, Option.some.injEq] at hn
      subst hn
      refine settle_of_wp (wp_handleReceived hA hrefl hok
        (fun huid pdu c hfd => hG _ c (.deny rfl rfl huid hfd))
        (fun huid hnfds a c ha => hG a c (.request rfl rfl huid hnfds ha))
        (Q := fun _ w' => Acts A _ ⟨[], w'⟩) fun _ _ h => h) ?_ fun e w' h => .fault h
      exact fun _ w' h' => .next (by simp) h' trivial
  | deferred =>
      cases phase with
      | events evs =>
          cases evs with
          | cons ev rest => cases hn
          | nil =>
              simp only [next, Option.some.injEq] at hn
              subst hn
              refine settle_of_wp (wp_processDeferred
                (fun p a c ha => hG a c (.deferred rfl rfl ha)) hrefl hnodup
                (Q := fun _ w' => (∀ q ∈ w'.srv.deferredXfers, ∃ y,
                  w'.srv.xferAt q = some y ∧ y.defer = .ready) ∧ Acts A _ ⟨[], w'⟩)
                fun _ hall _ h => ⟨hall, h⟩) ?_ fun e w' h => .fault h
              exact fun _ w' h' => .next (by simp) h'.2 h'.1
      | waiting | receiving | requested | stopped => cases hn
  | clientCloses n =>
      simp only [next] at hn
      split at hn
      · cases hn
      · rename_i hphase
        cases hn
        refine .next hphase (hrefl.clientClose hA n) ?_
        have hsrv : (clientClose n w).srv = w.srv := by
          unfold clientClose
          split <;> rfl
        have hfds : (clientClose n w).kern.fds = w.kern.fds := by
          unfold clientClose
          split <;> rfl
        cases phase with
        | waiting => simpa only [PhaseOk, hsrv] using hok
        | requested r rest =>
            exact ⟨hok.nfds_le, fun hpos => hfds ▸ hok.zero_open hpos, hok.single,
              hok.distinct, fun fd hfd => hfds ▸ hok.clients fd hfd⟩
        | events | receiving => trivial
        | stopped => exact absurd rfl hphase

section Shutdown

/-- What `srv_delete` leaves behind. -/
structure Cleared (w w' : World) : Prop where
  xferAt : ∀ p, w'.srv.xferAt p = none
  timerAt : ∀ t, w'.srv.timerAt t = none
  respAt : w'.srv.respAt = w.srv.respAt
  xfers : w'.srv.xfers = clearTable w.srv.xfers
  xferTimers : w'.srv.xferTimers = clearTable w.srv.xferTimers
  deferredXfers : w'.srv.deferredXfers = []
  nextPtr : w'.srv.nextPtr = w.srv.nextPtr
  regs : w'.kern.regs = []
  trace : ∃ tr, w'.kern.trace = w.kern.trace ++ tr ∧ OnlyCloses tr ∧
    ∀ p x, w.srv.xferAt p = some x → Buried x tr
  record : ∃ R, w.kern.Records R w'.kern

/-- The loops of `srv_delete` after the elements not in `xs` and `ts` were
deleted. -/
structure Clearing (w : World) (xs ts : List Ptr) (w' : World) : Prop where
  nodup_xfers : xs.Nodup
  nodup_timers : ts.Nodup
  xfer_mem : ∀ p, w'.srv.xferAt p = if p ∈ xs then w.srv.xferAt p else none
  timer_mem : ∀ t, w'.srv.timerAt t = if t ∈ ts then w.srv.timerAt t else none
  xfer_live : ∀ p ∈ xs, ∃ x, w.srv.xferAt p = some x
  timer_live : ∀ t ∈ ts, ∃ tm, w.srv.timerAt t = some tm
  same : w'.srv.respAt = w.srv.respAt ∧ w'.srv.xfers = w.srv.xfers ∧
    w'.srv.xferTimers = w.srv.xferTimers ∧ w'.srv.nextPtr = w.srv.nextPtr
  regs : w'.kern.regs = []
  trace : ∃ tr, w'.kern.trace = w.kern.trace ++ tr ∧ OnlyCloses tr ∧
    ∀ p x, w.srv.xferAt p = some x → p ∉ xs → Buried x tr

theorem Kernel.close_regs_nil (ans : Answers) (fd : Fd) {k : Kernel} (h : k.regs = []) :
    (k.close ans fd).2.regs = [] :=
  List.sublist_nil.mp (h ▸ Kernel.close_regs_sublist ans fd k)

theorem Kernel.closeAll_regs_nil (ans : Answers) (x : ResrcXfer) {k : Kernel}
    (h : k.regs = []) : (k.closeAll ans x).regs = [] := by
  unfold Kernel.closeAll Kernel.closeDest
  have hstat := Kernel.close_regs_nil ans x.statFd h
  split
  · exact Kernel.close_regs_nil ans _ (Kernel.close_regs_nil ans _ hstat)
  · exact Kernel.close_regs_nil ans _ hstat

theorem Clearing.deleteXfer {w w' : World} {p : Ptr} {xs ts : List Ptr}
    (h : Clearing w (p :: xs) ts w') :
    wp (deleteXferAndCloseAllFds ans p) (fun _ w'' => Clearing w xs ts w'')
      (fun _ _ => False) w' := by
  obtain ⟨hnot, hnodup⟩ := List.nodup_cons.mp h.nodup_xfers
  obtain ⟨x, hx⟩ := h.xfer_live p List.mem_cons_self
  have hx' : w'.srv.xferAt p = some x := by
    rw [h.xfer_mem p, if_pos List.mem_cons_self, hx]
  obtain ⟨tr, htr, honly, hburied⟩ := h.trace
  obtain ⟨tr', htr', honly', hburied'⟩ := Kernel.closeAll_trace ans w'.kern x
  refine wp_deleteXferAndCloseAllFds hx' ⟨hnodup, h.nodup_timers, fun q => ?_, h.timer_mem,
    fun q hq => h.xfer_live q (List.mem_cons_of_mem p hq), h.timer_live, h.same,
    Kernel.closeAll_regs_nil ans x h.regs, tr ++ tr', ?_, honly.append honly', ?_⟩
  · by_cases hqp : q = p
    · subst hqp
      simp [Server.dropXfer, hnot]
    · have hq := h.xfer_mem q
      simp only [List.mem_cons, hqp, false_or] at hq
      simpa [Server.dropXfer, Server.release, hqp] using hq
  · rw [htr', htr, List.append_assoc]
  · intro q y hy hq
    by_cases hqp : q = p
    · subst hqp
      rw [hx] at hy
      cases hy
      exact hburied'.append_right
    · exact (hburied q y hy (by simp [hqp, hq])).append

theorem Clearing.deleteTimer {w w' : World} {t : Ptr} {ts : List Ptr}
    (h : Clearing w [] (t :: ts) w') :
    wp (timerDelete ans t) (fun _ w'' => Clearing w [] ts w'') (fun _ _ => False) w' := by
  obtain ⟨hnot, hnodup⟩ := List.nodup_cons.mp h.nodup_timers
  obtain ⟨tm, ht⟩ := h.timer_live t List.mem_cons_self
  have ht' : w'.srv.timerAt t = some tm := by
    rw [h.timer_mem t, if_pos List.mem_cons_self, ht]
  obtain ⟨tr, htr, honly, hburied⟩ := h.trace
  obtain ⟨b, hb⟩ := Kernel.close_trace ans w'.kern tm.ident
  refine wp_timerDelete ht' ⟨h.nodup_xfers, hnodup, h.xfer_mem, fun u => ?_, h.xfer_live,
    fun u hu => h.timer_live u (List.mem_cons_of_mem t hu), h.same,
    Kernel.close_regs_nil ans _ h.regs, tr ++ [.closed tm.ident b], ?_,
    honly.append (Kernel.onlyCloses_singleton _ _), fun q y hy hq => (hburied q y hy hq).append⟩
  · by_cases hut : u = t
    · subst hut
      simp [Server.dropTimer, hnot]
    · have hu := h.timer_mem u
      simp only [List.mem_cons, hut, false_or] at hu
      simpa [Server.dropTimer, Server.release, hut] using hu
  · rw [hb, htr, List.append_assoc]

/-- The loops of `srv_delete` begin with everything that is live. -/
theorem Clearing.start (ans : Answers) {w : World} (h : Ledger w.srv) :
    Clearing w w.srv.xfers.stored w.srv.xferTimers.stored
      ⟨w.srv, (Kernel.close ans w.srv.reqfd { w.kern with regs := [] }).2⟩ := by
  have htimers : ∀ t, t ∈ w.srv.xferTimers.stored ↔ ∃ tm, w.srv.timerAt t = some tm := by
    intro t
    rw [h.timers.mem_stored, Server.timerKey, Option.isSome_map, Option.isSome_iff_exists]
  obtain ⟨b, hb⟩ := Kernel.close_trace ans { w.kern with regs := [] } w.srv.reqfd
  refine ⟨h.xfers.nodup_stored, h.timers.nodup_stored, fun p => ?_, fun t => ?_,
    fun p => h.mem_stored.mp, fun t => (htimers t).mp, ⟨rfl, rfl, rfl, rfl⟩,
    Kernel.close_regs_nil ans _ rfl, _, hb, Kernel.onlyCloses_singleton _ _, ?_⟩
  · split
    · rfl
    · rename_i hp
      rw [h.mem_stored] at hp
      cases hx : w.srv.xferAt p with
      | none => rfl
      | some x => exact absurd ⟨x, hx⟩ hp
  · split
    · rfl
    · rename_i ht
      rw [htimers] at ht
      cases htm : w.srv.timerAt t with
      | none => rfl
      | some tm => exact absurd ⟨tm, htm⟩ ht
  · intro p x hx hp
    exact absurd (h.mem_stored.mpr ⟨x, hx⟩) hp

/-- The rule for `srv_delete`: what the closing of the request socket establishes and
every deletion keeps holds when the loops are done. -/
theorem wp_srvDelete_loops (ans : Answers) {w : World} {I : World → Prop} (h : Ledger w.srv)
    (hstart : I ⟨w.srv, (Kernel.close ans w.srv.reqfd { w.kern with regs := [] }).2⟩)
    (hxfer : ∀ p x w', w'.srv.xferAt p = some x → I w' →
      I ⟨(w'.srv.release x.addr).dropXfer p, w'.kern.closeAll ans x⟩)
    (htimer : ∀ t tm w', w'.srv.timerAt t = some tm → I w' →
      I ⟨(w'.srv.release tm.addr).dropTimer t, (w'.kern.close ans tm.ident).2⟩)
    {Q : Unit → World → Prop}
    (hQ : ∀ w', Clearing w [] [] w' → I w' → Q () { w' with srv := { w'.srv with
      xfers := clearTable w'.srv.xfers
      xferTimers := clearTable w'.srv.xferTimers
      deferredXfers := [] } }) :
    wp (srvDelete ans) Q (fun _ _ => False) w := by
  simp only [srvDelete, close, wp_bind, wp_sys, wp_gets, wp_pure]
  refine wp_mono (wp_forEach (fun rest w' => Clearing w rest w.srv.xferTimers.stored w' ∧ I w')
    (fun p rest w' h' => ?_) _ ⟨Clearing.start ans h, hstart⟩) (fun _ w₁ h₁ => ?_) fun _ _ he => he
  · obtain ⟨x, hx⟩ := h'.1.xfer_live p List.mem_cons_self
    have hx' : w'.srv.xferAt p = some x := by
      rw [h'.1.xfer_mem p, if_pos List.mem_cons_self, hx]
    have hkeep : wp (deleteXferAndCloseAllFds ans p) (fun _ w'' => I w'') (fun _ _ => False) w' :=
      wp_deleteXferAndCloseAllFds hx' (hxfer p x w' hx' h'.2)
    exact wp_mono (wp_and h'.1.deleteXfer hkeep) (fun _ _ hc => hc) fun _ _ he => he.1
  rw [h₁.1.same.2.2.1]
  refine wp_mono (wp_forEach (fun rest w' => Clearing w [] rest w' ∧ I w')
    (fun t rest w' h' => ?_) _ h₁) (fun _ w₂ h₂ => ?_) fun _ _ he => he
  · obtain ⟨tm, ht⟩ := h'.1.timer_live t List.mem_cons_self
    have ht' : w'.srv.timerAt t = some tm := by
      rw [h'.1.timer_mem t, if_pos List.mem_cons_self, ht]
    have hkeep : wp (timerDelete ans t) (fun _ w'' => I w'') (fun _ _ => False) w' :=
      wp_timerDelete ht' (htimer t tm w' ht' h'.2)
    exact wp_mono (wp_and h'.1.deleteTimer hkeep) (fun _ _ hc => hc) fun _ _ he => he.1
  · simp only [wp_onSrv]
    exact hQ w₂ h₂.1 h₂.2

/-- `srv_delete` reaches its end and deletes everything that is live. -/
theorem wp_srvDelete (ans : Answers) {w : World} (h : Ledger w.srv) :
    wp (srvDelete ans) (fun _ w' => Cleared w w') (fun _ _ => False) w := by
  have hdel : w.kern.Records [] { w.kern with regs := [] } := .of_eq rfl rfl
  refine wp_srvDelete_loops ans (I := fun w' => ∃ R, w.kern.Records R w'.kern) h
    ⟨_, hdel.trans (Kernel.records_close ans { w.kern with regs := [] } w.srv.reqfd)⟩
    (fun p x w' _ hI => ?_) (fun t tm w' _ hI => ?_) fun w₂ h₂ hrecord => ?_
  · obtain ⟨R, hR⟩ := hI
    obtain ⟨R', hR', -⟩ := Kernel.records_closeAll ans w'.kern x
    exact ⟨_, hR.trans hR'⟩
  · obtain ⟨R, hR⟩ := hI
    exact ⟨_, hR.trans (Kernel.records_close ans w'.kern tm.ident)⟩
  obtain ⟨tr, htr, honly, hburied⟩ := h₂.trace
  exact
    { xferAt := fun p => by simpa using h₂.xfer_mem p
      timerAt := fun t => by simpa using h₂.timer_mem t
      respAt := h₂.same.1
      xfers := by rw [h₂.same.2.1]
      xferTimers := by rw [h₂.same.2.2.1]
      deferredXfers := rfl
      nextPtr := h₂.same.2.2.2
      regs := h₂.regs
      trace := ⟨tr, htr, honly, fun p x hx => hburied p x hx (by simp)⟩
      record := hrecord }

theorem Cleared.ledger {w w' : World} (h : Cleared w w') : Ledger w'.srv where
  xfers := by
    have hkey : w'.srv.xferKey = fun _ => none := by
      funext p
      simp [Server.xferKey, h.xferAt p]
    rw [hkey, h.xfers]
    exact XferTable.represents_empty rfl rfl
  timers := by
    have hkey : w'.srv.timerKey = fun _ => none := by
      funext t
      simp [Server.timerKey, h.timerAt t]
    rw [hkey, h.xferTimers]
    exact XferTable.represents_empty rfl rfl
  xfer_lt := fun p x hp => by simp [h.xferAt p] at hp
  timer_lt := fun t tm ht => by simp [h.timerAt t] at ht
  deferred_lt := fun p hp => by simp [h.deferredXfers] at hp
  nodup := by simp [h.deferredXfers]
  listed := fun p x hp => by simp [h.xferAt p] at hp

end Shutdown

section Runs

theorem shutdown_cleared (ans : Answers) {w : World} (h : Ledger w.srv) :
    ∃ w', shutdown ans w = .ok ⟨w', .stopped⟩ ∧ Cleared w w' := by
  have hwp := wp_srvDelete ans h
  unfold shutdown settle
  cases hm : srvDelete ans w with
  | done a w' => exact ⟨w', rfl, wp_done hwp hm⟩
  | fault e w' => exact (wp_fault hwp hm).elim

/-- What it takes for a property of configurations to hold along the runs whose
steps meet the guard, up to the shutdown: the guard permits only actions that
keep it. -/
structure Kept (A : Action → Config → Prop) (guard : Answers × Label → State → Prop)
    (I : Config → Prop) : Prop where
  grants : ∀ ans l s, guard (ans, l) s → Ledger s.world.srv → PhaseOk s → I s.config →
    ∀ a c, StepMay ans l s a c → A a c
  acts : ∀ a c c', Ledger c.world.srv → A a c → Performs a c c' → I c → I c'

/-- The same for a property that the shutdown keeps as well. -/
structure Preserved (A : Action → Config → Prop) (guard : Answers × Label → State → Prop)
    (I : Config → Prop) : Prop extends Kept A guard I where
  stop : ∀ w w', Ledger w.srv → Cleared w w' → I ⟨[], w⟩ → I ⟨[], w'⟩

/-- The books are in order, and so is the property `I`. -/
structure Sound (I : Config → Prop) (s : State) : Prop where
  ledger : Ledger s.world.srv
  phase : PhaseOk s
  inv : I s.config

/-- The server has shut down, and before that the property `I` held. -/
def Halted (I : Config → Prop) (s : State) : Prop :=
  s.phase = .stopped ∧ ∃ w, Ledger w.srv ∧ I ⟨[], w⟩ ∧ Cleared w s.world ∧
    ∃ ans, shutdown ans w = .ok s

variable {guard : Answers × Label → State → Prop} {I : Config → Prop} {s' : State}

theorem Kept.of_acts (h : Kept A guard I) {c c' : Config} (ha : Acts A c c')
    (hc : Ledger c.world.srv) (hI : I c) : Ledger c'.world.srv ∧ I c' :=
  ha.keeps (I := fun c => Ledger c.world.srv ∧ I c)
    (fun a c c' hA hp hc => ⟨hc.1.performs hp, h.acts a c c' hc.1 hA hp hc.2⟩) ⟨hc, hI⟩

theorem Kept.next (h : Kept A guard I) (hs : Sound I s) (hg : guard (ans, l) s)
    (hn : next (ans, l) s = some (.ok s')) : Sound I s' ∨ Halted I s' := by
  have hends := next_ends (h.grants ans l s hg hs.ledger hs.phase hs.inv)
    hs.phase hs.ledger.nodup hn
  generalize hr : Except.ok s' = r at hends
  cases hends with
  | next _ hacts hok =>
      cases hr
      obtain ⟨hledger, hinv⟩ := h.of_acts hacts hs.ledger hs.inv
      exact Or.inl ⟨hledger, hok, hinv⟩
  | shut hacts =>
      obtain ⟨hledger, hinv⟩ := h.of_acts hacts hs.ledger hs.inv
      obtain ⟨w', hw', hcleared⟩ := shutdown_cleared ans hledger
      have hshut := hw'
      rw [hw'] at hr
      cases hr
      exact Or.inr ⟨rfl, _, hledger, hinv, hcleared, ans, hshut⟩
  | fault => cases hr

/-- Where a step faults, the property still holds. -/
theorem Kept.fault (h : Kept A guard I) (hs : Sound I s) (hg : guard (ans, l) s)
    {e : Fault} (hn : Sendfiled.next (ans, l) s = some (.error e)) :
    ∃ c, Ledger c.world.srv ∧ I c ∧ Blames A c e := by
  have hends := next_ends (h.grants ans l s hg hs.ledger hs.phase hs.inv)
    hs.phase hs.ledger.nodup hn
  generalize hr : Except.error e = r at hends
  cases hends with
  | next => cases hr
  | shut hacts =>
      obtain ⟨hledger, -⟩ := h.of_acts hacts hs.ledger hs.inv
      obtain ⟨w', hw', -⟩ := shutdown_cleared ans hledger
      rw [hw'] at hr
      cases hr
  | fault hfaulty =>
      cases hr
      obtain ⟨L, hacts, hblames⟩ := hfaulty
      obtain ⟨hledger, hinv⟩ := h.of_acts hacts hs.ledger hs.inv
      exact ⟨_, hledger, hinv, hblames⟩

/-- A server that has shut down takes no further step. -/
theorem next_stopped (hs : s.phase = .stopped) (l : Answers × Label) : next l s = none := by
  obtain ⟨w, phase⟩ := s
  subst hs
  obtain ⟨ans, l⟩ := l
  cases l <;> rfl

theorem Kept.steps (h : Kept A guard I) (hsteps : server.Steps guard s s')
    (hs : Sound I s ∨ Halted I s) : Sound I s' ∨ Halted I s' := by
  refine hsteps.keeps (I := fun s => Sound I s ∨ Halted I s) ?_ hs
  rintro ⟨ans, l⟩ s s' (hs | hs) hg hn
  · exact h.next hs hg hn
  · have hnone : server.next (ans, l) s = none := next_stopped hs.1 _
    rw [hnone] at hn
    cases hn

theorem Preserved.halted (h : Preserved A guard I) (hs : Halted I s) : Sound I s := by
  obtain ⟨hphase, w, hledger, hinv, hcleared, -⟩ := hs
  obtain ⟨w', phase⟩ := s
  subst hphase
  exact ⟨hcleared.ledger, hcleared.xferAt, h.stop w w' hledger hcleared hinv⟩

theorem Preserved.steps (h : Preserved A guard I) (hsteps : server.Steps guard s s')
    (hs : Sound I s) : Sound I s' :=
  (h.toKept.steps hsteps (Or.inl hs)).elim id h.halted

theorem Preserved.next (h : Preserved A guard I) (hs : Sound I s) (hg : guard (ans, l) s)
    (hn : Sendfiled.next (ans, l) s = some (.ok s')) : Sound I s' :=
  (h.toKept.next hs hg hn).elim id h.halted

theorem Initial.ledger (h : Initial s) : Ledger s.world.srv := by
  obtain ⟨-, reqfd, maxfds, uid, cap, -, -, hnew, -⟩ := h
  unfold srvNew at hnew
  split at hnew
  · rename_i xfers timers hxfers htimers
    have hsrv := (Option.some.inj hnew).symm
    rw [hsrv]
    exact
      { xfers := XferTable.construct_represents hxfers
        timers := XferTable.construct_represents htimers
        xfer_lt := fun p x hp => by cases hp
        timer_lt := fun t tm ht => by cases ht
        deferred_lt := fun p hp => by cases hp
        nodup := List.nodup_nil
        listed := fun p x hp => by cases hp }
  · cases hnew

theorem Initial.deferredXfers (h : Initial s) : s.world.srv.deferredXfers = [] := by
  obtain ⟨-, reqfd, maxfds, uid, cap, -, -, hnew, -⟩ := h
  unfold srvNew at hnew
  split at hnew
  · rw [← Option.some.inj hnew]
  · cases hnew

/-- When the loop starts, there are no resources. -/
theorem Initial.empty (h : Initial s) : (∀ p, s.world.srv.xferAt p = none) ∧
    (∀ t, s.world.srv.timerAt t = none) ∧ ∀ r, s.world.srv.respAt r = none := by
  obtain ⟨-, reqfd, maxfds, uid, cap, -, -, hnew, -⟩ := h
  unfold srvNew at hnew
  split at hnew
  · rw [← Option.some.inj hnew]
    exact ⟨fun _ => rfl, fun _ => rfl, fun _ => rfl⟩
  · cases hnew

theorem Initial.phaseOk (h : Initial s) : PhaseOk s := by
  unfold PhaseOk
  rw [h.1]
  intro q hq
  rw [h.deferredXfers] at hq
  cases hq

theorem Kept.reachable (h : Kept A guard I) (hinit : ∀ s, Initial s → I s.config)
    (hr : server.Reachable guard s) : Sound I s ∨ Halted I s := by
  obtain ⟨s₀, h₀, hsteps⟩ := hr
  exact h.steps hsteps (Or.inl ⟨Initial.ledger h₀, Initial.phaseOk h₀, hinit s₀ h₀⟩)

theorem Preserved.reachable (h : Preserved A guard I)
    (hinit : ∀ s, Initial s → I s.config) (hr : server.Reachable guard s) : Sound I s :=
  (h.toKept.reachable hinit hr).elim id h.halted

/-- Everything is permitted. -/
def anything : Action → Config → Prop := fun _ _ => True

/-- A property that all actions keep holds along all runs. -/
theorem Preserved.always {I : Config → Prop}
    (hacts : ∀ a c c', Ledger c.world.srv → Performs a c c' → I c → I c')
    (hstop : ∀ w w', Ledger w.srv → Cleared w w' → I ⟨[], w⟩ → I ⟨[], w'⟩) :
    Preserved anything System.always I where
  grants := fun _ _ _ _ _ _ _ _ _ _ => trivial
  acts := fun a c c' hc _ => hacts a c c' hc
  stop := hstop

/-- The books are in order in every reachable state. -/
theorem reachable_ledger (hr : server.Reachable System.always s) :
    Ledger s.world.srv ∧ PhaseOk s := by
  have hsound := (Preserved.always (I := fun _ => True) (fun _ _ _ _ _ _ => trivial)
    fun _ _ _ _ _ => trivial).reachable (fun _ _ => trivial) hr
  exact ⟨hsound.ledger, hsound.phase⟩

/-! Pointers in use were given out. -/

theorem Minted.cleared {w w' : World} (h : Minted w) (hcleared : Cleared w w') : Minted w' where
  resp := by
    rw [hcleared.respAt, hcleared.nextPtr]
    exact h.resp
  trace := by
    intro e he q hq
    obtain ⟨tr, htr, honly, -⟩ := hcleared.trace
    rw [htr] at he
    rw [hcleared.nextPtr]
    rcases List.mem_append.mp he with hold | hin
    · exact h.trace e hold q hq
    · obtain ⟨fd, b, rfl⟩ := honly e hin
      cases hq
  regs := by
    intro reg hreg
    rw [hcleared.regs] at hreg
    cases hreg

theorem Minted.initial {s : State} (h : Initial s) : Minted s.world := by
  have hresps := h.empty.2.2
  obtain ⟨-, reqfd, -, -, -, -, -, -, hkern⟩ := h
  refine ⟨fun r resp hr => ?_, fun e he => ?_, fun reg hreg q hq => ?_⟩
  · rw [hresps] at hr
    cases hr
  · rw [hkern.trace] at he
    cases he
  · rcases hkern.regs reg hreg with hu | hu <;> rw [hu] at hq <;> cases hq

theorem Minted.reachable {s : State} (hr : server.Reachable System.always s) : Minted s.world :=
  ((Preserved.always (I := fun c => Minted c.world) (fun _ _ _ hc hp h => h.performs hc hp)
    fun _ _ _ hcleared h => h.cleared hcleared).reachable (fun _ h => Minted.initial h) hr).inv

end Runs

end Sendfiled
