/-
Why the server stops.  Of what ends the process before `srv_run` returns, everything that is
left in a run that minds the list and the destinations comes from outside: a message that is
written in part, memory that runs out, a file that is cut, a request the protocol excludes.
-/
import Sendfiled.Truncation
import Sendfiled.TimerRegs
import Sendfiled.Draining
import Sendfiled.Kinds

namespace Sendfiled

open Prog Transition

variable {ans : Answers} {l : Label} {s : State} {a : Action} {c c' : Config} {w w₁ : World}
  {p : Ptr} {x : ResrcXfer} {vs : List Visit} {i : Nat}

/-! One call of `transfer_file`. -/

/-- Why a call of `transfer_file` does not return: a message that was written in part, memory
that ran out, a file at its end before everything was written, or nothing to ask for. -/
inductive CallFails (ans : Answers) (x : ResrcXfer) (w : World) : Fault → Prop
  | torn (h : ¬ ans.Whole) : CallFails ans x w (.assertion .sendPduWhole)
  | starved (h : ans.RunsOut w) : CallFails ans x w .nullDeref
  | atEnd (h : ¬ ans.Progresses) : CallFails ans x w (.assertion .nwritten)
  | nothing (h : x.nbytesLeft = 0 ∨ x.file.blksize = 0 ∨ w.srv.pipeCapacity = 0) :
      CallFails ans x w (.assertion .writeSize)

theorem Answers.Disrupts.callFails {srv : Server} {e : Fault} (h : ans.Disrupts srv e)
    (halloc : AllocFault ans w e) (x : ResrcXfer) : CallFails ans x w e := by
  rcases h with ⟨rfl, t, size, n, hwrite, hne⟩ | ⟨rfl, -⟩
  · exact .torn fun hwhole => hne (hwhole t size n hwrite)
  · exact .starved (halloc rfl)

/-- A call that has nothing to ask for stops in its first round. -/
theorem wp_transferFile_nothing {Q : Bool → World → Prop} {E : Fault → World → Prop}
    (hx : w.srv.xferAt p = some x) (hcmd : x.cmd = .read ∨ x.cmd = .send)
    (hzero : x.nbytesLeft = 0 ∨ x.file.blksize = 0 ∨ w.srv.pipeCapacity = 0)
    (hE : E (.assertion .writeSize) w) : wp (transferFile ans p) Q E w := by
  have hsize : ¬ 0 < min x.file.blksize (min x.nbytesLeft.toNat (w.srv.pipeCapacity - 0)) := by
    rcases hzero with h | h | h <;> simp [h]
  have hloop : wp (transferLoop ans p (w.srv.pipeCapacity + 1) 0) Q E w := by
    simp only [transferLoop, wp_bind]
    apply wp_getXfer_live hx
    simp only [wp_gets, wp_assert]
    exact ⟨fun hpos => absurd hpos hsize, fun _ => hE⟩
  simp only [transferFile, wp_bind]
  apply wp_getXfer_live hx
  rcases hcmd with hcmd | hcmd
  · rw [hcmd]
    exact hloop
  · rw [hcmd]
    exact hloop

theorem CallEnds.live {b : Bool} {w' : World} (h : CallEnds ans p x w b w') :
    ∃ y, w'.srv.xferAt p = some y := by
  cases h with
  | full => exact ⟨_, Function.update_self ..⟩
  | completed hadvanced _ _ hreport =>
      obtain ⟨tr, haside, -⟩ := hreport.aside
      exact ⟨_, haside.xferAt ▸ hadvanced.xfer⟩
  | blocked => exact ⟨_, Function.update_self ..⟩
  | muted hhead => exact ⟨_, hhead.advanced.xfer⟩
  | @broken y _ w₁ _ _ _ hhead _ _ hreport =>
      obtain ⟨tr, haside, -⟩ := hreport.aside
      exact ⟨y, (congrFun haside.xferAt p).trans hhead.advanced.xfer⟩

/-- A call for a live transfer that is not cancelled returns, or fails for one of the reasons. -/
theorem wp_transferFile_fails (hx : w.srv.xferAt p = some x) (hdefer : x.defer ≠ .cancel)
    (hshared : x.cmd = .read → x.statFd = x.destFd)
    (hroom : x.defer = .none → w.srv.deferredXfers.length < w.srv.xfers.size) :
    wp (transferFile ans p) (fun _ w' => ∃ y, w'.srv.xferAt p = some y)
      (fun e _ => CallFails ans x w e) w := by
  by_cases hcmd : x.cmd = .read ∨ x.cmd = .send
  · by_cases hzero : x.nbytesLeft = 0 ∨ x.file.blksize = 0 ∨ w.srv.pipeCapacity = 0
    · exact wp_transferFile_nothing hx hcmd hzero (.nothing hzero)
    · rw [not_or, not_or] at hzero
      obtain ⟨hleft, hblksize, hcapacity⟩ := hzero
      have hrunning : Running p x w :=
        { cmd := hcmd
          stat := hcmd.imp_left hshared
          left := hleft
          blksize := Nat.pos_of_ne_zero hblksize
          capacity := Nat.pos_of_ne_zero hcapacity
          xfer := hx
          defer := hdefer
          room := hroom }
      apply wp_mono (wp_and hrunning.wp_transferFile (wp_transferFile_ends hx))
      · exact fun _ _ hends => hends.1.live
      · rintro e w' ⟨hstops, halloc⟩
        cases hstops with
        | disrupted he => exact he.callFails halloc x
        | atEnd hrounds hy hend =>
            obtain ⟨y, tr, hhead⟩ := hrounds.atHead hx hleft hrunning.capacity
            rw [hhead.advanced.xfer] at hy
            cases hy
            have hpos := (hhead.writeSize_bounds hrunning.blksize).1
            exact .atEnd fun hprogress => hprogress _ _ hpos (Kernel.moveBytes_zero hpos hend)
  · simp only [transferFile, wp_bind]
    apply wp_getXfer_live hx
    rw [not_or] at hcmd
    cases hkind : x.cmd with
    | read => exact absurd hkind hcmd.1
    | send => exact absurd hkind hcmd.2
    | fileOpen | sendOpen | cancel => exact ⟨x, hx⟩

/-! One pass over the deferred transfers. -/

theorem Performs.pipeCapacity (h : Performs a c c') :
    c'.world.srv.pipeCapacity = c.world.srv.pipeCapacity := by
  cases h with
  | quiet _ hs _ => exact hs.pipeCapacity
  | _ => rfl

theorem Begun.pipeCapacity (h : Begun ans w vs i w₁) :
    w₁.srv.pipeCapacity = w.srv.pipeCapacity := by
  induction h with
  | start => rfl
  | @round vs i w₁ w₂ p stays _ hi hvisit ih =>
      rw [← ih]
      exact (wp_done (wp_visitDeferred_acts hi) hvisit).keeps (I := fun c => c.world.srv.pipeCapacity =
        w₁.srv.pipeCapacity) (fun _ _ _ _ hp hc => hp.pipeCapacity.trans hc) rfl

/-- A pass that does not return was stopped by a call for one of the transfers in the list,
which is as it was when the pass began. -/
theorem processDeferred_fails {e : Fault} {w' : World} (hw : Deferrable w)
    (hshared : ∀ p x, w.srv.xferAt p = some x → x.cmd = .read → x.statFd = x.destFd)
    (h : processDeferred ans w = .fault e w') :
    ∃ vs i w₁ p x, Begun ans w vs i w₁ ∧ w₁.srv.deferredXfers[i]? = some p ∧
      w.srv.xferAt p = some x ∧ CallFails ans x w₁ e := by
  have hcalls : ¬ CallsReturn ans w := by
    intro hcalls
    obtain ⟨vs, i, w₁, -, hdone, -⟩ := (processDeferred_passes_iff hw).1.mpr hcalls
    rw [h] at hdone
    cases hdone
  simp only [CallsReturn, not_forall, not_exists] at hcalls
  obtain ⟨vs, i, w₁, p, hbegun, hi, hready, hreturns⟩ := hcalls
  cases hcall : transferFile ans p w₁ with
  | done b w₂ => exact absurd hcall (hreturns b w₂)
  | fault e' w₂ =>
      have hfault := hbegun.processDeferred_fault hw hi hready hcall
      rw [h] at hfault
      cases hfault
      have hmidway := hbegun.midway hw
      obtain ⟨x, hx, hdefer⟩ := hready
      have hx₀ : w.srv.xferAt p = some x := by
        rw [← hmidway.waiting p (hmidway.notMem hw hi)]
        exact hx
      have hne : x.defer ≠ .cancel ∧ x.defer ≠ .none := by
        rw [hdefer]
        decide
      have hfails := wp_fault (wp_transferFile_fails hx hne.1 (hshared p x hx₀)
        fun hnone => absurd hnone hne.2) hcall
      exact ⟨vs, i, w₁, p, x, hbegun, hi, hx₀, hfails⟩

/-! What every live transfer keeps between two steps. -/

/-- A transfer of a READ has one descriptor for both purposes. -/
def SharesRead (c : Config) : Prop :=
  ∀ p x, c.world.srv.xferAt p = some x → x.cmd = .read → x.statFd = x.destFd

/-- New transfers of a READ have one descriptor. -/
def sharesNew : Action → Config → Prop
  | .enroll x, _ => x.cmd = .read → x.statFd = x.destFd
  | _, _ => True

theorem SharesRead.performs (h : SharesRead c) (ha : sharesNew a c) (hp : Performs a c c') :
    SharesRead c' := by
  intro q y hy hread
  rcases hp.evolves hy with ⟨-, rfl⟩ | ⟨x, hx, hevolves⟩
  · exact ha hread
  · rcases hevolves.cmd with ⟨hcmd, hdest⟩ | ⟨hcmd, -⟩
    · rw [hevolves.statFd, hdest]
      exact h q x hx (hcmd ▸ hread)
    · rw [hcmd] at hread
      cases hread

theorem StepMay.sharesNew (ha : StepMay ans l s a c) : Sendfiled.sharesNew a c := by
  cases a with
  | enroll x =>
      obtain ⟨r, rest, req, -, -, -, -, -, hx, -⟩ := ha.enroll_cases
      intro hread
      rw [hx.cmd] at hread
      rw [hx.statFd, hx.destFd, ProtRequest.destFd, hread]
  | _ => trivial

theorem sharesRead_preserved : Preserved sharesNew System.always SharesRead where
  grants := fun _ _ _ _ _ _ _ _ _ ha => ha.sharesNew
  acts := fun _ _ _ _ ha hp h => h.performs ha hp
  stop := fun w w' _ hcleared _ p x hx => by
    rw [show (Config.mk [] w').world.srv.xferAt p = none from hcleared.xferAt p] at hx
    cases hx

theorem reachable_sharesRead (hr : server.Reachable System.always s) : SharesRead s.config := by
  refine (sharesRead_preserved.reachable (fun s hinit p x hx => ?_) hr).inv
  rw [show s.config.world.srv.xferAt p = none from hinit.empty.1 p] at hx
  cases hx

/-- Something is left of a transfer, unless its range was empty. -/
def View.Unfinished (v : View) : Prop :=
  ∀ x, v.xfer = some x → x.file.size ≠ 0 → x.nbytesLeft ≠ 0

theorem Deed.unfinished {v v' : View} (h : Deed ans p v v') (hv : v.Unfinished) :
    v'.Unfinished := by
  intro y hy hsize
  cases h with
  | served hx _ htransferred =>
      cases htransferred with
      | full _ _ hleft =>
          cases hy
          exact hleft
      | faltered _ _ hfaltered =>
          cases hfaltered with
          | paused _ hleft =>
              cases hy
              exact hleft
          | stalled _ hleft =>
              cases hy
              exact hleft
  | ended | errored | shut | buried | rejected => cases hy
  | @cancelled x hx =>
      cases hy
      exact hv x hx hsize
  | @assigned x _ hx =>
      cases hy
      exact hv x hx hsize
  | dropped | settled | retried => exact hv y hy hsize

theorem reachable_unfinished (hr : server.Reachable System.always s)
    (hx : s.world.srv.xferAt p = some x) (hsize : x.file.size ≠ 0) : x.nbytesLeft ≠ 0 := by
  refine view_invariant (V := View.Unfinished) ?_ ?_ ?_ ?_ hr x hx hsize
  · intro v hnone y hy
    rw [hnone] at hy
    cases hy
  · rintro x v ⟨-, hleft⟩ y hy hsize
    cases hy
    rw [hleft]
    exact hsize
  · exact fun _ _ _ _ _ _ hdeed hv => hdeed.unfinished hv
  · intro w w' hexpired hv y hy hsize
    cases hexpired with
    | @intro x _ _ _ hx _ _ _ hview _ =>
        rw [hview] at hy
        cases hy
        exact hv x hx hsize

/-! A received datagram. -/

/-- Why the server does not get over a received datagram. -/
inductive ReceiptFails (ans : Answers) (r : Received) (w : World) : Fault → Prop
  | torn (h : ¬ ans.Whole) : ReceiptFails ans r w (.assertion .sendPduWhole)
  | empty (h : r.nread = 0) : ReceiptFails ans r w (.assertion .recvNonempty)
  | status {req : ProtRequest} {e : Errno}
      (hreq : protUnmarshalRequest w.srv.recvbuf r.nread = some req)
      (h : StatedBy ans req r.pid r.fds w e) (hrange : ¬ (0 < e ∧ e ≤ 255)) :
      ReceiptFails ans r w (.assertion .sendReqErrStat)
  | full : ReceiptFails ans r w (.assertion .deferCancel)

theorem wp_processCancel_full (hledger : Ledger w.srv) {buf : RecvBuf} {clientPid : Nat} :
    wp (processCancel buf clientPid) (fun _ _ => True)
      (fun e _ => e = .assertion .deferCancel) w := by
  unfold processCancel
  cases protUnmarshalCancel buf with
  | none => trivial
  | some t =>
      simp only [wp_bind]
      refine wp_getOpenFile_live hledger (fun _ => trivial) fun p x _ hx _ => ?_
      simp only [wp_bind, deferCancel]
      apply wp_getXfer_live hx
      simp only [wp_gets, wp_assert]
      refine ⟨fun _ => ?_, fun _ => trivial⟩
      rw [wp_ite]
      constructor
      · intro _
        simp only [pushDeferred, wp_bind, wp_onSrv]
        exact wp_setDefer (by exact hx) trivial
      · exact fun _ => wp_setDefer hx trivial

theorem wp_processRequest_fails (hledger : Ledger w.srv) (hnum : w.kern.Numbered) (r : Received) :
    wp (processRequest ans w.srv.recvbuf r.nread r.pid r.fds) (fun _ _ => True)
      (fun e _ => ReceiptFails ans r w e) w := by
  cases hreq : protUnmarshalRequest w.srv.recvbuf r.nread with
  | some req =>
      apply wp_mono (wp_processRequest_steps hledger hnum hreq)
      · exact fun _ _ _ => trivial
      · intro e w' haborts
        cases haborts with
        | torn h => exact .torn h
        | status hrange h => exact .status hreq h hrange
  | none =>
      unfold processRequest
      split
      · trivial
      · split
        · trivial
        · cases ProtCmdReq.ofCode (sfdGetCmd w.srv.recvbuf) with
          | none => trivial
          | some cmd =>
              cases cmd with
              | read | send =>
                  simp only [processReadSend, hreq]
                  trivial
              | fileOpen =>
                  simp only [processFileOpen, hreq]
                  trivial
              | sendOpen =>
                  apply wp_mono (wp_processSendOpen_torn hledger)
                  · exact fun _ _ _ => trivial
                  · rintro e w' ⟨rfl, htorn⟩
                    exact .torn htorn
              | cancel =>
                  apply wp_mono (wp_processCancel_full hledger)
                  · exact fun _ _ _ => trivial
                  · rintro e w' rfl
                    exact .full

/-- The body of the loop of `handle_reqfd` returns, or fails for one of the reasons. -/
theorem wp_handleReceived_fails (hledger : Ledger w.srv) (hnum : w.kern.Numbered)
    (r : Received) :
    wp (handleReceived ans r) (fun _ _ => True) (fun e _ => ReceiptFails ans r w e) w := by
  have hclose : ∀ w' : World, wp (closeFds ans r.fds r.nfds) (fun _ _ => True)
      (fun e _ => ReceiptFails ans r w e) w' :=
    fun w' => wp_closeFds_ignored fun _ _ => trivial
  simp only [handleReceived, wp_bind, wp_assert, wp_gets]
  refine ⟨fun _ => ?_, fun hempty => .empty (not_not.mp hempty)⟩
  split
  · trivial
  · split
    · simp only [wp_bind, sendXferErr]
      apply wp_sendPdu_whole
      · exact fun _ k _ _ => hclose _
      · exact fun htorn _ => .torn htorn
    · simp only [wp_bind]
      apply wp_mono (wp_processRequest_fails hledger hnum r)
      · intro b w' _
        rw [wp_ite]
        exact ⟨fun _ => trivial, fun _ => hclose w'⟩
      · exact fun _ _ h => h

/-! An event. -/

/-- What the server makes of an event that is none of its resources'. -/
inductive SignalFails (ans : Answers) (ev : PollEvent) (w : World) : Fault → Prop
  | socket (hu : ev.udata = .reqfd) (herr : ev.err = false)
      (h : ¬ (ev.inp = true ∧ ev.out = false)) :
      SignalFails ans ev w (.assertion .reqfdEvents)
  | signal (hu : ev.udata = .sigfd)
      (h : ev.err = true ∨ ev.inp = false ∨ ans.termSignal w.kern.tick = false) :
      SignalFails ans ev w (.assertion .isXfer)

theorem wp_dispatchEvent_socket {ev : PollEvent} (hu : ev.udata = .reqfd) :
    wp (dispatchEvent ans ev) (fun _ _ => True) (fun e _ => SignalFails ans ev w e) w := by
  cases herr : ev.err with
  | true => simp [dispatchEvent, syspollGet, hu, identOf, herr]
  | false =>
      have hodd : (ev.inp = true → ev.out = true) →
          SignalFails ans ev w (.assertion .reqfdEvents) := by
        intro h
        apply SignalFails.socket hu herr
        rintro ⟨hinp, hout⟩
        rw [h hinp] at hout
        cases hout
      simpa [dispatchEvent, syspollGet, hu, identOf, herr] using hodd

theorem wp_dispatchEvent_signal {ev : PollEvent} (hu : ev.udata = .sigfd) :
    wp (dispatchEvent ans ev) (fun _ _ => True) (fun e _ => SignalFails ans ev w e) w := by
  cases herr : ev.err with
  | true =>
      have hfails : SignalFails ans ev w _ := .signal hu (Or.inl herr)
      simpa [dispatchEvent, syspollGet, hu, identOf, herr, processResource] using hfails
  | false =>
      cases hinp : ev.inp with
      | false =>
          have hfails : SignalFails ans ev w _ := .signal hu (Or.inr (Or.inl hinp))
          simpa [dispatchEvent, syspollGet, hu, identOf, herr, hinp, processResource] using hfails
      | true =>
          cases hterm : ans.termSignal w.kern.tick with
          | true => simp [dispatchEvent, syspollGet, hu, identOf, herr, hinp, hterm]
          | false =>
              have hfails := SignalFails.signal hu (Or.inr (Or.inr hterm))
              simpa [dispatchEvent, syspollGet, hu, identOf, herr, hinp, hterm, processResource]
                using hfails

/-- The branch for transfers returns, or a call of `transfer_file` fails. -/
theorem wp_processXfer_fails {err : Bool} (hx : w.srv.xferAt p = some x)
    (hshared : x.cmd = .read → x.statFd = x.destFd)
    (hroom : x.defer = .none → w.srv.deferredXfers.length < w.srv.xfers.size) :
    wp (processXfer ans err p) (fun _ _ => True) (fun e _ => CallFails ans x w e) w := by
  simp only [processXfer, wp_bind]
  apply wp_getXfer_live hx
  rw [wp_ite]
  refine ⟨fun _ => trivial, fun hcancel => ?_⟩
  rw [wp_ite]
  constructor
  · intro _
    rw [wp_preserveErrno]
    exact wp_deleteRegisteredXfer hx trivial
  · intro _
    rw [wp_ite]
    refine ⟨fun _ => trivial, fun _ => ?_⟩
    simp only [wp_bind]
    apply wp_mono (wp_transferFile_fails hx hcancel hshared hroom)
    · rintro b w' ⟨y, hy⟩
      rw [wp_ite]
      refine ⟨fun _ => trivial, fun _ => ?_⟩
      rw [wp_preserveErrno]
      exact wp_deleteRegisteredXfer hy trivial
    · exact fun _ _ h => h

/-- Dispatching an event of a live transfer with a destination of its own. -/
theorem wp_dispatchEvent_xfer_fails {ev : PollEvent} (hu : ev.udata = .xfer p)
    (hx : w.srv.xferAt p = some x) (hne : x.destFd ≠ w.srv.reqfd)
    (hshared : x.cmd = .read → x.statFd = x.destFd)
    (hroom : x.defer = .none → w.srv.deferredXfers.length < w.srv.xfers.size) :
    wp (dispatchEvent ans ev) (fun _ _ => True) (fun e _ => CallFails ans x w e) w := by
  apply wp_dispatchEvent_resource
  · rw [hu]
    exact Udata.noConfusion
  · simp only [hu, identOf, wp_bind, wp_pure]
    exact wp_getXfer_live hx ⟨rfl, fun heq => hne (Option.some.inj heq)⟩
  · simp only [hu, processResource]
    exact wp_processXfer_fails hx hshared hroom

/-! Any step. -/

/-- A step that faults does so in one of three functions. -/
inductive FaultsIn (ans : Answers) (l : Label) (s : State) (e : Fault) : Prop
  | event {garbage : Fd × Fd} {ev : PollEvent} {rest : List PollEvent} {w' : World}
      (hl : l = .event garbage) (hphase : s.phase = .events (ev :: rest))
      (h : dispatchEvent ans ev s.world = .fault e w') : FaultsIn ans l s e
  | request {r : Received} {rest : List PollEvent} {w' : World} (hl : l = .request)
      (hphase : s.phase = .requested r rest)
      (h : handleReceived ans r s.world = .fault e w') : FaultsIn ans l s e
  | deferred {w' : World} (hl : l = .deferred) (hphase : s.phase = .events [])
      (h : processDeferred ans s.world = .fault e w') : FaultsIn ans l s e

theorem shutdown_returns (hledger : Ledger w.srv) (e : Fault) : shutdown ans w ≠ .error e := by
  intro h
  obtain ⟨w', hw', -⟩ := shutdown_cleared ans hledger
  rw [hw'] at h
  cases h

theorem settle_error {α : Type} {o : Outcome Fault World α} {f : α → World → Except Fault State}
    {e : Fault} (h : settle o f = .error e) :
    (∃ w', o = .fault e w') ∨ ∃ a w', o = .done a w' ∧ f a w' = .error e := by
  cases o with
  | done a w' => exact Or.inr ⟨a, w', rfl, h⟩
  | fault e' w' =>
      cases h
      exact Or.inl ⟨w', rfl⟩

theorem returns_usRecv (old : Fd × Fd) (d : Datagram) (w : World) :
    Returns (usRecv ans old d) w := by
  simp only [Returns, usRecv, wp_bind, wp_sys, wp_onSrv]
  split
  · trivial
  · split <;> trivial

theorem next_faultsIn (hr : server.Reachable System.always s) {e : Fault}
    (hn : next (ans, l) s = some (.error e)) : FaultsIn ans l s e := by
  obtain ⟨hledger, hok⟩ := reachable_ledger hr
  obtain ⟨w, phase⟩ := s
  have hstop : ∀ w', Ledger w'.srv → some (shutdown ans w') = some (.error e) → False :=
    fun w' hledger' h => shutdown_returns hledger' e (Option.some.inj h)
  cases l with
  | wait evs =>
      cases phase <;> simp only [next, reduceCtorEq] at hn
      split at hn <;> cases hn
  | waitFailed e' =>
      cases phase <;> simp only [next, reduceCtorEq] at hn
      split at hn
      · exact (hstop (withErrno e' w) hledger hn).elim
      · cases hn
  | event garbage =>
      cases phase with
      | events evs =>
          cases evs with
          | nil => cases hn
          | cons ev rest =>
              simp only [next, Option.some.injEq] at hn
              rcases settle_error hn with ⟨w', hfault⟩ | ⟨d, w', hdone, hd⟩
              · exact .event rfl rfl hfault
              · cases d with
                | request | handled => cases hd
                | stop =>
                    have hwp : wp (dispatchEvent ans ev) (fun _ w' => Ledger w'.srv)
                        (Faulty anything ⟨[], w⟩) w :=
                      wp_dispatchEvent (fun _ _ _ => trivial) Acts.refl (fun _ _ _ => trivial)
                        fun _ w' _ hacts => hacts.ledger hledger
                    exact (hstop w' (wp_done hwp hdone) (congrArg some hd)).elim
      | waiting | receiving | requested | stopped => cases hn
  | receive d =>
      cases phase <;> simp only [next, reduceCtorEq, Option.some.injEq] at hn
      rename_i old rest
      have hledger' : wp (usRecv ans old d) (fun _ w' => Ledger w'.srv)
          (Faulty anything ⟨[], w⟩) w :=
        wp_usRecv (fun _ _ _ => trivial) Acts.refl (fun w' hacts => hacts.ledger hledger)
          fun r w' _ hacts => hacts.ledger hledger
      rcases settle_error hn with ⟨w', hfault⟩ | ⟨o, w', hdone, ho⟩
      · exact (wp_fault (returns_usRecv old d w) hfault).elim
      · cases o with
        | some r => cases ho
        | none =>
            dsimp only at ho
            split at ho
            · exact (hstop w' (wp_done hledger' hdone) (congrArg some ho)).elim
            · cases ho
  | receiveFailed e' =>
      cases phase <;> simp only [next, reduceCtorEq] at hn
      split at hn
      · exact (hstop (withErrno e' w) hledger hn).elim
      · cases hn
  | request =>
      cases phase <;> simp only [next, reduceCtorEq, Option.some.injEq] at hn
      rcases settle_error hn with ⟨w', hfault⟩ | ⟨d, w', hdone, hd⟩
      · exact .request rfl rfl hfault
      · cases hd
  | deferred =>
      cases phase with
      | events evs =>
          cases evs with
          | cons ev rest => cases hn
          | nil =>
              simp only [next, Option.some.injEq] at hn
              rcases settle_error hn with ⟨w', hfault⟩ | ⟨d, w', hdone, hd⟩
              · exact .deferred rfl rfl hfault
              · cases hd
      | waiting | receiving | requested | stopped => cases hn
  | clientCloses n =>
      simp only [next] at hn
      split at hn <;> cases hn

theorem reachable_outstanding (hr : server.Reachable KeepsDest s) (hrun : s.phase ≠ .stopped) :
    Sound Watched s ∧ Outstanding s := by
  refine running_invariant (I := fun s => Sound Watched s ∧ Outstanding s) ?_ ?_ hr hrun
  · intro s hinit
    have hnil : s.pendingXfers = [] := by
      simp [State.pendingXfers, State.pending, hinit.1]
    refine ⟨⟨hinit.ledger, hinit.phaseOk, watched_initial s hinit⟩, ?_, ?_⟩
    · rw [hnil]
      exact List.nodup_nil
    · rw [hnil]
      exact fun q hq => absurd hq List.not_mem_nil
  · rintro ans l s s' - ⟨hs, hout⟩ hg hn hrun'
    rcases watched_kept.next hs hg hn with hs' | hs'
    · exact ⟨hs', hout.next hs hg hn⟩
    · exact absurd hs'.1 hrun'

/-- The steps after which nothing refers to what is gone: none deletes a transfer behind the
list's back or cancels one again while the list is full, each SEND brings its destination, a
SEND_OPEN names a transfer without one, and a response that is freed has the only copy of its
file. -/
structure Orderly (l : Answers × Label) (s : State) : Prop where
  list : MindsCancel l s
  dest : KeepsDest l s
  sole : ∀ r resp, Disposing l s r resp → s.world.SoleCopy l.1 resp

theorem Orderly.undivided (h : Orderly (ans, l) s) : Undivided (ans, l) s where
  dest := by
    rintro rfl
    exact h.dest.brings
  sole := h.sole

/-- Why a step ends the process: a message was written in part, memory ran out, a file was
at its end before its transfer, a transfer had nothing to write, the poller reported what
nobody asked for, a datagram was empty, or an error was no status. -/
inductive StepFails (ans : Answers) (l : Label) (s : State) : Fault → Prop
  | torn (h : ¬ ans.Whole) : StepFails ans l s (.assertion .sendPduWhole)
  | starved {p : Ptr} {w : World} (hw : s.TurnsTo ans p l w) (h : ans.RunsOut w) :
      StepFails ans l s .nullDeref
  | atEnd (h : ¬ ans.Progresses) : StepFails ans l s (.assertion .nwritten)
  | nothing {p : Ptr} {x : ResrcXfer} (hx : s.world.srv.xferAt p = some x)
      (h : x.file.size = 0 ∨ x.file.blksize = 0 ∨ s.world.srv.pipeCapacity = 0) :
      StepFails ans l s (.assertion .writeSize)
  | event {garbage : Fd × Fd} {ev : PollEvent} {rest : List PollEvent} {e : Fault}
      (hl : l = .event garbage) (hphase : s.phase = .events (ev :: rest))
      (h : SignalFails ans ev s.world e) : StepFails ans l s e
  | empty {r : Received} {rest : List PollEvent} (hl : l = .request)
      (hphase : s.phase = .requested r rest) (h : r.nread = 0) :
      StepFails ans l s (.assertion .recvNonempty)
  | status {r : Received} {rest : List PollEvent} {req : ProtRequest} {e : Errno}
      (hl : l = .request) (hphase : s.phase = .requested r rest)
      (hreq : protUnmarshalRequest s.world.srv.recvbuf r.nread = some req)
      (h : StatedBy ans req r.pid r.fds s.world e) (hrange : ¬ (0 < e ∧ e ≤ 255)) :
      StepFails ans l s (.assertion .sendReqErrStat)

theorem CallFails.stepFails {e : Fault} (h : CallFails ans x w e) (hw : s.TurnsTo ans p l w)
    (hcapacity : w.srv.pipeCapacity = s.world.srv.pipeCapacity)
    (hr : server.Reachable System.always s) (hx : s.world.srv.xferAt p = some x) :
    StepFails ans l s e := by
  cases h with
  | torn h => exact .torn h
  | starved h => exact .starved hw h
  | atEnd h => exact .atEnd h
  | nothing h =>
      apply StepFails.nothing hx
      rw [hcapacity] at h
      rcases h with hleft | hrest
      · left
        by_contra hsize
        exact reachable_unfinished hr hx hsize hleft
      · exact Or.inr hrest

/-- With room for every transfer that is cancelled, the list never runs full. -/
theorem not_deferCancel (hr : server.Reachable MindsCancel s) (hg : MindsCancel (ans, l) s) :
    next (ans, l) s ≠ some (.error (.assertion .deferCancel)) := by
  intro hn
  have hsound := mindsCancel_preserved.reachable listLive_initial hr
  obtain ⟨c, hledger, hlive, p, x, hx, hready, hroom, hfull⟩ :=
    mindsCancel_preserved.fault hsound hg hn
  have hlt : c.world.srv.deferredXfers.length < c.world.srv.xfers.size := by
    cases hdefer : x.defer with
    | none => exact hlive.room hledger hx hdefer
    | cancel => exact hroom x hx hdefer
    | ready => exact absurd hdefer hready
  omega

/-- Whatever happens, in a run whose steps are orderly the server reads no freed memory, fails
no assertion about its own state and loops no longer than it should: what ends it is the
world outside. -/
theorem faults_from_outside (hr : server.Reachable Orderly s) (hg : Orderly (ans, l) s)
    {e : Fault} (hn : server.next (ans, l) s = some (.error e)) : StepFails ans l s e := by
  have halways : server.Reachable System.always s := hr.mono fun _ _ _ => trivial
  have hcancel : server.Reachable MindsCancel s := hr.mono fun _ _ h => h.list
  obtain ⟨hledger, hok⟩ := reachable_ledger halways
  have hrun : s.phase ≠ .stopped := by
    intro hstop
    rw [show server.next (ans, l) s = none from next_stopped hstop _] at hn
    cases hn
  have hlive : ListLive s.config :=
    (mindsCancel_preserved.reachable listLive_initial hcancel).inv
  have hshared : SharesRead s.config := reachable_sharesRead halways
  have hnoroom : e ≠ .assertion .deferCancel := by
    rintro rfl
    exact not_deferCancel hcancel hg.list hn
  rcases next_faultsIn halways hn with ⟨hl, hphase, hfault⟩ | ⟨hl, hphase, hfault⟩ |
    ⟨hl, hphase, hfault⟩
  · rename_i garbage ev rest w'
    have hev : ev ∈ s.pending := by
      simp [State.pending, hphase]
    cases hu : ev.udata with
    | sigfd => exact .event hl hphase (wp_fault (wp_dispatchEvent_signal hu) hfault)
    | reqfd => exact .event hl hphase (wp_fault (wp_dispatchEvent_socket hu) hfault)
    | timer t =>
        have htimers := reachable_timekeeping halways hrun
        rcases wp_fault (htimers.wp_dispatchEvent hledger (reachable_descriptors halways hn)
          hev hu) hfault with ⟨rfl, htorn⟩ | hfull
        · exact .torn htorn
        · exact absurd hfull hnoroom
    | resp r =>
        have hsub := reachable_subscribed (hr.mono fun _ _ h => h.undivided) hrun
        obtain ⟨resp, hresp⟩ := hsub.live r
          (List.mem_filterMap.mpr ⟨ev, hev, Udata.resp?_eq_some.mpr hu⟩)
        obtain ⟨f, hret⟩ := hsub.matched.held r resp hresp
        have hne : resp.statFd ≠ s.world.srv.reqfd := hsub.descriptors.ne_reqfd hret
        obtain ⟨rfl, htorn⟩ := wp_fault (wp_dispatchEvent_resp hu hresp hne) hfault
        exact .torn htorn
    | xfer p =>
        obtain ⟨hwatched, hout⟩ := reachable_outstanding (hr.mono fun _ _ h => h.dest) hrun
        obtain ⟨x, hx, hdest⟩ := hout.bound p
          (List.mem_filterMap.mpr ⟨ev, hev, Udata.xfer?_eq_some.mpr hu⟩)
        have hne : x.destFd ≠ s.world.srv.reqfd := by
          intro heq
          cases hwatched.inv.descriptors.exclusive.unique (.channel p) .socket x.destFd hdest
            ⟨x, hx, Or.inr rfl⟩ heq
        have hfails := wp_fault (wp_dispatchEvent_xfer_fails hu hx hne (hshared p x hx)
          fun hnone => hlive.room hledger hx hnone) hfault
        obtain ⟨w, phase⟩ := s
        subst hl hphase
        exact hfails.stepFails (.event hu) rfl halways hx
  · rename_i r rest w'
    cases wp_fault (wp_handleReceived_fails hledger (reachable_numbered halways hrun) r) hfault with
    | torn h => exact .torn h
    | empty h => exact .empty hl hphase h
    | status hreq h hrange => exact .status hl hphase hreq h hrange
    | full => exact absurd rfl hnoroom
  · have hdeferrable : Deferrable s.world := by
      refine ⟨hledger.nodup, fun q hq => ?_⟩
      obtain ⟨x, hx⟩ := hlive q hq
      refine ⟨x, hx, ?_⟩
      have hsome := (hledger.listed q x hx).mp hq
      cases hdefer : x.defer with
      | none => exact absurd hdefer hsome
      | cancel => exact Or.inl rfl
      | ready => exact Or.inr rfl
    obtain ⟨vs, i, w₁, p, x, hbegun, hi, hx, hfails⟩ :=
      processDeferred_fails hdeferrable hshared hfault
    obtain ⟨w, phase⟩ := s
    subst hl hphase
    exact hfails.stepFails (.round hbegun hi) hbegun.pipeCapacity halways hx

section Runs

open Scenario

/-- The part of `Orderly` that is about the list and the destinations, while no event of a
response is to be handled. -/
def orderlyHere (l : Answers × Label) (s : State) : Bool :=
  decide (MindsCancel l s) && decide (KeepsDest l s) && s.pendingResps.isEmpty

theorem orderly_of_here {l : Answers × Label} {s : State} (h : orderlyHere l s = true) :
    Orderly l s := by
  simp only [orderlyHere, Bool.and_eq_true, decide_eq_true_eq, List.isEmpty_iff] at h
  obtain ⟨⟨hlist, hdest⟩, hnone⟩ := h
  refine ⟨hlist, hdest, fun r resp hevent => ?_⟩
  obtain ⟨garbage, ev, rest, -, hphase, hu, -⟩ := hevent
  have hmem : r ∈ s.pendingResps :=
    List.mem_filterMap.mpr ⟨ev, by simp [State.pending, hphase], Udata.resp?_eq_some.mpr hu⟩
  rw [hnone] at hmem
  cases hmem

/-- A READ whose file becomes shorter while it waits in the deferred list. -/
theorem faults_from_outside_of_deferredRead : ∃ s, server.Reachable Orderly s ∧
    server.next (truncated tenBytes, .deferred) s = some (.error (.assertion .nwritten)) ∧
    StepFails (truncated tenBytes) .deferred s (.assertion .nwritten) := by
  obtain ⟨s, hr, hP⟩ := exists_reachable (fun l s => orderlyHere l s = true) 4 4
    (deferredRead ++ [(answers tenBytes, .wait [])])
    (fun s => orderlyHere (truncated tenBytes, .deferred) s &&
      failsWith (.assertion .nwritten) (next (truncated tenBytes, .deferred) s))
    (by decide +kernel)
  rw [Bool.and_eq_true] at hP
  have hr' : server.Reachable Orderly s := hr.mono fun _ _ h => orderly_of_here h
  have hn := eq_of_failsWith hP.2
  exact ⟨s, hr', hn, faults_from_outside hr' (orderly_of_here hP.1) hn⟩

end Runs

end Sendfiled
