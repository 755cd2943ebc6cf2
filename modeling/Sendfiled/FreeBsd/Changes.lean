/-
How much of the change list of the poller a step of the server uses.  What a request, an
event or a deferred transfer may queue is read off the state before the step; as long as
that fits, no assertion about the room of the list fails.
-/
import Sendfiled.FreeBsd.Server
import Sendfiled.Lib.Budget
import Sendfiled.Undoing

namespace Sendfiled.Kqueue

open Prog Transition
open FreeBsd (EV_ONESHOT K KEvent PollAssertion Queued SIGTERM SYSPOLL_READ SYSPOLL_WRITE
  Syspoll SyspollResrc isChange_delete readEvent wp_evSet wp_kqAdd wp_registerFilter)

/-- The assertions about the room of the change list. -/
def HostFault.IsRoom : HostFault → Prop
  | .poll .kqAddRoom | .poll .registerRoom | .poll .deregisterRoom => True
  | _ => False

/-- The change list as a supply. -/
def changeList : Meter HostFault Host where
  used := fun h => h.poll.size
  limit := fun h => h.poll.capacity
  exhausted := HostFault.IsRoom

section Poller

variable {h : Host} {n : Nat}

theorem wp_onWorld {α : Type} {m : M α} {Q : α → Host → Prop} {E : HostFault → Host → Prop} :
    wp (onWorld m) Q E h ↔ wp m (fun a w => Q a { h with world := w })
      (fun e w => E (.server e) { h with world := w }) h.world :=
  wp_zoom

/-- Code that does not touch the poller uses nothing. -/
theorem spends_onWorld {α : Type} (m : M α) : Spends changeList n (onWorld m) h := by
  unfold Spends
  rw [wp_onWorld]
  exact wp_of_forall (fun _ _ => ⟨Nat.le_add_right _ _, rfl⟩) (fun _ _ hroom => absurd hroom id)

/-- A call that queues up to `n` changes. -/
theorem spends_onPoll {α : Type} {m : K α}
    (hm : wp m (fun _ p' => p'.size ≤ h.poll.size + n ∧ p'.capacity = h.poll.capacity)
      (fun a _ => (HostFault.poll a).IsRoom → h.poll.capacity < h.poll.size + n) h.poll) :
    Spends changeList n (onPoll m) h := by
  unfold Spends onPoll
  rw [wp_zoom]
  exact hm

/-- A change finds room unless the list is full. -/
theorem spends_queued {m : K Unit}
    (hm : wp m (fun _ p' => Queued 1 h.poll p') (fun _ _ => h.poll.capacity ≤ h.poll.size) h.poll) :
    Spends changeList 1 (onPoll m) h := by
  refine spends_onPoll (wp_mono hm ?_ ?_)
  · intro _ p' hqueued
    exact ⟨Nat.le_of_eq hqueued.size, hqueued.capacity⟩
  · intro _ _ hfull _
    omega

/-- Only the second round of `syspoll_register` queues a change. -/
theorem spends_registerWrite (resrc : SyspollResrc) :
    Spends changeList 1 (onPoll (FreeBsd.syspollRegister resrc SYSPOLL_WRITE)) h := by
  refine spends_queued ?_
  unfold FreeBsd.syspollRegister
  rw [wp_bind]
  refine wp_mono (wp_registerFilter resrc SYSPOLL_WRITE SYSPOLL_READ .read) ?_
    fun _ _ hfull => hfull
  intro _ p₁ hnone
  have hsize : p₁.size = h.poll.size := hnone.size
  refine wp_mono (wp_registerFilter resrc SYSPOLL_WRITE SYSPOLL_WRITE .write) ?_ ?_
  · intro _ p₂ hone
    exact hnone.trans hone
  · intro _ _ hfull
    rw [hnone.capacity] at hfull
    omega

/-- After the change of its first round, `syspoll_register` asks for room once more. -/
theorem spends_registerRead (resrc : SyspollResrc) :
    Spends changeList 2 (onPoll (FreeBsd.syspollRegister resrc SYSPOLL_READ)) h := by
  refine spends_onPoll ?_
  unfold FreeBsd.syspollRegister
  rw [wp_bind]
  refine wp_mono (wp_registerFilter resrc SYSPOLL_READ SYSPOLL_READ .read) ?_ ?_
  · intro _ p₁ hone
    have hsize : p₁.size = h.poll.size + 1 := hone.size
    refine wp_mono (wp_registerFilter resrc SYSPOLL_READ SYSPOLL_WRITE .write) ?_ ?_
    · intro _ p₂ hnone
      have hsize' : p₂.size = p₁.size := hnone.size
      exact ⟨by omega, hnone.capacity.trans hone.capacity⟩
    · intro _ _ hfull _
      rw [hone.capacity] at hfull
      omega
  · intro _ _ hfull _
    omega

theorem spends_timer (resrc : SyspollResrc) (millis : Nat) :
    Spends changeList 1 (onPoll (FreeBsd.syspollTimer resrc millis)) h :=
  spends_queued (wp_kqAdd resrc .timer EV_ONESHOT millis 0)

theorem spends_deregister (fd : Int) :
    Spends changeList 1 (onPoll (FreeBsd.syspollDeregister fd)) h := by
  refine spends_queued ?_
  unfold FreeBsd.syspollDeregister
  rw [wp_bind, wp_gets, wp_bind, wp_check]
  exact ⟨fun _ => wp_evSet (by exact isChange_delete) _, fun hfull => Nat.le_of_not_lt hfull⟩

theorem spends_syspollNew : Spends changeList 2 (onPoll Host.syspollNew) h := by
  refine spends_onPoll ?_
  unfold Host.syspollNew
  rw [wp_bind]
  refine wp_mono (wp_kqAdd ⟨SIGTERM, 0⟩ .signal 0 0 0) ?_ ?_
  · intro _ p₁ hone
    have hsize : p₁.size = h.poll.size + 1 := hone.size
    refine wp_mono (wp_kqAdd ⟨SIGTERM, 0⟩ .signal 0 0 0) ?_ ?_
    · intro _ p₂ htwo
      have hsize' : p₂.size = p₁.size + 1 := htwo.size
      exact ⟨by omega, htwo.capacity.trans hone.capacity⟩
    · intro _ _ hfull _
      rw [hone.capacity] at hfull
      omega
  · intro _ _ hfull _
    omega

/-- Reading an event queues nothing. -/
theorem wp_readEvent {p : Syspoll} (ev : KEvent) :
    wp (readEvent ev) (fun _ p' => p' = p) (fun a _ => ¬ (HostFault.poll a).IsRoom) p := by
  unfold readEvent
  rw [wp_ite]
  refine ⟨fun _ => ?_, fun _ => ?_⟩
  · rw [wp_bind, wp_check]
    exact ⟨fun _ => rfl, fun _ hroom => hroom⟩
  · rw [wp_bind, wp_check]
    refine ⟨fun _ => ?_, fun _ hroom => hroom⟩
    rw [wp_ite]
    refine ⟨fun _ => rfl, fun _ => ?_⟩
    cases ev.filter with
    | none | signal => exact fun hroom => hroom
    | read | write | timer => rfl

theorem spends_syspollGet (i : Nat) : Spends changeList 0 (onPoll (FreeBsd.syspollGet i)) h := by
  refine spends_onPoll ?_
  unfold FreeBsd.syspollGet
  rw [wp_bind, wp_gets]
  cases h.poll.events[i]? with
  | none => exact fun hroom => absurd hroom id
  | some ev =>
      refine wp_mono (wp_readEvent ev) ?_ ?_
      · rintro _ p' rfl
        exact ⟨Nat.le_refl _, rfl⟩
      · intro _ _ hnot hroom
        exact absurd hroom hnot

end Poller

section Costs

/-- The end of a transfer with a status channel may have to wait for the channel. -/
def noticeCost (x : ResrcXfer) : Nat := if x.statFd = x.destFd then 0 else 1

/-- What an event of a transfer may queue: its removal, and a response that has to wait. -/
def eventCost (errorEvent : Bool) (x : ResrcXfer) : Nat :=
  if x.defer = .cancel then 0
  else if errorEvent then 1
  else if x.defer = .ready then 0
  else noticeCost x + 1

/-- What an entry of the deferred list may queue. -/
def entryCost (s : Server) (p : Ptr) : Nat :=
  match s.xferAt p with
  | none => 0
  | some x => if x.defer = .cancel then 1 else noticeCost x + 1

/-- What the entries of the deferred list may queue. -/
def deferredCost (s : Server) (ps : List Ptr) : Nat := (ps.map (entryCost s)).sum

/-- What a request may queue: a registration or a timer, if it is a request for one. -/
def requestCost (s : Server) (r : Received) : Nat :=
  if r.uid = s.uid ∧ sfdGetStat s.recvbuf = 0 then
    match ProtCmdReq.ofCode (sfdGetCmd s.recvbuf) with
    | some .fileOpen | some .read | some .send =>
        if (protUnmarshalRequest s.recvbuf r.nread).isSome then 1 else 0
    | some .sendOpen => if (protUnmarshalSendOpen s.recvbuf).isSome then 1 else 0
    | some .cancel | none => 0
  else 0

end Costs

section Transfers

variable {ans : Answers} {h h' : Host} {p : Ptr} {x : ResrcXfer}

/-- How a piece of code that does not touch the poller ends. -/
theorem onWorld_done {α : Type} {m : M α} {a : α} {Q : α → World → Prop}
    (hm : wp m Q (fun _ _ => True) h.world) (hdone : onWorld m h = .done a h') :
    h'.poll = h.poll ∧ Q a h'.world := by
  have hwp : wp (onWorld m) (fun a h' => h'.poll = h.poll ∧ Q a h'.world) (fun _ _ => True) h := by
    rw [wp_onWorld]
    exact wp_mono hm (fun _ _ hQ => ⟨rfl, hQ⟩) fun _ _ _ => trivial
  exact wp_done hwp hdone

theorem assert_done {c : Prop} [Decidable c] {a : Assertion}
    (hdone : onWorld (assert c a) h = .done () h') : h'.world = h.world := by
  have hm : wp (assert c a) (fun _ w => w = h.world) (fun _ _ => True) h.world := by
    rw [wp_assert]
    exact ⟨fun _ => rfl, fun _ => trivial⟩
  exact (onWorld_done hm hdone).2

theorem onSrv_done {f : Server → Server} (hdone : onWorld (onSrv f) h = .done () h') :
    h'.world.srv = f h.world.srv := by
  cases hdone
  rfl

theorem fileTransfer_done {nbytes : Nat} {result : Except Errno Nat}
    (hdone : onWorld (Host.fileTransfer ans nbytes) h = .done result h') :
    h'.world.srv = h.world.srv := by
  have hm : wp (Host.fileTransfer ans nbytes) (fun _ w => w.srv = h.world.srv)
      (fun _ _ => True) h.world := by
    unfold Host.fileTransfer
    rw [wp_sys]
  exact (onWorld_done hm hdone).2

theorem getXfer_done {y : ResrcXfer} (hdone : onWorld (getXfer p) h = .done y h') :
    h' = h ∧ h.world.srv.xferAt p = some y := by
  have hwp : wp (onWorld (getXfer p))
      (fun y h' => h' = h ∧ h.world.srv.xferAt p = some y) (fun _ _ => True) h := by
    rw [wp_onWorld, wp_getXfer]
    exact ⟨fun y hy => ⟨rfl, hy⟩, fun _ => trivial⟩
  exact wp_done hwp hdone

theorem hasStatChannel_done {b : Bool} (hx : h.world.srv.xferAt p = some x)
    (hdone : onWorld (hasStatChannel p) h = .done b h') :
    h' = h ∧ b = decide (x.statFd ≠ x.destFd) := by
  have hwp : wp (onWorld (hasStatChannel p))
      (fun b h' => h' = h ∧ b = decide (x.statFd ≠ x.destFd)) (fun _ _ => True) h := by
    simp only [wp_onWorld, hasStatChannel, wp_bind]
    refine wp_getXfer_live hx ?_
    rw [wp_assert]
    exact ⟨fun _ => ⟨rfl, rfl⟩, fun _ => trivial⟩
  exact wp_done hwp hdone

theorem spends_registerXfer : Spends changeList 1 (Host.registerXfer p) h := by
  unfold Host.registerXfer
  refine (spends_onWorld _).bind_free fun x h₁ _ => ?_
  exact (spends_registerWrite _).then_free fun _ _ _ => .pure _

theorem spends_deleteRegisteredXfer :
    Spends changeList 1 (Host.deleteRegisteredXfer ans p) h := by
  unfold Host.deleteRegisteredXfer Host.deregisterXfer
  refine (spends_onWorld _).bind_free fun x h₁ _ => ?_
  refine (spends_onWorld _).bind_free fun _ h₂ _ => ?_
  refine Spends.then_free ?_ fun _ h₃ _ => spends_onWorld _
  refine (spends_onWorld _).bind_free fun y h₃ _ => ?_
  exact (spends_deregister _).then_free fun _ _ _ => .pure _

theorem spends_preserveErrno {n : Nat} {m : H Unit} (hm : ∀ h, Spends changeList n m h) :
    Spends changeList n (preserveErrno m) h := by
  unfold preserveErrno
  refine (spends_onWorld _).bind_free fun e h₁ _ => ?_
  exact (hm h₁).then_free fun _ _ _ => spends_onWorld _

/-- At most the duplicate of the status channel is registered. -/
theorem spends_sendTerminalResp (pdu : Pdu) :
    Spends changeList 1 (Host.sendTerminalResp ans p pdu) h := by
  unfold Host.sendTerminalResp
  refine (spends_onWorld _).bind_free fun x h₁ _ => ?_
  refine (spends_onWorld _).bind_free fun sent h₂ _ => ?_
  refine .ite (fun _ => .pure _) fun _ => ?_
  refine (spends_onWorld _).bind_free fun e h₃ _ => ?_
  refine .ite (fun _ => .pure _) fun _ => ?_
  refine (spends_onWorld _).bind_free fun copy h₄ _ => ?_
  cases copy with
  | none => exact .pure _
  | some statFd =>
      refine (spends_onWorld _).bind_free fun resp h₅ _ => ?_
      cases resp with
      | none => exact (spends_onWorld _).bind_free fun _ _ _ => .halt id
      | some r => exact spends_registerWrite _

/-- What is sent only over a status channel. -/
theorem spends_notice (hx : h.world.srv.xferAt p = some x) (pdu : Pdu) :
    Spends changeList (noticeCost x) (do
      if ← onWorld (hasStatChannel p) then
        Host.sendTerminalResp ans p pdu
        pure false
      else pure false) h := by
  refine (spends_onWorld _).bind_free fun b h₁ hdone => ?_
  obtain ⟨-, hb⟩ := hasStatChannel_done hx hdone
  refine .ite (fun htrue => ?_) fun _ => .pure _
  have hcost : noticeCost x = 1 := by
    rw [htrue] at hb
    exact if_neg (of_decide_eq_true hb.symm)
  rw [hcost]
  exact (spends_sendTerminalResp pdu).then_free fun _ _ _ => .pure _

theorem spends_transferError {total : Nat} (hx : h.world.srv.xferAt p = some x) :
    Spends changeList (noticeCost x) (Host.transferError ans p total) h := by
  unfold Host.transferError
  refine (spends_onWorld _).bind_free fun e h₁ hdone => ?_
  cases hdone
  refine .ite (fun _ => spends_notice hx _) fun _ => ?_
  refine (spends_onWorld _).bind_free fun y h₂ hdone => ?_
  obtain ⟨rfl, -⟩ := getXfer_done hdone
  refine .ite (fun _ => spends_notice hx _) fun _ => ?_
  refine (spends_onWorld _).bind_free fun b h₃ _ => ?_
  refine .ite (fun _ => ?_) fun _ => ?_
  · refine (spends_onWorld _).bind_free fun sent h₄ _ => ?_
    refine .ite (fun _ => ?_) fun _ => ?_
    · exact (spends_onWorld _).bind_free fun _ _ _ => .pure _
    · refine (spends_onWorld _).bind_free fun e' h₅ _ => ?_
      refine .ite (fun _ => .pure _) fun _ => ?_
      exact (spends_onWorld _).bind_free fun _ _ _ => .pure _
  · exact (spends_onWorld _).bind_free fun _ _ _ => .pure _

/-- The rounds of the loop change nothing that the cost depends on. -/
theorem spends_transferLoop (fuel : Nat) {total : Nat} (hx : h.world.srv.xferAt p = some x) :
    Spends changeList (noticeCost x) (Host.transferLoop ans p fuel total) h := by
  induction fuel generalizing h x total with
  | zero => exact .halt id
  | succ fuel ih =>
      unfold Host.transferLoop
      refine (spends_onWorld _).bind_free fun y h₁ hdone => ?_
      obtain ⟨rfl, hy⟩ := getXfer_done hdone
      obtain rfl : y = x := Option.some.inj (hy.symm.trans hx)
      refine (spends_onWorld _).bind_free fun capacity h₂ hdone => ?_
      cases hdone
      refine (spends_onWorld _).bind_free fun _ h₃ hassert => ?_
      refine (spends_onWorld _).bind_free fun result h₄ hio => ?_
      have hsame : h₄.world.srv = h₁.world.srv := by
        rw [fileTransfer_done hio, assert_done hassert]
      cases result with
      | error e =>
          have hx₄ : h₄.world.srv.xferAt p = some y := by rw [hsame, hy]
          exact spends_transferError hx₄
      | ok nwritten =>
          refine (spends_onWorld _).bind_free fun _ h₅ _ => ?_
          refine (spends_onWorld _).bind_free fun _ h₆ hset => ?_
          have hx₆ : h₆.world.srv.xferAt p = some { y with
              nbytesLeft := y.nbytesLeft - BitVec.ofNat 64 nwritten } := by
            rw [onSrv_done hset]
            exact Function.update_self ..
          have hcost : ∀ left, noticeCost { y with nbytesLeft := left } = noticeCost y :=
            fun _ => rfl
          refine .ite (fun _ => spends_notice hx₆ _) fun _ => ?_
          refine .ite (fun _ => ?_) fun _ => by simpa only [hcost] using ih hx₆
          refine .ite (fun _ => ?_) fun _ => .pure _
          exact (spends_onWorld _).bind_free fun _ _ _ => .pure _

theorem spends_transferFile (hx : h.world.srv.xferAt p = some x) :
    Spends changeList (noticeCost x) (Host.transferFile ans p) h := by
  unfold Host.transferFile
  refine (spends_onWorld _).bind_free fun y h₁ hdone => ?_
  obtain ⟨rfl, -⟩ := getXfer_done hdone
  cases y.cmd with
  | read | send =>
      refine (spends_onWorld _).bind_free fun capacity h₂ hdone => ?_
      cases hdone
      exact spends_transferLoop _ hx
  | fileOpen | sendOpen | cancel => exact .pure _

theorem spends_processXfer {errorEvent : Bool} (hx : h.world.srv.xferAt p = some x) :
    Spends changeList (eventCost errorEvent x) (Host.processXfer ans errorEvent p) h := by
  unfold Host.processXfer eventCost
  refine (spends_onWorld _).bind_free fun y h₁ hdone => ?_
  obtain ⟨rfl, hy⟩ := getXfer_done hdone
  obtain rfl : y = x := Option.some.inj (hy.symm.trans hx)
  have hdelete : ∀ h, Spends changeList 1 (preserveErrno (Host.deleteRegisteredXfer ans p)) h :=
    fun _ => spends_preserveErrno fun _ => spends_deleteRegisteredXfer
  by_cases hcancel : y.defer = .cancel
  · rw [if_pos hcancel, if_pos hcancel]
    exact .pure _
  rw [if_neg hcancel, if_neg hcancel]
  cases errorEvent with
  | true => exact hdelete _
  | false =>
      by_cases hready : y.defer = .ready
      · simp only [hready, if_true]
        exact .pure _
      · simp only [hready, if_false]
        refine (spends_transferFile hx).bind fun b h₂ _ => ?_
        exact .ite (fun _ => .pure _) fun _ => hdelete _

end Transfers

section Requests

variable {ans : Answers} {h : Host}

/-- At most a timer is started. -/
theorem spends_addOpenFile (req : ProtRequest) (clientPid : Nat) (statFd : Fd) :
    Spends changeList 1 (Host.addOpenFile ans req clientPid statFd) h := by
  unfold Host.addOpenFile
  refine (spends_onWorld _).bind_free fun added h₁ _ => ?_
  rcases added with _ | ⟨p, info⟩
  · exact .pure _
  refine (spends_onWorld _).bind_free fun x h₂ _ => ?_
  refine (spends_onWorld _).bind_free fun timer h₃ _ => ?_
  cases timer with
  | none => exact (spends_onWorld _).bind_free fun _ _ _ => .pure _
  | some t =>
      refine (spends_onWorld _).bind_free fun table h₄ _ => ?_
      cases table.insert (fun _ => x.txnid) t with
      | none =>
          refine (spends_onWorld _).bind_free fun _ h₅ _ => ?_
          exact (spends_onWorld _).bind_free fun _ _ _ => .pure _
      | some table' =>
          refine (spends_onWorld _).bind_free fun _ h₅ _ => ?_
          refine (spends_onWorld _).bind_free fun tm h₆ _ => ?_
          refine (Spends.gets _).bind_free fun millis h₇ _ => ?_
          exact (spends_timer _ _).then_free fun _ _ _ => .pure _

theorem spends_processFileOpen {buf : RecvBuf} {size : Nat} (clientPid : Nat) (fds : Fd × Fd) :
    Spends changeList (if (protUnmarshalRequest buf size).isSome then 1 else 0)
      (Host.processFileOpen ans buf size clientPid fds) h := by
  unfold Host.processFileOpen
  cases protUnmarshalRequest buf size with
  | none => exact .pure _
  | some pdu =>
      refine (spends_addOpenFile pdu clientPid fds.1).then_free fun opened h₁ _ => ?_
      rcases opened with _ | ⟨t, p, info⟩
      · exact (spends_onWorld _).bind_free fun _ _ _ => .pure _
      · refine (spends_onWorld _).bind_free fun timer h₂ _ => ?_
        exact (spends_onWorld _).bind_free fun _ _ _ => .pure _

theorem spends_processSendOpen {buf : RecvBuf} (clientPid : Nat) (fds : Fd × Fd) :
    Spends changeList (if (protUnmarshalSendOpen buf).isSome then 1 else 0)
      (Host.processSendOpen ans buf clientPid fds) h := by
  unfold Host.processSendOpen
  cases protUnmarshalSendOpen buf with
  | none => exact .pure _
  | some txnid =>
      refine (spends_onWorld _).bind_free fun found h₁ _ => ?_
      cases found with
      | none => exact (spends_onWorld _).bind_free fun _ _ _ => .pure _
      | some p =>
          refine (spends_onWorld _).bind_free fun x h₂ _ => ?_
          refine .ite (fun _ => ?_) fun _ => ?_
          · exact (spends_onWorld _).bind_free fun _ _ _ => .pure _
          · exact (spends_onWorld _).bind_free fun _ _ _ => spends_registerXfer

theorem spends_processReadSend {buf : RecvBuf} {size : Nat} (clientPid : Nat) (fds : Fd × Fd) :
    Spends changeList (if (protUnmarshalRequest buf size).isSome then 1 else 0)
      (Host.processReadSend ans buf size clientPid fds) h := by
  unfold Host.processReadSend
  cases protUnmarshalRequest buf size with
  | none => exact .pure _
  | some pdu =>
      refine (spends_onWorld _).bind_free fun added h₁ _ => ?_
      rcases added with _ | ⟨p, info⟩
      · exact (spends_onWorld _).bind_free fun _ _ _ => .pure _
      · refine spends_registerXfer.then_free fun _ h₂ _ => ?_
        refine (spends_onWorld _).bind_free fun x h₃ _ => ?_
        exact (spends_onWorld _).bind_free fun _ _ _ => .pure _

theorem spends_handleReceived (r : Received) :
    Spends changeList (requestCost h.world.srv r) (Host.handleReceived ans r) h := by
  unfold Host.handleReceived
  refine (spends_onWorld _).bind_free fun _ h₁ hassert => ?_
  rw [← assert_done hassert]
  refine (spends_onWorld _).bind_free fun buf h₂ hdone => ?_
  cases hdone
  refine (spends_onWorld _).bind_free fun uid h₃ hdone => ?_
  cases hdone
  refine .ite (fun _ => .pure _) fun _ => ?_
  refine .ite (fun _ => ?_) fun huid => ?_
  · refine (spends_onWorld _).bind_free fun _ _ _ => spends_onWorld _
  refine Spends.then_free ?_ fun _ _ _ => .ite (fun _ => .pure _) fun _ => spends_onWorld _
  unfold Host.processRequest requestCost
  refine .ite (fun _ => .pure _) fun hstat => ?_
  refine .ite (fun _ => .pure _) fun _ => ?_
  rw [if_pos ⟨Decidable.not_not.mp huid, Decidable.not_not.mp hstat⟩]
  cases ProtCmdReq.ofCode (sfdGetCmd h₁.world.srv.recvbuf) with
  | none => exact .pure _
  | some cmd =>
      cases cmd with
      | fileOpen => exact spends_processFileOpen _ _
      | sendOpen => exact spends_processSendOpen _ _
      | cancel => exact spends_onWorld _
      | read => exact spends_processReadSend _ _
      | send => exact spends_processReadSend _ _

end Requests

section Deferred

variable {ans : Answers} {h h' : Host} {p : Ptr} {x : ResrcXfer} {i : Nat}

/-- What a call of `transfer_file` for a deferred transfer leaves alone. -/
structure Worked (p : Ptr) (x : ResrcXfer) (s s' : Server) : Prop where
  listed : s'.deferredXfers = s.deferredXfers
  others : ∀ q ≠ p, s'.xferAt q = s.xferAt q
  own : ∃ y, s'.xferAt p = some y ∧ noticeCost y = noticeCost x ∧
    (y.defer = x.defer ∨ y.defer = .none)

theorem Worked.refl {s : Server} (hx : s.xferAt p = some x) : Worked p x s s :=
  ⟨rfl, fun _ _ => rfl, x, hx, rfl, Or.inl rfl⟩

/-- The transfer was changed in nothing that matters. -/
theorem Worked.setXfer {s : Server} {y : ResrcXfer} (hcost : noticeCost y = noticeCost x)
    (hdefer : y.defer = x.defer ∨ y.defer = .none) : Worked p x s (s.setXfer p y) :=
  ⟨rfl, fun _ hq => Function.update_of_ne hq _ _, y, Function.update_self .., hcost, hdefer⟩

theorem Worked.of_setXfer {s s' : Server} {left : BitVec 64}
    (hw : Worked p { x with nbytesLeft := left } (s.setXfer p { x with nbytesLeft := left }) s') :
    Worked p x s s' := by
  refine ⟨hw.listed, fun q hq => ?_, hw.own⟩
  rw [hw.others q hq]
  exact Function.update_of_ne hq _ _

theorem Worked.of_same {s s' s'' : Server} (hw : Worked p x s s')
    (hxfers : s''.xferAt = s'.xferAt) (hlist : s''.deferredXfers = s'.deferredXfers) :
    Worked p x s s'' := by
  refine ⟨hlist.trans hw.listed, fun q hq => ?_, ?_⟩
  · rw [hxfers, hw.others q hq]
  · rw [hxfers]
    exact hw.own

theorem wp_onPoll {α : Type} {m : K α} {Q : α → Host → Prop}
    (hQ : ∀ a p', Q a { h with poll := p' }) : wp (onPoll m) Q (fun _ _ => True) h := by
  unfold onPoll
  rw [wp_zoom]
  exact wp_of_forall hQ fun _ _ => trivial

/-- A response that has to wait is an object of its own. -/
theorem wp_sendTerminalResp_same (pdu : Pdu) {Q : Unit → Host → Prop}
    (hQ : ∀ h', h'.world.srv.xferAt = h.world.srv.xferAt →
      h'.world.srv.deferredXfers = h.world.srv.deferredXfers → Q () h') :
    wp (Host.sendTerminalResp ans p pdu) Q (fun _ _ => True) h := by
  simp only [Host.sendTerminalResp, wp_bind, wp_onWorld]
  rw [wp_getXfer]
  refine ⟨fun x _ => ?_, fun _ => trivial⟩
  refine wp_sendPdu_logged (fun sent k _ _ => ?_) fun _ _ _ => trivial
  rw [wp_ite]
  refine ⟨fun _ => hQ _ rfl rfl, fun _ => ?_⟩
  simp only [wp_bind, wp_onWorld, wp_getErrno]
  rw [wp_ite]
  refine ⟨fun _ => hQ _ rfl rfl, fun _ => ?_⟩
  simp only [wp_bind, wp_onWorld, wp_sys]
  cases (Kernel.dup ans x.statFd k).1 with
  | none => exact hQ _ rfl rfl
  | some statFd =>
      simp only [wp_bind, wp_onWorld, newResrcResp]
      refine wp_malloc_cases (fun _ => ?_) fun a _ _ => ?_
      · trivial
      · simp only [wp_gets, wp_bind, wp_onSrv, wp_pure]
        exact wp_onPoll fun _ _ => hQ _ rfl rfl

theorem wp_hasStatChannel_same {Q : Bool → Host → Prop} (hQ : ∀ b, Q b h) :
    wp (onWorld (hasStatChannel p)) Q (fun _ _ => True) h := by
  simp only [wp_onWorld, hasStatChannel, wp_bind]
  rw [wp_getXfer]
  refine ⟨fun x _ => ?_, fun _ => trivial⟩
  rw [wp_assert]
  exact ⟨fun _ => hQ _, fun _ => trivial⟩

theorem wp_notice_worked (hx : h.world.srv.xferAt p = some x) (pdu : Pdu) :
    wp (do
      if ← onWorld (hasStatChannel p) then
        Host.sendTerminalResp ans p pdu
        pure false
      else pure false)
      (fun _ h' => Worked p x h.world.srv h'.world.srv) (fun _ _ => True) h := by
  rw [wp_bind]
  refine wp_hasStatChannel_same fun b => ?_
  rw [wp_ite]
  refine ⟨fun _ => ?_, fun _ => .refl hx⟩
  rw [wp_bind]
  exact wp_sendTerminalResp_same pdu fun h' hxfers hlist => (Worked.refl hx).of_same hxfers hlist

theorem wp_transferError_worked {total : Nat} (hx : h.world.srv.xferAt p = some x) :
    wp (Host.transferError ans p total)
      (fun _ h' => Worked p x h.world.srv h'.world.srv) (fun _ _ => True) h := by
  have hidle : ∀ k, wp (do onWorld (setDefer p .none); pure true : H Bool)
      (fun _ h' => Worked p x h.world.srv h'.world.srv) (fun _ _ => True)
      { h with world := ⟨h.world.srv, k⟩ } := by
    intro k
    rw [wp_bind, wp_onWorld]
    refine wp_setDefer (by exact hx) ?_
    exact Worked.setXfer rfl (Or.inr rfl)
  unfold Host.transferError
  rw [wp_bind, wp_onWorld, wp_getErrno, wp_ite]
  refine ⟨fun _ => wp_notice_worked hx _, fun _ => ?_⟩
  rw [wp_bind, wp_onWorld]
  refine wp_getXfer_live hx ?_
  rw [wp_ite]
  refine ⟨fun _ => wp_notice_worked hx _, fun _ => ?_⟩
  rw [wp_bind]
  refine wp_hasStatChannel_same fun b => ?_
  rw [wp_ite]
  refine ⟨fun _ => ?_, fun _ => hidle _⟩
  rw [wp_bind, wp_onWorld]
  refine wp_sendPdu_logged (fun sent k _ _ => ?_) fun _ _ _ => trivial
  rw [wp_ite]
  refine ⟨fun _ => hidle k, fun _ => ?_⟩
  rw [wp_bind, wp_onWorld, wp_getErrno, wp_ite]
  exact ⟨fun _ => .refl hx, fun _ => hidle k⟩

theorem wp_fileTransfer_same {nbytes : Nat} {Q : Except Errno Nat → Host → Prop}
    (hQ : ∀ result k, Q result { h with world := ⟨h.world.srv, k⟩ }) :
    wp (onWorld (Host.fileTransfer ans nbytes)) Q (fun _ _ => True) h := by
  rw [wp_onWorld]
  unfold Host.fileTransfer
  rw [wp_sys]
  exact hQ _ _

/-- A transfer that is deferred already is not put on the list again. -/
theorem wp_transferLoop_worked (fuel : Nat) {total : Nat} (hx : h.world.srv.xferAt p = some x)
    (hdefer : x.defer ≠ .none) :
    wp (Host.transferLoop ans p fuel total)
      (fun _ h' => Worked p x h.world.srv h'.world.srv) (fun _ _ => True) h := by
  induction fuel generalizing h x total with
  | zero => trivial
  | succ fuel ih =>
      unfold Host.transferLoop
      rw [wp_bind, wp_onWorld]
      refine wp_getXfer_live hx ?_
      rw [wp_bind, wp_onWorld, wp_gets, wp_bind, wp_onWorld, wp_assert]
      refine ⟨fun _ => ?_, fun _ => trivial⟩
      rw [wp_bind]
      refine wp_fileTransfer_same fun result k => ?_
      cases result with
      | error e => exact wp_transferError_worked hx
      | ok nwritten =>
          simp only
          rw [wp_bind, wp_onWorld, wp_assert]
          refine ⟨fun _ => ?_, fun _ => trivial⟩
          rw [wp_bind, wp_onWorld, wp_onSrv]
          -- what is left to do starts with fewer bytes of the same transfer
          have hlast : ∀ (m : H Bool) (h₁ : Host), h₁.world.srv = h.world.srv.setXfer p { x with
              nbytesLeft := x.nbytesLeft - BitVec.ofNat 64 nwritten } →
              wp m (fun _ h' => Worked p { x with
                nbytesLeft := x.nbytesLeft - BitVec.ofNat 64 nwritten }
                h₁.world.srv h'.world.srv) (fun _ _ => True) h₁ →
              wp m (fun _ h' => Worked p x h.world.srv h'.world.srv) (fun _ _ => True) h₁ := by
            intro m h₁ hset hm
            refine wp_mono hm (fun _ h' hworked => ?_) fun _ _ _ => trivial
            rw [hset] at hworked
            exact hworked.of_setXfer
          have hx₁ : (h.world.srv.setXfer p { x with
              nbytesLeft := x.nbytesLeft - BitVec.ofNat 64 nwritten }).xferAt p = some _ :=
            Function.update_self ..
          rw [wp_ite]
          refine ⟨fun _ => hlast _ _ rfl (wp_notice_worked (by exact hx₁) _), fun _ => ?_⟩
          rw [wp_ite]
          refine ⟨fun _ => ?_, fun _ => hlast _ _ rfl (ih (by exact hx₁) hdefer)⟩
          rw [if_neg hdefer]
          exact Worked.setXfer rfl (Or.inl rfl)

theorem transferFile_done {b : Bool} (hx : h.world.srv.xferAt p = some x)
    (hdefer : x.defer ≠ .none) (hdone : Host.transferFile ans p h = .done b h') :
    Worked p x h.world.srv h'.world.srv := by
  have hwp : wp (Host.transferFile ans p)
      (fun _ h' => Worked p x h.world.srv h'.world.srv) (fun _ _ => True) h := by
    unfold Host.transferFile
    rw [wp_bind, wp_onWorld]
    refine wp_getXfer_live hx ?_
    cases x.cmd with
    | read | send => exact wp_transferLoop_worked _ hx hdefer
    | fileOpen | sendOpen | cancel => exact .refl hx
  exact wp_done hwp hdone

theorem undeferXfer_done (hx : h.world.srv.xferAt p = some x)
    (hdone : onWorld (undeferXfer i p) h = .done () h') :
    h'.world.srv = (h.world.srv.unlist i).setXfer p { x with defer := .none } := by
  have hm : wp (undeferXfer i p)
      (fun _ w => w.srv = (h.world.srv.unlist i).setXfer p { x with defer := .none })
      (fun _ _ => True) h.world := wp_undeferXfer hx rfl
  exact (onWorld_done hm hdone).2

theorem deleteRegisteredXfer_done (hx : h.world.srv.xferAt p = some x)
    (hdone : Host.deleteRegisteredXfer ans p h = .done () h') :
    h'.world.srv.xferAt = Function.update h.world.srv.xferAt p none ∧
      h'.world.srv.deferredXfers = h.world.srv.deferredXfers := by
  have hwp : wp (Host.deleteRegisteredXfer ans p)
      (fun _ h' => h'.world.srv.xferAt = Function.update h.world.srv.xferAt p none ∧
        h'.world.srv.deferredXfers = h.world.srv.deferredXfers) (fun _ _ => True) h := by
    unfold Host.deleteRegisteredXfer Host.deregisterXfer eraseXfer
    rw [wp_bind, wp_onWorld]
    refine wp_getXfer_live hx ?_
    rw [wp_bind, wp_onWorld, wp_onSrv, wp_bind, wp_bind, wp_onWorld]
    refine wp_getXfer_live (by exact hx) ?_
    rw [wp_bind]
    refine wp_onPoll fun _ _ => ?_
    rw [wp_pure, wp_onWorld]
    exact wp_deleteXferAndCloseAllFds (by exact hx) ⟨rfl, rfl⟩
  exact wp_done hwp hdone

section Sums

variable {s s' : Server}

theorem deferredCost_cons (q : Ptr) (qs : List Ptr) :
    deferredCost s (q :: qs) = entryCost s q + deferredCost s qs := by
  simp [deferredCost]

theorem deferredCost_perm {qs qs' : List Ptr} (hperm : qs.Perm qs') :
    deferredCost s qs = deferredCost s qs' :=
  (hperm.map (entryCost s)).sum_nat

theorem deferredCost_le (hle : ∀ q, entryCost s' q ≤ entryCost s q) (qs : List Ptr) :
    deferredCost s' qs ≤ deferredCost s qs := by
  induction qs with
  | nil => exact Nat.le_refl _
  | cons q qs ih =>
      rw [deferredCost_cons, deferredCost_cons]
      exact Nat.add_le_add (hle q) ih

theorem entryCost_some (hx : s.xferAt p = some x) :
    entryCost s p = if x.defer = .cancel then 1 else noticeCost x + 1 := by
  simp [entryCost, hx]

theorem entryCost_congr {q : Ptr} (heq : s'.xferAt q = s.xferAt q) :
    entryCost s' q = entryCost s q := by
  simp only [entryCost, heq]

/-- No entry may queue more after another one was handled. -/
theorem Worked.entryCost_le (hw : Worked p x s s') (hx : s.xferAt p = some x)
    (hdefer : x.defer ≠ .cancel) (q : Ptr) : entryCost s' q ≤ entryCost s q := by
  by_cases hq : q = p
  · subst hq
    obtain ⟨y, hy, hcost, hy'⟩ := hw.own
    have hne : y.defer ≠ .cancel := by
      rcases hy' with heq | heq
      · rwa [heq]
      · rw [heq]
        decide
    rw [entryCost_some hy, entryCost_some hx, if_neg hne, if_neg hdefer, hcost]
  · exact Nat.le_of_eq (entryCost_congr (hw.others q hq))

end Sums

/-- A deleted entry is followed by entries that may queue no more than before. -/
theorem deferredCost_deleted {h₁ h₂ : Host} (hi : h.world.srv.deferredXfers[i]? = some p)
    (hx : h.world.srv.xferAt p = some x)
    (hundefer : onWorld (undeferXfer i p) h = .done () h₁)
    (hdelete : Host.deleteRegisteredXfer ans p h₁ = .done () h₂) :
    entryCost h.world.srv p + deferredCost h₂.world.srv (h₂.world.srv.deferredXfers.drop i) ≤
      deferredCost h.world.srv (h.world.srv.deferredXfers.drop i) := by
  have h₁srv := undeferXfer_done hx hundefer
  have hx₁ : h₁.world.srv.xferAt p = some { x with defer := .none } := by
    rw [h₁srv]
    exact Function.update_self ..
  obtain ⟨hxfers, hlist⟩ := deleteRegisteredXfer_done hx₁ hdelete
  have hcost : ∀ q, entryCost h₂.world.srv q ≤ entryCost h.world.srv q := by
    intro q
    by_cases hq : q = p
    · subst hq
      have hnone : h₂.world.srv.xferAt q = none := by
        rw [hxfers]
        exact Function.update_self ..
      simp [entryCost, hnone]
    · refine Nat.le_of_eq (entryCost_congr ?_)
      rw [hxfers, Function.update_of_ne hq, h₁srv]
      exact Function.update_of_ne hq _ _
  have hdrop : h₂.world.srv.deferredXfers = h.world.srv.deferredXfers.swapRemove i := by
    rw [hlist, h₁srv]
    rfl
  rw [hdrop, deferredCost_perm (List.drop_swapRemove_perm hi), deferredCost_cons]
  exact Nat.add_le_add_left (deferredCost_le hcost _) _

/-- An entry that returns to the primary loop. -/
theorem deferredCost_undeferred {h₁ : Host} (hi : h.world.srv.deferredXfers[i]? = some p)
    (hx : h.world.srv.xferAt p = some x) (hdefer : x.defer ≠ .cancel)
    (hundefer : onWorld (undeferXfer i p) h = .done () h₁) :
    entryCost h.world.srv p + deferredCost h₁.world.srv (h₁.world.srv.deferredXfers.drop i) ≤
      deferredCost h.world.srv (h.world.srv.deferredXfers.drop i) := by
  have h₁srv := undeferXfer_done hx hundefer
  have hworked : Worked p x (h.world.srv.unlist i) h₁.world.srv := by
    rw [h₁srv]
    exact .setXfer rfl (Or.inr rfl)
  have hcost := hworked.entryCost_le hx hdefer
  have hdrop : h₁.world.srv.deferredXfers = h.world.srv.deferredXfers.swapRemove i := by
    rw [h₁srv]
    rfl
  rw [hdrop, deferredCost_perm (List.drop_swapRemove_perm hi), deferredCost_cons]
  exact Nat.add_le_add_left (deferredCost_le hcost _) _

theorem entryCost_le_deferredCost (hi : h.world.srv.deferredXfers[i]? = some p) :
    entryCost h.world.srv p ≤ deferredCost h.world.srv (h.world.srv.deferredXfers.drop i) := by
  rw [deferredCost_perm (List.drop_swapRemove_perm hi), deferredCost_cons]
  exact Nat.le_add_right _ _

/-- The rest of the pass after a call of `transfer_file` for an entry. -/
theorem spends_afterTransfer {b : Bool} {fuel : Nat} {h₂ : Host}
    (hi : h.world.srv.deferredXfers[i]? = some p) (hx : h.world.srv.xferAt p = some x)
    (hdefer : x.defer ≠ .cancel) (hworked : Worked p x h.world.srv h₂.world.srv)
    (ih : ∀ {h : Host} (i : Nat), Spends changeList
      (deferredCost h.world.srv (h.world.srv.deferredXfers.drop i))
      (Host.deferredLoop ans fuel i) h) :
    Spends changeList
      (deferredCost h.world.srv (h.world.srv.deferredXfers.drop i) - noticeCost x)
      (if b then do
        let x' ← onWorld (getXfer p)
        if x'.defer = .none then
          onWorld (undeferXfer i p)
          Host.deferredLoop ans fuel i
        else Host.deferredLoop ans fuel (i + 1)
      else do
        onWorld (undeferXfer i p)
        Host.deleteRegisteredXfer ans p
        Host.deferredLoop ans fuel i) h₂ := by
  have hentry := entryCost_some hx
  rw [if_neg hdefer] at hentry
  have hpos := entryCost_le_deferredCost hi
  -- the list is the same, and no entry of it may queue more than before
  have hcosts : deferredCost h₂.world.srv (h₂.world.srv.deferredXfers.drop i) ≤
      deferredCost h.world.srv (h.world.srv.deferredXfers.drop i) := by
    rw [hworked.listed]
    exact deferredCost_le (hworked.entryCost_le hx hdefer) _
  have hi₂ : h₂.world.srv.deferredXfers[i]? = some p := by rw [hworked.listed, hi]
  obtain ⟨y, hy, hcost, hy'⟩ := hworked.own
  have hne : y.defer ≠ .cancel := by
    rcases hy' with heq | heq
    · rwa [heq]
    · rw [heq]
      decide
  have hentry₂ := entryCost_some hy
  rw [if_neg hne, hcost] at hentry₂
  refine .ite (fun _ => ?_) fun _ => ?_
  · refine (spends_onWorld _).bind_free fun y' h₃ hdone => ?_
    obtain ⟨rfl, -⟩ := getXfer_done hdone
    refine .ite (fun _ => ?_) fun _ => ?_
    · refine (spends_onWorld _).bind_free fun _ h₄ hundefer => ?_
      have hle := deferredCost_undeferred hi₂ hy hne hundefer
      exact (ih i).mono (by omega)
    · have hsplit : h₃.world.srv.deferredXfers.drop i =
          p :: h₃.world.srv.deferredXfers.drop (i + 1) := by
        obtain ⟨hlt, hget⟩ := List.getElem?_eq_some_iff.mp hi₂
        rw [List.drop_eq_getElem_cons hlt, hget]
      rw [hsplit, deferredCost_cons] at hcosts
      exact (ih (i + 1)).mono (by omega)
  · refine (spends_onWorld _).bind_free fun _ h₃ hundefer => ?_
    have hrest : ∀ h₄, Host.deleteRegisteredXfer ans p h₃ = .done () h₄ →
        Spends changeList (deferredCost h.world.srv (h.world.srv.deferredXfers.drop i) -
          noticeCost x - 1) (Host.deferredLoop ans fuel i) h₄ := by
      intro h₄ hdelete
      have hle := deferredCost_deleted hi₂ hy hundefer hdelete
      exact (ih i).mono (by omega)
    exact (spends_deleteRegisteredXfer.bind fun _ h₄ => hrest h₄).mono (by omega)

/-- The pass queues no more than its entries may queue. -/
theorem spends_deferredLoop (fuel i : Nat) :
    Spends changeList (deferredCost h.world.srv (h.world.srv.deferredXfers.drop i))
      (Host.deferredLoop ans fuel i) h := by
  induction fuel generalizing h i with
  | zero => exact .halt id
  | succ fuel ih =>
      unfold Host.deferredLoop
      refine (Spends.gets _).bind_free fun deferred h₁ hdone => ?_
      cases hdone
      cases hi : h.world.srv.deferredXfers[i]? with
      | none => exact .pure _
      | some p =>
          refine (spends_onWorld _).bind_free fun x h₁ hdone => ?_
          obtain ⟨rfl, hx⟩ := getXfer_done hdone
          have hentry := entryCost_some hx
          cases hdefer : x.defer with
          | none => exact .halt id
          | cancel =>
              rw [if_pos hdefer] at hentry
              refine (spends_onWorld _).bind_free fun _ h₂ hundefer => ?_
              have hrest : ∀ h₃, Host.deleteRegisteredXfer ans p h₂ = .done () h₃ →
                  Spends changeList (deferredCost h₁.world.srv
                    (h₁.world.srv.deferredXfers.drop i) - 1) (Host.deferredLoop ans fuel i) h₃ := by
                intro h₃ hdelete
                have hle := deferredCost_deleted hi hx hundefer hdelete
                exact (ih i).mono (by omega)
              have hpos := entryCost_le_deferredCost hi
              exact (spends_deleteRegisteredXfer.bind fun _ h₃ => hrest h₃).mono (by omega)
          | ready =>
              have hne : x.defer ≠ .cancel := by
                rw [hdefer]
                decide
              rw [if_neg hne] at hentry
              have hpos := entryCost_le_deferredCost hi
              have hfirst : Spends changeList (noticeCost x) (Host.transferFile ans p) h₁ :=
                spends_transferFile hx
              refine Spends.mono (hfirst.bind fun b h₂ hdone => spends_afterTransfer hi hx hne
                (transferFile_done hx (by rw [hdefer]; decide) hdone) ih) (by omega)

end Deferred

end Sendfiled.Kqueue
