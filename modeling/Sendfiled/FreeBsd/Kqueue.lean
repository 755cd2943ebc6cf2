/-
The poller of syspoll_kqueue.c.  One array holds the events of the last `kevent` and, from
its start on, the changes for the next one; an event survives until it is read as long as
no more changes were queued than events read.
-/
import Sendfiled.Lib.Prog

namespace Sendfiled.FreeBsd

open Prog

section Poller

/-- The filters of `kevent` the poller uses; `none` is the 0 of `syspoll_deregister`. -/
inductive Filter where
  | none
  | read
  | write
  | timer
  | signal
deriving DecidableEq, Repr

def EV_ADD : BitVec 16 := 0x0001
def EV_DELETE : BitVec 16 := 0x0002
def EV_ONESHOT : BitVec 16 := 0x0010
def EV_CLEAR : BitVec 16 := 0x0020
def EV_ERROR : BitVec 16 := 0x4000

def SIGINT : Int := 2
def SIGTERM : Int := 15

/-- `struct kevent`. -/
structure KEvent where
  ident : Int
  filter : Filter
  flags : BitVec 16
  fflags : Nat
  data : Int
  udata : Option Nat
deriving DecidableEq, Repr

/-- A `struct syspoll_resrc` and its address. -/
structure SyspollResrc where
  ident : Int
  addr : Nat
deriving DecidableEq, Repr

def SYSPOLL_ERROR : Nat := 1
def SYSPOLL_READ : Nat := 2
def SYSPOLL_WRITE : Nat := 4
def SYSPOLL_TERM : Nat := 8
def SYSPOLL_ONESHOT : Nat := 16

/-- `struct syspoll`; the length of the array is its capacity. -/
structure Syspoll where
  events : List KEvent
  size : Nat
deriving DecidableEq, Repr

def Syspoll.capacity (p : Syspoll) : Nat := p.events.length

/-- The assertions of the poller. -/
inductive PollAssertion where
  | kqAddRoom
  | registerRoom
  | deregisterRoom
  | eventnum
  | signal
  | filter
deriving DecidableEq, Repr

abbrev K := Program PollAssertion Syspoll

/-- `EV_SET` of the next free entry. -/
def evSet (ev : KEvent) : K Unit :=
  modify fun p => { events := p.events.set p.size ev, size := p.size + 1 }

def kqAdd (resrc : SyspollResrc) (filter : Filter) (flags : BitVec 16) (data : Int)
    (fflags : Nat) : K Unit := do
  let p ← gets fun p => p
  check (p.size < p.capacity) .kqAddRoom
  evSet
    { ident := resrc.ident
      filter := filter
      flags := EV_ADD ||| EV_CLEAR ||| flags
      fflags := fflags
      data := data
      udata := some resrc.addr }

/-- One round of the loop in `syspoll_register`. -/
def registerFilter (resrc : SyspollResrc) (events ev : Nat) (filter : Filter) : K Unit := do
  let p ← gets fun p => p
  check (p.size < p.capacity) .registerRoom
  if events &&& ev = 0 then pure ()
  else kqAdd resrc filter (if events &&& SYSPOLL_ONESHOT = 0 then 0 else EV_ONESHOT) 0 0

def syspollRegister (resrc : SyspollResrc) (events : Nat) : K Unit := do
  registerFilter resrc events SYSPOLL_READ .read
  registerFilter resrc events SYSPOLL_WRITE .write

def syspollTimer (resrc : SyspollResrc) (millis : Nat) : K Unit :=
  kqAdd resrc .timer EV_ONESHOT millis 0

def syspollDeregister (fd : Int) : K Unit := do
  let p ← gets fun p => p
  check (p.size < p.capacity) .deregisterRoom
  evSet
    { ident := fd
      filter := .none
      flags := EV_DELETE
      fflags := 0
      data := 0
      udata := none }

/-- `syspoll_kevent`, given the events the kernel puts into the array. -/
def syspollKevent (batch : List KEvent) : K Nat :=
  modifyGet fun p => (batch.length,
    { events := batch ++ p.events.drop batch.length, size := 0 })

/-- `struct syspoll_events`. -/
structure SyspollEvents where
  events : Nat
  udata : Option Nat
deriving DecidableEq, Repr

/-- What `syspoll_get` makes of an event. -/
def readEvent (ev : KEvent) : K SyspollEvents := do
  if ev.filter = .signal then
    check (ev.ident = SIGTERM ∨ ev.ident = SIGINT) .signal
    pure ⟨SYSPOLL_TERM, none⟩
  else
    check (ev.flags = EV_ERROR ∨ ev.filter ≠ .none) .filter
    if ev.flags = EV_ERROR then pure ⟨SYSPOLL_ERROR, ev.udata⟩
    else
      match ev.filter with
      | .write => pure ⟨SYSPOLL_WRITE, ev.udata⟩
      | .read | .timer => pure ⟨SYSPOLL_READ, ev.udata⟩
      | .none | .signal => halt .filter

def syspollGet (eventnum : Nat) : K SyspollEvents := do
  match ← gets fun p => p.events[eventnum]? with
  | none => halt .eventnum
  | some ev => readEvent ev

/-- The calls the handlers of events make. -/
inductive PollOp where
  | register (resrc : SyspollResrc) (events : Nat)
  | timer (resrc : SyspollResrc) (millis : Nat)
  | deregister (fd : Int)
deriving DecidableEq, Repr

def PollOp.run : PollOp → K Unit
  | .register resrc events => syspollRegister resrc events
  | .timer resrc millis => syspollTimer resrc millis
  | .deregister fd => syspollDeregister fd

/-- The number of changes a call queues. -/
def PollOp.changes : PollOp → Nat
  | .register _ events =>
      (if events &&& SYSPOLL_READ = 0 then 0 else 1) +
        if events &&& SYSPOLL_WRITE = 0 then 0 else 1
  | .timer _ _ => 1
  | .deregister _ => 1

end Poller

section Queueing

/-- An entry that asks the kernel for a change. -/
def KEvent.IsChange (ev : KEvent) : Prop := ev.flags &&& (EV_ADD ||| EV_DELETE) ≠ 0

/-- `n` changes were queued: they fill the next entries, and all others are as they were. -/
structure Queued (n : Nat) (p p' : Syspoll) : Prop where
  size : p'.size = p.size + n
  capacity : p'.capacity = p.capacity
  kept : ∀ j, j < p.size ∨ p.size + n ≤ j → p'.events[j]? = p.events[j]?
  changed : ∀ j ev, p.size ≤ j → j < p.size + n → p'.events[j]? = some ev → ev.IsChange

variable {p p' p'' : Syspoll} {m n : Nat}

theorem Queued.refl (p : Syspoll) : Queued 0 p p :=
  ⟨rfl, rfl, fun _ _ => rfl, fun _ _ hle hlt => absurd hlt (by omega)⟩

theorem Queued.trans (h : Queued m p p') (h' : Queued n p' p'') : Queued (m + n) p p'' := by
  have hsize := h.size
  refine ⟨by rw [h'.size, hsize, Nat.add_assoc], h'.capacity.trans h.capacity, ?_, ?_⟩
  · intro j hj
    rw [h'.kept j (by omega), h.kept j (by omega)]
  · intro j ev hle hlt hev
    by_cases hfirst : j < p.size + m
    · rw [h'.kept j (by omega)] at hev
      exact h.changed j ev hle hfirst hev
    · exact h'.changed j ev (by omega) (by omega) hev

theorem wp_evSet {ev : KEvent} (hev : ev.IsChange) (E : PollAssertion → Syspoll → Prop) :
    wp (evSet ev) (fun _ p' => Queued 1 p p') E p := by
  refine ⟨rfl, List.length_set, ?_, ?_⟩
  · intro j hj
    exact List.getElem?_set_ne (by omega)
  · intro j ev' hle hlt hj
    obtain rfl : j = p.size := by omega
    change (p.events.set p.size ev)[p.size]? = some ev' at hj
    rw [List.getElem?_set_self'] at hj
    cases hold : p.events[p.size]? with
    | none =>
        rw [hold] at hj
        cases hj
    | some old =>
        rw [hold] at hj
        cases hj
        exact hev

theorem isChange_add (flags : BitVec 16) :
    (EV_ADD ||| EV_CLEAR ||| flags) &&& (EV_ADD ||| EV_DELETE) ≠ 0 := by
  intro h
  have hbit := congrArg (fun b => b.getLsbD 0) h
  simp [EV_ADD, EV_CLEAR, EV_DELETE] at hbit

theorem isChange_delete : EV_DELETE &&& (EV_ADD ||| EV_DELETE) ≠ 0 := by decide

theorem wp_kqAdd (resrc : SyspollResrc) (filter : Filter) (flags : BitVec 16) (data : Int)
    (fflags : Nat) :
    wp (kqAdd resrc filter flags data fflags) (fun _ p' => Queued 1 p p')
      (fun _ _ => p.capacity ≤ p.size) p := by
  unfold kqAdd
  rw [wp_bind, wp_gets, wp_bind, wp_check]
  exact ⟨fun _ => wp_evSet (by exact isChange_add flags) _, fun hfull => Nat.le_of_not_lt hfull⟩

theorem wp_registerFilter (resrc : SyspollResrc) (events ev : Nat) (filter : Filter) :
    wp (registerFilter resrc events ev filter)
      (fun _ p' => Queued (if events &&& ev = 0 then 0 else 1) p p')
      (fun _ _ => p.capacity ≤ p.size) p := by
  unfold registerFilter
  rw [wp_bind, wp_gets, wp_bind, wp_check]
  refine ⟨fun _ => ?_, fun hfull => Nat.le_of_not_lt hfull⟩
  rw [wp_ite]
  refine ⟨fun hno => ?_, fun hyes => ?_⟩
  · rw [if_pos hno]
    exact Queued.refl p
  · rw [if_neg hyes]
    exact wp_kqAdd resrc filter _ 0 0

/-- What one call of a handler does to the array. -/
theorem PollOp.wp_run (op : PollOp) :
    wp op.run (fun _ p' => Queued op.changes p p')
      (fun _ _ => p.capacity ≤ p.size + op.changes) p := by
  cases op with
  | register resrc events =>
      unfold run syspollRegister
      rw [wp_bind]
      refine wp_mono (wp_registerFilter resrc events SYSPOLL_READ .read) ?_ ?_
      · intro _ p₁ hread
        refine wp_mono (wp_registerFilter resrc events SYSPOLL_WRITE .write) ?_ ?_
        · intro _ p₂ hwrite
          exact hread.trans hwrite
        · intro _ _ hfull
          rw [hread.size, hread.capacity] at hfull
          simp only [changes]
          omega
      · intro _ _ hfull
        omega
  | timer resrc millis =>
      refine wp_mono (wp_kqAdd resrc .timer EV_ONESHOT millis 0) (fun _ _ h => h) ?_
      intro _ _ hfull
      omega
  | deregister fd =>
      unfold run syspollDeregister
      rw [wp_bind, wp_gets, wp_bind, wp_check]
      refine ⟨fun _ => wp_evSet (by exact isChange_delete) _, fun hfull => ?_⟩
      omega

/-- The changes a sequence of calls queues. -/
def totalChanges (ops : List PollOp) : Nat := (ops.map PollOp.changes).sum

/-- What a sequence of calls does to the array. -/
theorem wp_runOps (ops : List PollOp) :
    wp (forEach PollOp.run ops) (fun _ p' => Queued (totalChanges ops) p p')
      (fun _ _ => p.capacity ≤ p.size + totalChanges ops) p := by
  induction ops generalizing p with
  | nil => exact Queued.refl p
  | cons op rest ih =>
      have htotal : totalChanges (op :: rest) = op.changes + totalChanges rest := by
        simp [totalChanges]
      rw [forEach, wp_bind, htotal]
      refine wp_mono op.wp_run ?_ ?_
      · intro _ p₁ hop
        refine wp_mono ih ?_ ?_
        · intro _ p₂ hrest
          exact hop.trans hrest
        · intro _ _ hfull
          rw [hop.size, hop.capacity] at hfull
          omega
      · intro _ _ hfull
        omega

end Queueing

section Delivery

variable {p : Syspoll} {batch : List KEvent} (handlers : Nat → List PollOp)

/-- The calls made while the events up to the `i`-th are being handled. -/
def handled (i : Nat) : List PollOp := (List.range (i + 1)).flatMap handlers

/-- The events after the `i`-th are where the kernel put them, and are read as such. -/
def Unread (batch : List KEvent) (i : Nat) (p : Syspoll) : Prop :=
  ∀ j ev, i < j → batch[j]? = some ev →
    p.events[j]? = some ev ∧ syspollGet j p = readEvent ev p

/-- A batch arrives and its events up to the `i`-th are handled. -/
def handleUpTo (batch : List KEvent) (i : Nat) : K Unit := do
  let _ ← syspollKevent batch
  forEach PollOp.run (handled handlers i)

/-- The array right after the kernel has filled it. -/
def Syspoll.filled (p : Syspoll) (batch : List KEvent) : Syspoll where
  events := batch ++ p.events.drop batch.length
  size := 0

theorem Syspoll.capacity_filled (hfits : batch.length ≤ p.capacity) :
    (p.filled batch).capacity = p.capacity := by
  have hlength : p.capacity = p.events.length := rfl
  change (batch ++ p.events.drop batch.length).length = _
  rw [List.length_append, List.length_drop]
  omega

theorem Syspoll.filled_get {j : Nat} {ev : KEvent} (hev : batch[j]? = some ev) :
    (p.filled batch).events[j]? = some ev := by
  obtain ⟨hlt, -⟩ := List.getElem?_eq_some_iff.mp hev
  change (batch ++ _)[j]? = _
  rw [List.getElem?_append_left hlt, hev]

theorem syspollGet_eq {j : Nat} {ev : KEvent} (hev : p.events[j]? = some ev) :
    syspollGet j p = readEvent ev p := by
  change (match p.events[j]? with
    | none => halt .eventnum
    | some ev => readEvent ev : K SyspollEvents) p = _
  rw [hev]

/-- Few enough changes leave the events alone that were not read yet. -/
theorem wp_handleUpTo_of_le (hfits : batch.length ≤ p.capacity) {i : Nat}
    (hi : i + 1 < batch.length) (hle : totalChanges (handled handlers i) ≤ i + 1) :
    wp (handleUpTo handlers batch i) (fun _ p' => Unread batch i p') (fun _ _ => False) p := by
  have hcap := Syspoll.capacity_filled hfits
  unfold handleUpTo
  rw [wp_bind]
  change wp (forEach PollOp.run (handled handlers i)) _ _ (p.filled batch)
  refine wp_mono (wp_runOps (handled handlers i)) ?_ ?_
  · intro _ p' hqueued j ev hj hev
    have hkept : p'.events[j]? = some ev := by
      rw [hqueued.kept j (Or.inr ?_), Syspoll.filled_get hev]
      change 0 + _ ≤ j
      omega
    exact ⟨hkept, syspollGet_eq hkept⟩
  · intro _ _ hfull
    rw [hcap] at hfull
    change p.capacity ≤ 0 + _ at hfull
    omega

/-- One change too many is put where the next event was. -/
theorem le_of_wp_handleUpTo (hkernel : ∀ ev ∈ batch, ¬ ev.IsChange) {i : Nat}
    (hi : i + 1 < batch.length)
    (h : wp (handleUpTo handlers batch i) (fun _ p' => Unread batch i p') (fun _ _ => False) p) :
    totalChanges (handled handlers i) ≤ i + 1 := by
  refine Nat.le_of_not_lt fun hmany => ?_
  unfold handleUpTo at h
  rw [wp_bind] at h
  change wp (forEach PollOp.run (handled handlers i)) _ _ (p.filled batch) at h
  have hqueued := @wp_runOps (p.filled batch) (handled handlers i)
  cases hrun : forEach PollOp.run (handled handlers i) (p.filled batch) with
  | fault f p' => exact wp_fault h hrun
  | done _ p' =>
      have hev : batch[i + 1]? = some batch[i + 1] := List.getElem?_eq_getElem hi
      obtain ⟨hkept, -⟩ := wp_done h hrun (i + 1) _ (Nat.lt_succ_self i) hev
      refine hkernel _ (List.getElem_mem hi) ?_
      exact (wp_done hqueued hrun).changed (i + 1) _ (Nat.zero_le _)
        (by change i + 1 < 0 + _; omega) hkept

/-- The events of a batch reach their handlers if and only if at no time more changes were
queued than events handled, as long as there is an event left. -/
theorem events_delivered_iff (hfits : batch.length ≤ p.capacity)
    (hkernel : ∀ ev ∈ batch, ¬ ev.IsChange) :
    (∀ i, i + 1 < batch.length →
      wp (handleUpTo handlers batch i) (fun _ p' => Unread batch i p') (fun _ _ => False) p) ↔
    ∀ i, i + 1 < batch.length → totalChanges (handled handlers i) ≤ i + 1 := by
  constructor
  · intro h i hi
    exact le_of_wp_handleUpTo handlers hkernel hi (h i hi)
  · intro h i hi
    exact wp_handleUpTo_of_le handlers hfits hi (h i hi)

/-- The request socket and a transfer are ready. -/
def twoEvents : List KEvent :=
  [⟨3, .read, EV_CLEAR, 0, 1, some 100⟩, ⟨5, .write, EV_CLEAR, 0, 1, some 200⟩]

/-- A poller for two resources. -/
def smallPoll : Syspoll := ⟨List.replicate 4 ⟨0, .none, 0, 0, 0, none⟩, 0⟩

/-- The handler of the request socket, for as many requests as descriptors given. -/
def registering (fds : List Int) : Nat → List PollOp
  | 0 => fds.map fun fd => .register ⟨fd, 300⟩ SYSPOLL_WRITE
  | _ => []

theorem not_isChange_twoEvents : ∀ ev ∈ twoEvents, ¬ ev.IsChange := by
  unfold KEvent.IsChange
  decide

/-- One request leaves the other event alone. -/
theorem events_delivered_of_one_request :
    wp (handleUpTo (registering [7]) twoEvents 0) (fun _ p' => Unread twoEvents 0 p')
      (fun _ _ => False) smallPoll := by
  refine (events_delivered_iff (registering [7]) (by decide) not_isChange_twoEvents).mpr ?_ 0
    (by decide)
  intro i hi
  have hlength : twoEvents.length = 2 := rfl
  obtain rfl : i = 0 := by omega
  decide

/-- Two requests received in one go overwrite the event of the transfer. -/
theorem event_overwritten :
    ∃ p', handleUpTo (registering [7, 8]) twoEvents 0 smallPoll = .done () p' ∧
      syspollGet 1 (smallPoll.filled twoEvents) =
        .done ⟨SYSPOLL_WRITE, some 200⟩ (smallPoll.filled twoEvents) ∧
      syspollGet 1 p' = .done ⟨SYSPOLL_WRITE, some 300⟩ p' :=
  ⟨_, rfl, rfl, rfl⟩

end Delivery

end Sendfiled.FreeBsd
