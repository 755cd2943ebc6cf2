/-
Runs of the server on FreeBSD, and when the change list of its poller overflows.  The list
holds `2 * maxfds` changes, but what is queued between two calls of `kevent` is bounded by
the number of requests and events only.
-/
import Sendfiled.FreeBsd.Changes

namespace Sendfiled.Kqueue

open Prog Transition
open FreeBsd (EV_CLEAR SYSPOLL_ERROR SYSPOLL_READ Syspoll)

section Demand

/-- What the handler of the `i`-th event may queue. -/
def eventDemand (h : Host) (i : Nat) : Nat :=
  match FreeBsd.syspollGet i h.poll with
  | .fault _ _ => 0
  | .done events _ =>
      match events.udata.bind (resourceAt h.world.srv) with
      | some (.xfer p) =>
          match h.world.srv.xferAt p with
          | none => 0
          | some x => eventCost (decide (events.events &&& SYSPOLL_ERROR ≠ 0)) x
      | _ => 0

/-- What a step may queue.  At start-up these are two signals and the request socket, after
which `syspoll_register` asks for the room of one more. -/
def demand : HostLabel → HostState → Nat
  | .start, _ => 4
  | .event _, ⟨h, .events i _⟩ => eventDemand h i
  | .request, ⟨h, .requested r _ _⟩ => requestCost h.world.srv r
  | .deferred, ⟨h, _⟩ => deferredCost h.world.srv h.world.srv.deferredXfers
  | _, _ => 0

/-- What the step may queue fits behind what was queued since the last `kevent`. -/
def Fits (l : Answers × HostLabel) (s : HostState) : Prop :=
  s.host.poll.size + demand l.2 s ≤ s.host.poll.capacity

instance (l : Answers × HostLabel) (s : HostState) : Decidable (Fits l s) :=
  inferInstanceAs (Decidable (_ ≤ _))

end Demand

section Steps

variable {ans : Answers} {h : Host}

theorem spends_follow (udata : Option Nat) : Spends changeList 0 (Host.follow udata) h := by
  unfold Host.follow
  cases udata with
  | none => exact .halt id
  | some a =>
      refine (Spends.gets _).bind_free fun found h₁ _ => ?_
      cases found with
      | none => exact .halt id
      | some u => exact .pure _

/-- The resource that is found is the one the address tells. -/
theorem follow_done {udata : Option Nat} {u : Udata} {h' : Host}
    (hdone : Host.follow udata h = .done u h') :
    h' = h ∧ udata.bind (resourceAt h.world.srv) = some u := by
  have hwp : wp (Host.follow udata)
      (fun u h' => h' = h ∧ udata.bind (resourceAt h.world.srv) = some u)
      (fun _ _ => True) h := by
    unfold Host.follow
    cases udata with
    | none => trivial
    | some a =>
        rw [wp_bind, wp_gets]
        cases hfound : resourceAt h.world.srv a with
        | none => trivial
        | some u => exact ⟨rfl, hfound⟩
  exact wp_done hwp hdone

theorem syspollGet_done {i : Nat} {events : FreeBsd.SyspollEvents} {h' : Host}
    (hdone : onPoll (FreeBsd.syspollGet i) h = .done events h') :
    h' = h ∧ FreeBsd.syspollGet i h.poll = .done events h.poll := by
  have hwp : wp (FreeBsd.syspollGet i) (fun _ p' => p' = h.poll) (fun _ _ => True) h.poll := by
    unfold FreeBsd.syspollGet
    rw [wp_bind, wp_gets]
    cases h.poll.events[i]? with
    | none => trivial
    | some ev => exact wp_mono (wp_readEvent ev) (fun _ _ heq => heq) fun _ _ _ => trivial
  have hzoom : wp (onPoll (FreeBsd.syspollGet i))
      (fun events h' => h' = h ∧ FreeBsd.syspollGet i h.poll = .done events h.poll)
      (fun _ _ => True) h := by
    unfold onPoll
    rw [wp_zoom]
    refine wp_mono (wp_outcome hwp) ?_ fun _ _ _ => trivial
    rintro events p' ⟨hget, rfl⟩
    exact ⟨rfl, hget⟩
  exact wp_done hzoom hdone

theorem identOf_done {u : Udata} {ident : Option Fd} {h' : Host}
    (hdone : onWorld (identOf u) h = .done ident h') : h'.world = h.world := by
  have hm : wp (identOf u) (fun _ w => w = h.world) (fun _ _ => True) h.world := by
    cases u with
    | sigfd | reqfd => rfl
    | xfer p =>
        rw [identOf, wp_bind, wp_getXfer]
        exact ⟨fun _ _ => rfl, fun _ => trivial⟩
    | timer t =>
        rw [identOf, wp_bind, wp_getTimer]
        exact ⟨fun _ _ => rfl, fun _ => trivial⟩
    | resp r =>
        rw [identOf, wp_bind, wp_getResp]
        exact ⟨fun _ _ => rfl, fun _ => trivial⟩
  exact (onWorld_done hm hdone).2

/-- Only transfers queue changes when their events are handled. -/
theorem spends_processResource {errorEvent : Bool} (u : Udata) {n : Nat}
    (hn : ∀ p x, u = .xfer p → h.world.srv.xferAt p = some x → eventCost errorEvent x ≤ n) :
    Spends changeList n (Host.processResource ans errorEvent u) h := by
  cases u with
  | timer t => exact spends_onWorld _
  | resp r => exact spends_onWorld _
  | sigfd | reqfd => exact .halt id
  | xfer p =>
      cases hx : h.world.srv.xferAt p with
      | some x => exact (spends_processXfer hx).mono (hn p x rfl hx)
      | none =>
          unfold Host.processResource Host.processXfer
          refine (spends_onWorld _).bind_free fun x h₁ hdone => ?_
          obtain ⟨-, hx'⟩ := getXfer_done hdone
          rw [hx] at hx'
          cases hx'

theorem spends_dispatchEvent (i : Nat) :
    Spends changeList (eventDemand h i) (Host.dispatchEvent ans i) h := by
  unfold Host.dispatchEvent
  refine (spends_syspollGet i).bind_free fun events h₁ hget => ?_
  obtain ⟨rfl, hevents⟩ := syspollGet_done hget
  refine .ite (fun _ => .pure _) fun _ => ?_
  refine (spends_follow _).bind_free fun u h₂ hfollow => ?_
  obtain ⟨rfl, hu⟩ := follow_done hfollow
  refine (spends_onWorld _).bind_free fun ident h₃ hident => ?_
  have hworld := identOf_done hident
  refine (Spends.gets _).bind_free fun reqfd h₄ hdone => ?_
  cases hdone
  refine .ite (fun _ => ?_) fun _ => ?_
  · refine .ite (fun _ => .pure _) fun _ => ?_
    exact (spends_onWorld _).bind_free fun _ _ _ => .pure _
  · refine Spends.then_free (spends_processResource u ?_) fun _ _ _ => .pure _
    rintro p x rfl hx
    rw [hworld] at hx
    unfold eventDemand
    rw [hevents]
    simp only [hu, hx]
    exact Nat.le_refl _

theorem spends_srvStart : Spends changeList 4 Host.srvStart h := by
  unfold Host.srvStart
  have hreqfd : ∀ h, Spends changeList 2 (do
      let reqfd ← gets fun h => h.world.srv.reqfd
      onPoll (FreeBsd.syspollRegister ⟨reqfd, addrOf .reqfd⟩ SYSPOLL_READ) : H Unit) h :=
    fun _ => (Spends.gets _).bind_free fun _ _ _ => spends_registerRead _
  exact spends_syspollNew.bind fun _ h₁ _ => hreqfd h₁

theorem spends_processDeferred :
    Spends changeList (deferredCost h.world.srv h.world.srv.deferredXfers)
      (Host.processDeferred ans) h := by
  unfold Host.processDeferred
  refine (Spends.gets _).bind_free fun deferred h₁ hdone => ?_
  cases hdone
  exact spends_deferredLoop _ 0

end Steps

section Runs

variable {maxfds : Nat} {s s' : HostState}

/-- The list has the size it was given, and is not overfull. -/
structure Roomy (maxfds : Nat) (h : Host) : Prop where
  capacity : h.poll.capacity = 2 * maxfds
  size : h.poll.size ≤ h.poll.capacity

/-- A step ended with a state in which the list is in order, or with another fault. -/
def Settled (maxfds : Nat) : Except HostFault HostState → Prop
  | .ok s => Roomy maxfds s.host
  | .error f => ¬ f.IsRoom

/-- What a piece of code leaves is settled if what it may queue fits. -/
theorem settled_settle {α : Type} {m : H α} {h : Host} {n : Nat}
    {f : α → Host → Except HostFault HostState} (hroomy : Roomy maxfds h)
    (hm : Spends changeList n m h) (hfits : h.poll.size + n ≤ h.poll.capacity)
    (hf : ∀ a h', Roomy maxfds h' → Settled maxfds (f a h')) :
    Settled maxfds (HostState.settle (m h) f) := by
  cases hrun : m h with
  | done a h' =>
      obtain ⟨hused, hlimit⟩ := hm.used_le hfits hrun
      exact hf a h' ⟨hlimit.trans hroomy.capacity, hused⟩
  | fault e h' => exact hm.not_exhausted hfits hrun

theorem settled_shutdown {ans : Answers} {h : Host} (hroomy : Roomy maxfds h) :
    Settled maxfds (HostState.shutdown ans h) :=
  settled_settle hroomy (n := 0) (spends_onWorld _) hroomy.size fun _ _ h' => h'

theorem Roomy.flushed {h : Host} (hroomy : Roomy maxfds h) :
    Roomy maxfds (HostState.flushed h) :=
  ⟨hroomy.capacity, Nat.zero_le _⟩

theorem Roomy.withErrno {h : Host} (hroomy : Roomy maxfds h) (e : Errno) :
    Roomy maxfds (HostState.withErrno e h) :=
  ⟨hroomy.capacity, hroomy.size⟩

/-- Every step whose changes fit is settled. -/
theorem next_settled {l : Answers × HostLabel} {r : Except HostFault HostState}
    (hroomy : Roomy maxfds s.host) (hfits : Fits l s) (hnext : HostState.next l s = some r) :
    Settled maxfds r := by
  unfold HostState.next at hnext
  split at hnext
  · cases hnext
    exact settled_settle hroomy spends_srvStart hfits fun _ _ h' => h'
  · rename_i batch h
    split at hnext
    · rename_i hbatch
      cases hnext
      refine ⟨?_, Nat.zero_le _⟩
      exact (Syspoll.capacity_filled hbatch).trans hroomy.capacity
    · cases hnext
  · rename_i ans e h
    split at hnext <;> cases hnext
    · exact settled_shutdown (hroomy.flushed.withErrno e)
    · exact hroomy.flushed.withErrno e
  · rename_i ans garbage h i n
    split at hnext
    · cases hnext
      refine settled_settle hroomy (spends_dispatchEvent i) hfits fun dispatch h' hroomy' => ?_
      cases dispatch with
      | stop => exact settled_shutdown hroomy'
      | request | handled => exact hroomy'
    · cases hnext
  · rename_i ans d h old i n
    cases hnext
    refine settled_settle hroomy (spends_onWorld _) hfits fun received h' hroomy' => ?_
    cases received with
    | some r => exact hroomy'
    | none =>
        simp only
        split
        · exact settled_shutdown hroomy'
        · exact hroomy'
  · rename_i ans e h old i n
    split at hnext <;> cases hnext
    · exact settled_shutdown (hroomy.withErrno e)
    · exact hroomy.withErrno e
  · rename_i ans h r i n
    cases hnext
    exact settled_settle hroomy (spends_handleReceived r) hfits fun _ _ h' => h'
  · rename_i ans h i n
    split at hnext <;> cases hnext
    exact settled_settle hroomy spends_processDeferred hfits fun _ _ h' => h'
  · cases hnext

theorem reachable_roomy (hr : (hostServer maxfds).Reachable Fits s) : Roomy maxfds s.host := by
  refine hr.invariant (I := fun s => Roomy maxfds s.host) ?_ ?_
  · rintro s ⟨-, hsize, hcapacity, -⟩
    exact ⟨hcapacity, by omega⟩
  · intro l s s' hroomy hfits hnext
    exact next_settled hroomy hfits hnext

/-- In the runs whose steps meet a guard the change list holds at most `2 * maxfds` changes,
and no assertion about its room fails. -/
def NeverOverflows (guard : Answers × HostLabel → HostState → Prop) (maxfds : Nat) : Prop :=
  ∀ s, (hostServer maxfds).Reachable guard s → s.host.poll.size ≤ 2 * maxfds ∧
    ∀ l, guard l s → ∀ f, (hostServer maxfds).next l s = some (.error f) → ¬ f.IsRoom

/-- The change list does not overflow in the runs in which what a step may queue fits. -/
theorem changes_fit (maxfds : Nat) : NeverOverflows Fits maxfds := by
  intro s hr
  have hroomy := reachable_roomy hr
  refine ⟨hroomy.capacity ▸ hroomy.size, fun l hfits f hnext => ?_⟩
  exact next_settled hroomy hfits hnext

end Runs

namespace HostScenario

/-! A concrete environment, for runs that can be carried out. -/

def kernel : Kernel := { Scenario.kernel with regs := [] }

theorem kernel_fresh : FreshKernel 3 kernel where
  inherited := Scenario.kernel_fresh.inherited
  reqfd_open := Scenario.kernel_fresh.reqfd_open
  regs := fun _ hr => by cases hr
  registered := fun _ hr => by cases hr
  files := Scenario.kernel_fresh.files
  trace := rfl
  record := rfl

def poll (maxfds : Nat) : Syspoll :=
  ⟨List.replicate (2 * maxfds) ⟨0, .none, 0, 0, 0, none⟩, 0⟩

def start (maxfds : Nat) : Option HostState :=
  (srvNew 3 maxfds 1000 4096).map fun srv => ⟨⟨⟨srv, kernel⟩, poll maxfds, 1000⟩, .starting⟩

theorem start_initial {maxfds : Nat} {s : HostState} (h : start maxfds = some s) :
    HostState.Initial maxfds s := by
  obtain ⟨srv, hsrv, rfl⟩ := Option.map_eq_some_iff.mp h
  refine ⟨rfl, rfl, ?_, 3, 1000, 4096, hsrv, kernel_fresh⟩
  exact List.length_replicate

def answers : Answers := Scenario.answers Scenario.tenBytes

/-- The request socket is readable, and the requests are handled one after the other. -/
def wakeUp (ds : List Datagram) : List (Answers × HostLabel) :=
  [(answers, .start), (answers, .wait [⟨3, .read, EV_CLEAR, 0, 1, some 0⟩]),
    (answers, .event (-1, -1))] ++
    ds.flatMap fun d => [(answers, .receive d), (answers, .request)]

/-- An open file, and requests to send it. -/
def openFile : Datagram := ⟨Scenario.fileRequest .fileOpen 0 0, [7], some Scenario.client⟩

def sendOpen : Datagram := ⟨Scenario.txnRequest .sendOpen 1, [8], some Scenario.client⟩

/-- The assertion about the room that the next step fails, if it does. -/
def trips (l : HostLabel) (s : HostState) : Bool :=
  match HostState.next (answers, l) s with
  | some (.error f) => decide (f = .poll .registerRoom)
  | _ => false

/-- A concrete run that ends with a failed assertion. -/
theorem not_neverOverflows {maxfds : Nat} (ls : List (Answers × HostLabel)) (l : HostLabel)
    (h : ((start maxfds).bind ((hostServer maxfds).run System.always ls)).any (trips l) = true) :
    ¬ NeverOverflows System.always maxfds := by
  intro hnever
  obtain ⟨s, hs, htrips⟩ := (Option.any_eq_true _ _).mp h
  obtain ⟨s₀, hs₀, hrun⟩ := Option.bind_eq_some_iff.mp hs
  have hreach := System.reachable_of_run (start_initial hs₀) hrun
  obtain ⟨-, hroom⟩ := hnever s hreach
  unfold trips at htrips
  split at htrips
  · rename_i f hnext
    refine hroom (answers, l) trivial f hnext ?_
    rw [of_decide_eq_true htrips]
    trivial
  · cases htrips

end HostScenario

section Overflowing

open HostScenario

/-- A server for one transfer does not get past its start-up; and one that has room for two
is stopped by a client that asks for a file and then, before the server looks for events
again, asks four times to have it sent. -/
theorem change_list_overflows :
    ¬ NeverOverflows System.always 1 ∧
      ¬ ∀ maxfds, 2 ≤ maxfds → NeverOverflows System.always maxfds := by
  refine ⟨not_neverOverflows [] .start (by decide +kernel), fun hnever => ?_⟩
  refine not_neverOverflows (wakeUp [openFile, sendOpen, sendOpen, sendOpen] ++
    [(answers, .receive sendOpen)]) .request ?_ (hnever 2 (by decide))
  decide +kernel

/-- The same requests but the last. -/
theorem changes_fit_of_requests :
    ∃ s, (hostServer 2).Reachable Fits s ∧ s.host.poll.size = 4 ∧
      ∀ l, Fits l s → ∀ f, (hostServer 2).next l s = some (.error f) → ¬ f.IsRoom := by
  have hrun : ((start 2).bind ((hostServer 2).run Fits
      (wakeUp [openFile, sendOpen, sendOpen, sendOpen]))).any
      (fun s => s.host.poll.size == 4) = true := by decide +kernel
  obtain ⟨s, hs, hsize⟩ := (Option.any_eq_true _ _).mp hrun
  obtain ⟨s₀, hs₀, hrun⟩ := Option.bind_eq_some_iff.mp hs
  have hreach := System.reachable_of_run (start_initial hs₀) hrun
  exact ⟨s, hreach, beq_iff_eq.mp hsize, (changes_fit 2 s hreach).2⟩

end Overflowing

end Sendfiled.Kqueue
