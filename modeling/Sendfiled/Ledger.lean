/-
The server's books: the two tables store exactly the live transfers and timers,
and a live transfer is in the deferred list exactly when its `defer` field says
so.  Every action keeps them.
-/
import Sendfiled.Actions

namespace Sendfiled

/-- The transaction ID of a live transfer. -/
def Server.xferKey (s : Server) (p : Ptr) : Option Nat := (s.xferAt p).map ResrcXfer.txnid

/-- The transaction ID of a live timer. -/
def Server.timerKey (s : Server) (t : Ptr) : Option Nat := (s.timerAt t).map ResrcTimer.txnid

structure Ledger (s : Server) : Prop where
  xfers : s.xfers.Represents s.xferKey
  timers : s.xferTimers.Represents s.timerKey
  xfer_lt : ∀ p x, s.xferAt p = some x → p < s.nextPtr
  timer_lt : ∀ t tm, s.timerAt t = some tm → t < s.nextPtr
  deferred_lt : ∀ p ∈ s.deferredXfers, p < s.nextPtr
  nodup : s.deferredXfers.Nodup
  listed : ∀ p x, s.xferAt p = some x → (p ∈ s.deferredXfers ↔ x.defer ≠ .none)

namespace Ledger

variable {s s' : Server} {p q : Ptr} {x y : ResrcXfer}

theorem find (h : Ledger s) (hp : s.xferAt p = some x) : s.xfers.find x.txnid = some p :=
  h.xfers.find p x.txnid (by simp [Server.xferKey, hp])

/-- What a slot holds is a live transfer of that slot. -/
theorem of_find (h : Ledger s) {txnid : Nat} (hfind : s.xfers.find txnid = some p) :
    ∃ x, s.xferAt p = some x ∧ s.xfers.indexof x.txnid = s.xfers.indexof txnid := by
  obtain ⟨k, hk, hidx⟩ := h.xfers.slot _ p hfind
  obtain ⟨x, hx, rfl⟩ := Option.map_eq_some_iff.mp hk
  exact ⟨x, hx, hidx⟩

theorem mem_stored (h : Ledger s) : p ∈ s.xfers.stored ↔ ∃ x, s.xferAt p = some x := by
  rw [h.xfers.mem_stored, Server.xferKey, Option.isSome_map, Option.isSome_iff_exists]

theorem fresh (h : Ledger s) : s.xferAt s.nextPtr = none := by
  cases hx : s.xferAt s.nextPtr with
  | none => rfl
  | some x => exact absurd (h.xfer_lt _ x hx) (Nat.lt_irrefl _)

theorem fresh_timer (h : Ledger s) : s.timerAt s.nextPtr = none := by
  cases ht : s.timerAt s.nextPtr with
  | none => rfl
  | some tm => exact absurd (h.timer_lt _ tm ht) (Nat.lt_irrefl _)

/-- Only what the books speak about matters. -/
theorem congr (h : Ledger s) (hxfers : s'.xfers = s.xfers) (hxferAt : s'.xferAt = s.xferAt)
    (htimers : s'.xferTimers = s.xferTimers) (htimerAt : s'.timerAt = s.timerAt)
    (hds : s'.deferredXfers = s.deferredXfers) (hnext : s.nextPtr ≤ s'.nextPtr) :
    Ledger s' where
  xfers := by
    unfold Server.xferKey
    rw [hxfers, hxferAt]
    exact h.xfers
  timers := by
    unfold Server.timerKey
    rw [htimers, htimerAt]
    exact h.timers
  xfer_lt := fun p x hp => Nat.lt_of_lt_of_le (h.xfer_lt p x (hxferAt ▸ hp)) hnext
  timer_lt := fun t tm ht => Nat.lt_of_lt_of_le (h.timer_lt t tm (htimerAt ▸ ht)) hnext
  deferred_lt := fun p hp => Nat.lt_of_lt_of_le (h.deferred_lt p (hds ▸ hp)) hnext
  nodup := hds ▸ h.nodup
  listed := fun p x hp => by
    rw [hds]
    exact h.listed p x (hxferAt ▸ hp)

theorem xferKey_setXfer (hp : s.xferAt p = some x) (htxnid : y.txnid = x.txnid) :
    (s.setXfer p y).xferKey = s.xferKey := by
  funext q
  by_cases hq : q = p
  · subst hq
    simp [Server.xferKey, Server.setXfer, hp, htxnid]
  · simp [Server.xferKey, Server.setXfer, hq]

/-- A change to a live transfer, together with its place in the list. -/
theorem setXfer (h : Ledger s) (hp : s.xferAt p = some x) (htxnid : y.txnid = x.txnid)
    {ds : List Ptr} (hlt : ∀ q ∈ ds, q < s.nextPtr) (hnodup : ds.Nodup)
    (hmem : p ∈ ds ↔ y.defer ≠ .none) (hothers : ∀ q ≠ p, q ∈ ds ↔ q ∈ s.deferredXfers) :
    Ledger { s.setXfer p y with deferredXfers := ds } where
  xfers := by
    change s.xfers.Represents (s.setXfer p y).xferKey
    rw [xferKey_setXfer hp htxnid]
    exact h.xfers
  timers := h.timers
  xfer_lt := fun q z hq => by
    by_cases hqp : q = p
    · exact hqp ▸ h.xfer_lt p x hp
    · exact h.xfer_lt q z (by simpa [Server.setXfer, hqp] using hq)
  timer_lt := h.timer_lt
  deferred_lt := hlt
  nodup := hnodup
  listed := fun q z hq => by
    by_cases hqp : q = p
    · subst hqp
      have hz : y = z := by simpa [Server.setXfer] using hq
      exact hz ▸ hmem
    · have hq' : s.xferAt q = some z := by simpa [Server.setXfer, hqp] using hq
      exact (hothers q hqp).trans (h.listed q z hq')

/-- A change that leaves the deferral alone. -/
theorem setXfer_same (h : Ledger s) (hp : s.xferAt p = some x) (htxnid : y.txnid = x.txnid)
    (hdefer : y.defer = x.defer) : Ledger (s.setXfer p y) :=
  h.setXfer hp htxnid h.deferred_lt h.nodup (hdefer ▸ h.listed p x hp) fun _ _ => Iff.rfl

theorem nodup_concat (h : Ledger s) (hp : p ∉ s.deferredXfers) :
    (s.deferredXfers ++ [p]).Nodup := by
  rw [List.nodup_append]
  refine ⟨h.nodup, List.nodup_singleton p, fun a ha b hb => ?_⟩
  rintro rfl
  exact hp (List.mem_singleton.mp hb ▸ ha)

theorem cancel (h : Ledger s) (hp : s.xferAt p = some x) : Ledger (s.cancel p x) := by
  by_cases hnone : x.defer = .none
  · have hout : p ∉ s.deferredXfers := fun hin => (h.listed p x hp).mp hin hnone
    simp only [Server.cancel, if_pos hnone]
    refine h.setXfer (y := { x with defer := .cancel }) hp rfl ?_ ?_ (by simp)
      (fun q hq => by simp [hq])
    · intro q hq
      rcases List.mem_append.mp hq with hq | hq
      · exact h.deferred_lt q hq
      · rw [List.mem_singleton.mp hq]
        exact h.xfer_lt p x hp
    · exact h.nodup_concat hout
  · simp only [Server.cancel, if_neg hnone]
    refine h.setXfer (y := { x with defer := .cancel }) hp rfl h.deferred_lt h.nodup ?_
      fun _ _ => Iff.rfl
    have hin := (h.listed p x hp).mpr hnone
    simp [hin]

theorem ready (h : Ledger s) (hp : s.xferAt p = some x) (hnone : x.defer = .none) :
    Ledger (s.ready p x) := by
  have hout : p ∉ s.deferredXfers := fun hin => (h.listed p x hp).mp hin hnone
  refine h.setXfer (y := { x with defer := .ready }) hp rfl ?_ ?_ (by simp)
    (fun q hq => by simp [hq])
  · intro q hq
    rcases List.mem_append.mp hq with hq | hq
    · exact h.deferred_lt q hq
    · rw [List.mem_singleton.mp hq]
      exact h.xfer_lt p x hp
  · exact h.nodup_concat hout

theorem release (h : Ledger s) {i : Nat} (hi : s.deferredXfers[i]? = some p)
    (hp : s.xferAt p = some x) :
    Ledger ((s.unlist i).setXfer p { x with defer := .none }) := by
  have hmem := List.mem_swapRemove h.nodup hi
  refine h.setXfer (y := { x with defer := .none }) hp rfl ?_
    (List.nodup_swapRemove h.nodup hi) ?_ ?_
  · exact fun q hq => h.deferred_lt q ((hmem q).mp hq).1
  · simp [Server.unlist, hmem]
  · intro q hq
    simp [Server.unlist, hmem, hq]

theorem discard (h : Ledger s) (hp : s.xferAt p = some x) : Ledger (s.discard p x.txnid) where
  xfers := by
    have hkey : (s.discard p x.txnid).xferKey = Function.update s.xferKey p none := by
      funext q
      by_cases hq : q = p
      · subst hq
        simp [Server.xferKey, Server.discard, Server.dropXfer]
      · simp [Server.xferKey, Server.discard, Server.dropXfer, hq]
    rw [hkey]
    exact h.xfers.erase (by simp [Server.xferKey, hp])
  timers := h.timers
  xfer_lt := fun q z hq => by
    by_cases hqp : q = p
    · simp [Server.discard, Server.dropXfer, hqp] at hq
    · exact h.xfer_lt q z (by simpa [Server.discard, Server.dropXfer, hqp] using hq)
  timer_lt := h.timer_lt
  deferred_lt := h.deferred_lt
  nodup := h.nodup
  listed := fun q z hq => by
    by_cases hqp : q = p
    · simp [Server.discard, Server.dropXfer, hqp] at hq
    · exact h.listed q z (by simpa [Server.discard, Server.dropXfer, hqp] using hq)

theorem bury (h : Ledger s) {i : Nat} (hi : s.deferredXfers[i]? = some p)
    (hp : s.xferAt p = some x) : Ledger ((s.unlist i).discard p x.txnid) := by
  have hreleased := (h.release hi hp).discard (p := p) (x := { x with defer := .none })
    (by simp [Server.setXfer])
  have hsame : ((s.unlist i).setXfer p { x with defer := .none }).discard p x.txnid =
      (s.unlist i).discard p x.txnid := by
    simp [Server.discard, Server.dropXfer, Server.setXfer, Server.unlist]
  rwa [hsame] at hreleased

theorem enroll (h : Ledger s) (hfree : s.xfers.find x.txnid = none) (hdefer : x.defer = .none) :
    Ledger (s.enroll x) where
  xfers := by
    have hkey : (s.enroll x).xferKey = Function.update s.xferKey s.nextPtr (some x.txnid) := by
      funext q
      by_cases hq : q = s.nextPtr
      · subst hq
        simp [Server.xferKey, Server.enroll, Server.newXfer, Server.setXfer]
      · simp [Server.xferKey, Server.enroll, Server.newXfer, Server.setXfer, hq]
    rw [hkey]
    exact h.xfers.insert hfree (by simp [Server.xferKey, h.fresh])
  timers := h.timers
  xfer_lt := fun q z hq => by
    by_cases hqp : q = s.nextPtr
    · exact hqp ▸ Nat.lt_succ_self _
    · have hq' : s.xferAt q = some z := by
        simpa [Server.enroll, Server.newXfer, Server.setXfer, hqp] using hq
      exact Nat.lt_succ_of_lt (h.xfer_lt q z hq')
  timer_lt := fun t tm ht => Nat.lt_succ_of_lt (h.timer_lt t tm ht)
  deferred_lt := fun q hq => Nat.lt_succ_of_lt (h.deferred_lt q hq)
  nodup := h.nodup
  listed := fun q z hq => by
    by_cases hqp : q = s.nextPtr
    · subst hqp
      have hz : x = z := by simpa [Server.enroll, Server.newXfer, Server.setXfer] using hq
      subst hz
      have hout : s.nextPtr ∉ s.deferredXfers := fun hin =>
        Nat.lt_irrefl _ (h.deferred_lt _ hin)
      simpa [hdefer, Server.enroll, Server.newXfer, Server.setXfer] using hout
    · exact h.listed q z (by simpa [Server.enroll, Server.newXfer, Server.setXfer, hqp] using hq)

theorem skip (h : Ledger s) : Ledger s.skip := by
  have hsame : Function.update s.xferAt s.nextPtr none = s.xferAt := by
    simp [h.fresh]
  exact h.congr rfl hsame rfl rfl rfl (Nat.le_succ _)

theorem addTimer (h : Ledger s) {tm : ResrcTimer}
    (hfree : s.xferTimers.find tm.txnid = none) : Ledger (s.addTimer tm) where
  xfers := h.xfers
  timers := by
    have hkey : (s.addTimer tm).timerKey =
        Function.update s.timerKey s.nextPtr (some tm.txnid) := by
      funext q
      by_cases hq : q = s.nextPtr
      · subst hq
        simp [Server.timerKey, Server.addTimer, Server.newTimer, Server.setTimer]
      · simp [Server.timerKey, Server.addTimer, Server.newTimer, Server.setTimer, hq]
    rw [hkey]
    exact h.timers.insert hfree (by simp [Server.timerKey, h.fresh_timer])
  xfer_lt := fun p x hp => Nat.lt_succ_of_lt (h.xfer_lt p x hp)
  timer_lt := fun q z hq => by
    by_cases hqp : q = s.nextPtr
    · exact hqp ▸ Nat.lt_succ_self _
    · have hq' : s.timerAt q = some z := by
        simpa [Server.addTimer, Server.newTimer, Server.setTimer, hqp] using hq
      exact Nat.lt_succ_of_lt (h.timer_lt q z hq')
  deferred_lt := fun q hq => Nat.lt_succ_of_lt (h.deferred_lt q hq)
  nodup := h.nodup
  listed := h.listed

theorem skipTimer (h : Ledger s) : Ledger s.skipTimer := by
  have hsame : Function.update s.timerAt s.nextPtr none = s.timerAt := by
    simp [h.fresh_timer]
  exact h.congr rfl rfl rfl hsame rfl (Nat.le_succ _)

theorem arm (h : Ledger s) {t : Ptr} {tm : ResrcTimer} {fd : Fd}
    (ht : s.timerAt t = some tm) : Ledger (s.setTimer t { tm with ident := fd }) where
  xfers := h.xfers
  timers := by
    have hkey : (s.setTimer t { tm with ident := fd }).timerKey = s.timerKey := by
      funext q
      by_cases hq : q = t
      · subst hq
        simp [Server.timerKey, Server.setTimer, ht]
      · simp [Server.timerKey, Server.setTimer, hq]
    rw [hkey]
    exact h.timers
  xfer_lt := h.xfer_lt
  timer_lt := fun q z hq => by
    by_cases hqt : q = t
    · exact hqt ▸ h.timer_lt t tm ht
    · exact h.timer_lt q z (by simpa [Server.setTimer, hqt] using hq)
  deferred_lt := h.deferred_lt
  nodup := h.nodup
  listed := h.listed

theorem expire (h : Ledger s) {t : Ptr} {tm : ResrcTimer} (ht : s.timerAt t = some tm) :
    Ledger (s.expire t tm.txnid) where
  xfers := h.xfers
  timers := by
    have hkey : (s.expire t tm.txnid).timerKey = Function.update s.timerKey t none := by
      funext q
      by_cases hq : q = t
      · subst hq
        simp [Server.timerKey, Server.expire, Server.dropTimer]
      · simp [Server.timerKey, Server.expire, Server.dropTimer, hq]
    rw [hkey]
    exact h.timers.erase (by simp [Server.timerKey, ht])
  xfer_lt := h.xfer_lt
  timer_lt := fun q z hq => by
    by_cases hqt : q = t
    · simp [Server.expire, Server.dropTimer, hqt] at hq
    · exact h.timer_lt q z (by simpa [Server.expire, Server.dropTimer, hqt] using hq)
  deferred_lt := h.deferred_lt
  nodup := h.nodup
  listed := h.listed

/-- Every action keeps the books. -/
theorem performs {a : Action} {c c' : Config} (hp : Performs a c c')
    (h : Ledger c.world.srv) : Ledger c'.world.srv := by
  cases hp with
  | quiet _ hs _ =>
      rw [hs]
      exact h.congr rfl rfl rfl rfl rfl (Nat.le_refl _)
  | say | openFile | seek | openTimer | arrive | dup | shut | reshut | register | forget
  | balk => exact h
  | enroll _ hfree _ hdefer => exact h.enroll hfree hdefer
  | skip => exact h.skip
  | retire _ hp => exact h.discard hp
  | discard _ hp => exact h.discard hp
  | bury _ hi hp => exact h.bury hi hp
  | cancel hp _ => exact h.cancel hp
  | ready hp hdefer => exact h.ready hp hdefer
  | release hi hp _ => exact h.release hi hp
  | assign hp _ _ => exact h.setXfer_same hp rfl rfl
  | move _ hp => exact h.setXfer_same hp rfl rfl
  | addTimer _ hfree => exact h.addTimer hfree
  | skipTimer => exact h.skipTimer
  | arm ht => exact h.arm ht
  | expire _ ht => exact h.expire ht
  | botch _ ht _ => exact h.expire ht
  | addResp => exact h.congr rfl rfl rfl rfl rfl (Nat.le_succ _)
  | skipResp => exact h.congr rfl rfl rfl rfl rfl (Nat.le_succ _)
  | dropResp => exact h.congr rfl rfl rfl rfl rfl (Nat.le_refl _)

end Ledger

/-- The table never changes its size. -/
theorem Performs.xfers_order {a : Action} {c c' : Config} (h : Performs a c c') :
    c'.world.srv.xfers.order = c.world.srv.xfers.order := by
  cases h with
  | quiet _ hs _ => rw [hs]
  | _ => rfl

theorem Performs.xferTimers_order {a : Action} {c c' : Config} (h : Performs a c c') :
    c'.world.srv.xferTimers.order = c.world.srv.xferTimers.order := by
  cases h with
  | quiet _ hs _ => rw [hs]
  | _ => rfl

theorem Acts.xfers_order {A : Action → Config → Prop} {c c' : Config} (h : Acts A c c') :
    c'.world.srv.xfers.order = c.world.srv.xfers.order :=
  h.keeps (I := fun c₁ => c₁.world.srv.xfers.order = c.world.srv.xfers.order)
    (fun _ _ _ _ hp hc => hp.xfers_order.trans hc) rfl

theorem Acts.ledger {A : Action → Config → Prop} {c c' : Config} (h : Acts A c c')
    (hc : Ledger c.world.srv) : Ledger c'.world.srv :=
  h.keeps (I := fun c => Ledger c.world.srv) (fun _ _ _ _ hp hc => hc.performs hp) hc

/-- A live transfer is in the slot of its transaction ID and in no other. -/
theorem Ledger.slot_iff {s : Server} (h : Ledger s) {p : Ptr} {x : ResrcXfer}
    (hp : s.xferAt p = some x) (i : Nat) :
    s.xfers.slot i = some p ↔ i = s.xfers.indexof x.txnid := by
  constructor
  · intro hi
    obtain ⟨k, hk, hidx⟩ := h.xfers.slot i p hi
    have hkx : x.txnid = k := by simpa [Server.xferKey, hp] using hk
    rw [← hidx, hkx]
  · rintro rfl
    exact h.find hp

end Sendfiled
