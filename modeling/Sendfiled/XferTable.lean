/-
The direct-mapped transfer table (server_xfer_table.c): a power-of-two array of
pointers indexed by the low bits of the element's transaction ID, with no
probing, and a counter kept by insertion and removal.
-/
import Mathlib.Algebra.Ring.Nat
import Mathlib.Data.List.ReduceOption
import Mathlib.Data.List.Nodup
import Mathlib.Tactic.Basic

namespace Sendfiled

/-- The loop of `clp2`, from shift count `i`.  The first argument is the number
of shift counts left before the shift of `1U` would be undefined. -/
def clp2Order (x : Nat) : Nat → Nat → Option Nat
  | 0, _ => none
  | fuel + 1, i =>
      if (1 <<< i) % 2 ^ 32 < x then clp2Order x fuel (i + 1) else some i

theorem clp2Order_lt {x : Nat} (fuel i : Nat) {k : Nat}
    (h : clp2Order x fuel i = some k) : k < i + fuel := by
  induction fuel generalizing i with
  | zero => simp [clp2Order] at h
  | succ fuel ih =>
      rw [clp2Order] at h
      split at h
      · have := ih (i + 1) h
        omega
      · cases h
        omega

/-- A ceil() which returns powers of 2. -/
def clp2 (x : Nat) : Option Nat :=
  (clp2Order x 32 0).map (1 <<< ·)

/-- The table.  Its array always has exactly `capacity` slots, and the capacity
is a power of two that fits the shift in `clp2`. -/
structure XferTable (α : Type) where
  order : Nat
  elems : List (Option α)
  size : Nat
  order_lt : order < 32
  length_eq : elems.length = 2 ^ order

namespace XferTable

variable {α : Type}

/-- The number of slots. -/
def capacity (t : XferTable α) : Nat := 2 ^ t.order

/-- `xfer_table_construct`: an empty table for at most `maxXfers` elements. -/
def construct (maxXfers : Nat) : Option (XferTable α) :=
  match h : clp2Order maxXfers 32 0 with
  | none => none
  | some k => some
      { order := k
        elems := List.replicate (2 ^ k) none
        size := 0
        order_lt := by simpa using clp2Order_lt 32 0 h
        length_eq := by simp }

def indexof (t : XferTable α) (hash : Nat) : Nat := hash &&& (t.capacity - 1)

/-- The contents of a slot. -/
def slot (t : XferTable α) (i : Nat) : Option α := t.elems.getD i none

def find (t : XferTable α) (hash : Nat) : Option α := t.slot (t.indexof hash)

/-- Overwrite a slot and the counter. -/
def put (t : XferTable α) (i : Nat) (v : Option α) (size : Nat) : XferTable α where
  order := t.order
  elems := t.elems.set i v
  size := size
  order_lt := t.order_lt
  length_eq := by simp [t.length_eq]

/-- `xfer_table_insert`: fails, as `none`, when the slot is taken. -/
def insert (hash : α → Nat) (t : XferTable α) (elem : α) : Option (XferTable α) :=
  if (t.find (hash elem)).isSome then none
  else some (t.put (t.indexof (hash elem)) (some elem) ((t.size + 1) % 2 ^ 64))

/-- `xfer_table_erase` empties the slot and decrements the counter whatever the
slot holds. -/
def erase (t : XferTable α) (hash : Nat) : XferTable α :=
  t.put (t.indexof hash) none ((t.size + 2 ^ 64 - 1) % 2 ^ 64)

/-- The elements stored in the table, in slot order. -/
def stored (t : XferTable α) : List α := t.elems.reduceOption

theorem indexof_eq_mod (t : XferTable α) (hash : Nat) :
    t.indexof hash = hash % t.capacity := by
  simp [indexof, capacity]

/-- Tables of the same size use the same slots. -/
theorem indexof_congr {β : Type} {t : XferTable α} {u : XferTable β} (h : t.order = u.order)
    (hash : Nat) : t.indexof hash = u.indexof hash := by
  unfold indexof capacity
  rw [h]

theorem capacity_pos (t : XferTable α) : 0 < t.capacity :=
  Nat.two_pow_pos t.order

theorem capacity_le (t : XferTable α) : t.capacity ≤ 2 ^ 31 :=
  Nat.pow_le_pow_right (by decide) (Nat.le_of_lt_succ t.order_lt)

theorem indexof_lt (t : XferTable α) (hash : Nat) :
    t.indexof hash < t.elems.length := by
  rw [indexof_eq_mod, t.length_eq]
  exact Nat.mod_lt _ t.capacity_pos

@[simp] theorem put_order (t : XferTable α) (i : Nat) (v : Option α) (n : Nat) :
    (t.put i v n).order = t.order := rfl

@[simp] theorem put_size (t : XferTable α) (i : Nat) (v : Option α) (n : Nat) :
    (t.put i v n).size = n := rfl

@[simp] theorem put_indexof (t : XferTable α) (i : Nat) (v : Option α) (n hash : Nat) :
    (t.put i v n).indexof hash = t.indexof hash := rfl

theorem put_slot (t : XferTable α) {i : Nat} (hi : i < t.elems.length)
    (v : Option α) (n j : Nat) :
    (t.put i v n).slot j = if j = i then v else t.slot j := by
  simp only [slot, put, List.getD_eq_getElem?_getD, List.getElem?_set]
  by_cases hj : j = i
  · subst hj
    simp [hi]
  · simp [hj, Ne.symm hj]

theorem put_find (t : XferTable α) (hash : Nat) (v : Option α) (n other : Nat) :
    (t.put (t.indexof hash) v n).find other =
      if t.indexof other = t.indexof hash then v else t.find other := by
  rw [find, put_indexof, put_slot t (t.indexof_lt hash)]
  rfl

theorem erase_find (t : XferTable α) (hash other : Nat) :
    (t.erase hash).find other =
      if t.indexof other = t.indexof hash then none else t.find other :=
  put_find t hash none _ other

theorem insert_eq_some {hash : α → Nat} {t t' : XferTable α} {elem : α}
    (h : t.insert hash elem = some t') :
    t.find (hash elem) = none ∧
      t' = t.put (t.indexof (hash elem)) (some elem) ((t.size + 1) % 2 ^ 64) := by
  unfold insert at h
  split at h
  · cases h
  · rename_i hfree
    exact ⟨by simpa using hfree, (Option.some.inj h).symm⟩

theorem ext' {t u : XferTable α} (ho : t.order = u.order) (he : t.elems = u.elems)
    (hs : t.size = u.size) : t = u := by
  cases t
  cases u
  simp_all

theorem mem_stored_iff {t : XferTable α} {a : α} :
    a ∈ t.stored ↔ ∃ i, t.slot i = some a := by
  rw [stored, List.reduceOption_mem_iff, List.mem_iff_getElem?]
  constructor
  · rintro ⟨i, hi⟩
    exact ⟨i, by simp [slot, hi]⟩
  · rintro ⟨i, hi⟩
    refine ⟨i, ?_⟩
    cases hget : t.elems[i]? with
    | none => simp [slot, hget] at hi
    | some v =>
        simp [slot, hget] at hi
        rw [hi]

theorem slot_eq_getElem? (t : XferTable α) {i : Nat} (hi : i < t.elems.length) :
    t.elems[i]? = some (t.slot i) := by
  simp [slot, hi]

theorem reduceOption_length_set (l : List (Option α)) {i : Nat} {u v : Option α}
    (hi : l[i]? = some u) :
    (l.set i v).reduceOption.length + u.toList.length =
      l.reduceOption.length + v.toList.length := by
  induction l generalizing i with
  | nil => simp at hi
  | cons head tail ih =>
      cases i with
      | zero =>
          simp only [List.getElem?_cons_zero, Option.some.injEq] at hi
          subst hi
          cases head <;> cases v <;>
            simp [List.reduceOption_cons_of_some, List.reduceOption_cons_of_none]
      | succ i =>
          have hrec := ih (i := i) (by simpa using hi)
          cases head <;>
            simp only [List.set_cons_succ, List.reduceOption_cons_of_some,
              List.reduceOption_cons_of_none, List.length_cons] at hrec ⊢ <;> omega

theorem stored_length_le (t : XferTable α) : t.stored.length ≤ t.capacity := by
  have h := List.reduceOption_length_le t.elems
  rw [t.length_eq] at h
  exact h

/-- The table stores exactly the elements that have a key, each in the slot of
its key, and counts them. -/
structure Represents (t : XferTable α) (key : α → Option Nat) : Prop where
  slot : ∀ i a, t.slot i = some a → ∃ k, key a = some k ∧ t.indexof k = i
  find : ∀ a k, key a = some k → t.find k = some a
  size : t.size = t.stored.length

namespace Represents

variable {t : XferTable α} {key : α → Option Nat} {a b : α} {k l : Nat}

theorem mem_stored (h : t.Represents key) : a ∈ t.stored ↔ (key a).isSome := by
  rw [mem_stored_iff, Option.isSome_iff_exists]
  constructor
  · rintro ⟨i, hi⟩
    obtain ⟨k, hk, -⟩ := h.slot i a hi
    exact ⟨k, hk⟩
  · rintro ⟨k, hk⟩
    exact ⟨t.indexof k, h.find a k hk⟩

/-- Elements with keys of the same slot are the same. -/
theorem eq_of_indexof (h : t.Represents key) (ha : key a = some k) (hb : key b = some l)
    (hidx : t.indexof k = t.indexof l) : a = b := by
  have hfind : t.find k = t.find l := by rw [XferTable.find, hidx, XferTable.find]
  rw [h.find a k ha, h.find b l hb] at hfind
  exact Option.some.inj hfind

theorem nodup_stored (h : t.Represents key) : t.stored.Nodup := by
  unfold stored List.reduceOption List.Nodup
  rw [List.pairwise_filterMap, List.pairwise_iff_getElem]
  intro i j hi hj hij c hc d hd hcd
  subst hcd
  have hslot : ∀ n (hn : n < t.elems.length), id t.elems[n] = some c → t.slot n = some c := by
    intro n hn heq
    simpa [XferTable.slot, hn] using heq
  obtain ⟨k, hk, rfl⟩ := h.slot i c (hslot i hi hc)
  obtain ⟨l, hl, hidx⟩ := h.slot j c (hslot j hj hd)
  rw [hk] at hl
  cases hl
  omega

theorem size_lt (h : t.Represents key) : t.size + 1 < 2 ^ 64 := by
  have h₁ := t.stored_length_le
  have h₂ := t.capacity_le
  rw [h.size]
  omega

variable [DecidableEq α]

theorem insert (h : t.Represents key) (hfree : t.find k = none) (ha : key a = none) :
    (t.put (t.indexof k) (some a) ((t.size + 1) % 2 ^ 64)).Represents
      (Function.update key a (some k)) := by
  have hlt := t.indexof_lt k
  refine ⟨?_, ?_, ?_⟩
  · intro i b hb
    rw [put_slot t hlt] at hb
    by_cases hi : i = t.indexof k
    · rw [if_pos hi] at hb
      cases hb
      exact ⟨k, by simp, hi.symm⟩
    · rw [if_neg hi] at hb
      obtain ⟨l, hl, hidx⟩ := h.slot i b hb
      refine ⟨l, ?_, hidx⟩
      have hne : b ≠ a := by
        rintro rfl
        simp [ha] at hl
      simpa [hne] using hl
  · intro b l hb
    rw [put_find]
    by_cases hba : b = a
    · subst hba
      simp only [Function.update_self, Option.some.injEq] at hb
      subst hb
      simp
    · simp only [Function.update_of_ne hba] at hb
      have hfind := h.find b l hb
      have hne : t.indexof l ≠ t.indexof k := by
        intro hidx
        rw [XferTable.find, hidx] at hfind
        rw [XferTable.find] at hfree
        rw [hfree] at hfind
        cases hfind
      rw [if_neg hne, hfind]
  · have hcount := reduceOption_length_set (v := some a) t.elems (t.slot_eq_getElem? hlt)
    rw [show t.slot (t.indexof k) = none from hfree] at hcount
    have hsize := h.size
    have hbound := h.size_lt
    rw [put_size, Nat.mod_eq_of_lt hbound, hsize]
    simpa [stored, put] using hcount.symm

theorem erase (h : t.Represents key) (ha : key a = some k) :
    (t.erase k).Represents (Function.update key a none) := by
  have hlt := t.indexof_lt k
  have hfind := h.find a k ha
  refine ⟨?_, ?_, ?_⟩
  · intro i b hb
    unfold XferTable.erase at hb
    rw [put_slot t hlt] at hb
    by_cases hi : i = t.indexof k
    · rw [if_pos hi] at hb
      cases hb
    · rw [if_neg hi] at hb
      obtain ⟨l, hl, hidx⟩ := h.slot i b hb
      refine ⟨l, ?_, hidx⟩
      have hne : b ≠ a := by
        rintro rfl
        rw [ha] at hl
        cases hl
        exact hi hidx.symm
      simpa [hne] using hl
  · intro b l hb
    by_cases hba : b = a
    · subst hba
      simp at hb
    · simp only [Function.update_of_ne hba] at hb
      rw [erase_find, if_neg, h.find b l hb]
      intro hidx
      exact hba (h.eq_of_indexof hb ha hidx)
  · have hcount := reduceOption_length_set (v := none) t.elems (t.slot_eq_getElem? hlt)
    rw [show t.slot (t.indexof k) = some a from hfind] at hcount
    have hsize := h.size
    have hbound := h.size_lt
    have hlen : (t.erase k).stored.length + 1 = t.stored.length := by
      simpa [stored, XferTable.erase, put] using hcount
    have hval : (t.erase k).size = (t.size + 2 ^ 64 - 1) % 2 ^ 64 := rfl
    rw [hval]
    omega

end Represents

/-- A table without elements. -/
theorem represents_empty {t : XferTable α} (helems : t.elems = List.replicate (2 ^ t.order) none)
    (hsize : t.size = 0) : t.Represents fun _ => none := by
  refine ⟨?_, fun a k h => (by cases h), ?_⟩
  · intro i a h
    simp only [XferTable.slot, helems, List.getD_eq_getElem?_getD,
      List.getElem?_replicate] at h
    split at h <;> cases h
  · simp [hsize, stored, helems, List.reduceOption_replicate_none]

theorem construct_represents {n : Nat} {t : XferTable α} (h : construct n = some t) :
    t.Represents fun _ => none := by
  unfold construct at h
  split at h
  · cases h
  · cases h
    exact represents_empty rfl rfl

theorem construct_order {n : Nat} {t : XferTable α} (h : construct n = some t) :
    clp2Order n 32 0 = some t.order := by
  unfold construct at h
  split at h
  · cases h
  · rename_i k hk
    cases h
    exact hk

end XferTable

end Sendfiled
