/-
The transfer table under any sequence of the operations the server performs on
it: insertions of elements with arbitrary hashes, and erasures of the hashes of
elements that the table then stores.
-/
import Sendfiled.XferTable
import Sendfiled.Lib.Transition
import Mathlib.Tactic.NormNum

namespace Sendfiled

namespace XferTable

variable {α : Type}

/-- `xfer_table_insert` as its caller sees it: the returned flag and the table
afterwards, which is the one before where the slot is taken. -/
def insertFlag (hash : α → Nat) (t : XferTable α) (elem : α) : Bool × XferTable α :=
  match t.insert hash elem with
  | none => (false, t)
  | some t' => (true, t')

/-- The operations on a table. -/
inductive Op (α : Type) where
  | insert (elem : α)
  | erase (elem : α)

def Op.apply (hash : α → Nat) (t : XferTable α) : Op α → XferTable α
  | .insert elem => (t.insertFlag hash elem).2
  | .erase elem => t.erase (hash elem)

/-- The server erases the hashes of stored elements only. -/
def Op.Allowed : Op α → XferTable α → Prop
  | .insert _, _ => True
  | .erase elem, t => elem ∈ t.stored

/-- The tables that start as the one built for `maxXfers` elements. -/
def ops (hash : α → Nat) (maxXfers : Nat) :
    Transition.System Empty (XferTable α) (Op α) where
  init := fun t => construct maxXfers = some t
  next := fun op t => some (.ok (op.apply hash t))

/-- The number of slots that hold an element. -/
def occupied (t : XferTable α) : Nat := t.elems.countP Option.isSome

theorem stored_length_eq (t : XferTable α) : t.stored.length = t.occupied := by
  unfold stored occupied
  induction t.elems with
  | nil => rfl
  | cons head tail ih =>
      cases head with
      | none => simpa [List.reduceOption_cons_of_none] using ih
      | some a => simpa [List.reduceOption_cons_of_some] using ih

/-- The loop of `clp2` stops at the first power of two that is large enough. -/
theorem clp2Order_isSome {x : Nat} (hx : x ≤ 2 ^ 31) (fuel i : Nat) (h : i + fuel = 32)
    (hpos : 0 < fuel) : (clp2Order x fuel i).isSome := by
  induction fuel generalizing i with
  | zero => omega
  | succ fuel ih =>
      rw [clp2Order]
      split
      · rename_i hlt
        -- at the last shift count the power is 2^31, so the loop has stopped before
        have hmore : 0 < fuel := by
          by_contra hzero
          have hi : i = 31 := by omega
          subst hi
          norm_num at hlt
          omega
        exact ih (i + 1) (by omega) hmore
      · rfl

/-- No shift of `xfer_table_construct` is undefined for a positive `int`. -/
theorem construct_isSome {n : Nat} (hn : n < 2 ^ 31) :
    ∃ t : XferTable α, construct n = some t := by
  have hsome := clp2Order_isSome (x := n) (by omega) 32 0 (by decide) (by decide)
  unfold construct
  split
  · rename_i hnone
    simp [hnone] at hsome
  · exact ⟨_, rfl⟩

/-- An insertion succeeds exactly when the slot is free. -/
theorem insertFlag_cases (hash : α → Nat) (t : XferTable α) (a : α) :
    (t.find (hash a) ≠ none ∧ t.insertFlag hash a = (false, t)) ∨
      (t.find (hash a) = none ∧ t.insertFlag hash a =
        (true, t.put (t.indexof (hash a)) (some a) ((t.size + 1) % 2 ^ 64))) := by
  unfold insertFlag insert
  cases hfind : t.find (hash a) with
  | none => exact Or.inr ⟨rfl, by simp⟩
  | some b => exact Or.inl ⟨by simp, by simp⟩

/-- What is stored after an element was put into a free slot. -/
theorem mem_put {hash : α → Nat} {t : XferTable α} {a b : α} (hfree : t.find (hash a) = none) :
    b ∈ (t.put (t.indexof (hash a)) (some a) ((t.size + 1) % 2 ^ 64)).stored ↔
      b = a ∨ b ∈ t.stored := by
  rw [mem_stored_iff, mem_stored_iff]
  constructor
  · rintro ⟨i, hi⟩
    rw [put_slot t (t.indexof_lt _)] at hi
    split at hi
    · cases hi
      exact Or.inl rfl
    · exact Or.inr ⟨i, hi⟩
  · rintro (rfl | ⟨i, hi⟩)
    · refine ⟨t.indexof (hash b), ?_⟩
      rw [put_slot t (t.indexof_lt _), if_pos rfl]
    · refine ⟨i, ?_⟩
      have hne : i ≠ t.indexof (hash a) := by
        rintro rfl
        rw [XferTable.find, hi] at hfree
        cases hfree
      rw [put_slot t (t.indexof_lt _), if_neg hne, hi]

/-- The table stores elements under their own hashes. -/
def Keyed (hash : α → Nat) (t : XferTable α) : Prop :=
  ∃ key, t.Represents key ∧ ∀ a k, key a = some k → k = hash a

namespace Keyed

variable {hash : α → Nat} {t : XferTable α} {a b : α}

/-- What is stored is found under its hash. -/
theorem find (h : t.Keyed hash) (ha : a ∈ t.stored) : t.find (hash a) = some a := by
  obtain ⟨key, hrep, hkey⟩ := h
  obtain ⟨k, hk⟩ := Option.isSome_iff_exists.mp (hrep.mem_stored.mp ha)
  rw [← hkey a k hk]
  exact hrep.find a k hk

theorem slot (h : t.Keyed hash) {i : Nat} (ha : t.slot i = some a) :
    t.indexof (hash a) = i := by
  obtain ⟨key, hrep, hkey⟩ := h
  obtain ⟨k, hk, hidx⟩ := hrep.slot i a ha
  rw [← hkey a k hk]
  exact hidx

theorem size (h : t.Keyed hash) : t.size = t.occupied := by
  obtain ⟨key, hrep, -⟩ := h
  rw [hrep.size, stored_length_eq]

/-- An element whose slot is free is not stored. -/
theorem notMem_of_free (h : t.Keyed hash) (hfree : t.find (hash a) = none) :
    a ∉ t.stored := by
  intro ha
  rw [h.find ha] at hfree
  cases hfree

theorem put (h : t.Keyed hash) (hfree : t.find (hash a) = none) :
    (t.put (t.indexof (hash a)) (some a) ((t.size + 1) % 2 ^ 64)).Keyed hash := by
  classical
  have hnot := h.notMem_of_free hfree
  obtain ⟨key, hrep, hkey⟩ := h
  have hnone : key a = none := by
    simpa using mt hrep.mem_stored.mpr hnot
  refine ⟨Function.update key a (some (hash a)), hrep.insert hfree hnone, ?_⟩
  intro b k hb
  by_cases hba : b = a
  · subst hba
    simpa using hb.symm
  · rw [Function.update_of_ne hba] at hb
    exact hkey b k hb

theorem erase (h : t.Keyed hash) (ha : a ∈ t.stored) :
    (t.erase (hash a)).Keyed hash := by
  classical
  obtain ⟨key, hrep, hkey⟩ := h
  obtain ⟨k, hk⟩ := Option.isSome_iff_exists.mp (hrep.mem_stored.mp ha)
  have hk' := hkey a k hk
  subst hk'
  refine ⟨Function.update key a none, hrep.erase hk, ?_⟩
  intro b l hb
  by_cases hba : b = a
  · subst hba
    simp at hb
  · rw [Function.update_of_ne hba] at hb
    exact hkey b l hb

/-- Stored elements of the same slot are the same. -/
theorem eq_of_indexof (h : t.Keyed hash) (ha : a ∈ t.stored) (hb : b ∈ t.stored)
    (hidx : t.indexof (hash a) = t.indexof (hash b)) : a = b := by
  have hfind : t.find (hash a) = t.find (hash b) := by
    rw [XferTable.find, hidx, XferTable.find]
  rw [h.find ha, h.find hb] at hfind
  exact Option.some.inj hfind

/-- An erasure leaves every other element where it was. -/
theorem erase_find_other (h : t.Keyed hash) (ha : a ∈ t.stored) (hb : b ∈ t.stored)
    (hne : b ≠ a) : (t.erase (hash a)).find (hash b) = some b := by
  rw [erase_find, if_neg, h.find hb]
  intro hidx
  exact hne (h.eq_of_indexof hb ha hidx)

theorem mem_erase (h : t.Keyed hash) (ha : a ∈ t.stored) :
    b ∈ (t.erase (hash a)).stored ↔ b ∈ t.stored ∧ b ≠ a := by
  constructor
  · intro hb
    have hfound := (h.erase ha).find hb
    rw [erase_find] at hfound
    split at hfound
    · cases hfound
    · rename_i hidx
      refine ⟨mem_stored_iff.mpr ⟨_, hfound⟩, ?_⟩
      rintro rfl
      exact hidx rfl
  · rintro ⟨hb, hne⟩
    exact mem_stored_iff.mpr ⟨_, h.erase_find_other ha hb hne⟩

/-- Every operation of the server keeps the elements under their hashes. -/
theorem apply (h : t.Keyed hash) (op : Op α) (hop : op.Allowed t) :
    (op.apply hash t).Keyed hash := by
  cases op with
  | insert elem =>
      rcases insertFlag_cases hash t elem with ⟨-, heq⟩ | ⟨hfree, heq⟩
      · rw [Op.apply, heq]
        exact h
      · rw [Op.apply, heq]
        exact h.put hfree
  | erase elem => exact h.erase hop

/-- What a run from a keyed table leads to is keyed. -/
theorem steps {maxXfers : Nat} {t' : XferTable α} (h : t.Keyed hash)
    (hsteps : (ops hash maxXfers).Steps Op.Allowed t t') : t'.Keyed hash := by
  refine hsteps.keeps (I := XferTable.Keyed hash) ?_ h
  intro op u u' hu hop hnext
  cases hnext
  exact hu.apply op hop

end Keyed

theorem construct_keyed (hash : α → Nat) {n : Nat} {t : XferTable α}
    (h : construct n = some t) : t.Keyed hash :=
  ⟨fun _ => none, construct_represents h, fun a k hk => by cases hk⟩

/-- The table is a faithful map from hashes to elements under every sequence of
operations: each element is in the slot of its hash and found there, the counter
counts the occupied slots, an insertion is refused exactly when its slot is
taken, and an erasure removes that element only. -/
theorem construct_runs_faithful (hash : α → Nat) {maxXfers : Nat} (hpos : 1 ≤ maxXfers)
    (hmax : maxXfers ≤ 2 ^ 31 - 1) :
    ∃ t₀, construct maxXfers = some t₀ ∧
      ∀ t, (ops hash maxXfers).Steps Op.Allowed t₀ t →
        (∀ i a, t.slot i = some a → hash a &&& (t.capacity - 1) = i) ∧
        t.size = t.occupied ∧
        (∀ a ∈ t.stored, t.find (hash a) = some a) ∧
        (∀ a, ((t.insertFlag hash a).1 = false ↔
              (t.slot (hash a &&& (t.capacity - 1))).isSome) ∧
            ((t.insertFlag hash a).1 = false → (t.insertFlag hash a).2 = t) ∧
            ((t.insertFlag hash a).1 = true →
              ∀ b, b ∈ (t.insertFlag hash a).2.stored ↔ b = a ∨ b ∈ t.stored)) ∧
        (∀ a ∈ t.stored,
          (t.erase (hash a)).find (hash a) = none ∧
          (∀ b, b ∈ (t.erase (hash a)).stored ↔ b ∈ t.stored ∧ b ≠ a) ∧
          ∀ b ∈ t.stored, b ≠ a → (t.erase (hash a)).find (hash b) = some b) := by
  obtain ⟨t₀, h₀⟩ := @construct_isSome α maxXfers (by omega)
  refine ⟨t₀, h₀, ?_⟩
  intro t hsteps
  have hkeyed := (construct_keyed hash h₀).steps hsteps
  refine ⟨fun i a => hkeyed.slot, hkeyed.size, fun a => hkeyed.find, ?_, ?_⟩
  · intro a
    have hslot : t.slot (hash a &&& (t.capacity - 1)) = t.find (hash a) := rfl
    rw [hslot]
    rcases insertFlag_cases hash t a with ⟨htaken, heq⟩ | ⟨hfree, heq⟩
    · rw [heq]
      exact ⟨by simp [Option.isSome_iff_ne_none, htaken], fun _ => rfl, fun h => (by cases h)⟩
    · rw [heq, hfree]
      exact ⟨by simp, fun h => (by cases h), fun _ b => mem_put hfree⟩
  · intro a ha
    refine ⟨?_, fun b => hkeyed.mem_erase ha, fun b => hkeyed.erase_find_other ha⟩
    rw [erase_find, if_pos rfl]

/-- A table for three elements, with two hashes that share a slot. -/
theorem construct_runs_faithful_three :
    ∃ t₀, construct 3 = some t₀ ∧
      ∀ t : XferTable Nat, (ops (fun a => a) 3).Steps Op.Allowed t₀ t →
        t.size = t.occupied ∧
        ((t.insertFlag (fun a => a) 7).1 = false ↔ (t.slot (7 &&& (t.capacity - 1))).isSome) := by
  obtain ⟨t₀, h₀, hruns⟩ :=
    @construct_runs_faithful Nat (fun a => a) 3 (by decide) (by decide)
  refine ⟨t₀, h₀, fun t ht => ?_⟩
  obtain ⟨-, hsize, -, hinsert, -⟩ := hruns t ht
  exact ⟨hsize, (hinsert 7).1⟩

end XferTable

end Sendfiled
