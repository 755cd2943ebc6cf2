/-
Removing an element of a list by moving the last element into its place, as
arrays without an order do.
-/
import Mathlib.Data.List.Nodup
import Mathlib.Data.List.Perm.Basic
import Mathlib.Tactic.Basic

namespace List

variable {α : Type}

/-- Remove the element at `i`: the last element takes its place. -/
def swapRemove (l : List α) (i : Nat) : List α :=
  match l.getLast? with
  | none => []
  | some last => (l.set i last).dropLast

theorem swapRemove_concat_lt (l : List α) (a : α) {i : Nat} (hi : i < l.length) :
    (l ++ [a]).swapRemove i = l.set i a := by
  simp only [swapRemove, getLast?_append, getLast?_singleton, Option.some_or]
  rw [set_append_left i a hi, dropLast_concat]

theorem swapRemove_concat_length (l : List α) (a : α) :
    (l ++ [a]).swapRemove l.length = l := by
  simp only [swapRemove, getLast?_append, getLast?_singleton, Option.some_or]
  rw [set_append_right _ _ (Nat.le_refl _)]
  simp

/-- Swap removal removes exactly the chosen element, up to the order. -/
theorem swapRemove_perm {l : List α} {i : Nat} {a : α} (h : l[i]? = some a) :
    l.Perm (a :: l.swapRemove i) := by
  obtain ⟨hi, -⟩ := getElem?_eq_some_iff.mp h
  rcases eq_nil_or_concat' l with rfl | ⟨init, last, rfl⟩
  · simp at hi
  rcases Nat.lt_or_ge i init.length with hlt | hge
  · rw [swapRemove_concat_lt init last hlt]
    rw [getElem?_append_left hlt] at h
    have hset := getD_set_perm_cons init i last
    rw [h, Option.getD_some] at hset
    exact (perm_append_singleton last init).trans hset.symm
  · have hlen : i = init.length := by
      simp only [length_append, length_singleton] at hi
      omega
    subst hlen
    rw [swapRemove_concat_length]
    have hlast : last = a := by simpa using h
    rw [hlast]
    exact perm_append_singleton a init

theorem length_swapRemove {l : List α} {i : Nat} {a : α} (h : l[i]? = some a) :
    l.length = (l.swapRemove i).length + 1 := by
  simpa using (swapRemove_perm h).length_eq

/-- The elements before the removed one stay where they are. -/
theorem getElem?_swapRemove_lt {l : List α} {i j : Nat} (hj : j < i) (hi : i < l.length) :
    (l.swapRemove i)[j]? = l[j]? := by
  rcases eq_nil_or_concat' l with rfl | ⟨init, last, rfl⟩
  · simp at hi
  simp only [length_append, length_singleton] at hi
  rcases Nat.lt_or_ge i init.length with hlt | hge
  · rw [swapRemove_concat_lt init last hlt, getElem?_set_ne (by omega),
      getElem?_append_left (by omega)]
  · have hlen : i = init.length := by omega
    subst hlen
    rw [swapRemove_concat_length, getElem?_append_left hj]

theorem take_swapRemove {l : List α} {i : Nat} (hi : i < l.length) :
    (l.swapRemove i).take i = l.take i := by
  apply ext_getElem?
  intro j
  by_cases hj : j < i
  · rw [getElem?_take_of_lt hj, getElem?_take_of_lt hj, getElem?_swapRemove_lt hj hi]
  · rw [getElem?_take_eq_none (Nat.not_lt.mp hj), getElem?_take_eq_none (Nat.not_lt.mp hj)]

/-- Of the elements from the removed one on, the others are left. -/
theorem drop_swapRemove_perm {l : List α} {i : Nat} {a : α} (h : l[i]? = some a) :
    (l.drop i).Perm (a :: (l.swapRemove i).drop i) := by
  obtain ⟨hi, -⟩ := getElem?_eq_some_iff.mp h
  have hsplit : l.swapRemove i = l.take i ++ (l.swapRemove i).drop i := by
    rw [← take_swapRemove hi, take_append_drop]
  have hperm : (l.take i ++ l.drop i).Perm (l.take i ++ a :: (l.swapRemove i).drop i) := by
    rw [take_append_drop]
    calc l ~ a :: l.swapRemove i := swapRemove_perm h
      _ = a :: (l.take i ++ (l.swapRemove i).drop i) := congrArg (a :: ·) hsplit
      _ ~ l.take i ++ a :: (l.swapRemove i).drop i := perm_middle.symm
  exact (perm_append_left_iff _).mp hperm

/-- Without repetitions, what is left is everything but the removed element. -/
theorem mem_swapRemove {l : List α} (hl : l.Nodup) {i : Nat} {a : α}
    (h : l[i]? = some a) (b : α) : b ∈ l.swapRemove i ↔ b ∈ l ∧ b ≠ a := by
  have hperm := swapRemove_perm h
  have hnot : a ∉ l.swapRemove i := (nodup_cons.mp (hperm.nodup_iff.mp hl)).1
  rw [hperm.mem_iff, mem_cons]
  constructor
  · intro hb
    refine ⟨Or.inr hb, ?_⟩
    rintro rfl
    exact hnot hb
  · rintro ⟨rfl | hb, hne⟩
    · exact absurd rfl hne
    · exact hb

theorem nodup_swapRemove {l : List α} (hl : l.Nodup) {i : Nat} {a : α}
    (h : l[i]? = some a) : (l.swapRemove i).Nodup :=
  (nodup_cons.mp ((swapRemove_perm h).nodup_iff.mp hl)).2

end List
