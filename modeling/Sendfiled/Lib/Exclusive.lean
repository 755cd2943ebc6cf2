/-
Exclusive ownership.  Every item that matters and that somebody owns is present
and has no second owner.  Items change hands, appear and disappear; the rules
below say when this keeps ownership exclusive.
-/
import Mathlib.Tactic.Basic

namespace Ownership

variable {ι ο : Type} {good present present' : ι → Prop} {owns owns' : ο → ι → Prop}

/-- `owns o i` gives the item `i` to the owner `o`; nothing is said of the items
that are not good. -/
structure Exclusive (good present : ι → Prop) (owns : ο → ι → Prop) : Prop where
  present : ∀ o i, good i → owns o i → present i
  unique : ∀ o o' i, good i → owns o i → owns o' i → o = o'

namespace Exclusive

/-- Every owner is the successor of an earlier one, and an item only disappears
when its owner has no successor. -/
theorem rename (h : Exclusive good present owns) (f : ι → ο → ο)
    (hown : ∀ o i, good i → owns' o i → ∃ b, owns b i ∧ o = f i b)
    (hgone : ∀ i, good i → present i → present' i ∨ ∃ b, owns b i ∧ ¬ owns' (f i b) i) :
    Exclusive good present' owns' where
  present := by
    intro o i hi ho
    obtain ⟨b, hb, rfl⟩ := hown o i hi ho
    rcases hgone i hi (h.present b i hi hb) with hpresent | ⟨b', hb', hlost⟩
    · exact hpresent
    · rw [h.unique b b' i hi hb hb'] at ho
      exact absurd ho hlost
  unique := by
    intro o o' i hi ho ho'
    obtain ⟨b, hb, rfl⟩ := hown o i hi ho
    obtain ⟨b', hb', rfl⟩ := hown o' i hi ho'
    rw [h.unique b b' i hi hb hb']

/-- Owners may let go of items, and then the items may disappear. -/
theorem lose (h : Exclusive good present owns)
    (hown : ∀ o i, good i → owns' o i → owns o i)
    (hgone : ∀ i, good i → present i → present' i ∨ ∃ b, owns b i ∧ ¬ owns' b i) :
    Exclusive good present' owns' :=
  h.rename (fun _ b => b) (fun o i hi ho => ⟨o, hown o i hi ho, rfl⟩) hgone

/-- One item goes from one owner to another. -/
theorem give (h : Exclusive good present owns) (o₁ o₂ : ο) (i₀ : ι) (hhas : owns o₁ i₀)
    (hown : ∀ o i, good i → owns' o i →
      (owns o i ∧ ¬ (o = o₁ ∧ i = i₀)) ∨ (o = o₂ ∧ i = i₀)) :
    Exclusive good present owns' := by
  classical
  refine h.rename (fun i b => if b = o₁ ∧ i = i₀ then o₂ else b) ?_ fun i _ hi => Or.inl hi
  intro o i hi ho
  rcases hown o i hi ho with ⟨ho, hne⟩ | ⟨rfl, rfl⟩
  · exact ⟨o, ho, (if_neg hne).symm⟩
  · exact ⟨o₁, hhas, (if_pos ⟨rfl, rfl⟩).symm⟩

/-- Everything one owner has goes to another; other items may disappear. -/
theorem merge (h : Exclusive good present owns) (o₁ o₂ : ο)
    (hown : ∀ o i, good i → owns' o i → (owns o i ∧ o ≠ o₁) ∨ (o = o₂ ∧ owns o₁ i))
    (hgone : ∀ i, good i → present i →
      present' i ∨ ∃ b, owns b i ∧ b ≠ o₁ ∧ ¬ owns' b i) :
    Exclusive good present' owns' := by
  classical
  refine h.rename (fun _ b => if b = o₁ then o₂ else b) ?_ ?_
  · intro o i hi ho
    rcases hown o i hi ho with ⟨ho, hne⟩ | ⟨rfl, ho⟩
    · exact ⟨o, ho, (if_neg hne).symm⟩
    · exact ⟨o₁, ho, (if_pos rfl).symm⟩
  · intro i hi hpresent
    refine (hgone i hi hpresent).imp id ?_
    rintro ⟨b, hb, hne, hlost⟩
    exact ⟨b, hb, by rwa [if_neg hne]⟩

/-- A new item may be given to anyone. -/
theorem add (h : Exclusive good present owns) (o₀ : ο) {i₀ : ι} (hfresh : ¬ present i₀)
    (hmono : ∀ i, i = i₀ ∨ present i → present' i)
    (hown : ∀ o i, owns' o i → owns o i ∨ (o = o₀ ∧ i = i₀)) :
    Exclusive good present' owns' where
  present := by
    intro o i hi ho
    rcases hown o i ho with ho | ⟨-, rfl⟩
    · exact hmono i (Or.inr (h.present o i hi ho))
    · exact hmono i (Or.inl rfl)
  unique := by
    intro o o' i hi ho ho'
    rcases hown o i ho with ho | ⟨rfl, rfl⟩ <;> rcases hown o' i ho' with ho' | ⟨rfl, hi'⟩
    · exact h.unique o o' i hi ho ho'
    · exact absurd (h.present o i hi ho) (hi' ▸ hfresh)
    · exact absurd (h.present o' i hi ho') hfresh
    · rfl

end Exclusive

end Ownership
