/-
Programs that change the state only as a preorder allows, whatever they return and however
they end.  What the parts of a program keep to, the whole keeps to.
-/
import Sendfiled.Lib.Prog
import Mathlib.Order.Defs.Unbundled

namespace Prog

variable {ε σ α β : Type}

/-- However the program ends, the state it ends in is related to the one it started in. -/
def Within (R : σ → σ → Prop) (m : Program ε σ α) : Prop := ∀ s, R s (m s).state

namespace Within

variable {R : σ → σ → Prop} {m m' : Program ε σ α}

/-- A program that keeps to the relation, as a triple. -/
theorem wp (h : Within R m) (s : σ) : Prog.wp m (fun _ s' => R s s') (fun _ s' => R s s') s := by
  have hs := h s
  unfold Prog.wp
  cases hm : m s with
  | done a s' => rwa [hm] at hs
  | fault e s' => rwa [hm] at hs

theorem modify {f : σ → σ} (h : ∀ s, R s (f s)) : Within R (Prog.modify f : Program ε σ Unit) := h

theorem modifyGet {f : σ → α × σ} (h : ∀ s, R s (f s).2) :
    Within R (Prog.modifyGet f : Program ε σ α) := h

theorem ite {c : Prop} [Decidable c] (h : Within R m) (h' : Within R m') :
    Within R (if c then m else m') := by
  split
  · exact h
  · exact h'

section Preorder

variable [IsPreorder σ R]

theorem pure (a : α) : Within R (Pure.pure a : Program ε σ α) := fun s => refl_of R s

theorem halt (e : ε) : Within R (Prog.halt e : Program ε σ α) := fun s => refl_of R s

theorem gets (f : σ → α) : Within R (Prog.gets f : Program ε σ α) := fun s => refl_of R s

theorem bind {f : α → Program ε σ β} (h : Within R m) (hf : ∀ a, Within R (f a)) :
    Within R (m >>= f) := by
  intro s
  apply wp_state
  rw [wp_bind]
  apply wp_mono (h.wp s)
  · intro a s₁ h₁
    apply wp_mono ((hf a).wp s₁)
    · exact fun _ _ h₂ => trans_of R h₁ h₂
    · exact fun _ _ h₂ => trans_of R h₁ h₂
  · exact fun _ _ h₁ => h₁

theorem check {c : Prop} [Decidable c] {e : ε} : Within R (Prog.check c e : Program ε σ Unit) :=
  ite (pure ()) (halt e)

end Preorder

end Within

end Prog
