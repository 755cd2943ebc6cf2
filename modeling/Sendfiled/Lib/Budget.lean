/-
Programs that draw on a limited supply.  A meter reads from the state how much is used and
how much there is; the bounds of the parts of a program add up to a bound of the whole, and
a program whose bound fits does not run out.
-/
import Sendfiled.Lib.Prog

namespace Prog

/-- What is used of a supply, its limit, and the faults that report that it is exhausted. -/
structure Meter (ε σ : Type) where
  used : σ → Nat
  limit : σ → Nat
  exhausted : ε → Prop

variable {ε σ α β : Type}

/-- From `s` the program uses at most `n`, leaves the limit alone, and finds the supply
exhausted only if `n` does not fit. -/
def Spends (μ : Meter ε σ) (n : Nat) (m : Program ε σ α) (s : σ) : Prop :=
  wp m (fun _ s' => μ.used s' ≤ μ.used s + n ∧ μ.limit s' = μ.limit s)
    (fun e _ => μ.exhausted e → μ.limit s < μ.used s + n) s

namespace Spends

variable {μ : Meter ε σ} {m : Program ε σ α} {n n' : Nat} {s : σ}

theorem mono (h : Spends μ n m s) (hle : n ≤ n') : Spends μ n' m s := by
  refine wp_mono h ?_ ?_
  · rintro _ s' ⟨hused, hlimit⟩
    exact ⟨by omega, hlimit⟩
  · intro e s' hfull hexhausted
    have := hfull hexhausted
    omega

theorem pure (a : α) : Spends μ n (Pure.pure a) s := ⟨Nat.le_add_right _ _, rfl⟩

theorem gets (f : σ → α) : Spends μ n (Prog.gets f) s := ⟨Nat.le_add_right _ _, rfl⟩

/-- A fault of another kind. -/
theorem halt {e : ε} (he : ¬ μ.exhausted e) : Spends μ n (Prog.halt e : Program ε σ α) s :=
  fun h => absurd h he

/-- What the parts of a sequence use adds up. -/
theorem bind {f : α → Program ε σ β} (h : Spends μ n m s)
    (hf : ∀ a s', m s = .done a s' → Spends μ n' (f a) s') :
    Spends μ (n + n') (m >>= f) s := by
  unfold Spends
  rw [wp_bind]
  refine wp_mono (wp_outcome h) ?_ ?_
  · rintro a s' ⟨hdone, hused, hlimit⟩
    refine wp_mono (hf a s' hdone) ?_ ?_
    · rintro _ s'' ⟨hused', hlimit'⟩
      exact ⟨by omega, hlimit'.trans hlimit⟩
    · intro e s'' hfull hexhausted
      have := hfull hexhausted
      omega
  · intro e s' hfull hexhausted
    have := hfull hexhausted
    omega

/-- A first part that uses nothing. -/
theorem bind_free {f : α → Program ε σ β} (h : Spends μ 0 m s)
    (hf : ∀ a s', m s = .done a s' → Spends μ n (f a) s') : Spends μ n (m >>= f) s := by
  have hboth := h.bind hf
  rwa [Nat.zero_add] at hboth

/-- A rest that uses nothing. -/
theorem then_free {f : α → Program ε σ β} (h : Spends μ n m s)
    (hf : ∀ a s', m s = .done a s' → Spends μ 0 (f a) s') : Spends μ n (m >>= f) s :=
  h.bind hf

theorem ite {c : Prop} [Decidable c] {m' : Program ε σ α} (h : c → Spends μ n m s)
    (h' : ¬ c → Spends μ n m' s) : Spends μ n (if c then m else m') s := by
  split
  · exact h ‹c›
  · exact h' ‹¬ c›

/-- A program whose bound fits does not find the supply exhausted. -/
theorem not_exhausted (h : Spends μ n m s) (hfits : μ.used s + n ≤ μ.limit s) {e : ε} {s' : σ}
    (hfault : m s = .fault e s') : ¬ μ.exhausted e := by
  intro hexhausted
  have := wp_fault h hfault hexhausted
  omega

/-- What is used after a program whose bound fits. -/
theorem used_le (h : Spends μ n m s) (hfits : μ.used s + n ≤ μ.limit s) {a : α} {s' : σ}
    (hdone : m s = .done a s') : μ.used s' ≤ μ.limit s' ∧ μ.limit s' = μ.limit s := by
  obtain ⟨hused, hlimit⟩ := wp_done h hdone
  exact ⟨by omega, hlimit⟩

end Spends

end Prog
