/-
Programs that commute with a change of the state.  Where the change concerns only
a part that a program never looks at, its two runs end the same way.
-/
import Sendfiled.Lib.Prog

namespace Prog

variable {ε σ α β : Type}

/-- Change the state in which a program ended. -/
def Outcome.map (g : σ → σ) : Outcome ε σ α → Outcome ε σ α
  | .done a s => .done a (g s)
  | .fault e s => .fault e (g s)

theorem Outcome.map_map (g h : σ → σ) (o : Outcome ε σ α) :
    (o.map g).map h = o.map (fun s => h (g s)) := by
  cases o <;> rfl

/-- Changing the state first or last makes no difference. -/
def Commutes (g : σ → σ) (m : Program ε σ α) : Prop := ∀ s, m (g s) = (m s).map g

namespace Commutes

variable {g : σ → σ} {m n : Program ε σ α}

theorem pure (a : α) : Commutes g (Pure.pure a : Program ε σ α) := fun _ => rfl

theorem halt (e : ε) : Commutes g (Prog.halt e : Program ε σ α) := fun _ => rfl

theorem bind {f : α → Program ε σ β} (hm : Commutes g m) (hf : ∀ a, Commutes g (f a)) :
    Commutes g (m >>= f) := by
  intro s
  change (match m (g s) with
    | .done a s' => f a s'
    | .fault e s' => .fault e s') = _
  rw [hm s]
  change _ = Outcome.map g (match m s with
    | .done a s' => f a s'
    | .fault e s' => .fault e s')
  cases m s with
  | done a s' => exact hf a s'
  | fault e s' => rfl

theorem gets {f : σ → α} (hf : ∀ s, f (g s) = f s) :
    Commutes g (Prog.gets f : Program ε σ α) := by
  intro s
  unfold Prog.gets
  rw [hf s]
  rfl

/-- What is read may change, if the rest of the program does not notice. -/
theorem gets_bind {f : σ → α} {k : α → Program ε σ β} (hk : ∀ s, k (f (g s)) = k (f s))
    (h : ∀ a, Commutes g (k a)) : Commutes g (Prog.gets f >>= k) := by
  intro s
  change k (f (g s)) (g s) = (k (f s) s).map g
  rw [hk s]
  exact h (f s) s

theorem modify {f : σ → σ} (hf : ∀ s, f (g s) = g (f s)) :
    Commutes g (Prog.modify f : Program ε σ Unit) := by
  intro s
  unfold Prog.modify
  rw [hf s]
  rfl

theorem modifyGet {f : σ → α × σ} (hf : ∀ s, f (g s) = ((f s).1, g (f s).2)) :
    Commutes g (Prog.modifyGet f : Program ε σ α) := by
  intro s
  unfold Prog.modifyGet
  rw [hf s]
  rfl

theorem ite {c : Prop} [Decidable c] (hm : Commutes g m) (hn : Commutes g n) :
    Commutes g (if c then m else n) := by
  split
  · exact hm
  · exact hn

theorem check (c : Prop) [Decidable c] (e : ε) :
    Commutes g (Prog.check c e : Program ε σ Unit) :=
  ite (pure ()) (halt e)

end Commutes

end Prog
