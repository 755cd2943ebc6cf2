/-
Sequential programs over a state that can stop with a fault, and the weakest
precondition calculus used to reason about them.  A faulting program keeps the
state it had when it stopped, so a claim can speak about that state as well.
-/
import Mathlib.Algebra.Ring.Nat
import Mathlib.Tactic.Basic

namespace Prog

variable {ε σ α β : Type}

/-- How a program ends: with a value, or with a fault. -/
inductive Outcome (ε σ α : Type) where
  | done (value : α) (state : σ)
  | fault (error : ε) (state : σ)

/-- The state in which a program ends, however it ends. -/
def Outcome.state : Outcome ε σ α → σ
  | .done _ s => s
  | .fault _ s => s

/-- The fault a program has stopped with, if it has stopped. -/
def Outcome.fault? : Outcome ε σ α → Option ε
  | .done _ _ => none
  | .fault e _ => some e

@[simp] theorem Outcome.state_done (a : α) (s : σ) :
    (Outcome.done a s : Outcome ε σ α).state = s := rfl

@[simp] theorem Outcome.state_fault (e : ε) (s : σ) :
    (Outcome.fault e s : Outcome ε σ α).state = s := rfl

/-- A program from states to outcomes. -/
def Program (ε σ α : Type) : Type := σ → Outcome ε σ α

instance : Monad (Program ε σ) where
  pure a := fun s => .done a s
  bind m f := fun s =>
    match m s with
    | .done a s' => f a s'
    | .fault e s' => .fault e s'

/-- Stop with a fault. -/
def halt (e : ε) : Program ε σ α := fun s => .fault e s

/-- Read a component of the state. -/
def gets (f : σ → α) : Program ε σ α := fun s => .done (f s) s

/-- Replace the state. -/
def modify (f : σ → σ) : Program ε σ Unit := fun s => .done () (f s)

/-- Run a pure transition that also returns a value. -/
def modifyGet (f : σ → α × σ) : Program ε σ α := fun s => .done (f s).1 (f s).2

/-- Continue only if the condition holds. -/
def check (c : Prop) [Decidable c] (e : ε) : Program ε σ Unit :=
  if c then pure () else halt e

/-- Run a program for every element of a list, from the left. -/
def forEach (f : α → Program ε σ Unit) : List α → Program ε σ Unit
  | [] => pure ()
  | a :: rest => do
      f a
      forEach f rest

/-- Run a program on a part of the state. -/
def zoom {δ τ : Type} (get : σ → τ) (set : τ → σ → σ) (inj : ε → δ) (m : Program ε τ α) :
    Program δ σ α := fun s =>
  match m (get s) with
  | .done a t => .done a (set t s)
  | .fault e t => .fault (inj e) (set t s)

/-- `wp m Q E s`: run from `s`, the program `m` ends with a value and a state
satisfying `Q`, or with a fault and a state satisfying `E`. -/
def wp (m : Program ε σ α) (Q : α → σ → Prop) (E : ε → σ → Prop) (s : σ) : Prop :=
  match m s with
  | .done a s' => Q a s'
  | .fault e s' => E e s'

section Rules

variable {m : Program ε σ α} {Q Q' : α → σ → Prop} {E E' : ε → σ → Prop} {s : σ}

@[simp] theorem wp_pure (a : α) : wp (pure a) Q E s ↔ Q a s := Iff.rfl

@[simp] theorem wp_bind (f : α → Program ε σ β) {Q : β → σ → Prop} :
    wp (m >>= f) Q E s ↔ wp m (fun a s' => wp (f a) Q E s') E s := by
  change (match (match m s with
      | .done a s' => f a s'
      | .fault e s' => .fault e s' : Outcome ε σ β) with
    | .done a s' => Q a s'
    | .fault e s' => E e s') ↔ _
  unfold wp
  cases m s <;> rfl

@[simp] theorem wp_map (f : α → β) {Q : β → σ → Prop} :
    wp (f <$> m) Q E s ↔ wp m (fun a s' => Q (f a) s') E s :=
  wp_bind (fun a => pure (f a))

@[simp] theorem wp_halt (e : ε) :
    wp (halt e : Program ε σ α) Q E s ↔ E e s := Iff.rfl

@[simp] theorem wp_gets (f : σ → α) : wp (gets f) Q E s ↔ Q (f s) s := Iff.rfl

@[simp] theorem wp_modify (f : σ → σ) {Q : Unit → σ → Prop} :
    wp (modify f) Q E s ↔ Q () (f s) := Iff.rfl

@[simp] theorem wp_modifyGet (f : σ → α × σ) :
    wp (modifyGet f) Q E s ↔ Q (f s).1 (f s).2 := Iff.rfl

theorem wp_ite (c : Prop) [Decidable c] (n : Program ε σ α) :
    wp (if c then m else n) Q E s ↔
      (c → wp m Q E s) ∧ (¬ c → wp n Q E s) := by
  by_cases hc : c <;> simp [hc]

@[simp] theorem wp_check (c : Prop) [Decidable c] (e : ε)
    {Q : Unit → σ → Prop} :
    wp (check c e) Q E s ↔ (c → Q () s) ∧ (¬ c → E e s) := by
  unfold check
  rw [wp_ite]
  rfl

theorem wp_zoom {δ τ : Type} {get : σ → τ} {set : τ → σ → σ} {inj : ε → δ}
    {m : Program ε τ α} {E : δ → σ → Prop} :
    wp (zoom get set inj m) Q E s ↔
      wp m (fun a t => Q a (set t s)) (fun e t => E (inj e) (set t s)) (get s) := by
  unfold wp zoom
  cases m (get s) <;> rfl

/-- Weaken what is known of both kinds of ending. -/
theorem wp_mono (h : wp m Q E s) (hQ : ∀ a s', Q a s' → Q' a s')
    (hE : ∀ e s', E e s' → E' e s') : wp m Q' E' s := by
  unfold wp at h ⊢
  cases hm : m s with
  | done a s' =>
      rw [hm] at h
      exact hQ a s' h
  | fault e s' =>
      rw [hm] at h
      exact hE e s' h

/-- What does not depend on how a program runs. -/
theorem wp_of_forall (hQ : ∀ a s', Q a s') (hE : ∀ e s', E e s') : wp m Q E s := by
  unfold wp
  cases m s with
  | done a s' => exact hQ a s'
  | fault e s' => exact hE e s'

/-- What is known of a program in two ways is known together. -/
theorem wp_and (h : wp m Q E s) (h' : wp m Q' E' s) :
    wp m (fun a s' => Q a s' ∧ Q' a s') (fun e s' => E e s' ∧ E' e s') s := by
  unfold wp at h h' ⊢
  cases hm : m s with
  | done a s' =>
      rw [hm] at h h'
      exact ⟨h, h'⟩
  | fault e s' =>
      rw [hm] at h h'
      exact ⟨h, h'⟩

theorem wp_congr (h : ∀ a s', Q a s' ↔ Q' a s') : wp m Q E s ↔ wp m Q' E s := by
  constructor
  · exact fun hQ => wp_mono hQ (fun a s' => (h a s').mp) fun _ _ he => he
  · exact fun hQ => wp_mono hQ (fun a s' => (h a s').mpr) fun _ _ he => he

/-- A program does not end both ways. -/
theorem wp_not (h : wp m (fun a s' => ¬ Q a s') (fun e s' => ¬ E e s') s) : ¬ wp m Q E s := by
  unfold wp at h ⊢
  cases hm : m s with
  | done a s' =>
      rw [hm] at h
      exact h
  | fault e s' =>
      rw [hm] at h
      exact h

theorem wp_done (h : wp m Q E s) {a : α} {s' : σ} (hm : m s = .done a s') :
    Q a s' := by
  unfold wp at h
  rw [hm] at h
  exact h

theorem wp_of_done {a : α} {s' : σ} (hm : m s = .done a s') (h : Q a s') : wp m Q E s := by
  unfold wp
  rw [hm]
  exact h

theorem wp_of_fault {e : ε} {s' : σ} (hm : m s = .fault e s') (h : E e s') : wp m Q E s := by
  unfold wp
  rw [hm]
  exact h

/-- A program ends as it does. -/
theorem wp_outcomes (h : wp m Q E s) :
    wp m (fun a s' => m s = .done a s' ∧ Q a s') (fun e s' => m s = .fault e s' ∧ E e s') s := by
  unfold wp at h ⊢
  cases hm : m s with
  | done a s' =>
      rw [hm] at h
      exact ⟨rfl, h⟩
  | fault e s' =>
      rw [hm] at h
      exact ⟨rfl, h⟩

theorem wp_outcome (h : wp m Q E s) : wp m (fun a s' => m s = .done a s' ∧ Q a s') E s :=
  wp_mono (wp_outcomes h) (fun _ _ ha => ha) fun _ _ he => he.2

/-- Programs of which the same is known end in the same way. -/
theorem outcome_eq {m' : Program ε σ α} {s' : σ} (h : ∀ Q E, wp m' Q E s' → wp m Q E s) :
    m s = m' s' := by
  have hm := h (fun a t => .done a t = m' s') (fun e t => .fault e t = m' s') (by
    unfold wp
    cases m' s' <;> rfl)
  unfold wp at hm
  cases hs : m s with
  | done a t =>
      rw [hs] at hm
      exact hm
  | fault e t =>
      rw [hs] at hm
      exact hm

/-- A program that does not fault ends with a value. -/
theorem exists_done_of_wp (h : wp m Q (fun _ _ => False) s) :
    ∃ a s', m s = .done a s' ∧ Q a s' := by
  unfold wp at h
  cases hm : m s with
  | done a s' =>
      rw [hm] at h
      exact ⟨a, s', rfl, h⟩
  | fault e s' =>
      rw [hm] at h
      exact absurd h id

/-- A sequence ends with a value if both of its parts do. -/
theorem bind_eq_done_iff {f : α → Program ε σ β} {b : β} {s₂ : σ} :
    (m >>= f) s = .done b s₂ ↔ ∃ a s₁, m s = .done a s₁ ∧ f a s₁ = .done b s₂ := by
  change (match m s with
    | .done a s' => f a s'
    | .fault e s' => .fault e s' : Outcome ε σ β) = .done b s₂ ↔ _
  cases m s with
  | done a s₁ =>
      refine ⟨fun h => ⟨a, s₁, rfl, h⟩, fun ⟨a', s', heq, h⟩ => ?_⟩
      cases heq
      exact h
  | fault e s₁ => simp

theorem wp_fault (h : wp m Q E s) {e : ε} {s' : σ} (hm : m s = .fault e s') :
    E e s' := by
  unfold wp at h
  rw [hm] at h
  exact h

/-- A property that both kinds of ending give is a property of the state the
program ends in. -/
theorem wp_state {R : σ → Prop} (h : wp m (fun _ s' => R s') (fun _ s' => R s') s) :
    R (m s).state := by
  unfold wp at h
  cases hm : m s with
  | done a s' =>
      rw [hm] at h
      exact h
  | fault e s' =>
      rw [hm] at h
      exact h

/-- The invariant rule for `forEach`: what every round keeps, the loop keeps. -/
theorem wp_forEach {f : α → Program ε σ Unit} (I : List α → σ → Prop)
    (hstep : ∀ a rest s', I (a :: rest) s' → wp (f a) (fun _ s'' => I rest s'') E s')
    (l : List α) (hI : I l s) : wp (forEach f l) (fun _ s' => I [] s') E s := by
  induction l generalizing s with
  | nil => exact hI
  | cons a rest ih =>
      rw [forEach, wp_bind]
      exact wp_mono (hstep a rest s hI) (fun _ s' h => ih h) (fun _ _ h => h)

end Rules

end Prog
