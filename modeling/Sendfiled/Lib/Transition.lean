/-
Guarded transition systems.  A label names one step together with everything
the environment chooses in it; a step is refused, faults, or leads to the next
state.  Runs may be restricted by a guard on the steps they take.
-/
import Mathlib.Logic.Relation

namespace Transition

variable {ε σ κ : Type}

/-- The initial states and the labelled steps.  `none` means that the label is
not enabled. -/
structure System (ε σ κ : Type) where
  init : σ → Prop
  next : κ → σ → Option (Except ε σ)

namespace System

variable (sys : System ε σ κ)

/-- One step that meets the guard and does not fault. -/
def Step (guard : κ → σ → Prop) (s s' : σ) : Prop :=
  ∃ l, guard l s ∧ sys.next l s = some (.ok s')

/-- Any number of steps that all meet the guard. -/
def Steps (guard : κ → σ → Prop) : σ → σ → Prop :=
  Relation.ReflTransGen (sys.Step guard)

/-- The states of the runs whose steps all meet the guard. -/
def Reachable (guard : κ → σ → Prop) (s : σ) : Prop :=
  ∃ s₀, sys.init s₀ ∧ sys.Steps guard s₀ s

/-- The guard of an unrestricted run. -/
def always : κ → σ → Prop := fun _ _ => True

instance (l : κ) (s : σ) : Decidable (always l s) := inferInstanceAs (Decidable True)

variable {sys} {guard guard' : κ → σ → Prop} {s s' : σ}

theorem Reachable.step (h : sys.Reachable guard s) {l : κ} (hg : guard l s)
    (hn : sys.next l s = some (.ok s')) : sys.Reachable guard s' := by
  obtain ⟨s₀, h₀, hs⟩ := h
  exact ⟨s₀, h₀, hs.tail ⟨l, hg, hn⟩⟩

theorem Reachable.steps (h : sys.Reachable guard s) (hs : sys.Steps guard s s') :
    sys.Reachable guard s' := by
  obtain ⟨s₀, h₀, hs₀⟩ := h
  exact ⟨s₀, h₀, hs₀.trans hs⟩

theorem Steps.mono (hgg : ∀ l s, guard l s → guard' l s)
    (h : sys.Steps guard s s') : sys.Steps guard' s s' := by
  induction h with
  | refl => exact Relation.ReflTransGen.refl
  | tail _ hstep ih =>
      obtain ⟨l, hg, hn⟩ := hstep
      exact ih.tail ⟨l, hgg l _ hg, hn⟩

theorem Reachable.mono (hgg : ∀ l s, guard l s → guard' l s)
    (h : sys.Reachable guard s) : sys.Reachable guard' s := by
  obtain ⟨s₀, h₀, hs⟩ := h
  exact ⟨s₀, h₀, hs.mono hgg⟩

/-- What a single step keeps, every run keeps. -/
theorem Steps.keeps {I : σ → Prop}
    (hstep : ∀ l s s', I s → guard l s → sys.next l s = some (.ok s') → I s')
    (h : sys.Steps guard s s') (hI : I s) : I s' := by
  induction h with
  | refl => exact hI
  | tail _ h ih =>
      obtain ⟨l, hg, hn⟩ := h
      exact hstep l _ _ ih hg hn

/-- The invariant rule. -/
theorem Reachable.invariant {I : σ → Prop} (hinit : ∀ s, sys.init s → I s)
    (hstep : ∀ l s s', I s → guard l s → sys.next l s = some (.ok s') → I s')
    (h : sys.Reachable guard s) : I s := by
  obtain ⟨s₀, h₀, hs⟩ := h
  exact hs.keeps hstep (hinit s₀ h₀)

variable (sys) in
/-- Take the steps of a list of labels; `none` as soon as one does not meet the
guard, is refused or faults. -/
def run (guard : κ → σ → Prop) [∀ l s, Decidable (guard l s)] : List κ → σ → Option σ
  | [], s => some s
  | l :: rest, s =>
      if guard l s then
        match sys.next l s with
        | some (.ok s') => run guard rest s'
        | _ => none
      else none

variable [∀ l s, Decidable (guard l s)]

theorem run_cons {l : κ} {rest : List κ} (h : sys.run guard (l :: rest) s = some s') :
    ∃ s₁, guard l s ∧ sys.next l s = some (.ok s₁) ∧ sys.run guard rest s₁ = some s' := by
  rw [run] at h
  split at h
  · split at h
    · exact ⟨_, ‹_›, ‹_›, h⟩
    · cases h
  · cases h

theorem steps_of_run {ls : List κ} (h : sys.run guard ls s = some s') :
    sys.Steps guard s s' := by
  induction ls generalizing s with
  | nil =>
      cases h
      exact Relation.ReflTransGen.refl
  | cons l rest ih =>
      obtain ⟨s₁, hg, hn, hr⟩ := run_cons h
      exact Relation.ReflTransGen.head ⟨l, hg, hn⟩ (ih hr)

/-- The same for a guard that the labels of the list meet wherever they meet another. -/
theorem steps_of_run_forall {ls : List κ} (h : sys.run guard ls s = some s')
    (hguard : ∀ l ∈ ls, ∀ s, guard l s → guard' l s) : sys.Steps guard' s s' := by
  induction ls generalizing s with
  | nil =>
      cases h
      exact Relation.ReflTransGen.refl
  | cons l rest ih =>
      obtain ⟨s₁, hg, hn, hr⟩ := run_cons h
      have htail := ih hr fun l' hl' => hguard l' (List.mem_cons_of_mem l hl')
      exact Relation.ReflTransGen.head ⟨l, hguard l List.mem_cons_self s hg, hn⟩ htail

/-- A run that is carried out from an initial state ends in a reachable state. -/
theorem reachable_of_run {ls : List κ} (h₀ : sys.init s) (h : sys.run guard ls s = some s') :
    sys.Reachable guard s' :=
  ⟨s, h₀, steps_of_run h⟩

section Outcomes

omit [∀ l s, Decidable (guard l s)]

variable (sys) in
/-- What a run from a state comes to: a state it reaches, or the fault that its last step
stops with. -/
def Leads (guard : κ → σ → Prop) (s : σ) : Except ε σ → Prop
  | .ok s' => sys.Steps guard s s'
  | .error e => ∃ s₁ l, sys.Steps guard s s₁ ∧ guard l s₁ ∧ sys.next l s₁ = some (.error e)

variable {o : Except ε σ}

theorem Leads.refl (s : σ) : sys.Leads guard s (.ok s) := Relation.ReflTransGen.refl

theorem Leads.single {l : κ} (hg : guard l s) (hn : sys.next l s = some o) :
    sys.Leads guard s o := by
  cases o with
  | ok s' => exact Relation.ReflTransGen.single ⟨l, hg, hn⟩
  | error e => exact ⟨s, l, Relation.ReflTransGen.refl, hg, hn⟩

theorem Steps.leads (h : sys.Steps guard s s') (hl : sys.Leads guard s' o) :
    sys.Leads guard s o := by
  cases o with
  | ok s'' => exact Relation.ReflTransGen.trans h hl
  | error e =>
      obtain ⟨s₁, l, hsteps, hg, hn⟩ := hl
      exact ⟨s₁, l, h.trans hsteps, hg, hn⟩

theorem Leads.head {l : κ} (hg : guard l s) (hn : sys.next l s = some (.ok s'))
    (h : sys.Leads guard s' o) : sys.Leads guard s o :=
  Steps.leads (Relation.ReflTransGen.single ⟨l, hg, hn⟩) h

/-- A run seen from its first step: `P` holds where it ends, and before a step of whose
result it holds. -/
theorem Leads.head_induction {P : σ → Prop} (h : sys.Leads guard s o)
    (hend : ∀ s', o = .ok s' → P s')
    (hstep : ∀ l s r, guard l s → sys.next l s = some r → (∀ s₁, r = .ok s₁ → P s₁) →
      (∀ e, r = .error e → o = .error e) → P s) : P s := by
  have hback : ∀ s₀ s₁, P s₁ → sys.Steps guard s₀ s₁ → P s₀ := by
    intro s₀ s₁ hP hsteps
    induction hsteps using Relation.ReflTransGen.head_induction_on with
    | refl => exact hP
    | head hfirst _ ih =>
        obtain ⟨l, hg, hn⟩ := hfirst
        refine hstep l _ _ hg hn (fun s₂ heq => ?_) fun e heq => by cases heq
        cases heq
        exact ih
  cases o with
  | ok s' => exact hback s s' (hend s' rfl) h
  | error e =>
      obtain ⟨s₁, l, hsteps, hg, hn⟩ := h
      refine hback s s₁ (hstep l s₁ _ hg hn (fun s₂ heq => by cases heq) fun e' heq => ?_) hsteps
      cases heq
      rfl

end Outcomes

section Recording

variable {ρ : Type}

variable (sys) in
/-- The same system with a record of what has happened. -/
def recording (note : κ → σ → List ρ) : System ε (σ × List ρ) κ where
  init := fun c => sys.init c.1 ∧ c.2 = []
  next := fun l c => (sys.next l c.1).map (Except.map fun s' => (s', c.2 ++ note l c.1))

variable {note : κ → σ → List ρ} {c c' : σ × List ρ}

theorem recording_next {l : κ} (h : (sys.recording note).next l c = some (.ok c')) :
    sys.next l c.1 = some (.ok c'.1) ∧ c'.2 = c.2 ++ note l c.1 := by
  simp only [recording, Option.map_eq_some_iff] at h
  obtain ⟨r, hr, hmap⟩ := h
  cases r with
  | error e => cases hmap
  | ok s' =>
      cases hmap
      exact ⟨hr, rfl⟩

omit [∀ l s, Decidable (guard l s)] in
/-- Every run can be recorded. -/
theorem Reachable.recorded (note : κ → σ → List ρ) (h : sys.Reachable guard s) :
    ∃ log, (sys.recording note).Reachable (fun l c => guard l c.1) (s, log) := by
  refine h.invariant
    (I := fun s => ∃ log, (sys.recording note).Reachable (fun l c => guard l c.1) (s, log))
    (fun s hs => ⟨[], (s, []), ⟨hs, rfl⟩, Relation.ReflTransGen.refl⟩) ?_
  rintro l s s' ⟨log, hlog⟩ hg hn
  refine ⟨log ++ note l s, hlog.step (l := l) hg ?_⟩
  simp only [recording, hn, Option.map_some]
  rfl

end Recording

end System

end Transition
