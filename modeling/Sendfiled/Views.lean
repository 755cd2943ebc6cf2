/-
What the world looks like from one transfer.  An action that does not concern a
transfer leaves its record, its pending responses and the calls made on its behalf
alone.
-/
import Sendfiled.Ledger
import Sendfiled.Traces

namespace Sendfiled

/-- The record of a transfer, the responses pending for it and the calls made on its
behalf. -/
structure View where
  xfer : Option ResrcXfer
  resp : Ptr → Option ResrcResp
  history : List Effect

/-- The calls made on behalf of a transfer. -/
def historyOf (p : Ptr) (trace : List Effect) : List Effect :=
  trace.filter fun e => e.onBehalf = some p

@[simp] theorem historyOf_append (p : Ptr) (tr tr' : List Effect) :
    historyOf p (tr ++ tr') = historyOf p tr ++ historyOf p tr' :=
  List.filter_append tr tr'

theorem historyOf_eq_nil {p : Ptr} {tr : List Effect} (h : ∀ e ∈ tr, e.onBehalf ≠ some p) :
    historyOf p tr = [] := by
  apply List.filter_eq_nil_iff.mpr
  intro e he
  simpa using h e he

theorem OnlyCloses.historyOf {tr : List Effect} (h : OnlyCloses tr) (p : Ptr) :
    historyOf p tr = [] := by
  apply historyOf_eq_nil
  intro e he
  obtain ⟨fd, b, rfl⟩ := h e he
  exact nofun

theorem Kernel.historyOf_close (ans : Answers) (fd : Fd) (k : Kernel) (p : Ptr) :
    Sendfiled.historyOf p (k.close ans fd).2.trace = Sendfiled.historyOf p k.trace := by
  obtain ⟨closed, hclosed⟩ := Kernel.close_trace ans k fd
  rw [hclosed, historyOf_append, (Kernel.onlyCloses_singleton fd closed).historyOf,
    List.append_nil]

theorem Kernel.historyOf_dismantle (ans : Answers) (x : ResrcXfer) (k : Kernel) (p : Ptr) :
    Sendfiled.historyOf p (k.dismantle ans x).trace = Sendfiled.historyOf p k.trace := by
  obtain ⟨tr, htr, honly, -⟩ := Kernel.dismantle_trace ans k x
  rw [htr, historyOf_append, honly.historyOf, List.append_nil]

def World.view (p : Ptr) (w : World) : View where
  xfer := w.srv.xferAt p
  resp := fun r => (w.srv.respAt r).filter fun resp => resp.xfer = p
  history := historyOf p w.kern.trace

theorem World.view_congr {p : Ptr} {w w' : World} (hxfer : w'.srv.xferAt p = w.srv.xferAt p)
    (hresp : w'.srv.respAt = w.srv.respAt)
    (hhistory : historyOf p w'.kern.trace = historyOf p w.kern.trace) :
    w'.view p = w.view p := by
  unfold World.view
  rw [hxfer, hresp, hhistory]

namespace View

/-- More calls were made on behalf of the transfer. -/
def say (tr : List Effect) (v : View) : View := { v with history := v.history ++ tr }

/-- The record changed. -/
def set (x : ResrcXfer) (v : View) : View := { v with xfer := some x }

/-- The transfer was deleted. -/
def gone (v : View) : View := { v with xfer := none }

@[simp] theorem say_say (tr tr' : List Effect) (v : View) :
    (v.say tr).say tr' = v.say (tr ++ tr') := by
  simp [say]

@[simp] theorem say_nil (v : View) : v.say [] = v := by
  simp [say]

@[simp] theorem set_say (x : ResrcXfer) (tr : List Effect) (v : View) :
    (v.say tr).set x = (v.set x).say tr := rfl

@[simp] theorem gone_say (tr : List Effect) (v : View) : (v.say tr).gone = v.gone.say tr := rfl

@[simp] theorem set_set (x y : ResrcXfer) (v : View) : (v.set x).set y = v.set y := rfl

@[simp] theorem gone_set (x : ResrcXfer) (v : View) : (v.set x).gone = v.gone := rfl

end View

theorem World.view_setXfer (p : Ptr) (x : ResrcXfer) (w : World) :
    World.view p ⟨w.srv.setXfer p x, w.kern⟩ = (w.view p).set x := by
  simp [World.view, Server.setXfer, View.set]

theorem World.view_log {p : Ptr} {e : Effect} {s : Server} {k k' : Kernel}
    (he : e.onBehalf = some p) (htrace : k'.trace = k.trace ++ [e]) :
    World.view p ⟨s, k'⟩ = (World.view p ⟨s, k⟩).say [e] := by
  simp [World.view, View.say, htrace, historyOf, he]

theorem World.view_set_self {p : Ptr} {x : ResrcXfer} {w : World} (h : w.srv.xferAt p = some x) :
    (w.view p).set x = w.view p := by
  simp [World.view, View.set, h]

/-- The view of a transfer that was deleted. -/
theorem World.view_gone {p : Ptr} {w w' : World} (hxfer : w'.srv.xferAt p = none)
    (hresp : w'.srv.respAt = w.srv.respAt)
    (hhistory : historyOf p w'.kern.trace = historyOf p w.kern.trace) :
    w'.view p = (w.view p).gone := by
  unfold World.view View.gone
  rw [hxfer, hresp, hhistory]

/-- The view after a pending response was freed. -/
theorem World.view_dropResp {p r : Ptr} {w w' : World} (hxfer : w'.srv.xferAt p = w.srv.xferAt p)
    (hresp : w'.srv.respAt = Function.update w.srv.respAt r none)
    (hhistory : historyOf p w'.kern.trace = historyOf p w.kern.trace) :
    w'.view p = { w.view p with resp := Function.update (w.view p).resp r none } := by
  simp only [World.view, hxfer, hresp, hhistory]
  congr 1
  funext q
  by_cases hq : q = r
  · subst hq
    simp
  · simp [hq]

theorem World.mem_history {p : Ptr} {w : World} {e : Effect} (h : e ∈ (w.view p).history) :
    e ∈ w.kern.trace :=
  (List.mem_filter.mp h).1

namespace Performs

variable {a : Action} {c c' : Config}

/-- What an action logs is on behalf of the transfer it concerns. -/
theorem entries (h : Performs a c c') : ∃ tr, c'.world.kern.trace = c.world.kern.trace ++ tr ∧
    ∀ e ∈ tr, e.onBehalf = none ∨ e.onBehalf = a.concerns := by
  obtain ⟨R, hR, hwrites⟩ := h.records
  refine ⟨_, hR.trace, fun e he => ?_⟩
  obtain ⟨entry, hentry, rfl⟩ := List.mem_map.mp he
  rcases hwrites entry hentry with ⟨fd, b, heq⟩ | hwrites
  · exact Or.inl (heq ▸ rfl)
  · cases hwrites with
    | say | move | balk => exact Or.inr rfl

/-- Which pending responses an action adds and removes. -/
theorem respAt_cases (h : Performs a c c') :
    (c'.world.srv.respAt = c.world.srv.respAt ∧ ∀ r, a ≠ .addResp r) ∨
    (∃ resp, a = .addResp resp ∧
      c'.world.srv.respAt =
        Function.update c.world.srv.respAt c.world.srv.nextPtr (some resp) ∧
      c'.world.srv.nextPtr = c.world.srv.nextPtr + 1 ∧
      ∃ x, c.world.srv.xferAt resp.xfer = some x) ∨
    (a = .skipResp ∧ c'.world.srv.respAt =
      Function.update c.world.srv.respAt c.world.srv.nextPtr none) ∨
    ∃ r resp, a = .dropResp r resp.xfer ∧ c.world.srv.respAt r = some resp ∧
      c'.world.srv.respAt = Function.update c.world.srv.respAt r none := by
  cases h with
  | quiet _ hs _ => exact Or.inl ⟨hs.respAt, nofun⟩
  | say | balk | openFile | seek | openTimer | arrive | dup | register | forget | enroll | skip
  | cancel | ready | release | assign | addTimer | skipTimer | arm | shut | reshut | retire
  | expire | botch | discard | bury | move => exact Or.inl ⟨rfl, nofun⟩
  | addResp _ _ _ hxfer =>
      exact Or.inr (Or.inl ⟨_, rfl, rfl, rfl, hxfer.imp fun _ hx => hx.1⟩)
  | skipResp => exact Or.inr (Or.inr (Or.inl ⟨rfl, rfl⟩))
  | dropResp _ hr => exact Or.inr (Or.inr (Or.inr ⟨_, _, rfl, hr, rfl⟩))

end Performs

/-- The resource a registration points to. -/
def Udata.ptr? : Udata → Option Ptr
  | .xfer p | .timer p | .resp p => some p
  | .sigfd | .reqfd => none

/-- Only pointers that were given out are in use. -/
structure Minted (w : World) : Prop where
  resp : ∀ r resp, w.srv.respAt r = some resp → r < w.srv.nextPtr ∧ resp.xfer < w.srv.nextPtr
  trace : ∀ e ∈ w.kern.trace, ∀ p, e.onBehalf = some p → p < w.srv.nextPtr
  regs : ∀ reg ∈ w.kern.regs, ∀ p, reg.udata.ptr? = some p → p < w.srv.nextPtr

namespace Minted

variable {a : Action} {c c' : Config} {p : Ptr}

/-- An action concerns a transfer that was given out. -/
theorem concerns_lt (h : Minted c.world) (hc : Ledger c.world.srv) (hp : Performs a c c')
    (ha : a.concerns = some p) : p < c.world.srv.nextPtr := by
  cases hp with
  | say _ hfd =>
      cases ha
      rcases hfd p rfl with ⟨x, hx, -⟩ | ⟨r, resp, hr, rfl, -⟩
      · exact hc.xfer_lt _ _ hx
      · exact (h.resp r resp hr).2
  | retire _ hx | discard _ hx | move _ hx =>
      cases ha
      exact hc.xfer_lt _ _ hx
  | cancel hx | ready hx | assign hx | balk hx =>
      cases ha
      exact hc.xfer_lt _ _ hx
  | bury _ _ hx =>
      cases ha
      exact hc.xfer_lt _ _ hx
  | release _ hx =>
      cases ha
      exact hc.xfer_lt _ _ hx
  | addResp _ _ _ hx =>
      cases ha
      obtain ⟨x, hx, -⟩ := hx
      exact hc.xfer_lt _ _ hx
  | dropResp _ hr =>
      cases ha
      exact (h.resp _ _ hr).2
  | quiet | openFile | seek | openTimer | arrive | dup | shut | reshut | register | forget
  | enroll | skip | addTimer | skipTimer | arm | expire | botch | skipResp => cases ha

theorem performs (h : Minted c.world) (hc : Ledger c.world.srv) (hp : Performs a c c') :
    Minted c'.world := by
  have hresps : ∀ r resp, c'.world.srv.respAt r = some resp →
      r < c'.world.srv.nextPtr ∧ resp.xfer < c'.world.srv.nextPtr := by
    intro r resp hr
    have hdrop : ∀ r', c'.world.srv.respAt = Function.update c.world.srv.respAt r' none →
        r < c'.world.srv.nextPtr ∧ resp.xfer < c'.world.srv.nextPtr := by
      intro r' hset
      rw [hset] at hr
      have hold : c.world.srv.respAt r = some resp := by
        by_cases hr' : r = r'
        · subst hr'
          simp at hr
        · rwa [Function.update_of_ne hr'] at hr
      obtain ⟨hlt, hxfer⟩ := h.resp r resp hold
      exact ⟨Nat.lt_of_lt_of_le hlt hp.nextPtr_le, Nat.lt_of_lt_of_le hxfer hp.nextPtr_le⟩
    rcases hp.respAt_cases with ⟨hsame, -⟩ | ⟨new, -, hset, hptr, x, hx⟩ | ⟨-, hset⟩ |
      ⟨r', resp', -, -, hset⟩
    · rw [hsame] at hr
      obtain ⟨hlt, hxfer⟩ := h.resp r resp hr
      exact ⟨Nat.lt_of_lt_of_le hlt hp.nextPtr_le, Nat.lt_of_lt_of_le hxfer hp.nextPtr_le⟩
    · rw [hset] at hr
      rw [hptr]
      by_cases hr' : r = c.world.srv.nextPtr
      · subst hr'
        rw [Function.update_self] at hr
        cases hr
        exact ⟨Nat.lt_succ_self _, Nat.lt_succ_of_lt (hc.xfer_lt _ x hx)⟩
      · rw [Function.update_of_ne hr'] at hr
        obtain ⟨hlt, hxfer⟩ := h.resp r resp hr
        exact ⟨Nat.lt_succ_of_lt hlt, Nat.lt_succ_of_lt hxfer⟩
    · exact hdrop _ hset
    · exact hdrop r' hset
  refine ⟨hresps, ?_, ?_⟩
  · intro e he q hq
    obtain ⟨tr, htr, hnew⟩ := hp.entries
    rw [htr] at he
    rcases List.mem_append.mp he with hold | hin
    · exact Nat.lt_of_lt_of_le (h.trace e hold q hq) hp.nextPtr_le
    · rcases hnew e hin with hnone | hconc
      · rw [hnone] at hq
        cases hq
      · exact Nat.lt_of_lt_of_le (h.concerns_lt hc hp (hconc ▸ hq)) hp.nextPtr_le
  · intro reg hreg q hq
    rcases hp.regs with hsub | ⟨new, hnew, -⟩
    · exact Nat.lt_of_lt_of_le (h.regs reg (hsub.subset hreg) q hq) hp.nextPtr_le
    rw [hnew.regs] at hreg
    rcases List.mem_append.mp hreg with hold | hin
    · exact Nat.lt_of_lt_of_le (h.regs reg hold q hq) hp.nextPtr_le
    cases List.mem_singleton.mp hin
    have hident := hnew.ident
    have hledger := hc.performs hp
    cases hu : reg.udata with
    | sigfd | reqfd =>
        rw [hu] at hq
        cases hq
    | xfer p =>
        rw [hu] at hq hident
        cases hq
        exact hledger.xfer_lt _ _ hident.choose_spec.1
    | timer t =>
        rw [hu] at hq hident
        cases hq
        exact hledger.timer_lt _ _ hident.choose_spec.1
    | resp r =>
        rw [hu] at hq hident
        cases hq
        exact (hresps _ _ hident.choose_spec.1).1

end Minted

section Frame

variable {a : Action} {c c' : Config} {p : Ptr}

/-- An action that does not concern a transfer does not change its view. -/
theorem Performs.view (h : Performs a c c') (hm : Minted c.world) (hp : p < c.world.srv.nextPtr)
    (ha : a.concerns ≠ some p) : c'.world.view p = c.world.view p := by
  have hxfer : c'.world.srv.xferAt p = c.world.srv.xferAt p := by
    apply h.frame hp
    intro hsub
    apply ha
    cases a <;> first | exact hsub | cases hsub
  have hresp : ∀ r, (c'.world.srv.respAt r).filter (fun resp => resp.xfer = p) =
      (c.world.srv.respAt r).filter (fun resp => resp.xfer = p) := by
    intro r
    have hnone : c.world.srv.respAt c.world.srv.nextPtr = none := by
      cases hold : c.world.srv.respAt c.world.srv.nextPtr with
      | none => rfl
      | some old => exact absurd (hm.resp _ old hold).1 (Nat.lt_irrefl _)
    rcases h.respAt_cases with ⟨hsame, -⟩ | ⟨new, rfl, hset, -, -⟩ | ⟨-, hset⟩ |
      ⟨r', resp, rfl, hr', hset⟩
    · rw [hsame]
    · rw [hset]
      by_cases hr : r = c.world.srv.nextPtr
      · subst hr
        have hne : new.xfer ≠ p := fun heq => ha (congrArg some heq)
        simp [hnone, Option.filter, hne]
      · rw [Function.update_of_ne hr]
    · rw [hset, ← hnone, Function.update_eq_self]
    · rw [hset]
      by_cases hr : r = r'
      · subst hr
        have hne : resp.xfer ≠ p := fun heq => ha (congrArg some heq)
        simp [hr', Option.filter, hne]
      · rw [Function.update_of_ne hr]
  have hhistory : historyOf p c'.world.kern.trace = historyOf p c.world.kern.trace := by
    obtain ⟨tr, htr, hnew⟩ := h.entries
    have hnil : historyOf p tr = [] := by
      apply historyOf_eq_nil
      intro e he heq
      rcases hnew e he with hnone | hconc
      · rw [hnone] at heq
        cases heq
      · exact ha (hconc ▸ heq)
    rw [htr, historyOf_append, hnil, List.append_nil]
  unfold World.view
  rw [hxfer, hhistory, funext hresp]

/-- No action concerns the transfer. -/
def away (p : Ptr) : Action → Config → Prop := fun a _ => a.concerns ≠ some p

theorem Acts.view (h : Acts (away p) c c') (hc : Ledger c.world.srv) (hm : Minted c.world)
    (hp : p < c.world.srv.nextPtr) : c'.world.view p = c.world.view p := by
  have hkept := h.keeps (I := fun c₁ => Ledger c₁.world.srv ∧ Minted c₁.world ∧
    p < c₁.world.srv.nextPtr ∧ c₁.world.view p = c.world.view p) ?_ ⟨hc, hm, hp, rfl⟩
  · exact hkept.2.2.2
  · rintro a c₁ c₂ ha hperf ⟨hc₁, hm₁, hp₁, hview⟩
    refine ⟨hc₁.performs hperf, hm₁.performs hc₁ hperf,
      Nat.lt_of_lt_of_le hp₁ hperf.nextPtr_le, ?_⟩
    rw [hperf.view hm₁ hp₁ ha, hview]

end Frame

end Sendfiled
