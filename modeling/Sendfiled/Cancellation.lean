/-
A cancelled transfer moves no more data, is never revived, and is gone with all
its descriptors closed when the server gets back to waiting or has shut down.
-/
import Sendfiled.Steps

namespace Sendfiled

open Prog Transition

/-- Since the trace was `before`, the transfer `p` has moved no data, and it is
either still as it was or deleted with its descriptors closed. -/
structure Doomed (p : Ptr) (x : ResrcXfer) (before : List Effect) (c : Config) : Prop where
  lt : p < c.world.srv.nextPtr
  since : ∃ tr, c.world.kern.trace = before ++ tr ∧ movedBy p tr = [] ∧
    (c.world.srv.xferAt p = some x ∨ (c.world.srv.xferAt p = none ∧ Buried x tr))

variable {p : Ptr} {x : ResrcXfer} {before : List Effect} {c c' : Config}

/-- The deletion of a registered transfer closes all its descriptors. -/
theorem Performs.buries {a : Action} (h : Performs a c c') (ha : a = .discard p ∨ a = .bury p)
    (hx : c.world.srv.xferAt p = some x) : c'.world.srv.xferAt p = none ∧
      ∃ tr, c'.world.kern.trace = c.world.kern.trace ++ tr ∧ OnlyCloses tr ∧ Buried x tr := by
  have hgone : ∀ (f : Ptr → Option ResrcXfer), Function.update f p none p = none :=
    fun f => Function.update_self p none f
  cases h with
  | discard ans hy =>
      obtain ⟨rfl⟩ : _ = p := by simpa using ha
      obtain rfl := Option.some.inj (hx.symm.trans hy)
      exact ⟨hgone _, Kernel.dismantle_trace ans _ _⟩
  | bury ans _ hy =>
      obtain ⟨rfl⟩ : _ = p := by simpa using ha
      obtain rfl := Option.some.inj (hx.symm.trans hy)
      exact ⟨hgone _, Kernel.dismantle_trace ans _ _⟩
  | _ => simp at ha

/-- The actions that delete a transfer. -/
theorem Performs.deletes {a : Action} (h : Performs a c c') (hp : p < c.world.srv.nextPtr)
    (hx : c.world.srv.xferAt p = some x) (hgone : c'.world.srv.xferAt p = none) :
    a = .retire p ∨ a = .discard p ∨ a = .bury p := by
  by_cases hsub : a.subject = some p
  · have hset : ∀ (f : Ptr → Option ResrcXfer) (y : ResrcXfer),
        Function.update f p (some y) p ≠ none := by
      intro f y hnone
      rw [Function.update_self] at hnone
      cases hnone
    cases h with
    | retire | discard | bury =>
        cases hsub
        simp
    | cancel | ready | release | assign | move =>
        cases hsub
        exact absurd hgone (hset _ _)
    | _ => cases hsub
  · rw [h.frame hp hsub, hx] at hgone
    cases hgone

/-- The actions whose subject is a cancelled transfer leave it as it is or delete
it. -/
theorem Performs.of_cancelled {a : Action} (h : Performs a c c') (ha : a.subject = some p)
    (hx : c.world.srv.xferAt p = some x) (hcancel : x.defer = .cancel) :
    (a = .cancel p ∧ c'.world.srv.xferAt p = some x) ∨ a = .discard p ∨ a = .bury p := by
  cases h with
  | discard | bury =>
      obtain rfl : _ = p := by simpa [Action.subject] using ha
      simp
  | cancel hy _ =>
      obtain rfl : _ = p := by simpa [Action.subject] using ha
      obtain rfl := Option.some.inj (hx.symm.trans hy)
      left
      refine ⟨rfl, ?_⟩
      have hsame : { x with defer := Deferral.cancel } = x := by rw [← hcancel]
      simp [Server.cancel, Server.setXfer, hsame]
  | retire _ hy hdefer | move _ hy hdefer =>
      obtain rfl : _ = p := by simpa [Action.subject] using ha
      obtain rfl := Option.some.inj (hx.symm.trans hy)
      exact absurd hcancel hdefer
  | assign hy hdefer _ =>
      obtain rfl : _ = p := by simpa [Action.subject] using ha
      obtain rfl := Option.some.inj (hx.symm.trans hy)
      exact absurd hcancel hdefer
  | ready hy hdefer _ =>
      obtain rfl : _ = p := by simpa [Action.subject] using ha
      obtain rfl := Option.some.inj (hx.symm.trans hy)
      simp [hcancel] at hdefer
  | release _ hy hdefer =>
      obtain rfl : _ = p := by simpa [Action.subject] using ha
      obtain rfl := Option.some.inj (hx.symm.trans hy)
      simp [hcancel] at hdefer
  | _ => simp [Action.subject] at ha

theorem Performs.needs_subject {a : Action} (h : Performs a c c') (ha : a.subject = some p) :
    ∃ x, c.world.srv.xferAt p = some x := by
  cases h with
  | retire _ hy _ | discard _ hy | bury _ _ hy | move _ hy =>
      obtain rfl : _ = p := by simpa [Action.subject] using ha
      exact ⟨_, hy⟩
  | cancel hy | ready hy | assign hy =>
      obtain rfl : _ = p := by simpa [Action.subject] using ha
      exact ⟨_, hy⟩
  | release _ hy =>
      obtain rfl : _ = p := by simpa [Action.subject] using ha
      exact ⟨_, hy⟩
  | _ => simp [Action.subject] at ha

theorem Doomed.performs {a : Action} (hcancel : x.defer = .cancel) (hp : Performs a c c')
    (h : Doomed p x before c) : Doomed p x before c' := by
  obtain ⟨hlt, tr, htr, hmoved, hstate⟩ := h
  refine ⟨Nat.lt_of_lt_of_le hlt hp.nextPtr_le, ?_⟩
  obtain ⟨tr', htr', hquiet⟩ := hp.trace
  have hext : c'.world.kern.trace = before ++ (tr ++ tr') := by
    rw [htr', htr, List.append_assoc]
  by_cases hsub : a.subject = some p
  · -- only a live transfer is acted on
    have hx : c.world.srv.xferAt p = some x := by
      rcases hstate with hx | ⟨hnone, -⟩
      · exact hx
      · obtain ⟨y, hy⟩ := hp.needs_subject hsub
        rw [hnone] at hy
        cases hy
    rcases hp.of_cancelled hsub hx hcancel with ⟨rfl, hx'⟩ | hdel
    · exact ⟨tr ++ tr', hext, by simp [hmoved, hquiet p (by simp)], Or.inl hx'⟩
    · obtain ⟨hgone, tr'', htr'', honly, hburied⟩ := hp.buries hdel hx
      refine ⟨tr ++ tr'', by rw [htr'', htr, List.append_assoc], ?_,
        Or.inr ⟨hgone, hburied.append_right⟩⟩
      simp [hmoved, honly.movedBy p]
  · have hsame := hp.frame hlt hsub
    have hne : a ≠ .move p := by
      rintro rfl
      exact hsub rfl
    refine ⟨tr ++ tr', hext, by simp [hmoved, hquiet p hne], ?_⟩
    rw [hsame]
    exact hstate.imp_right fun hgone => ⟨hgone.1, hgone.2.append⟩

theorem doomed_preserved (hcancel : x.defer = .cancel) :
    Preserved anything System.always (Doomed p x before) :=
  Preserved.always (fun _ _ _ _ hp h => h.performs hcancel hp) fun w w' _ hcleared h => by
    obtain ⟨hlt, tr, htr, hmoved, hstate⟩ := h
    obtain ⟨tr', htr', honly, hburied⟩ := hcleared.trace
    refine ⟨hcleared.nextPtr ▸ hlt, tr ++ tr', by rw [htr', htr, List.append_assoc],
      by simp [hmoved, honly.movedBy p], Or.inr ⟨hcleared.xferAt p, ?_⟩⟩
    rcases hstate with hx | ⟨-, hgone⟩
    · exact (hburied p x hx).append_right
    · exact hgone.append

/-- The transfer has been deleted since the trace was `before`, and its
descriptors have been closed. -/
def Gone (p : Ptr) (x : ResrcXfer) (before : List Effect) (w : World) : Prop :=
  p ∉ w.srv.xfers.stored ∧ w.srv.xferAt p = none ∧
    ∃ tr, w.kern.trace = before ++ tr ∧ Buried x tr

/-- What a run makes of a transfer that is marked CANCEL. -/
theorem doomed_of_steps {s s' : State} (hledger : Ledger s.world.srv) (hok : PhaseOk s)
    (hx : s.world.srv.xferAt p = some x) (hcancel : x.defer = .cancel)
    (hsteps : server.Steps System.always s s') :
    Sound (Doomed p x s.world.kern.trace) s' := by
  have hdoomed : Doomed p x s.world.kern.trace s.config :=
    ⟨hledger.xfer_lt p x hx, [], by simp [State.config], rfl, Or.inl hx⟩
  exact (doomed_preserved hcancel).steps hsteps ⟨hledger, hok, hdoomed⟩

theorem gone_of_doomed {s : State} (hs : Sound (Doomed p x before) s)
    (hnone : s.world.srv.xferAt p = none) : Gone p x before s.world := by
  obtain ⟨-, tr, htr, -, hstate⟩ := hs.inv
  refine ⟨fun hmem => ?_, hnone, tr, htr, ?_⟩
  · obtain ⟨y, hy⟩ := hs.ledger.mem_stored.mp hmem
    rw [hnone] at hy
    cases hy
  · rcases hstate with hx | ⟨-, hburied⟩
    · rw [show s.world.srv.xferAt p = some x from hx] at hnone
      cases hnone
    · exact hburied

/-- A server that waits or has shut down has no doomed transfer left. -/
theorem gone_of_idle {s : State} (hcancel : x.defer = .cancel)
    (hs : Sound (Doomed p x before) s) (hend : s.phase = .waiting ∨ s.phase = .stopped) :
    Gone p x before s.world := by
  apply gone_of_doomed hs
  have hok := hs.phase
  rcases hend with hwait | hstop
  · obtain ⟨-, tr, -, -, hx | ⟨hnone, -⟩⟩ := hs.inv
    · -- a waiting server has only ready transfers in its list
      have hin : p ∈ s.world.srv.deferredXfers :=
        (hs.ledger.listed p x hx).mpr (by simp [hcancel])
      simp only [PhaseOk, hwait] at hok
      obtain ⟨y, hy, hready⟩ := hok p hin
      obtain rfl := Option.some.inj (hx.symm.trans hy)
      simp [hcancel] at hready
    · exact hnone
  · simp only [PhaseOk, hstop] at hok
    exact hok p

/-- From the moment a transfer is marked CANCEL, in every continuation of every
run: it moves no further byte; it stays exactly as it is, marked CANCEL, until it
is gone; it is gone whenever the server waits again or has shut down; and the
pass over the deferred transfers always comes to an end. -/
theorem cancelled_dead {s s' : State} (hr : server.Reachable System.always s)
    (hx : s.world.srv.xferAt p = some x) (hcancel : x.defer = .cancel)
    (hsteps : server.Steps System.always s s') :
    movedBy p s'.world.kern.trace = movedBy p s.world.kern.trace ∧
      (s'.world.srv.xferAt p = some x ∨ Gone p x s.world.kern.trace s'.world) ∧
      (s'.phase = .waiting ∨ s'.phase = .stopped →
        Gone p x s.world.kern.trace s'.world) ∧
      (∀ ans, s'.phase = .events [] → ∃ r, next (ans, .deferred) s' = some r ∧
        r ≠ .error .outOfFuel) := by
  obtain ⟨hledger, hphase⟩ := reachable_ledger hr
  have hsound := doomed_of_steps hledger hphase hx hcancel hsteps
  obtain ⟨-, tr, htr, hmoved, hstate⟩ := hsound.inv
  refine ⟨?_, ?_, gone_of_idle hcancel hsound, fun ans hevents => ?_⟩
  · rw [show s'.world.kern.trace = _ from htr, movedBy_append, hmoved, List.append_nil]
  · exact hstate.imp_right fun h => gone_of_doomed hsound h.1
  · obtain ⟨w', phase⟩ := s'
    subst hevents
    refine ⟨_, rfl, fun hfuel => ?_⟩
    have hnext : next (ans, .deferred) ⟨w', .events []⟩ = some (.error .outOfFuel) :=
      congrArg some hfuel
    obtain ⟨c, -, -, hblames⟩ := (doomed_preserved hcancel).fault hsound trivial hnext
    exact hblames

section Runs

open Scenario

/-- A SEND that is cancelled after its first four bytes, in the batch that also
reports its destination writable. -/
def cancelledSend : List (Answers × Label) :=
  let ans := answers tenBytes
  serve ans [⟨fileRequest .send 0 0, [1, 2], some client⟩] ++
    [(ans, .wait [writable 0, readable]), (ans, .event (-1, -1)), (ans, .event (-1, -1)),
      (ans, .receive ⟨txnRequest .cancel 1, [], some client⟩), (ans, .request)]

/-- What follows: the loop over the deferred transfers. -/
def cancelledSendEnd : List (Answers × Label) :=
  let ans := answers tenBytes
  [(ans, .receiveFailed EAGAIN), (ans, .deferred)]

theorem cancelled_dead_of_cancelledSend : ∃ s s' x, server.Reachable System.always s ∧
    s.world.srv.xferAt 0 = some x ∧ x.defer = .cancel ∧
    server.Steps System.always s s' ∧ movedBy 0 s'.world.kern.trace = [0, 1, 2, 3] ∧
    Gone 0 x s.world.kern.trace s'.world := by
  obtain ⟨s, hr, hP⟩ := exists_reachable System.always 4 4 cancelledSend
    (fun s => (s.world.srv.xferAt 0).any (fun x => x.defer == .cancel) &&
      (movedBy 0 s.world.kern.trace == [0, 1, 2, 3]) &&
      (server.run System.always cancelledSendEnd s).any fun s' => s'.phase == .waiting)
    (by decide +kernel)
  simp only [Bool.and_eq_true, Option.any_eq_true, beq_iff_eq] at hP
  obtain ⟨⟨⟨x, hx, hcancel⟩, hmoved⟩, s', hrun, hwait⟩ := hP
  have hsteps := System.steps_of_run hrun
  obtain ⟨hsame, -, hend, -⟩ := cancelled_dead hr hx hcancel hsteps
  exact ⟨s, s', x, hr, hx, hcancel, hsteps, hsame.trans hmoved, hend (Or.inl hwait)⟩

end Runs

end Sendfiled
