/-
The life of a pending response.  Where memory for it is found, and nobody else has a copy of
its channel by the time it is freed, it is registered for as long as it lives, its descriptor
is closed once, it is freed once, and the poller does not refer to it afterwards.
-/
import Sendfiled.Faults
import Sendfiled.Notices

namespace Sendfiled

open Prog Transition

variable {ans : Answers} {l : Label} {s s' t : State} {a : Action} {c c' : Config} {p r : Ptr}
  {x : ResrcXfer} {resp : ResrcResp} {w w₁ : World} {vs : List Visit} {i : Nat}

/-- The steps in which every SEND brings its destination, a response that is freed has the only
copy of its file, and memory for a response is found where the step serves a transfer. -/
structure Disposes (l : Answers × Label) (s : State) : Prop extends Undivided l s where
  memory : ∀ p w, s.TurnsTo l.1 p l.2 w → ¬ l.1.RunsOut w

theorem Disposes.brings {l : Answers × Label} (h : Disposes l s) : Brings l s := h.dest

/-! No null response is registered. -/

/-- A response is made in the event of a transfer and in the pass over the deferred ones. -/
theorem StepMay.addResp_cases (h : StepMay ans l s (.addResp resp) c) :
    (∃ garbage ev rest p, l = .event garbage ∧ s.phase = .events (ev :: rest) ∧
      ev.udata = .xfer p) ∨ l = .deferred ∧ s.phase = .events [] := by
  cases h with
  | free ha => cases ha
  | event hl hphase ha =>
      cases ha with
      | free ha => cases ha
      | xfer hu => exact Or.inl ⟨_, _, _, _, hl, hphase, hu⟩
  | request _ _ _ _ ha =>
      cases ha with
      | free ha => cases ha
  | deferred hl hphase => exact Or.inr ⟨hl, hphase⟩

/-- The rest of the pass registers a null response only where memory ran out in the round of
a transfer. -/
theorem wp_deferredLoop_runsOut (fuel : Nat) (hbegun : Begun ans w vs i w₁)
    (hd : Descriptors (0 ≤ ·) ⟨[], w₁⟩) :
    wp (deferredLoop ans fuel i) (fun _ _ => True) (fun e _ => e = .nullDeref →
      ∃ p w', State.TurnsTo ans p .deferred ⟨w, .events []⟩ w' ∧ ans.RunsOut w') w₁ := by
  induction fuel generalizing vs i w₁ with
  | zero => exact Fault.noConfusion
  | succ fuel ih =>
      rw [wp_deferredLoop_succ]
      cases hi : w₁.srv.deferredXfers[i]? with
      | none => trivial
      | some q =>
          apply wp_mono (wp_outcomes (wp_and (wp_visitDeferred_acts hi)
            (wp_visitDeferred_retained hd)))
          · rintro stays w₂ ⟨hvisit, h, -⟩
            refine ih (hbegun.round hi hvisit) (h.keeps (fun a c c' ha hp hc => ?_) hd)
            exact hc.performs (fun _ hgood => hgood) (fun x L hx => ((hx ▸ ha).enroll).elim) hp
          · rintro e w₂ ⟨-, -, halloc⟩ hnull
            exact ⟨q, w₁, .round hbegun hi, halloc hnull⟩

/-- A null response is registered only where memory runs out. -/
theorem runsOut_of_nullDeref (hr : server.Reachable Brings s)
    (hn : next (ans, l) s = some (.error .nullDeref)) :
    ∃ p w, s.TurnsTo ans p l w ∧ ans.RunsOut w := by
  have hra : server.Reachable System.always s := hr.mono fun _ _ _ => trivial
  obtain ⟨hledger, hok⟩ := reachable_ledger hra
  have hd := (reachable_channeled hr (running_of_next hn)).descriptors
  have hmade : ∃ resp c, StepMay ans l s (.addResp resp) c := by
    have hends := next_ends (A := StepMay ans l s) (fun a c ha => ha) hok hledger.nodup hn
    generalize hres : (Except.error Fault.nullDeref : Except Fault State) = res at hends
    cases hends with
    | next => cases hres
    | shut hacts => exact absurd hres.symm (shutdown_returns (hacts.ledger hledger) _)
    | fault hfaulty =>
        cases hres
        obtain ⟨L, -, resp, ha⟩ := hfaulty
        exact ⟨resp, _, ha⟩
  obtain ⟨resp, c, ha⟩ := hmade
  obtain ⟨w, phase⟩ := s
  rcases ha.addResp_cases with ⟨garbage, ev, rest, p, rfl, rfl, hu⟩ | ⟨rfl, rfl⟩
  · refine ⟨p, w, .event hu, ?_⟩
    have hwp : wp (dispatchEvent ans ev) (fun _ _ => True) (fun e _ => AllocFault ans w e) w := by
      refine wp_dispatchEvent_either ?_ trivial (fun e w' hne hnull => absurd hnull hne) ?_
      · rw [hu]
        exact Udata.noConfusion
      · intro err
        rw [hu]
        exact wp_mono (wp_processXfer_retained hd) (fun _ _ _ => trivial) fun _ _ he => he
    cases next_faultsIn hra hn with
    | event _ hphase hfault =>
        cases hphase
        exact wp_fault hwp hfault rfl
    | request hl => cases hl
    | deferred hl => cases hl
  · have hbegun : Begun ans w [] 0 w := .start
    have hwp := wp_deferredLoop_runsOut (w.srv.deferredXfers.length + 1) hbegun hd
    cases next_faultsIn hra hn with
    | event hl => cases hl
    | request hl => cases hl
    | deferred _ _ hfault => exact wp_fault hwp hfault rfl

/-! The life of a response. -/

/-- Since `s` the response is pending, registered once, with a descriptor of its own that was
never closed; or it was freed in one step, in which that descriptor was closed once, and now
neither a registration nor an event refers to it. -/
def DisposedOnce (s : State) (r : Ptr) (resp : ResrcResp) (t : State) : Prop :=
  (PendingSince s r resp t ∧ t.world.kern.awaited.count r = 1) ∨
    (FreedSince Disposes s r resp t ∧ t.world.kern.awaited.count r = 0 ∧
      ∀ ev ∈ t.pending, ev.udata ≠ .resp r)

theorem disposedOnce (hr : server.Reachable Disposes s)
    (hlive : s.world.srv.respAt r = some resp) (hsteps : server.Steps Disposes s t)
    (hrun : t.phase ≠ .stopped) : DisposedOnce s r resp t := by
  have hundivided : server.Reachable Undivided t :=
    (hr.steps hsteps).mono fun _ _ h => h.toUndivided
  have hsubscribed := reachable_subscribed hundivided hrun
  have hcount : t.world.kern.awaited.count r = if (t.world.srv.respAt r).isSome then 1 else 0 :=
    hsubscribed.matched.count r
  rcases pendingSince_or_freedSince (fun _ _ h => h.brings) hr hlive hsteps hrun with
    hpending | hfreed
  · left
    refine ⟨hpending, ?_⟩
    obtain ⟨f, tr, hret, -⟩ := hpending
    rw [hcount, hret.live]
    rfl
  · right
    have hgone : t.world.srv.respAt r = none := by
      obtain ⟨_, _, t', -, -, -, -, -, hrest, hgone⟩ := hfreed
      exact hgone t (hrest.mono fun _ _ _ => trivial)
    refine ⟨hfreed, by rw [hcount, hgone]; rfl, fun ev hev hu => ?_⟩
    obtain ⟨resp', hlive'⟩ := hsubscribed.event hev hu
    rw [hgone] at hlive'
    cases hlive'

/-- In every run in which each SEND brings its destination, each response that is freed has
the only copy of its file, and memory for a response is found where a transfer is served:
`transfer_file` leaves nothing behind but a response that is pending and registered, and where
the poller refuses the duplicate it is closed again and the response freed; no null response
is registered; and each pending response is registered once up to the one step that closes
its descriptor and frees it, after which the poller never refers to it. -/
theorem resp_disposed_once (hr : server.Reachable Disposes s) :
    (∀ ans l, Disposes (ans, l) s → (∀ p x w, s.TurnsTo ans p l w → w.srv.xferAt p = some x →
        wp (transferFile ans p) (fun _ w' => TransferEnds ans p w w')
          (fun e _ => e ≠ .nullDeref) w) ∧
      server.next (ans, l) s ≠ some (.error .nullDeref)) ∧
    ∀ r resp, s.world.srv.respAt r = some resp → ∀ t, server.Steps Disposes s t →
      t.phase ≠ .stopped → DisposedOnce s r resp t := by
  refine ⟨fun ans l hg => ⟨fun p x w hw hx => ?_, fun hn => ?_⟩, fun r resp hlive t hsteps hrun =>
    disposedOnce hr hlive hsteps hrun⟩
  · apply wp_mono (wp_transferFile_ends hx)
    · exact fun _ _ hends => hends
    · exact fun e w' halloc hnull => hg.memory p w hw (halloc hnull)
  · obtain ⟨p, w, hw, hout⟩ := runsOut_of_nullDeref (hr.mono fun _ _ h => h.brings) hn
    exact hg.memory p w hw hout

section Runs

open Scenario

/-- A client that keeps no copies, and an allocator that gives out one address after another,
and the last one again and again. -/
def frugal (blocked : Bool) : Answers :=
  { leaving blocked with malloc := fun n => some (min n 100) }

/-- The addresses that are still given out are free. -/
def roomy (w : World) : Bool :=
  (List.range 101).all fun addr =>
    decide (addr < w.kern.tick ∧ addr ≠ 100) || !w.srv.allocated addr

theorem not_runsOut {blocked : Bool} (h : roomy w = true) : ¬ (frugal blocked).RunsOut w := by
  rintro ⟨n, hle, hall⟩
  have hused : w.srv.allocated (min n 100) = true := hall (min n 100) rfl
  have hmem : min n 100 ∈ List.range 101 := List.mem_range.mpr (by omega)
  have hfree := List.all_eq_true.mp h _ hmem
  rw [hused, Bool.not_true, Bool.or_false, decide_eq_true_eq] at hfree
  omega

theorem Begun.of_nil (h : Begun ans w vs i w₁) (hnil : w.srv.deferredXfers = []) : w₁ = w := by
  induction h with
  | start => rfl
  | @round vs i w₁ w₂ q stays _ hi _ ih =>
      rw [ih, hnil] at hi
      cases hi

/-- The part of `Disposes` that is about the state, while no transfer is deferred. -/
def disposesHere (l : Answers × Label) (s : State) : Bool :=
  undividedHere l s && roomy s.world && s.world.srv.deferredXfers.isEmpty

theorem disposes_of_here {l : Answers × Label} (h : disposesHere l s = true)
    (hl : ∃ blocked, l.1 = frugal blocked) : Disposes l s := by
  simp only [disposesHere, Bool.and_eq_true, List.isEmpty_iff] at h
  obtain ⟨⟨hundivided, hroomy⟩, hnil⟩ := h
  obtain ⟨ans, l⟩ := l
  obtain ⟨blocked, rfl⟩ := hl
  refine ⟨undivided_of_here hundivided fun _ _ => rfl, fun p w hw => ?_⟩
  cases hw with
  | event => exact not_runsOut hroomy
  | round hbegun hi =>
      rw [hbegun.of_nil hnil, hnil] at hi
      cases hi

/-- A SEND whose completion message is held back. -/
def heldFrugally : List (Answers × Label) :=
  serve (frugal false) [⟨fileRequest .send 0 0, [1, 2], some client⟩] ++
    handle (frugal true) (writable 0)

/-- What follows: the message is written after all. -/
def answeredFrugally : List (Answers × Label) := handle (frugal false) (answerable 1)

theorem frugal_of_mem {l : Answers × Label} (hl : l ∈ heldFrugally ++ answeredFrugally) :
    ∃ blocked, l.1 = frugal blocked := by
  simp only [heldFrugally, answeredFrugally, serve, handle, List.cons_append, List.nil_append,
    List.mem_cons, List.flatMap_cons, List.flatMap_nil, List.not_mem_nil, or_false] at hl
  rcases hl with rfl | rfl | rfl | rfl | rfl | rfl | rfl | rfl | rfl | rfl | rfl | rfl <;>
    exact ⟨_, rfl⟩

theorem resp_disposed_once_of_heldBack : ∃ s t resp, server.Reachable Disposes s ∧
    s.world.srv.respAt 1 = some resp ∧ resp.pdu = .xferStat protXferComplete ∧
    server.Steps Disposes s t ∧ t.world.srv.respAt 1 = none ∧
    FreedSince Disposes s 1 resp t ∧ t.world.kern.awaited.count 1 = 0 := by
  obtain ⟨s, hr, hP⟩ := exists_reachable_forall
    (fun l s => disposesHere l s = true) 4 100 heldFrugally
    (fun s => (s.world.srv.respAt 1).any (fun resp => resp.pdu == .xferStat protXferComplete) &&
      (server.run (fun l s => disposesHere l s = true) answeredFrugally s).any fun t =>
        t.phase == .waiting && (t.world.srv.respAt 1).isNone)
    (fun l hl s h => disposes_of_here h (frugal_of_mem (List.mem_append_left _ hl)))
    (by decide +kernel)
  simp only [Bool.and_eq_true, Option.any_eq_true, beq_iff_eq, Option.isNone_iff_eq_none] at hP
  obtain ⟨⟨resp, hlive, hpdu⟩, t, hrun, hwait, hgone⟩ := hP
  have hsteps : server.Steps Disposes s t := System.steps_of_run_forall hrun fun l hl s h =>
    disposes_of_here h (frugal_of_mem (List.mem_append_right _ hl))
  have hphase : t.phase ≠ .stopped := by rw [hwait]; exact Phase.noConfusion
  rcases (resp_disposed_once hr).2 1 resp hlive t hsteps hphase with
    ⟨⟨f, tr, hret, -⟩, -⟩ | ⟨hfreed, hcount, -⟩
  · rw [hret.live] at hgone
    cases hgone
  · exact ⟨s, t, resp, hr, hlive, hpdu, hsteps, hgone, hfreed, hcount⟩

/-- A client that keeps its copies. -/
def keeping (blocked : Bool) : Answers :=
  { leaving blocked with clientKeeps := fun _ _ => true }

/-- Memory runs out. -/
def starving : Answers := { leaving true with malloc := fun _ => none }

/-- A SEND whose completion message is held back, and can then be written. -/
def heldForKeeper : List (Answers × Label) :=
  serve (keeping false) [⟨fileRequest .send 0 0, [1, 2], some client⟩] ++
    handle (keeping true) (writable 0) ++ [(keeping false, .wait [answerable 1])]

/-- The response 1 is freed next and stays registered, and its next event is fatal. -/
def outlived (s : State) : Bool :=
  (s.world.srv.respAt 1).isSome &&
    match server.next (keeping false, .event (-1, -1)) s with
    | some (.ok s') => (s'.world.srv.respAt 1).isNone && s'.world.kern.awaited.count 1 == 1 &&
        (server.run Brings [(keeping false, .deferred), (keeping false, .wait [answerable 1])]
          s').any fun t => failsWith .useAfterFree (next (keeping false, .event (-1, -1)) t)
    | _ => false

/-- A response is freed while the poller refers to it, and read again; and a null response is
registered. -/
theorem resp_outlived : (∃ s s' t, server.Reachable Brings s ∧
      (∃ resp, s.world.srv.respAt 1 = some resp) ∧
      server.next (keeping false, .event (-1, -1)) s = some (.ok s') ∧
      s'.world.srv.respAt 1 = none ∧ s'.world.kern.awaited.count 1 = 1 ∧
      server.Steps Brings s' t ∧
      server.next (keeping false, .event (-1, -1)) t = some (.error .useAfterFree)) ∧
    ∃ s, server.Reachable Brings s ∧
      server.next (starving, .event (-1, -1)) s = some (.error .nullDeref) := by
  constructor
  · obtain ⟨s, hr, hP⟩ := exists_reachable Brings 4 100 heldForKeeper outlived (by decide +kernel)
    simp only [outlived, Bool.and_eq_true] at hP
    obtain ⟨hlive, hstep⟩ := hP
    split at hstep
    case h_2 => cases hstep
    rename_i s' hn
    simp only [Bool.and_eq_true, Option.isNone_iff_eq_none, beq_iff_eq, Option.any_eq_true]
      at hstep
    obtain ⟨⟨hgone, hcount⟩, t, hrun, hfails⟩ := hstep
    exact ⟨s, s', t, hr, Option.isSome_iff_exists.mp hlive, hn, hgone, hcount,
      System.steps_of_run hrun, eq_of_failsWith hfails⟩
  · obtain ⟨s, hr, hP⟩ := exists_reachable Brings 4 100 sendReady
      (fun s => failsWith .nullDeref (next (starving, .event (-1, -1)) s)) (by decide +kernel)
    exact ⟨s, hr, eq_of_failsWith hP⟩

end Runs

end Sendfiled
