/-
Notices of the end of a transfer that cannot be written for the moment.  Whatever ends the
transfer, in its own event or in the pass over the deferred transfers, the notice is held
back before the transfer is deleted, and nothing else in the same pass takes it away.
-/
import Sendfiled.Pending
import Sendfiled.DeferredPass

namespace Sendfiled

open Prog Transition

variable {ans : Answers} {l : Label} {s s' : State} {a : Action} {c c' : Config} {p q r : Ptr}
  {resp : ResrcResp} {f : OpenFile} {w w₁ w₂ w' : World} {pdu : Pdu} {fd : Fd} {i : Nat}
  {vs : List Visit}

/-- The message is held back in `w'` for the transfer `p` of `w`, with a descriptor for the
file behind its status channel. -/
def HeldBack (p : Ptr) (fd : Fd) (pdu : Pdu) (w w' : World) : Prop :=
  ∃ x r resp f, w.srv.xferAt p = some x ∧ fd = x.statFd ∧ w.kern.fds.lookup fd = some f ∧
    w'.Retains r resp f ∧ resp.pdu = pdu ∧ resp.xfer = p

/-- Every notice that was postponed is held back. -/
def NoticesHeld (p : Ptr) (w w' : World) : Prop :=
  ∃ tr, w'.kern.trace = w.kern.trace ++ tr ∧
    ∀ fd pdu, Postponed p fd pdu tr → HeldBack p fd pdu w w'

/-- Neither `dup` nor the registration of a duplicate of the status descriptor fails. -/
structure Duplicates (ans : Answers) (p : Ptr) (w : World) : Prop where
  dup : ∀ n, ans.dup n = none
  add : ∀ x f, w.srv.xferAt p = some x → w.kern.fds.lookup x.statFd = some f →
    ¬ w.RefusesCopy ans f

theorem Retained.noticesHeld (h : Retained ans p w w') (hdup : Duplicates ans p w) :
    NoticesHeld p w w' := by
  obtain ⟨tr, htr, hkept⟩ := h
  refine ⟨tr, htr, fun fd pdu hpost => ?_⟩
  obtain ⟨x, hx, hfd, ⟨n, hn⟩ | ⟨f, hf, hrefused | ⟨addr, hret⟩⟩⟩ := hkept fd pdu hpost
  · exact absurd (hdup.dup n) hn
  · exact absurd hrefused (hdup.add x f hx (hfd ▸ hf))
  · exact ⟨x, _, _, f, hx, hfd, hf, hret, rfl, rfl⟩

/-- What happens to the transfer `p` while other code runs: its status channel stays what it
is, and what is held back for anyone stays held back. -/
structure Minding (p : Ptr) (w : World) (c : Config) : Prop where
  ledger : Ledger c.world.srv
  minted : Minted c.world
  descriptors : Descriptors (0 ≤ ·) c
  known : p < c.world.srv.nextPtr
  channel : ∀ y, c.world.srv.xferAt p = some y → ∃ x, w.srv.xferAt p = some x ∧
    y.statFd = x.statFd ∧ c.world.kern.fds.lookup y.statFd = w.kern.fds.lookup x.statFd
  held : ∀ r resp f, w.Retains r resp f → c.world.Retains r resp f

theorem Minding.start (hc : Ledger w.srv) (hm : Minted w) (hd : Descriptors (0 ≤ ·) ⟨[], w⟩)
    (hp : p < w.srv.nextPtr) : Minding p w ⟨[], w⟩ :=
  ⟨hc, hm, hd, hp, fun y hy => ⟨y, hy, rfl, rfl⟩, fun _ _ _ h => h⟩

theorem Minding.performs (h : Minding p w c) (hp : Performs a c c')
    (henroll : ∀ x, a ≠ .enroll x) (hdrop : ∀ r q, a ≠ .dropResp r q) : Minding p w c' where
  ledger := h.ledger.performs hp
  minted := h.minted.performs h.ledger hp
  descriptors := h.descriptors.performs (fun _ hgood => hgood)
    (fun x L hx => absurd hx (henroll x)) hp
  known := Nat.lt_of_lt_of_le h.known hp.nextPtr_le
  channel := by
    intro z hz
    rcases hp.evolves hz with ⟨-, hnew⟩ | ⟨y, hy, hevolves⟩
    · exact absurd hnew (henroll z)
    obtain ⟨x, hx, hstat, hfile⟩ := h.channel y hy
    refine ⟨x, hx, hevolves.statFd.trans hstat, ?_⟩
    rw [hevolves.statFd, ← hfile]
    by_cases hgood : 0 ≤ y.statFd
    · exact (Descriptors.spares hp h.descriptors (o := .channel p) hgood ⟨y, hy, Or.inl rfl⟩
        ⟨z, hz, Or.inl hevolves.statFd.symm⟩).lookup
    · -- no descriptor is negative
      have hclosed : ∀ {c : Config}, Descriptors (0 ≤ ·) c →
          c.world.kern.fds.lookup y.statFd = none := fun hd =>
        AList.lookup_eq_none.mpr fun hin => hgood (hd.nonneg _ hin)
      have hd' : Descriptors (0 ≤ ·) c' := h.descriptors.performs (fun _ hgood => hgood)
        (fun x L hx => absurd hx (henroll x)) hp
      rw [hclosed hd', hclosed h.descriptors]
  held := by
    intro r resp f hret
    have hret' := h.held r resp f hret
    have hgood : 0 ≤ resp.statFd := h.descriptors.nonneg _ (Kernel.mem_of_lookup hret'.file)
    exact hret'.performs hgood hp h.minted h.descriptors (hdrop r)

theorem Minding.trans (h : Minding p w ⟨[], w₁⟩) (h' : Minding p w₁ c) : Minding p w c := by
  refine ⟨h'.ledger, h'.minted, h'.descriptors, h'.known, fun z hz => ?_, fun r resp f hret =>
    h'.held r resp f (h.held r resp f hret)⟩
  obtain ⟨y, hy, hstat, hfile⟩ := h'.channel z hz
  obtain ⟨x, hx, hstat', hfile'⟩ := h.channel y hy
  exact ⟨x, hx, hstat.trans hstat', hfile.trans hfile'⟩

/-- What was held back before, and what has been since. -/
theorem NoticesHeld.trans (hm : Minding p w ⟨[], w₁⟩) (hm' : Minding p w₁ ⟨[], w₂⟩)
    (h : NoticesHeld p w w₁) (h' : NoticesHeld p w₁ w₂) : NoticesHeld p w w₂ := by
  obtain ⟨tr, htr, hheld⟩ := h
  obtain ⟨tr', htr', hheld'⟩ := h'
  refine ⟨tr ++ tr', by rw [htr', htr, List.append_assoc], fun fd pdu hpost => ?_⟩
  rcases hpost.append with hpost | hpost
  · obtain ⟨x, r, resp, f, hx, hfd, hf, hret, hpdu, hxfer⟩ := hheld fd pdu hpost
    exact ⟨x, r, resp, f, hx, hfd, hf, hm'.held r resp f hret, hpdu, hxfer⟩
  · obtain ⟨y, r, resp, f, hy, rfl, hf, hret, hpdu, hxfer⟩ := hheld' fd pdu hpost
    obtain ⟨x, hx, hstat, hfile⟩ := hm.channel y hy
    exact ⟨x, r, resp, f, hx, hstat, hstat ▸ hfile ▸ hf, hret, hpdu, hxfer⟩

/-- Code that does nothing for the transfer postpones none of its notices. -/
theorem NoticesHeld.of_acts {A : Action → Config → Prop} (h : Acts A ⟨[], w⟩ ⟨[], w'⟩)
    (haway : ∀ a c, A a c → a.concerns ≠ some p) : NoticesHeld p w w' := by
  have hentries : ∃ tr, w'.kern.trace = w.kern.trace ++ tr ∧ ∀ e ∈ tr, e.onBehalf ≠ some p := by
    refine h.keeps (I := fun c => ∃ tr, c.world.kern.trace = w.kern.trace ++ tr ∧
      ∀ e ∈ tr, e.onBehalf ≠ some p) ?_ ⟨[], (List.append_nil _).symm, by simp⟩
    rintro a c c' ha hp ⟨tr, htr, hnone⟩
    obtain ⟨tr', htr', hon⟩ := hp.entries
    refine ⟨tr ++ tr', by rw [htr', htr, List.append_assoc], fun e he => ?_⟩
    rcases List.mem_append.mp he with he | he
    · exact hnone e he
    · rcases hon e he with hno | hcon
      · rw [hno]
        exact fun hc => by cases hc
      · rw [hcon]
        exact haway a c ha
  obtain ⟨tr, htr, hnone⟩ := hentries
  refine ⟨tr, htr, ?_⟩
  rintro fd pdu ⟨-, e, -, hmem⟩
  exact absurd rfl (hnone _ hmem)

/-- In every round of the pass that comes to `p`, the duplicate can be made. -/
def PassDuplicates (ans : Answers) (p : Ptr) (w : World) : Prop :=
  ∀ vs i w₁, Begun ans w vs i w₁ → w₁.srv.deferredXfers[i]? = some p → Duplicates ans p w₁

theorem DeferMay.enroll {x : ResrcXfer} (h : DeferMay q (.enroll x) c) : False := by
  cases h with
  | free ha => cases ha
  | speak ha => cases ha

theorem DeferMay.dropResp {t : Ptr} (h : DeferMay q (.dropResp r t) c) : False := by
  cases h with
  | free ha => cases ha
  | speak ha => cases ha

/-- One round. -/
theorem wp_visitDeferred_held (hm : Minding p w₁ ⟨[], w₁⟩) (hi : w₁.srv.deferredXfers[i]? = some q)
    (hdup : q = p → Duplicates ans p w₁) :
    wp (visitDeferred ans i q) (fun _ w' => NoticesHeld p w₁ w' ∧ Minding p w₁ ⟨[], w'⟩)
      (fun _ _ => True) w₁ := by
  refine wp_mono (wp_and (wp_visitDeferred_acts hi) (wp_visitDeferred_retained hm.descriptors)) ?_
    fun _ _ _ => trivial
  rintro stays w' ⟨h, hretained⟩
  refine ⟨?_, h.keeps (fun a c c' ha hp hc => hc.performs hp (fun x hx => (hx ▸ ha).enroll)
    fun r t hr => (hr ▸ ha).dropResp) hm⟩
  by_cases hq : q = p
  · subst hq
    exact hretained.noticesHeld (hdup rfl)
  · exact .of_acts h fun a c ha => ha.away (Ne.symm hq)

/-- The rest of the pass. -/
theorem wp_deferredLoop_held (hdup : PassDuplicates ans p w) (fuel : Nat)
    (hbegun : Begun ans w vs i w₁) (hm : Minding p w ⟨[], w₁⟩) (h : NoticesHeld p w w₁) :
    wp (deferredLoop ans fuel i) (fun _ w' => NoticesHeld p w w') (fun _ _ => True) w₁ := by
  induction fuel generalizing vs i w₁ with
  | zero => trivial
  | succ fuel ih =>
      rw [wp_deferredLoop_succ]
      cases hi : w₁.srv.deferredXfers[i]? with
      | none => exact h
      | some q =>
          have hself : Minding p w₁ ⟨[], w₁⟩ :=
            .start hm.ledger hm.minted hm.descriptors hm.known
          have hround := wp_visitDeferred_held hself hi fun hq => hdup vs i w₁ hbegun (hq ▸ hi)
          refine wp_mono (wp_outcomes hround) ?_ fun _ _ _ => trivial
          rintro stays w₂ ⟨hvisit, hheld, hm'⟩
          exact ih (hbegun.round hi hvisit) (hm.trans hm') (h.trans hm hm' hheld)

theorem wp_processDeferred_held (hdup : PassDuplicates ans p w) (hm : Minding p w ⟨[], w⟩) :
    wp (processDeferred ans) (fun _ w' => NoticesHeld p w w') (fun _ _ => True) w := by
  simp only [processDeferred, wp_bind, wp_gets]
  exact wp_deferredLoop_held hdup _ .start hm
    ⟨[], (List.append_nil _).symm, fun _ _ hpost =>
      absurd hpost (not_postponed_of_ongoing (by simp))⟩

/-- An event leaves the world as it is, or goes to its resource. -/
theorem wp_dispatchEvent_either {ev : PollEvent} (hsig : ev.udata ≠ .sigfd) {Q : World → Prop}
    {E : Fault → World → Prop} (hsame : Q w) (hE : ∀ e w', e ≠ .nullDeref → E e w')
    (hres : ∀ err, wp (processResource ans err ev.udata) (fun _ w' => Q w') E w) :
    wp (dispatchEvent ans ev) (fun _ w' => Q w') E w := by
  have hget : wp (syspollGet ans ev) (fun events w' => w' = w) E w := by
    unfold syspollGet
    rw [wp_ite]
    refine ⟨fun _ => rfl, fun _ => ?_⟩
    rw [wp_ite]
    exact ⟨fun hboth => absurd hboth.2 hsig, fun _ => rfl⟩
  have hident : wp (identOf ev.udata) (fun _ w' => w' = w) E w := by
    cases hu : ev.udata with
    | sigfd => exact absurd hu hsig
    | reqfd => rfl
    | xfer q =>
        simp only [identOf, wp_bind, wp_pure]
        rw [wp_getXfer]
        exact ⟨fun _ _ => rfl, fun _ => hE _ _ Fault.noConfusion⟩
    | timer t =>
        simp only [identOf, wp_bind, wp_pure]
        rw [wp_getTimer]
        exact ⟨fun _ _ => rfl, fun _ => hE _ _ Fault.noConfusion⟩
    | resp r =>
        simp only [identOf, wp_bind, wp_pure]
        rw [wp_getResp]
        exact ⟨fun _ _ => rfl, fun _ => hE _ _ Fault.noConfusion⟩
  simp only [dispatchEvent, wp_bind]
  refine wp_mono hget ?_ fun _ _ he => he
  rintro events _ rfl
  rw [wp_ite]
  refine ⟨fun _ => hsame, fun _ => ?_⟩
  simp only [wp_bind]
  refine wp_mono hident ?_ fun _ _ he => he
  rintro ident _ rfl
  simp only [wp_gets]
  rw [wp_ite]
  refine ⟨fun _ => ?_, fun _ => ?_⟩
  · rw [wp_ite]
    refine ⟨fun _ => hsame, fun _ => ?_⟩
    simp only [wp_bind, wp_assert, wp_pure]
    exact ⟨fun _ => hsame, fun _ => hE _ _ Fault.noConfusion⟩
  · simp only [wp_bind, wp_pure]
    exact hres events.error

/-- What dispatching an event comes to holds after the step, if the server runs on. -/
theorem next_event_of_wp {garbage : Fd × Fd} {ev : PollEvent} {rest : List PollEvent}
    {Q : World → Prop}
    (h : wp (dispatchEvent ans ev) (fun _ w' => Q w') (fun _ _ => True) w)
    (hn : next (ans, .event garbage) ⟨w, .events (ev :: rest)⟩ = some (.ok s'))
    (hrun : s'.phase ≠ .stopped) : Q s'.world := by
  simp only [next, Option.some.injEq] at hn
  cases hm : dispatchEvent ans ev w with
  | fault e w₁ =>
      rw [hm] at hn
      cases hn
  | done d w₁ =>
      have hQ := wp_done h hm
      rw [hm] at hn
      cases d with
      | stop =>
          obtain ⟨a, w', hstop⟩ := settle_ok (show shutdown ans w₁ = .ok s' from hn)
          cases hstop
          exact absurd rfl hrun
      | request | handled =>
          cases hn
          exact hQ

/-- The step serves the transfer `p`, in its own event or in a pass over the deferred
transfers, and where it does so duplicates can be made and registered. -/
inductive Serves (ans : Answers) (p : Ptr) : Label → State → Prop
  | event {garbage : Fd × Fd} {ev : PollEvent} {rest : List PollEvent} {w : World}
      (hu : ev.udata = .xfer p) (hdup : Duplicates ans p w) :
      Serves ans p (.event garbage) ⟨w, .events (ev :: rest)⟩
  | deferred {w : World} (hdup : PassDuplicates ans p w) : Serves ans p .deferred ⟨w, .events []⟩

theorem Serves.noticesHeld (h : Serves ans p l s) (hledger : Ledger s.world.srv)
    (hm : Minted s.world) (hd : Descriptors (0 ≤ ·) s.config) (hp : p < s.world.srv.nextPtr)
    (hn : next (ans, l) s = some (.ok s')) (hrun : s'.phase ≠ .stopped) :
    NoticesHeld p s.world s'.world := by
  cases h with
  | @event garbage ev rest w hu hdup =>
      refine next_event_of_wp (wp_dispatchEvent_either ?_ ?_ (fun _ _ _ => trivial) fun err => ?_)
        hn hrun
      · rw [hu]
        exact Udata.noConfusion
      · exact (Retained.refl p w).noticesHeld hdup
      · rw [hu]
        exact wp_mono (wp_processXfer_retained hd) (fun _ _ h => h.noticesHeld hdup)
          fun _ _ _ => trivial
  | @deferred w hdup =>
      have hwp := wp_processDeferred_held hdup (.start hledger hm hd hp)
      simp only [next, Option.some.injEq] at hn
      cases hm : processDeferred ans w with
      | fault e w₁ =>
          rw [hm] at hn
          cases hn
      | done d w₁ =>
          rw [hm] at hn
          cases hn
          exact wp_done hwp hm

/-- Whenever a step serves a transfer and a message that ends it cannot be written for the
moment, the message is a pending response when the step is done, with a duplicate of the
descriptor of the status channel that is open and registered: in every reachable state, for
whatever reason the transfer ends, and whatever the step does for other transfers. -/
theorem notice_held {x : ResrcXfer} (hr : server.Reachable Brings s)
    (hx : s.world.srv.xferAt p = some x) (hserves : Serves ans p l s)
    (hn : server.next (ans, l) s = some (.ok s')) (hrun : s'.phase ≠ .stopped) :
    NoticesHeld p s.world s'.world := by
  have hra : server.Reachable System.always s := hr.mono fun _ _ _ => trivial
  have hledger := (reachable_ledger hra).1
  exact hserves.noticesHeld hledger (Minted.reachable hra)
    (reachable_channeled hr (running_of_next hn)).descriptors (hledger.xfer_lt p x hx) hn hrun

section Runs

open Scenario

/-- A SEND whose destination has become writable. -/
def sendReady : List (Answers × Label) :=
  serve (leaving false) [⟨fileRequest .send 0 0, [1, 2], some client⟩] ++
    [(leaving false, .wait [writable 0])]

/-- The transfer 0 is served next, and where its notice is blocked it is told what is left. -/
def noticeBlocked (s : State) : Bool :=
  s.phase == .events [writable 0] && (s.world.srv.xferAt 0).any (fun x => x.statFd == 6) &&
    s.world.kern.regs.all (fun reg => reg.fd != s.world.kern.fileFd) &&
    match server.next (leaving true, .event (-1, -1)) s with
    | some (.ok s') => s'.phase == .events [] &&
        (s'.world.kern.trace.drop s.world.kern.trace.length).contains
          (.sent (some 0) 6 (.xferStat protXferComplete) (.error EAGAIN))
    | _ => false

theorem notice_held_of_sendReady : ∃ s s', server.Reachable Brings s ∧
    server.next (leaving true, .event (-1, -1)) s = some (.ok s') ∧
    HeldBack 0 6 (.xferStat protXferComplete) s.world s'.world := by
  obtain ⟨s, hr, hP⟩ := exists_reachable Brings 4 100 sendReady noticeBlocked
    (by decide +kernel)
  simp only [noticeBlocked, Bool.and_eq_true, Option.any_eq_true, beq_iff_eq, List.all_eq_true,
    bne_iff_ne] at hP
  obtain ⟨⟨⟨hphase, x, hx, -⟩, hfresh⟩, hstep⟩ := hP
  split at hstep
  case h_2 => cases hstep
  rename_i s' hn
  simp only [Bool.and_eq_true, beq_iff_eq, List.contains_iff_mem] at hstep
  obtain ⟨hphase', hmem⟩ := hstep
  obtain ⟨w, phase⟩ := s
  subst hphase
  have hdup : Duplicates (leaving true) 0 w := by
    refine ⟨fun _ => rfl, fun _ f _ _ hrefused => ?_⟩
    rcases hrefused with ⟨reg, hreg, hfd, -⟩ | ⟨n, hn⟩
    · exact hfresh reg hreg hfd
    · exact hn rfl
  have hrun : s'.phase ≠ .stopped := by rw [hphase']; exact Phase.noConfusion
  obtain ⟨tr, htr, hheld⟩ := notice_held hr hx (.event rfl hdup) hn hrun
  refine ⟨⟨w, _⟩, s', hr, hn, hheld 6 _ ⟨rfl, EAGAIN, by decide, ?_⟩⟩
  rw [htr, List.drop_left] at hmem
  exact hmem

end Runs

end Sendfiled
