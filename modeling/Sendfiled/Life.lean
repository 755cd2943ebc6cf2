/-
The life of a transfer: how it comes into being, and what every later step does to it.
-/
import Sendfiled.Steps

namespace Sendfiled

open Prog Transition

variable {ans : Answers} {l : Label} {s s' : State} {p : Ptr} {x : ResrcXfer}

/-- The shutdown deletes a transfer and leaves its history alone. -/
theorem Cleared.view {w w' : World} (h : Cleared w w') (p : Ptr) :
    w'.view p = (w.view p).gone := by
  obtain ⟨tr, htr, honly, -⟩ := h.trace
  apply World.view_gone (h.xferAt p) h.respAt
  rw [htr, historyOf_append, honly.historyOf, List.append_nil]

theorem shutdown_view {w : World} (hc : Ledger w.srv) (h : shutdown ans w = .ok s')
    (p : Ptr) : s'.world.view p = (w.view p).gone := by
  obtain ⟨w', hw', hcleared⟩ := shutdown_cleared ans hc
  rw [hw'] at h
  cases h
  exact hcleared.view p

theorem World.view_clientClose (n : Nat) (w : World) (p : Ptr) :
    (clientClose n w).view p = w.view p := by
  unfold clientClose
  split <;> rfl

theorem requested_of_next {res : Except Fault State} (hn : next (ans, .request) s = some res) :
    ∃ r rest, s.phase = .requested r rest := by
  obtain ⟨w, phase⟩ := s
  cases phase with
  | requested r rest => exact ⟨r, rest, rfl⟩
  | waiting | events | receiving | stopped => cases hn

/-- What the handling of a datagram may do: what its request may do, or tell its sender that
it is not one of the server's user. -/
def HandlingMay (ans : Answers) (r : Received) (w : World) (a : Action) (c : Config) : Prop :=
  RequestMay ans r.arrived w w.srv.recvbuf r.nread r.pid r.fds a c ∨
    ∃ pdu, a = .say none r.fds.1 pdu

theorem HandlingMay.away {r : Received} {w : World} (h : HandlingMay ans r w a c)
    (hold : p < w.srv.nextPtr) (hp : ¬ w.srv.Names w.srv.recvbuf p) : a.concerns ≠ some p := by
  rcases h with h | ⟨pdu, rfl⟩
  · exact h.away hold hp
  · simp [Action.concerns]

/-- A step that handles a request. -/
theorem next_served {r : Received} {rest : List PollEvent} (hok : PhaseOk s)
    (hphase : s.phase = .requested r rest) (hn : next (ans, .request) s = some (.ok s')) :
    Served ans r s.world.kern.trace s.world s'.world ∧
      Acts (HandlingMay ans r s.world) ⟨r.arrived, s.world⟩ ⟨[], s'.world⟩ := by
  obtain ⟨w, phase⟩ := s
  subst hphase
  simp only [next, Option.some.injEq] at hn
  revert hn
  refine settle_of_wp (P := fun res => res = .ok s' → _)
    (wp_handleReceived (A := HandlingMay ans r w) (fun a c ha => Or.inl (.free ha)) Acts.refl hok
      (fun _ pdu c _ => Or.inr ⟨pdu, rfl⟩) (fun _ _ a c ha => Or.inl ha)
      (Q := fun _ w' => Served ans r w.kern.trace w w' ∧
        Acts (HandlingMay ans r w) ⟨r.arrived, w⟩ ⟨[], w'⟩)
      fun w' hserved h' => ⟨hserved, h'⟩) ?_ fun _ _ _ hc => by cases hc
  rintro _ w' ⟨hserved, h'⟩ hr
  cases hr
  exact ⟨hserved, h'⟩

/-- What a step does to a transfer: one deed at most, after which the server may stop. -/
def Turn (ans : Answers) (p : Ptr) (v v' : View) : Prop :=
  ∃ v₁, Touched ans p v v₁ ∧ (v' = v₁ ∨ v' = v₁.gone)

theorem Turn.refl (v : View) : Turn ans p v v := ⟨v, .refl, Or.inl rfl⟩

theorem Turn.of_touched {v v' : View} (h : Touched ans p v v') : Turn ans p v v' :=
  ⟨v', h, Or.inl rfl⟩

theorem Turn.deeds {v v' : View} (h : Turn ans p v v') : Deeds ans p v v' := by
  obtain ⟨v₁, htouched, rfl | rfl⟩ := h
  · exact htouched.to_reflTransGen
  · cases hx : v₁.xfer with
    | some x => exact htouched.to_reflTransGen.tail (.shut hx)
    | none =>
        have hgone : v₁.gone = v₁ := by
          rw [View.gone, ← hx]
        rw [hgone]
        exact htouched.to_reflTransGen

/-- Every step takes its turn with a transfer that was known before, or a timer expires. -/
theorem next_turn (hc : Ledger s.world.srv) (hm : Minted s.world) (hok : PhaseOk s)
    (hn : next (ans, l) s = some (.ok s')) (hp : p < s.world.srv.nextPtr) :
    Turn ans p (s.world.view p) (s'.world.view p) ∨ Expired p s.world s'.world := by
  obtain ⟨w, phase⟩ := s
  -- a piece of code that does a deed, after which the loop goes on or is left
  have hdone : ∀ {A : Action → Config → Prop} {L L' : List Fd} {w' : World},
      Acts A ⟨L, w⟩ ⟨L', w'⟩ → Touched ans p (w.view p) (w'.view p) →
      (shutdown ans w' = .ok s' ∨ s'.world = w') →
      Turn ans p (w.view p) (s'.world.view p) ∨ Expired p w s'.world := by
    intro A L L' w' hacts htouched hend
    refine Or.inl ⟨w'.view p, htouched, ?_⟩
    rcases hend with hend | hend
    · exact Or.inr (shutdown_view (hacts.ledger hc) hend p)
    · rw [hend]
      exact Or.inl rfl
  have hsame : Turn ans p (w.view p) (w.view p) ∨ Expired p w w := Or.inl (.refl _)
  cases l with
  | wait evs =>
      cases phase <;> simp only [next, reduceCtorEq] at hn
      split at hn <;> cases hn
      exact hsame
  | waitFailed e =>
      cases phase <;> simp only [next, reduceCtorEq] at hn
      split at hn
      · exact Or.inl ⟨w.view p, .refl,
          Or.inr (shutdown_view (w := withErrno e w) hc (Option.some.inj hn) p)⟩
      · cases hn
        exact Or.inl (.refl _)
  | receiveFailed e =>
      cases phase <;> simp only [next, reduceCtorEq] at hn
      split at hn
      · exact Or.inl ⟨w.view p, .refl,
          Or.inr (shutdown_view (w := withErrno e w) hc (Option.some.inj hn) p)⟩
      · cases hn
        exact Or.inl (.refl _)
  | clientCloses n =>
      simp only [next] at hn
      split at hn <;> cases hn
      rw [World.view_clientClose]
      exact Or.inl (.refl _)
  | event garbage =>
      cases phase with
      | waiting | receiving | requested | stopped => cases hn
      | events evs =>
          cases evs with
          | nil => cases hn
          | cons ev rest =>
              simp only [next, Option.some.injEq] at hn
              revert hn
              refine settle_of_wp (P := fun r => r = .ok s' → _)
                (wp_dispatchEvent (A := EventMay [] w ev)
                  (fun a c ha => .free ha) Acts.refl (fun a c ha => ha)
                  (Q := fun r w' => (Touched ans p (w.view p) (w'.view p) ∨
                    Expired p w w' ∧ r = .handled) ∧ Acts (EventMay [] w ev) ⟨[], w⟩ ⟨[], w'⟩)
                  fun r w' hdeeds h' => ⟨?_, h'⟩) ?_ fun _ _ _ hc => by cases hc
              · by_cases hsub : w.srv.Subject ev p
                · exact hdeeds p hsub
                · rw [(h'.mono fun a c ha => ha.away hsub).view hc hm hp]
                  exact Or.inl .refl
              · rintro o w' ⟨hdeeds | ⟨hexpired, rfl⟩, h'⟩ hr
                · cases o with
                  | stop => exact hdone h' hdeeds (Or.inl hr)
                  | request | handled =>
                      cases hr
                      exact hdone h' hdeeds (Or.inr rfl)
                · cases hr
                  exact Or.inr hexpired
  | receive d =>
      cases phase <;> simp only [next, reduceCtorEq, Option.some.injEq] at hn
      rename_i old rest
      revert hn
      refine settle_of_wp (P := fun r => r = .ok s' → _)
        (wp_usRecv (A := fun a _ => a.free = true) (fun a c ha => ha) Acts.refl
          (Q := fun o w' => ∃ L', Acts (fun a _ => a.free = true) ⟨[], w⟩ ⟨L', w'⟩)
          (fun w' h' => ⟨_, h'⟩) fun r w' _ h' => ⟨_, h'⟩) ?_ fun _ _ _ hc => by cases hc
      rintro o w' ⟨L', h'⟩ hr
      have hframe : w'.view p = w.view p := by
        refine (h'.mono fun a c ha => ?_).view hc hm hp
        intro hconc
        rw [Action.concerns_of_free ha] at hconc
        cases hconc
      refine hdone h' (hframe ▸ .refl) ?_
      cases o with
      | some r =>
          cases hr
          exact Or.inr rfl
      | none =>
          dsimp only at hr
          split at hr
          · exact Or.inl hr
          · cases hr
            exact Or.inr rfl
  | request =>
      obtain ⟨r, rest, rfl⟩ := requested_of_next hn
      obtain ⟨hserved, h'⟩ := next_served hok rfl hn
      by_cases hnames : w.srv.Names w.srv.recvbuf p
      · cases hserved with
        | accepted _ haccepted => exact Or.inl (.of_touched (haccepted.deed hnames))
        | refused _ _ hdeclined => exact Or.inl (.of_touched (hdeclined p hnames))
      · rw [(h'.mono fun a c ha => ha.away hp hnames).view hc hm hp]
        exact Or.inl (.refl _)
  | deferred =>
      cases phase with
      | waiting | receiving | requested | stopped => cases hn
      | events evs =>
          cases evs with
          | cons ev rest => cases hn
          | nil =>
              simp only [next, Option.some.injEq] at hn
              revert hn
              refine settle_of_wp (P := fun r => r = .ok s' → _)
                (wp_processDeferred (A := fun a c => ∃ q, DeferMay q a c) (L := [])
                  (fun q a c ha => ⟨q, ha⟩) Acts.refl hc.nodup
                  (Q := fun _ w' => Touched ans p (w.view p) (w'.view p))
                  fun w' _ hattended _ => (hattended hc hm p hp).1) ?_ fun _ _ _ hc => by cases hc
              intro _ w' htouched hr
              cases hr
              exact Or.inl (.of_touched htouched)

theorem next_deeds (hc : Ledger s.world.srv) (hm : Minted s.world) (hok : PhaseOk s)
    (hn : next (ans, l) s = some (.ok s')) (hp : p < s.world.srv.nextPtr) :
    Deeds ans p (s.world.view p) (s'.world.view p) ∨ Expired p s.world s'.world :=
  (next_turn hc hm hok hn hp).imp_left Turn.deeds

theorem update_eq_none {f : Ptr → Option ResrcXfer} {q r : Ptr} {v : Option ResrcXfer}
    (hr : f r = none) (hv : r = q → v = none) : Function.update f q v r = none := by
  by_cases hrq : r = q
  · rw [hrq, Function.update_self]
    exact hv hrq
  · rwa [Function.update_of_ne hrq]

/-- Changing a live transfer creates none. -/
theorem Server.unborn_setXfer {s : Server} {q : Ptr} {x : ResrcXfer} (hq : s.xferAt q = some x)
    (y : ResrcXfer) : s.Unborn (s.setXfer q y) := by
  intro r hr
  apply update_eq_none hr
  rintro rfl
  rw [hq] at hr
  cases hr

/-- Only a request creates transfers. -/
theorem Performs.unborn {a : Action} {c c' : Config} (h : Performs a c c')
    (ha : ∀ x, a ≠ .enroll x) : c.world.srv.Unborn c'.world.srv := by
  intro q hq
  cases h with
  | quiet _ hs _ => exact hs.xferAt ▸ hq
  | say | openFile | seek | openTimer | arrive | dup | shut | reshut | register | forget | balk
  | addTimer | skipTimer | arm | expire | botch | addResp | skipResp | dropResp => exact hq
  | enroll => exact absurd rfl (ha _)
  | skip | retire | discard | bury => exact update_eq_none hq fun _ => rfl
  | cancel hx | ready hx | assign hx => exact Server.unborn_setXfer hx _ q hq
  | release _ hx | move _ hx => exact Server.unborn_setXfer hx _ q hq

/-- The transfer `p` as the request that creates it leaves it. -/
inductive Born (p : Ptr) (x : ResrcXfer) : View → Prop
  | intro {atime mtime ctime : Nat} {result : Except Errno Nat} (hdefer : x.defer = .none)
      (hleft : x.nbytesLeft = x.file.size) :
      Born p x
        { xfer := some x
          resp := fun _ => none
          history := [.sent (some p) x.statFd
            (.fileInfo x.file.size.toNat atime mtime ctime x.txnid) result] }

/-- A transfer comes into being when a request for a file is accepted. -/
theorem next_born (hc : Ledger s.world.srv) (hm : Minted s.world) (hok : PhaseOk s)
    (hn : next (ans, l) s = some (.ok s')) (hnone : s.world.srv.xferAt p = none)
    (hx : s'.world.srv.xferAt p = some x) :
    ∃ r rest, l = .request ∧ s.phase = .requested r rest ∧ r.uid = s.world.srv.uid ∧
      p = s.world.srv.nextPtr ∧ Born p x (s'.world.view p) ∧
      Accepted ans s.world.srv.recvbuf r.nread r.pid r.fds s.world s'.world := by
  by_cases hl : l = .request
  · subst hl
    obtain ⟨w, phase⟩ := s
    obtain ⟨r, rest, rfl⟩ := requested_of_next hn
    refine ⟨r, rest, rfl, rfl, ?_⟩
    obtain ⟨hserved, h'⟩ := next_served hok rfl hn
    obtain ⟨w', phase'⟩ := s'
    dsimp only at hserved h' hx hnone hm ⊢
    -- the request adds no pending response
    have hresps : ∀ q resp, w'.srv.respAt q = some resp → w.srv.respAt q = some resp := by
      refine h'.keeps (I := fun c => ∀ q resp, c.world.srv.respAt q = some resp →
        w.srv.respAt q = some resp) ?_ fun _ _ hq => hq
      intro a c₁ c₂ ha hperf hI q resp hq
      have hdrop : ∀ r', c₂.world.srv.respAt = Function.update c₁.world.srv.respAt r' none →
          w.srv.respAt q = some resp := by
        intro r' hset
        rw [hset] at hq
        by_cases hqr : q = r'
        · subst hqr
          simp at hq
        · rw [Function.update_of_ne hqr] at hq
          exact hI q resp hq
      rcases hperf.respAt_cases with ⟨hsame, -⟩ | ⟨new, rfl, -⟩ | ⟨-, hset⟩ | ⟨r', -, -, -, hset⟩
      · exact hI q resp (hsame ▸ hq)
      · rcases ha with ha | ⟨pdu, hsay⟩
        · cases ha with
          | free ha => cases ha
        · cases hsay
      · exact hdrop _ hset
      · exact hdrop r' hset
    have hlive : ¬ w.srv.Unborn w'.srv := by
      intro hunborn
      have hgone := hunborn p hnone
      rw [show w'.srv.xferAt p = some x from hx] at hgone
      cases hgone
    cases hserved with
    | refused _ hunborn => exact absurd hunborn hlive
    | accepted huid haccepted =>
        refine ⟨huid, ?_⟩
        cases haccepted with
        | assigned _ _ hq _ _ hsrv =>
            exact absurd (hsrv ▸ Server.unborn_setXfer hq _) hlive
        | cancelled _ _ hq _ hworld =>
            exact absurd (hworld ▸ Server.unborn_setXfer hq _) hlive
        | @created req y atime mtime ctime result hreq hy hborn hinfo hready =>
            have hpn : p = w.srv.nextPtr := by
              by_contra hne
              have hold := hborn.others p hne
              rw [show w'.srv.xferAt p = some x from hx] at hold
              rw [show w.srv.xferAt p = none from hnone] at hold
              cases hold
            subst hpn
            have hxy : y = x := Option.some.inj (hborn.xferAt.symm.trans hx)
            subst hxy
            refine ⟨rfl, ?_, .created hreq hy hborn hinfo hready⟩
            have hview : w'.view w.srv.nextPtr = ⟨some y, fun _ => none,
                [.sent (some w.srv.nextPtr) y.statFd
                  (.fileInfo y.file.size.toNat atime mtime ctime y.txnid) result]⟩ := by
              simp only [World.view, hborn.xferAt, hinfo, historyOf_append]
              congr 1
              · funext q
                cases hq : w'.srv.respAt q with
                | none => rfl
                | some resp =>
                    have hlt := (hm.resp q resp (hresps q resp hq)).2
                    simp [Option.filter, Nat.ne_of_lt hlt]
              · rw [historyOf_eq_nil]
                · simp [historyOf, Effect.onBehalf]
                · intro e he hbehalf
                  exact Nat.lt_irrefl _ (hm.trace e he _ hbehalf)
            rw [hview]
            exact .intro hy.defer hy.left
  · exfalso
    have hends := next_ends (A := StepMay ans l s) (fun a c ha => ha) hok hc.nodup hn
    have hacts : ∀ c, Acts (StepMay ans l s) s.config c → c.world.srv.xferAt p = none := by
      intro c hacts
      refine hacts.keeps (I := fun c => c.world.srv.xferAt p = none) ?_ hnone
      intro a c₁ c₂ ha hperf hI
      apply hperf.unborn _ p hI
      rintro y rfl
      obtain ⟨-, -, -, hl', -⟩ := ha.enroll_cases
      exact hl hl'
    generalize hr : Except.ok s' = res at hends
    cases hends with
    | fault => cases hr
    | next _ hacts' =>
        cases hr
        have hgone := hacts _ hacts'
        rw [show s'.config.world.srv.xferAt p = some x from hx] at hgone
        cases hgone
    | shut hacts' =>
        obtain ⟨w', hw', hcleared⟩ := shutdown_cleared ans (hacts'.ledger hc)
        rw [hw'] at hr
        cases hr
        rw [hcleared.xferAt] at hx
        cases hx

/-- The request that creates a transfer, and what the poller knows of the transfer then. -/
theorem Accepted.of_born {buf : RecvBuf} {size clientPid : Nat} {fds : Fd × Fd} {w w' : World}
    (h : Accepted ans buf size clientPid fds w w') (hnone : w.srv.xferAt p = none)
    (hx : w'.srv.xferAt p = some x) : ∃ req, protUnmarshalRequest buf size = some req ∧
      Created req clientPid fds.1 (req.destFd fds) x ∧
      ((req.cmd = .fileOpen ∧ (w'.Armed x ∨ ∃ n, ans.timerfdCreate n ≠ none)) ∨
        (req.cmd ≠ .fileOpen ∧ ∃ f, ⟨x.destFd, f, .xfer p⟩ ∈ w'.kern.regs)) := by
  have hlive : ¬ w.srv.Unborn w'.srv := by
    intro hunborn
    have hgone := hunborn p hnone
    rw [hx] at hgone
    cases hgone
  cases h with
  | assigned _ _ hq _ _ hsrv => exact absurd (hsrv ▸ Server.unborn_setXfer hq _) hlive
  | cancelled _ _ hq _ hworld => exact absurd (hworld ▸ Server.unborn_setXfer hq _) hlive
  | created hreq hy hborn _ hready =>
      have hp : p = w.srv.nextPtr := by
        by_contra hne
        rw [hborn.others p hne, hnone] at hx
        cases hx
      subst hp
      rw [hborn.xferAt] at hx
      cases hx
      exact ⟨_, hreq, hy, hready⟩

/-- Pointers are never taken back. -/
theorem next_nextPtr_le (hc : Ledger s.world.srv) (hok : PhaseOk s)
    (hn : next (ans, l) s = some (.ok s')) : s.world.srv.nextPtr ≤ s'.world.srv.nextPtr := by
  have hkept := Preserved.always (I := fun c => s.world.srv.nextPtr ≤ c.world.srv.nextPtr)
    (fun a c c' _ hperf hle => Nat.le_trans hle hperf.nextPtr_le)
    (fun w w' _ hcleared hle => Nat.le_trans hle (Nat.le_of_eq hcleared.nextPtr.symm))
  exact (hkept.next ⟨hc, hok, Nat.le_refl _⟩ trivial hn).inv

/-- What was done stays in the trace. -/
theorem next_trace_prefix (hc : Ledger s.world.srv) (hok : PhaseOk s)
    (hn : next (ans, l) s = some (.ok s')) : s.world.kern.trace <+: s'.world.kern.trace := by
  have hkept := Preserved.always (I := fun c => s.world.kern.trace <+: c.world.kern.trace) ?_ ?_
  · exact (hkept.next ⟨hc, hok, List.prefix_refl _⟩ trivial hn).inv
  · intro a c c' _ hperf hle
    obtain ⟨tr, htr, -⟩ := hperf.entries
    exact hle.trans ⟨tr, htr.symm⟩
  · intro w w' _ hcleared hle
    obtain ⟨tr, htr, -⟩ := hcleared.trace
    exact hle.trans ⟨tr, htr.symm⟩

/-- The invariant rule for what a transfer sees: what holds of a new transfer, and is kept
by the deeds of every step and by the expiry of a timer, holds of the transfer in every
reachable state. -/
theorem view_invariant {guard : Answers × Label → State → Prop} {V : View → Prop}
    (hdead : ∀ v, v.xfer = none → V v) (hborn : ∀ x v, Born p x v → V v)
    (hdeed : ∀ ans l s v v', guard (ans, l) s → Deed ans p v v' → V v → V v')
    (hexpired : ∀ w w', Expired p w w' → V (w.view p) → V (w'.view p))
    (hr : server.Reachable guard s) : V (s.world.view p) := by
  have hboth : server.Reachable System.always s ∧ V (s.world.view p) := by
    refine hr.invariant (I := fun s => server.Reachable System.always s ∧ V (s.world.view p)) ?_ ?_
    · intro s hinit
      exact ⟨⟨s, hinit, Relation.ReflTransGen.refl⟩, hdead _ (hinit.empty.1 p)⟩
    · rintro ⟨ans, l⟩ s s' ⟨hr, hV⟩ hg hn
      refine ⟨hr.step trivial hn, ?_⟩
      obtain ⟨hc, hok⟩ := reachable_ledger hr
      have hm := Minted.reachable hr
      by_cases hknown : p < s.world.srv.nextPtr
      · rcases next_deeds hc hm hok hn hknown with hdeeds | hexpires
        · generalize s'.world.view p = v' at hdeeds ⊢
          induction hdeeds with
          | refl => exact hV
          | tail _ hone ih => exact hdeed ans l s _ _ hg hone ih
        · exact hexpired _ _ hexpires hV
      · have hnone : s.world.srv.xferAt p = none := by
          cases hx : s.world.srv.xferAt p with
          | none => rfl
          | some x => exact absurd (hc.xfer_lt p x hx) hknown
        cases hx : s'.world.srv.xferAt p with
        | none => exact hdead _ hx
        | some x =>
            obtain ⟨-, -, -, -, -, -, hnew, -⟩ := next_born hc hm hok hn hnone hx
            exact hborn x _ hnew
  exact hboth.2

end Sendfiled
