/-
The two processing loops as sequences of actions, and what they do to a transfer.
-/
import Sendfiled.TransferActs

namespace Sendfiled

open Prog

variable {A : Action → Config → Prop} {c₀ : Config} {L : List Fd} {w : World}
  {ans : Answers} {p : Ptr} {x : ResrcXfer}

section Events

variable (hA : Permissive A) (h : Acts A c₀ ⟨L, w⟩)

include hA h

theorem wp_processTimer {t : Ptr}
    (hspeak : ∀ tm p x, w.srv.timerAt t = some tm → w.srv.xfers.find tm.txnid = some p →
      w.srv.xferAt p = some x → x.addr = tm.xferAddr → x.nbytesLeft = x.file.size →
      ∀ fd pdu c, A (.say (some p) fd pdu) c)
    (hcancel : ∀ tm p x c, w.srv.timerAt t = some tm → w.srv.xfers.find tm.txnid = some p →
      w.srv.xferAt p = some x → x.addr = tm.xferAddr → x.nbytesLeft = x.file.size →
      c.world.srv = w.srv → Attempted p x.statFd c.world.kern.trace → A (.cancel p) c)
    (hexpire : ∀ tm c, w.srv.timerAt t = some tm →
      (∀ p x, w.srv.xfers.find tm.txnid = some p → w.srv.xferAt p = some x →
        x.addr = tm.xferAddr → x.nbytesLeft = x.file.size →
        ∃ y, c.world.srv.xferAt p = some y ∧ y.defer = .cancel) → A (.expire t) c)
    {Q : Unit → World → Prop}
    (hQ : ∀ w', (∀ tm p, w.srv.timerAt t = some tm → w.srv.xfers.find tm.txnid = some p →
      w'.view p = w.view p ∨ Expired p w w') → Acts A c₀ ⟨L, w'⟩ → Q () w') :
    wp (processTimer ans t) Q (Faulty A c₀) w := by
  simp only [processTimer, wp_bind]
  rw [wp_getTimer]
  refine ⟨fun tm ht => ?_, fun _ => h.faulty trivial⟩
  -- erasing and deleting the timer, whatever became of the transfer
  have hdelete : ∀ w' : World, w'.srv.timerAt t = some tm →
      (∀ p x, w.srv.xfers.find tm.txnid = some p →
        w.srv.xferAt p = some x → x.addr = tm.xferAddr → x.nbytesLeft = x.file.size →
        ∃ y, w'.srv.xferAt p = some y ∧ y.defer = .cancel) →
      (∀ p, w.srv.xfers.find tm.txnid = some p → ∀ w'' : World, w''.view p = w'.view p →
        w''.srv.xferTimers = w'.srv.xferTimers.erase tm.txnid →
        w''.view p = w.view p ∨ Expired p w w'') → Acts A c₀ ⟨L, w'⟩ →
      wp (do eraseTimer tm.txnid; timerDelete ans t) Q (Faulty A c₀) w' := by
    intro w' ht' hdone hdeeds h'
    simp only [eraseTimer, wp_bind, wp_onSrv]
    refine wp_timerDelete (by exact ht') (hQ _ ?_ ?_)
    · intro tm' p ht₁ hfind
      rw [ht] at ht₁
      cases ht₁
      let s' := ({ w'.srv with xferTimers := w'.srv.xferTimers.erase tm.txnid }.release
        tm.addr).dropTimer t
      have hview : World.view p ⟨s', (w'.kern.close ans tm.ident).2⟩ = w'.view p :=
        World.view_congr rfl rfl (Kernel.historyOf_close ans tm.ident w'.kern p)
      exact hdeeds p hfind ⟨s', (w'.kern.close ans tm.ident).2⟩ hview rfl
    · have h₁ := h'.snoc (hexpire tm _ ht hdone) (.expire ans ht')
      exact Acts.quietly (w := ⟨_, _⟩) hA h₁ (List.Sublist.refl _) rfl rfl
  simp only [wp_gets]
  cases hfind : w.srv.xfers.find tm.txnid with
  | none =>
      apply hdelete w ht
      · intro p x hp
        rw [hfind] at hp
        cases hp
      · intro p hp w'' hview _
        exact Or.inl hview
      · exact h
  | some p =>
      simp only [wp_bind]
      rw [wp_getXfer]
      refine ⟨fun x hp => ?_, fun _ => h.faulty trivial⟩
      rw [wp_ite]
      refine ⟨fun hown => ?_, fun hnot => ?_⟩
      · simp only [wp_bind]
        refine wp_sendXferErr hA h
          (fun pdu => hspeak tm p x ht hfind hp hown.1 hown.2 x.statFd pdu _)
          (fun q hq => Option.some.inj hq ▸ ⟨x, hp, rfl⟩) fun _ w₁ hwrote h₁ => ?_
        have hsrv := hwrote.srv
        refine wp_deferCancel h₁ (hsrv ▸ hp)
          (hcancel tm p x _ ht hfind hp hown.1 hown.2 hsrv (hwrote.attempted rfl)) fun h₂ => ?_
        have ht₂ : (w₁.srv.cancel p x).timerAt t = some tm := by
          rw [hsrv]
          exact ht
        have hview : World.view p ⟨w₁.srv.cancel p x, w₁.kern⟩ =
            (w₁.view p).set { x with defer := .cancel } :=
          World.view_setXfer p { x with defer := .cancel } w₁
        have hwp := hdelete ⟨w₁.srv.cancel p x, w₁.kern⟩ ht₂ ?_ ?_ h₂
        · simpa only [wp_bind] using hwp
        · intro q y hq _ _ _
          rw [hfind] at hq
          cases hq
          exact ⟨{ x with defer := .cancel }, by simp [Server.cancel, Server.setXfer], rfl⟩
        · intro q hq w'' hview'' htimers
          rw [hfind] at hq
          cases hq
          rw [hview, hwrote.view] at hview''
          refine Or.inr (.intro hp ht hfind hown.2 hview'' ?_)
          rw [htimers, ← hsrv]
          rfl
      · apply hdelete w ht
        · intro q y hq hy haddr hleft
          rw [hfind] at hq
          cases hq
          rw [hp] at hy
          cases hy
          exact absurd ⟨haddr, hleft⟩ hnot
        · intro q _ w'' hview _
          exact Or.inl hview
        · exact h

theorem wp_dropResp {r : Ptr} {resp : ResrcResp} (hr : w.srv.respAt r = some resp)
    (hdrop : ∀ c, A (.dropResp r resp.xfer) c)
    {Q : Unit → World → Prop}
    (hQ : ∀ w', (∀ q, w'.view q =
        { w.view q with resp := Function.update (w.view q).resp r none }) →
      Acts A c₀ ⟨L, w'⟩ → Q () w') :
    wp (dropResp ans r) Q (Faulty A c₀) w := by
  simp only [dropResp, respFree, close, wp_bind, wp_sys, wp_pure, wp_onSrv]
  refine wp_getResp_live hr (wp_getResp_live (by exact hr) (hQ _ (fun q => ?_) ?_))
  · exact World.view_dropResp rfl rfl (Kernel.historyOf_close ans resp.statFd w.kern q)
  · have h₁ := h.snoc (hdrop _) (.dropResp ans hr)
    exact Acts.quietly (w := ⟨_, _⟩) hA h₁ (List.Sublist.refl _) rfl rfl

theorem wp_processResp {err : Bool} {r : Ptr}
    (hspeak : ∀ resp, w.srv.respAt r = some resp → ∀ fd pdu c,
      A (.say (some resp.xfer) fd pdu) c)
    (hdrop : ∀ resp, w.srv.respAt r = some resp → ∀ c, A (.dropResp r resp.xfer) c)
    {Q : Unit → World → Prop}
    (hQ : ∀ w', (∀ resp, w.srv.respAt r = some resp →
      Touched ans resp.xfer (w.view resp.xfer) (w'.view resp.xfer)) →
      Acts A c₀ ⟨L, w'⟩ → Q () w') :
    wp (processResp ans err r) Q (Faulty A c₀) w := by
  simp only [processResp, wp_bind]
  rw [wp_getResp]
  refine ⟨fun resp hr => ?_, fun _ => h.faulty trivial⟩
  have hview : (w.view resp.xfer).resp r = some resp := by
    simp [World.view, hr, Option.filter]
  have hone : ∀ w', Deed ans resp.xfer (w.view resp.xfer) (w'.view resp.xfer) →
      Acts A c₀ ⟨L, w'⟩ → Q () w' := by
    intro w' hdeed h'
    refine hQ w' (fun resp' hr' => ?_) h'
    rw [hr] at hr'
    cases hr'
    exact .single hdeed
  rw [wp_ite]
  refine ⟨fun _ => ?_, fun _ => ?_⟩
  · refine wp_dropResp hA h hr (hdrop resp hr) fun w' hdropped h' => hone w' ?_ h'
    rw [hdropped]
    exact .dropped hview
  simp only [wp_bind]
  refine wp_sendPdu hA h (hspeak resp hr _ _ _) (Or.inr ⟨r, resp, hr, rfl, rfl⟩)
    (fun q hq => Or.inr ⟨r, resp, hr, Option.some.inj hq, rfl⟩) fun sent w₁ hwrote h₁ => ?_
  have hr₁ : w₁.srv.respAt r = some resp := hwrote.srv ▸ hr
  have hsettled : (∀ e, writeResult resp.pdu w₁.kern.errno sent = .error e →
      errnoIsFatal e = true) → wp (dropResp ans r) Q (Faulty A c₀) w₁ := by
    intro hresult
    refine wp_dropResp hA h₁ hr₁ (hdrop resp hr) fun w' hdropped h' => hone w' ?_ h'
    rw [hdropped, hwrote.view]
    exact .settled hview hresult
  rw [wp_ite]
  refine ⟨fun hsent => hsettled ?_, fun hunsent => ?_⟩
  · rw [hsent]
    exact nofun
  have hfalse : sent = false := Bool.eq_false_iff.mpr hunsent
  subst hfalse
  simp only [wp_bind, wp_getErrno]
  rw [wp_ite]
  refine ⟨fun hfatal => hsettled fun e he => ?_, fun hlater => hone w₁ ?_ h₁⟩
  · cases he
    exact hfatal
  · rw [hwrote.view]
    exact .retried hview (Bool.eq_false_iff.mpr hlater)

theorem wp_discard {p : Ptr} {x : ResrcXfer} (hp : w.srv.xferAt p = some x)
    (hdiscard : A (.discard p) ⟨L, w⟩) {Q : Unit → World → Prop}
    (hQ : ∀ w', w'.view p = (w.view p).gone → Acts A c₀ ⟨L, w'⟩ → Q () w') :
    wp (preserveErrno (deleteRegisteredXfer ans p)) Q (Faulty A c₀) w := by
  rw [wp_preserveErrno]
  refine wp_deleteRegisteredXfer hp (hQ _ ?_ ?_)
  · refine World.view_gone ?_ rfl (Kernel.historyOf_dismantle ans x w.kern p)
    simp [Server.release, Server.discard, Server.dropXfer]
  · exact Acts.quietly (w := ⟨_, _⟩) hA (h.snoc hdiscard (.discard ans hp))
      (List.Sublist.refl _) (Server.quiet_release _ _) (Kernel.quiet_errno _ _)

/-- What handling an event of the transfer `p` may do in the world `w`. -/
inductive XferMay (L : List Fd) (w : World) (err : Bool) (p : Ptr) : Action → Config → Prop
  | free {a : Action} {c : Config} (ha : a.free = true) : XferMay L w err p a c
  | speak {a : Action} {c : Config} (ha : a.speaksFor p) : XferMay L w err p a c
  | move {c : Config} {x : ResrcXfer} (hp : c.world.srv.xferAt p = some x)
      (hdefer : x.defer = .none) : XferMay L w err p (.move p) c
  | ready {c : Config} {x : ResrcXfer} (hp : c.world.srv.xferAt p = some x)
      (hdefer : x.defer = .none) : XferMay L w err p (.ready p) c
  | discard {c : Config} {x : ResrcXfer} (hp : c.world.srv.xferAt p = some x)
      (hdefer : x.defer = .none) (hend : Concluded p x c.world.kern.trace) :
      XferMay L w err p (.discard p) c
  | fail {x : ResrcXfer} (hp : w.srv.xferAt p = some x) (herr : err = true)
      (hdefer : x.defer ≠ .cancel) : XferMay L w err p (.discard p) ⟨L, w⟩

theorem wp_processXfer {err : Bool} (hG : ∀ a c, XferMay L w err p a c → A a c)
    {Q : Unit → World → Prop}
    (hQ : ∀ w', Touched ans p (w.view p) (w'.view p) → Acts A c₀ ⟨L, w'⟩ → Q () w') :
    wp (processXfer ans err p) Q (Faulty A c₀) w := by
  have hsame : Q () w := hQ w .refl h
  simp only [processXfer, wp_bind]
  rw [wp_getXfer]
  refine ⟨fun x hp => ?_, fun _ => h.faulty trivial⟩
  rw [wp_ite]
  refine ⟨fun _ => hsame, fun hcancel => ?_⟩
  rw [wp_ite]
  refine ⟨fun herr => ?_, fun _ => ?_⟩
  · refine wp_discard hA h hp (hG _ _ (.fail hp herr hcancel)) fun w' hview h' => hQ w' ?_ h'
    rw [hview]
    exact .single (.errored hp hcancel)
  rw [wp_ite]
  refine ⟨fun _ => hsame, fun hready => ?_⟩
  have hnone : x.defer = .none := by
    cases hx : x.defer with
    | none => rfl
    | cancel => exact absurd hx hcancel
    | ready => exact absurd hx hready
  simp only [wp_bind]
  refine wp_transferFile hA (fun a c ha => hG a c (.speak ha)) (by decide)
    (fun c y hy hynone => hG _ c (.move hy hynone))
    (fun c y hy hynone _ => hG _ c (.ready hy hynone)) ?_ ?_ ?_ h hp hnone rfl rfl rfl
  · intro w' y hy hynone _ _ hend h'
    have hconcluded := hend.concluded hp hy fun e => World.mem_history
    refine wp_discard hA h' hy (hG _ _ (.discard hy hynone hconcluded)) fun w'' hview h'' =>
      hQ w'' ?_ h''
    rw [hview]
    exact .single (.ended hp hcancel hend)
  · intro w' y hy hynone _ _ hserved h'
    have hsame : { y with defer := .none } = y := by rw [← hynone]
    rw [hsame, World.view_set_self hy] at hserved
    simp only [if_true, wp_pure]
    rw [hsame, Server.setXfer_self hy]
    exact hQ w' (.single (.served hp hcancel hserved)) h'
  · intro w' y _ _ _ _ hserved h'
    exact hQ w' (.single (.served hp hcancel hserved)) h'

/-- The transfer an event is about. -/
def Server.Subject (s : Server) (ev : PollEvent) (p : Ptr) : Prop :=
  match ev.udata with
  | .xfer q => q = p
  | .timer t => ∃ tm, s.timerAt t = some tm ∧ s.xfers.find tm.txnid = some p
  | .resp r => ∃ resp, s.respAt r = some resp ∧ resp.xfer = p
  | .sigfd | .reqfd => False

/-- What dispatching an event may do in the world `w`. -/
inductive EventMay (L : List Fd) (w : World) (ev : PollEvent) : Action → Config → Prop
  | free {a : Action} {c : Config} (ha : a.free = true) : EventMay L w ev a c
  | xfer {p : Ptr} {err : Bool} {k : Kernel} {a : Action} {c : Config}
      (hu : ev.udata = .xfer p) (herr : err = true → ev.err = true)
      (hk : k.regs = w.kern.regs ∧ k.fds = w.kern.fds) (ha : XferMay L ⟨w.srv, k⟩ err p a c) :
      EventMay L w ev a c
  | timeout {t : Ptr} {tm : ResrcTimer} {p : Ptr} {x : ResrcXfer} {fd : Fd} {pdu : Pdu}
      {c : Config} (hu : ev.udata = .timer t) (ht : w.srv.timerAt t = some tm)
      (hfind : w.srv.xfers.find tm.txnid = some p) (hp : w.srv.xferAt p = some x)
      (haddr : x.addr = tm.xferAddr) (hleft : x.nbytesLeft = x.file.size) :
      EventMay L w ev (.say (some p) fd pdu) c
  | cancel {t : Ptr} {tm : ResrcTimer} {p : Ptr} {x : ResrcXfer} {c : Config}
      (hu : ev.udata = .timer t) (ht : w.srv.timerAt t = some tm)
      (hfind : w.srv.xfers.find tm.txnid = some p) (hp : w.srv.xferAt p = some x)
      (haddr : x.addr = tm.xferAddr) (hleft : x.nbytesLeft = x.file.size)
      (hsrv : c.world.srv = w.srv) (htold : Attempted p x.statFd c.world.kern.trace) :
      EventMay L w ev (.cancel p) c
  | expire {t : Ptr} {tm : ResrcTimer} {c : Config} (hu : ev.udata = .timer t)
      (ht : w.srv.timerAt t = some tm)
      (hdone : ∀ p x, w.srv.xfers.find tm.txnid = some p → w.srv.xferAt p = some x →
        x.addr = tm.xferAddr → x.nbytesLeft = x.file.size →
        ∃ y, c.world.srv.xferAt p = some y ∧ y.defer = .cancel) :
      EventMay L w ev (.expire t) c
  | answer {r : Ptr} {resp : ResrcResp} {fd : Fd} {pdu : Pdu} {c : Config}
      (hu : ev.udata = .resp r) (hr : w.srv.respAt r = some resp) :
      EventMay L w ev (.say (some resp.xfer) fd pdu) c
  | dropResp {r : Ptr} {resp : ResrcResp} {c : Config}
      (hu : ev.udata = .resp r) (hr : w.srv.respAt r = some resp) :
      EventMay L w ev (.dropResp r resp.xfer) c

theorem wp_dispatchEvent {ev : PollEvent} (hG : ∀ a c, EventMay L w ev a c → A a c)
    {Q : Dispatch → World → Prop}
    (hQ : ∀ r w', (∀ p, w.srv.Subject ev p →
        Touched ans p (w.view p) (w'.view p) ∨ Expired p w w' ∧ r = .handled) →
      Acts A c₀ ⟨L, w'⟩ → Q r w') :
    wp (dispatchEvent ans ev) Q (Faulty A c₀) w := by
  simp only [dispatchEvent, wp_bind]
  -- the poller's flags, and what reading the signal descriptor does to the clock
  have hget : wp (syspollGet ans ev) (fun events w' => ∃ k, w' = ⟨w.srv, k⟩ ∧ w.kern.Quiet k ∧
      Acts A c₀ ⟨L, ⟨w.srv, k⟩⟩ ∧
      (events.error = true → ev.err = true ∨ ev.udata = .sigfd)) (Faulty A c₀) w := by
    unfold syspollGet
    rw [wp_ite]
    refine ⟨fun herr => ⟨_, rfl, Kernel.Quiet.refl _, h, fun _ => Or.inl herr⟩, fun _ => ?_⟩
    rw [wp_ite]
    refine ⟨fun hsig => ?_, fun _ => ⟨_, rfl, Kernel.Quiet.refl _, h, fun hc => by cases hc⟩⟩
    simp only [wp_bind, wp_sys, wp_pure]
    exact ⟨_, rfl, Kernel.quiet_succeed _, h.kernQuiet hA (Kernel.quiet_succeed _),
      fun _ => Or.inr hsig.2⟩
  refine wp_mono hget ?_ fun _ _ he => he
  rintro events _ ⟨k, rfl, hk, h₁, herr⟩
  have hview : ∀ q, World.view q ⟨w.srv, k⟩ = w.view q := fun q =>
    World.view_congr rfl rfl (by rw [hk.trace])
  have hsame : ∀ r, Q r ⟨w.srv, k⟩ := by
    intro r
    refine hQ r _ (fun q _ => Or.inl ?_) h₁
    rw [hview]
  rw [wp_ite]
  refine ⟨fun _ => hsame _, fun _ => ?_⟩
  simp only [wp_bind]
  have hident : wp (identOf ev.udata) (fun _ w' => w' = ⟨w.srv, k⟩) (Faulty A c₀)
      ⟨w.srv, k⟩ := by
    cases ev.udata with
    | sigfd => rfl
    | reqfd => rfl
    | xfer p =>
        simp only [identOf, wp_bind, wp_pure]
        exact (wp_getXfer p).mpr ⟨fun _ _ => rfl, fun _ => h₁.faulty trivial⟩
    | timer t =>
        simp only [identOf, wp_bind, wp_pure]
        exact (wp_getTimer t).mpr ⟨fun _ _ => rfl, fun _ => h₁.faulty trivial⟩
    | resp r =>
        simp only [identOf, wp_bind, wp_pure]
        exact (wp_getResp r).mpr ⟨fun _ _ => rfl, fun _ => h₁.faulty trivial⟩
  refine wp_mono hident ?_ fun _ _ he => he
  rintro ident _ rfl
  simp only [wp_gets]
  rw [wp_ite]
  refine ⟨fun _ => ?_, fun _ => ?_⟩
  · rw [wp_ite]
    refine ⟨fun _ => hsame _, fun _ => ?_⟩
    simp only [wp_bind, wp_assert, wp_pure]
    exact ⟨fun _ => hsame _, fun _ => h₁.faulty trivial⟩
  · simp only [wp_bind, wp_pure]
    cases hu : ev.udata with
    | sigfd => exact h₁.faulty trivial
    | reqfd => exact h₁.faulty trivial
    | timer t =>
        apply wp_processTimer hA h₁
        · intro tm p x ht hfind hp haddr hleft fd pdu c
          exact hG _ c (.timeout hu ht hfind hp haddr hleft)
        · intro tm p x c ht hfind hp haddr hleft hsrv htold
          exact hG _ c (.cancel hu ht hfind hp haddr hleft hsrv htold)
        · intro tm c ht hdone
          exact hG _ c (.expire hu ht hdone)
        · intro w' hdeeds h'
          refine hQ _ w' (fun p hp => ?_) h'
          simp only [Server.Subject, hu] at hp
          obtain ⟨tm, ht, hfind⟩ := hp
          rcases hdeeds tm p ht hfind with hsame | hexpired
          · rw [hsame, hview p]
            exact Or.inl .refl
          · obtain ⟨hx, ht, hfind, hleft, hview', htimers⟩ := hexpired
            rw [hview p] at hview'
            exact Or.inr ⟨.intro hx ht hfind hleft hview' htimers, rfl⟩
    | resp r =>
        apply wp_processResp hA h₁
        · intro resp hr fd pdu c
          exact hG _ c (.answer hu hr)
        · intro resp hr c
          exact hG _ c (.dropResp hu hr)
        · intro w' hdeeds h'
          refine hQ _ w' (fun p hp => ?_) h'
          simp only [Server.Subject, hu] at hp
          obtain ⟨resp, hr, rfl⟩ := hp
          rw [← hview resp.xfer]
          exact Or.inl (hdeeds resp hr)
    | xfer p =>
        apply wp_processXfer hA h₁
        · intro a c ha
          refine hG a c (.xfer hu (fun he => ?_) ⟨hk.regs, hk.fds⟩ ha)
          rcases herr he with herr | hsig
          · exact herr
          · rw [hu] at hsig
            cases hsig
        · intro w' hdeeds h'
          refine hQ _ w' (fun q hq => ?_) h'
          simp only [Server.Subject, hu] at hq
          subst hq
          rw [← hview p]
          exact Or.inl hdeeds

omit hA h in
/-- Dispatching an event concerns the transfer the event is about. -/
theorem EventMay.away {ev : PollEvent} {a : Action} {c : Config} (ha : EventMay L w ev a c)
    (hp : ¬ w.srv.Subject ev p) : a.concerns ≠ some p := by
  intro hconc
  apply hp
  unfold Server.Subject
  cases ha with
  | free ha =>
      rw [Action.concerns_of_free ha] at hconc
      cases hconc
  | xfer hu _ _ ha =>
      rw [hu]
      cases ha with
      | free ha =>
          rw [Action.concerns_of_free ha] at hconc
          cases hconc
      | speak ha => exact Option.some.inj ((Action.concerns_of_speaksFor ha).symm.trans hconc)
      | move | ready | discard | fail => exact Option.some.inj hconc
  | timeout hu ht hfind =>
      rw [hu]
      cases hconc
      exact ⟨_, ht, hfind⟩
  | cancel hu ht hfind =>
      rw [hu]
      cases hconc
      exact ⟨_, ht, hfind⟩
  | expire => cases hconc
  | answer hu hr | dropResp hu hr =>
      rw [hu]
      exact ⟨_, hr, Option.some.inj hconc⟩

end Events

section Deferred

/-- What the secondary loop may do while it visits the transfer `p`. -/
inductive DeferMay (p : Ptr) : Action → Config → Prop
  | free {a : Action} {c : Config} (ha : a.free = true) : DeferMay p a c
  | speak {a : Action} {c : Config} (ha : a.speaksFor p) : DeferMay p a c
  | move {x : ResrcXfer} {c : Config} (hp : c.world.srv.xferAt p = some x)
      (hdefer : x.defer = .ready) : DeferMay p (.move p) c
  | release {c : Config} : DeferMay p (.release p) c
  | bury {x : ResrcXfer} {c : Config} (hp : c.world.srv.xferAt p = some x)
      (hend : x.defer = .cancel ∨ Concluded p x c.world.kern.trace) : DeferMay p (.bury p) c

theorem DeferMay.away {q : Ptr} {a : Action} {c : Config} (ha : DeferMay p a c) (hq : q ≠ p) :
    a.concerns ≠ some q := by
  intro hconc
  apply hq
  cases ha with
  | free ha =>
      rw [Action.concerns_of_free ha] at hconc
      cases hconc
  | speak ha => exact Option.some.inj (hconc.symm.trans (Action.concerns_of_speaksFor ha))
  | move | release | bury => exact (Option.some.inj hconc).symm

/-- The entries before index `i` have been visited and stay deferred. -/
structure Visited (i : Nat) (s : Server) : Prop where
  nodup : s.deferredXfers.Nodup
  le : i ≤ s.deferredXfers.length
  ready : ∀ j < i, ∃ q y, s.deferredXfers[j]? = some q ∧ s.xferAt q = some y ∧
    y.defer = .ready

variable {i : Nat} {s s' : Server}

/-- Removing the entry at `i` keeps the entries before it. -/
theorem Visited.remove (h : Visited i s) (hi : s.deferredXfers[i]? = some p)
    (hds : s'.deferredXfers = s.deferredXfers.swapRemove i)
    (hxs : ∀ q ≠ p, s'.xferAt q = s.xferAt q) : Visited i s' := by
  obtain ⟨hlt, -⟩ := List.getElem?_eq_some_iff.mp hi
  have hlen := List.length_swapRemove hi
  refine ⟨hds ▸ List.nodup_swapRemove h.nodup hi, by rw [hds]; omega, ?_⟩
  intro j hj
  obtain ⟨q, y, hq, hy, hready⟩ := h.ready j hj
  have hne : q ≠ p := by
    rintro rfl
    have hjlen : j < s.deferredXfers.length := by omega
    have heq := (List.getElem?_inj hjlen h.nodup).mp (hq.trans hi.symm)
    omega
  refine ⟨q, y, ?_, (hxs q hne).trans hy, hready⟩
  rw [hds, List.getElem?_swapRemove_lt hj hlt, hq]

/-- Passing the entry at `i`, which stays deferred. -/
theorem Visited.pass (h : Visited i s) (hi : s.deferredXfers[i]? = some p)
    {x : ResrcXfer} (hp : s'.xferAt p = some x) (hx : x.defer = .ready)
    (hds : s'.deferredXfers = s.deferredXfers)
    (hxs : ∀ q ≠ p, s'.xferAt q = s.xferAt q) : Visited (i + 1) s' := by
  obtain ⟨hlt, -⟩ := List.getElem?_eq_some_iff.mp hi
  refine ⟨hds ▸ h.nodup, by rw [hds]; omega, ?_⟩
  intro j hj
  rw [hds]
  by_cases hji : j = i
  · exact ⟨p, x, hji ▸ hi, hp, hx⟩
  · obtain ⟨q, y, hq, hy, hready⟩ := h.ready j (by omega)
    by_cases hqp : q = p
    · exact ⟨p, x, hqp ▸ hq, hp, hx⟩
    · exact ⟨q, y, hq, (hxs q hqp).trans hy, hready⟩

/-- One round of the secondary loop: whether the entry `p` at index `i` stays. -/
def visitDeferred (ans : Answers) (i : Nat) (p : Ptr) : M Bool := do
  let x ← getXfer p
  match x.defer with
  | .cancel => do
      undeferXfer i p
      deleteRegisteredXfer ans p
      pure false
  | .ready => do
      if ← transferFile ans p then
        let x' ← getXfer p
        if x'.defer = .none then
          undeferXfer i p
          pure false
        else pure true
      else
        undeferXfer i p
        deleteRegisteredXfer ans p
        pure false
  | .none => halt (.assertion .deferredNotNone)

/-- The loop takes one round after the other. -/
theorem wp_deferredLoop_succ {fuel : Nat} {Q : Unit → World → Prop} {E : Fault → World → Prop} :
    wp (deferredLoop ans (fuel + 1) i) Q E w ↔
      match w.srv.deferredXfers[i]? with
      | none => Q () w
      | some p => wp (visitDeferred ans i p) (fun stays w' =>
          wp (deferredLoop ans fuel (if stays then i + 1 else i)) Q E w') E w := by
  simp only [deferredLoop, wp_bind, wp_gets]
  cases w.srv.deferredXfers[i]? with
  | none => rfl
  | some p =>
      simp only [visitDeferred, wp_bind]
      apply wp_congr
      intro x w'
      cases x.defer with
      | none => rfl
      | cancel => simp only [wp_bind, wp_pure, Bool.false_eq_true, if_false]
      | ready =>
          simp only [wp_bind]
          apply wp_congr
          intro b w''
          cases b with
          | false => simp only [Bool.false_eq_true, if_false, wp_bind, wp_pure]
          | true =>
              simp only [if_true, wp_bind]
              apply wp_congr
              intro x' w₃
              split
              · simp only [wp_bind, wp_pure, Bool.false_eq_true, if_false]
              · simp only [wp_pure, if_true]

section Visit

variable (hA : Permissive A) (hG : ∀ a c, DeferMay p a c → A a c) (h : Acts A c₀ ⟨L, w⟩)
  (hi : w.srv.deferredXfers[i]? = some p)

include hA hG h hi

/-- Take a deferred transfer out of the list and delete it. -/
theorem wp_bury (hp : w.srv.xferAt p = some x)
    (hend : x.defer = .cancel ∨ Concluded p x w.kern.trace) {Q : Unit → World → Prop}
    (hQ : ∀ w', w'.srv.deferredXfers = w.srv.deferredXfers.swapRemove i →
      (∀ q ≠ p, w'.srv.xferAt q = w.srv.xferAt q) → w'.view p = (w.view p).gone →
      Acts A c₀ ⟨L, w'⟩ → Q () w') :
    wp (undeferXfer i p) (fun _ w' => wp (deleteRegisteredXfer ans p) Q (Faulty A c₀) w')
      (Faulty A c₀) w := by
  refine wp_undeferXfer hp ?_
  refine wp_deleteRegisteredXfer (x := { x with defer := .none })
    (by simp [Server.setXfer]) ?_
  refine hQ _ rfl (fun q hq => ?_) ?_ ?_
  · simp [Server.release, Server.discard, Server.dropXfer, Server.setXfer, Server.unlist, hq]
  · refine World.view_gone ?_ rfl (Kernel.historyOf_dismantle ans _ w.kern p)
    simp [Server.release, Server.discard, Server.dropXfer]
  · have hburied := h.snoc (hG _ _ (.bury hp hend)) (.bury ans hi hp)
    refine Acts.quietly (w := ⟨_, _⟩) hA hburied (List.Sublist.refl _) ?_ rfl
    simp [Server.Quiet, Server.release, Server.discard, Server.dropXfer, Server.setXfer,
      Server.unlist]

/-- A round removes the entry from the list or leaves the transfer ready. -/
theorem wp_visitDeferred {Q : Bool → World → Prop}
    (hgone : ∀ w', w'.srv.deferredXfers = w.srv.deferredXfers.swapRemove i →
      (∀ q ≠ p, w'.srv.xferAt q = w.srv.xferAt q) →
      Deed ans p (w.view p) (w'.view p) → Acts A c₀ ⟨L, w'⟩ → Q false w')
    (hstays : ∀ w' x, w'.srv.xferAt p = some x → x.defer = .ready →
      w'.srv.deferredXfers = w.srv.deferredXfers →
      (∀ q ≠ p, w'.srv.xferAt q = w.srv.xferAt q) →
      Deed ans p (w.view p) (w'.view p) → Acts A c₀ ⟨L, w'⟩ → Q true w') :
    wp (visitDeferred ans i p) Q (Faulty A c₀) w := by
  simp only [visitDeferred, wp_bind]
  rw [wp_getXfer]
  refine ⟨fun x hp => ?_, fun _ => h.faulty trivial⟩
  cases hdefer : x.defer with
  | none => exact h.faulty trivial
  | cancel =>
      simp only [wp_bind, wp_pure]
      refine wp_bury hA hG h hi hp (Or.inl hdefer) fun w' hds hxs hview h' => ?_
      refine hgone w' hds hxs ?_ h'
      rw [hview]
      exact .buried hp hdefer
  | ready =>
      have hcancel : x.defer ≠ .cancel := by
        rw [hdefer]
        decide
      simp only [wp_bind]
      refine wp_transferFile hA (fun a c ha => hG a c (.speak ha)) (by decide)
        (fun c y hy hready => hG _ c (.move hy hready))
        (fun _ _ _ _ hc => by cases hc) ?_ ?_ ?_ h hp hdefer rfl rfl rfl
      · intro w₁ y hy _ hds hxs hend h₁
        simp only [Bool.false_eq_true, if_false, wp_bind, wp_pure]
        have hconcluded := hend.concluded hp hy fun e => World.mem_history
        refine wp_bury hA hG h₁ (hds ▸ hi) hy (Or.inr hconcluded) fun w₂ hds₂ hxs₂ hview h₂ => ?_
        refine hgone w₂ (hds ▸ hds₂) (fun q hq => (hxs₂ q hq).trans (hxs q hq)) ?_ h₂
        rw [hview]
        exact .ended hp hcancel hend
      · intro w₁ y hy hready hds hxs hserved h₁
        simp only [if_true, wp_bind]
        refine wp_getXfer_live (x := { y with defer := .none }) (by simp [Server.setXfer]) ?_
        simp only [if_true, wp_bind, wp_pure]
        refine wp_undeferXfer (x := { y with defer := .none }) (by simp [Server.setXfer]) ?_
        have hrel := h₁.snoc (hG _ _ .release) (.release (hds ▸ hi) hy hready)
        have hworld : ((w₁.srv.setXfer p { y with defer := .none }).unlist i).setXfer p
            { y with defer := .none } =
            (w₁.srv.unlist i).setXfer p { y with defer := .none } := by
          simp [Server.setXfer, Server.unlist]
        simp only [hworld]
        refine hgone _ ?_ (fun q hq => ?_) ?_ hrel
        · simp only [Server.setXfer, Server.unlist, hds]
        · simpa [Server.setXfer, Server.unlist, hq] using hxs q hq
        · have hview : World.view p ⟨(w₁.srv.unlist i).setXfer p { y with defer := .none },
              w₁.kern⟩ = (w₁.view p).set { y with defer := .none } :=
            World.view_setXfer p { y with defer := .none } ⟨w₁.srv.unlist i, w₁.kern⟩
          rw [hview]
          exact .served hp hcancel hserved
      · intro w₁ y hy hready hds hxs hserved h₁
        simp only [if_true, wp_bind]
        refine wp_getXfer_live hy ?_
        simp only [hready, reduceCtorEq, if_false, wp_pure]
        exact hstays w₁ y hy hready (hds rfl) hxs (.served hp hcancel hserved) h₁

end Visit

/-- A round does nothing but what the pass may do for its transfer. -/
theorem wp_visitDeferred_acts (hi : w.srv.deferredXfers[i]? = some p) :
    wp (visitDeferred ans i p) (fun _ w' => Acts (DeferMay p) ⟨[], w⟩ ⟨[], w'⟩)
      (Faulty (DeferMay p) ⟨[], w⟩) w :=
  wp_visitDeferred (fun _ _ ha => .free ha) (fun _ _ ha => ha) Acts.refl hi
    (fun _ _ _ _ h => h) fun _ _ _ _ _ _ _ h => h

/-- What the rest of a pass does to the transfers: those to come are visited once, the others
are left alone. -/
def Attended (ans : Answers) (i : Nat) (w w' : World) : Prop :=
  Ledger w.srv → Minted w → ∀ q < w.srv.nextPtr, Touched ans q (w.view q) (w'.view q) ∧
    (q ∉ w.srv.deferredXfers.drop i → w'.view q = w.view q)

/-- A round does its deed to the transfer it visits and none to the others. -/
theorem Attended.head {w₁ w' : World} {j : Nat} (hrest : Attended ans j w₁ w')
    (hdeed : Deed ans p (w.view p) (w₁.view p)) (hacts : Acts (DeferMay p) ⟨L, w⟩ ⟨L, w₁⟩)
    (hi : w.srv.deferredXfers[i]? = some p)
    (hpassed : p ∉ w₁.srv.deferredXfers.drop j)
    (hlist : ∀ q ∈ w₁.srv.deferredXfers.drop j, q ∈ w.srv.deferredXfers.drop i) :
    Attended ans i w w' := by
  intro hc hm q hq
  have hkept := hacts.keeps (I := fun c => Ledger c.world.srv ∧ Minted c.world ∧
    w.srv.nextPtr ≤ c.world.srv.nextPtr)
    (fun a c c' _ hperf hI => ⟨hI.1.performs hperf, hI.2.1.performs hI.1 hperf,
      Nat.le_trans hI.2.2 hperf.nextPtr_le⟩) ⟨hc, hm, Nat.le_refl _⟩
  obtain ⟨hlater, hsame⟩ := hrest hkept.1 hkept.2.1 q (Nat.lt_of_lt_of_le hq hkept.2.2)
  by_cases hqp : q = p
  · subst hqp
    rw [hsame hpassed]
    refine ⟨.single hdeed, fun hnot => absurd ?_ hnot⟩
    obtain ⟨hlt, rfl⟩ := List.getElem?_eq_some_iff.mp hi
    exact List.mem_drop_iff_getElem.mpr ⟨0, by omega, by simp⟩
  · have hframe : w₁.view q = w.view q :=
      (hacts.mono fun a c ha => ha.away hqp).view hc hm hq
    rw [hframe] at hlater hsame
    exact ⟨hlater, fun hnot => hsame fun hin => hnot (hlist q hin)⟩

/-- The loop visits every entry; those it leaves in the list are ready. -/
theorem wp_deferredLoop (hG : ∀ p a c, DeferMay p a c → A a c) (fuel : Nat)
    (h : Acts A c₀ ⟨L, w⟩) (hvisited : Visited i w.srv)
    (hfuel : w.srv.deferredXfers.length < i + fuel) {Q : Unit → World → Prop}
    (hQ : ∀ w', (∀ q ∈ w'.srv.deferredXfers, ∃ y, w'.srv.xferAt q = some y ∧
      y.defer = .ready) → Attended ans i w w' → Acts A c₀ ⟨L, w'⟩ → Q () w') :
    wp (deferredLoop ans fuel i) Q (Faulty A c₀) w := by
  induction fuel generalizing i w with
  | zero =>
      have hle := hvisited.le
      omega
  | succ fuel ih =>
      rw [wp_deferredLoop_succ]
      cases hi : w.srv.deferredXfers[i]? with
      | none =>
          refine hQ w (fun q hq => ?_) (fun _ _ q _ => ⟨.refl, fun _ => rfl⟩) h
          obtain ⟨j, hj⟩ := List.mem_iff_getElem?.mp hq
          obtain ⟨hjlt, -⟩ := List.getElem?_eq_some_iff.mp hj
          have hlen := List.getElem?_eq_none_iff.mp hi
          obtain ⟨q', y, hq', hy, hready⟩ := hvisited.ready j (by omega)
          rw [hj] at hq'
          cases hq'
          exact ⟨y, hy, hready⟩
      | some p =>
          have hlen := List.length_swapRemove hi
          have hnodup : (w.srv.deferredXfers.drop i).Nodup :=
            hvisited.nodup.sublist (List.drop_sublist ..)
          refine wp_mono (wp_visitDeferred (A := DeferMay p) (L := L)
            (fun a c ha => .free ha) (fun a c ha => ha) Acts.refl hi
            (Q := fun stays w₁ => wp (deferredLoop ans fuel (if stays then i + 1 else i)) Q
              (Faulty A c₀) w₁) ?_ ?_) (fun _ _ hwp => hwp) ?_
          · intro w₁ hds hxs hdeed hacts
            have hperm := List.drop_swapRemove_perm hi
            have hnodup' := hperm.nodup_iff.mp hnodup
            simp only [Bool.false_eq_true, if_false]
            refine ih (h.trans (hacts.mono (hG p))) (hvisited.remove hi hds hxs)
              (by rw [hds]; omega) fun w' hall hrest h' => hQ w' hall ?_ h'
            refine hrest.head hdeed hacts hi ?_ fun q hq => ?_
            · rw [hds]
              exact (List.nodup_cons.mp hnodup').1
            · rw [hds] at hq
              exact hperm.mem_iff.mpr (List.mem_cons_of_mem _ hq)
          · intro w₁ y hy hready hds hxs hdeed hacts
            obtain ⟨hlt, hget⟩ := List.getElem?_eq_some_iff.mp hi
            rw [← List.getElem_cons_drop hlt, hget] at hnodup
            simp only [if_true]
            refine ih (h.trans (hacts.mono (hG p))) (hvisited.pass hi hy hready hds hxs)
              (by rw [hds]; omega) fun w' hall hrest h' => hQ w' hall ?_ h'
            refine hrest.head hdeed hacts hi ?_ fun q hq => ?_
            · rw [hds]
              exact (List.nodup_cons.mp hnodup).1
            · rw [hds] at hq
              rw [← List.getElem_cons_drop hlt]
              exact List.mem_cons_of_mem _ hq
          · intro e w₁ hfaulty
            exact hfaulty.trans h (hG p)

theorem wp_processDeferred (hG : ∀ p a c, DeferMay p a c → A a c)
    (h : Acts A c₀ ⟨L, w⟩) (hnodup : w.srv.deferredXfers.Nodup) {Q : Unit → World → Prop}
    (hQ : ∀ w', (∀ q ∈ w'.srv.deferredXfers, ∃ y, w'.srv.xferAt q = some y ∧
      y.defer = .ready) → Attended ans 0 w w' → Acts A c₀ ⟨L, w'⟩ → Q () w') :
    wp (processDeferred ans) Q (Faulty A c₀) w := by
  simp only [processDeferred, wp_bind, wp_gets]
  exact wp_deferredLoop hG _ h ⟨hnodup, by omega, by omega⟩ (by omega) hQ

end Deferred

end Sendfiled
