/-
The life of a pending response.  From the call that holds a message back until the event
that frees it, the response owns a descriptor that stays open and registered, as long as every
SEND brings its destination; it is freed once, with that descriptor closed once, when the
message went out or the channel failed.
-/
import Sendfiled.Guards
import Sendfiled.Closes
import Sendfiled.Records
import Sendfiled.Responses
import Sendfiled.Refusals

namespace Sendfiled

open Prog Transition

variable {ans : Answers} {l : Label} {s s' : State} {a : Action} {c c' : Config} {p r : Ptr}
  {resp : ResrcResp} {f : OpenFile} {w w' : World} {fd : Fd}

/-- An action that does not free a pending response leaves it pending. -/
theorem World.Retains.performs {good : Fd → Prop} (h : c.world.Retains r resp f)
    (hgood : good resp.statFd) (hp : Performs a c c') (hm : Minted c.world)
    (hd : Descriptors good c) (ha : ∀ q, a ≠ .dropResp r q) : c'.world.Retains r resp f := by
  have hlt := (hm.resp r resp h.live).1
  have hlive : c'.world.srv.respAt r = some resp := by
    rcases hp.respAt_cases with ⟨hsame, -⟩ | ⟨new, -, hset, -⟩ | ⟨-, hset⟩ |
      ⟨r', resp', rfl, hr', hset⟩
    · rw [hsame]
      exact h.live
    · rw [hset, Function.update_of_ne (Nat.ne_of_lt hlt)]
      exact h.live
    · rw [hset, Function.update_of_ne (Nat.ne_of_lt hlt)]
      exact h.live
    · rw [hset, Function.update_of_ne ?_]
      · exact h.live
      · rintro rfl
        exact ha _ rfl
  have hspared := Descriptors.spares hp hd (o := .resp r) hgood ⟨resp, h.live, rfl⟩
    ⟨resp, hlive, rfl⟩
  exact ⟨hlive, hspared.lookup.trans h.file, hspared.regs _ h.reg rfl h.file⟩

/-- Every pending response has a descriptor of its own, open and registered for it. -/
structure Retaining (c : Config) : Prop where
  descriptors : Descriptors (0 ≤ ·) c
  minted : Minted c.world
  resp : ∀ r resp, c.world.srv.respAt r = some resp → ∃ f, c.world.Retains r resp f

theorem Retaining.performs (h : Retaining c) (hc : Ledger c.world.srv)
    (ha : Descriptors.Entitled (0 ≤ ·) a c) (hp : Performs a c c') : Retaining c' where
  descriptors := h.descriptors.performs (fun _ hgood => hgood) ha hp
  minted := h.minted.performs hc hp
  resp := by
    intro r resp hr
    have hold : c.world.srv.respAt r = some resp → (∀ q, a ≠ .dropResp r q) →
        ∃ f, c'.world.Retains r resp f := by
      intro hlive ha
      obtain ⟨f, hf⟩ := h.resp r resp hlive
      have hgood := h.descriptors.nonneg _ (Kernel.mem_of_lookup hf.file)
      exact ⟨f, hf.performs hgood hp h.minted h.descriptors ha⟩
    rcases hp.respAt_cases with ⟨hsame, -⟩ | ⟨new, rfl, hset, -⟩ | ⟨rfl, hset⟩ |
      ⟨r', resp', rfl, hr', hset⟩
    · refine hold (hsame ▸ hr) ?_
      rintro q rfl
      cases hp with
      | dropResp _ hr' =>
          have hnone : (Function.update _ _ _ : Ptr → Option ResrcResp) r = some resp := hr
          rw [Function.update_self] at hnone
          cases hnone
    · by_cases hnew : r = c.world.srv.nextPtr
      · subst hnew
        rw [hset, Function.update_self] at hr
        cases hr
        cases hp with
        | addResp _ hf =>
            exact ⟨_, hset ▸ Function.update_self .., hf,
              List.mem_append_right _ List.mem_cons_self⟩
      · rw [hset, Function.update_of_ne hnew] at hr
        exact hold hr (by simp)
    · rw [hset] at hr
      exact hold (of_update_none hr).2 (by simp)
    · rw [hset] at hr
      obtain ⟨hne, hlive⟩ := of_update_none hr
      refine hold hlive fun q heq => hne ?_
      injection heq with heq
      exact heq.symm

theorem retaining_kept : Kept (Descriptors.Entitled (0 ≤ ·)) Brings Retaining where
  grants := fun _ _ _ hg _ hok _ _ _ ha => ha.entitled hg hok
  acts := fun _ _ _ hc ha hp h => h.performs hc ha hp

theorem retaining_initial (s : State) (h : Initial s) : Retaining s.config := by
  refine ⟨h.descriptors _, Minted.initial h, fun r resp hr => ?_⟩
  have hnone := h.empty.2.2 r
  rw [show s.config.world = s.world from rfl, hnone] at hr
  cases hr

/-- As long as the server runs, its pending responses are held. -/
theorem reachable_retaining (hr : server.Reachable Brings s) (hrun : s.phase ≠ .stopped) :
    Retaining s.config := by
  rcases retaining_kept.reachable retaining_initial hr with hs | hs
  · exact hs.inv
  · exact absurd hs.1 hrun

/-- Why a pending response is freed: the poller reports an error on its descriptor, or a
write after which nothing is left to be done, given by what was logged. -/
def Settles (err : Bool) (resp : ResrcResp) (tr : List Effect) : Prop :=
  (err = true ∧ tr = []) ∨
    ∃ result, Final resp.pdu result ∧ tr = [.sent (some resp.xfer) resp.statFd resp.pdu result]

/-- The message still cannot be written. -/
def Kernel.postpones (ans : Answers) (resp : ResrcResp) (k : Kernel) : Bool :=
  match (k.write ans (some resp.xfer) resp.statFd resp.pdu).1 with
  | .error e => !errnoIsFatal e
  | .ok _ => false

/-- How an event of a pending response ends: the message still cannot be written, or the
response is freed and its descriptor closed. -/
inductive RespEnds (ans : Answers) (err : Bool) (r : Ptr) (resp : ResrcResp) (w : World) :
    World → Prop
  | kept {k : Kernel} {e : Errno} (he : errnoIsFatal e = false)
      (hk : (w.kern.log (.sent (some resp.xfer) resp.statFd resp.pdu (.error e))).Quiet k) :
      RespEnds ans err r resp w ⟨w.srv, k⟩
  | freed {k : Kernel} {tr : List Effect} (hfds : k.fds = w.kern.fds)
      (hregs : k.regs = w.kern.regs) (htrace : k.trace = w.kern.trace ++ tr)
      (htr : Settles err resp tr) (hdue : err = true ∨ w.kern.postpones ans resp = false) :
      RespEnds ans err r resp w
        ⟨(w.srv.release resp.addr).dropResp r, (k.close ans resp.statFd).2⟩

theorem wp_processResp_ends {err : Bool} (hr : w.srv.respAt r = some resp) :
    wp (processResp ans err r) (fun _ w' => RespEnds ans err r resp w w')
      (fun e _ => ans.Torn e) w := by
  -- freeing the response after whatever was written
  have hdrop : ∀ {k : Kernel} {tr : List Effect}, k.fds = w.kern.fds → k.regs = w.kern.regs →
      k.trace = w.kern.trace ++ tr → Settles err resp tr →
      (err = true ∨ w.kern.postpones ans resp = false) →
      wp (dropResp ans r) (fun _ w' => RespEnds ans err r resp w w')
        (fun e _ => ans.Torn e) ⟨w.srv, k⟩ := by
    intro k tr hfds hregs htrace htr hdue
    simp only [dropResp, respFree, close, wp_bind, wp_sys, wp_pure, wp_onSrv]
    refine wp_getResp_live (by exact hr) (wp_getResp_live (by exact hr) ?_)
    exact .freed hfds hregs htrace htr hdue
  simp only [processResp, wp_bind]
  refine wp_getResp_live hr ?_
  rw [wp_ite]
  refine ⟨fun herr => hdrop rfl rfl (List.append_nil _).symm (Or.inl ⟨herr, rfl⟩) (Or.inl herr),
    fun _ => ?_⟩
  simp only [sendPdu, wp_bind, wp_sys]
  obtain ⟨e, k, heq, he, -, hk⟩ | ⟨n, k, heq, -, hk⟩ :=
    Kernel.write_cases ans (some resp.xfer) resp.statFd resp.pdu w.kern
  · simp only [heq, wp_pure, Bool.false_eq_true, if_false, wp_bind, wp_getErrno]
    rw [wp_ite]
    refine ⟨fun hfatal => hdrop hk.fds hk.regs hk.trace (Or.inr ⟨_, ?_, rfl⟩) (Or.inr ?_),
      fun hlater => ?_⟩
    · exact Or.inr ⟨e, rfl, he ▸ hfatal⟩
    · simp [Kernel.postpones, heq, he ▸ hfatal]
    · exact .kept (he ▸ Bool.eq_false_iff.mpr hlater) hk
  · simp only [heq, wp_bind, wp_assert, wp_pure, if_true]
    refine ⟨fun hn => ?_, fun hne => ⟨rfl, fun hwhole => hne (hwhole.write heq)⟩⟩
    subst hn
    refine hdrop hk.fds hk.regs hk.trace (Or.inr ⟨_, Or.inl rfl, rfl⟩) (Or.inr ?_)
    simp [Kernel.postpones, heq]

/-- An event of a resource other than the request socket and the signal descriptor goes to
that resource. -/
theorem wp_dispatchEvent_resource {ev : PollEvent} (hsig : ev.udata ≠ .sigfd)
    {Q : Dispatch → World → Prop} {E : Fault → World → Prop}
    (hident : wp (identOf ev.udata) (fun ident w' => w' = w ∧ ident ≠ some w.srv.reqfd) E w)
    (hres : wp (processResource ans ev.err ev.udata) (fun _ w' => Q .handled w') E w) :
    wp (dispatchEvent ans ev) Q E w := by
  have hget : wp (syspollGet ans ev) (fun events w' => w' = w ∧ events.term = false ∧
      events.error = ev.err) E w := by
    unfold syspollGet
    rw [wp_ite]
    refine ⟨fun herr => ⟨rfl, rfl, herr.symm⟩, fun herr => ?_⟩
    rw [wp_ite]
    exact ⟨fun hboth => absurd hboth.2 hsig,
      fun _ => ⟨rfl, rfl, (Bool.eq_false_iff.mpr herr).symm⟩⟩
  simp only [dispatchEvent, wp_bind]
  refine wp_mono hget ?_ fun _ _ he => he
  rintro events _ ⟨rfl, hterm, herr⟩
  simp only [hterm, Bool.false_eq_true, if_false, wp_bind]
  refine wp_mono hident ?_ fun _ _ he => he
  rintro ident _ ⟨rfl, hne⟩
  simp only [wp_gets, if_neg hne, wp_bind, wp_pure, herr]
  exact hres

/-- Dispatching an event of a pending response. -/
theorem wp_dispatchEvent_resp {ev : PollEvent} (hu : ev.udata = .resp r)
    (hr : w.srv.respAt r = some resp) (hne : resp.statFd ≠ w.srv.reqfd) :
    wp (dispatchEvent ans ev) (fun d w' => d = .handled ∧ RespEnds ans ev.err r resp w w')
      (fun e _ => ans.Torn e) w := by
  apply wp_dispatchEvent_resource
  · rw [hu]
    exact Udata.noConfusion
  · simp only [hu, identOf, wp_bind, wp_pure]
    exact wp_getResp_live hr ⟨rfl, fun heq => hne (Option.some.inj heq)⟩
  · simp only [hu, processResource]
    exact wp_mono (wp_processResp_ends hr) (fun _ _ hends => ⟨trivial, hends⟩) fun _ _ he => he

/-- What handling the event of a pending response comes to. -/
theorem next_answering {garbage : Fd × Fd} {ev : PollEvent} {rest : List PollEvent}
    {o : Except Fault State} (hu : ev.udata = .resp r) (hr : w.srv.respAt r = some resp)
    (hne : resp.statFd ≠ w.srv.reqfd)
    (hn : next (ans, .event garbage) ⟨w, .events (ev :: rest)⟩ = some o) :
    (∃ e, o = .error e ∧ ans.Torn e) ∨
      ∃ w', o = .ok ⟨w', .events rest⟩ ∧ RespEnds ans ev.err r resp w w' := by
  simp only [next, Option.some.injEq] at hn
  have hwp : wp (dispatchEvent ans ev) _ _ w := wp_dispatchEvent_resp hu hr hne
  unfold settle at hn
  cases hd : dispatchEvent ans ev w with
  | fault e w₁ =>
      rw [hd] at hn
      exact Or.inl ⟨e, hn.symm, wp_fault hwp hd⟩
  | done d w₁ =>
      obtain ⟨rfl, hends⟩ := wp_done hwp hd
      rw [hd] at hn
      exact Or.inr ⟨w₁, hn.symm, hends⟩

/-- The next step handles an event of the pending response. -/
def Answering (l : Label) (s : State) (r : Ptr) : Prop :=
  ∃ garbage ev rest, l = .event garbage ∧ s.phase = .events (ev :: rest) ∧ ev.udata = .resp r

/-- The next step frees the pending response: its event is an error, or the write that is due
does not fail for the moment only. -/
def Disposing (l : Answers × Label) (s : State) (r : Ptr) (resp : ResrcResp) : Prop :=
  ∃ garbage ev rest, l.2 = .event garbage ∧ s.phase = .events (ev :: rest) ∧ ev.udata = .resp r ∧
    s.world.srv.respAt r = some resp ∧ (ev.err = true ∨ s.world.kern.postpones l.1 resp = false)

/-- Pending responses are freed by their own events only. -/
theorem StepMay.dropResp_cases {q : Ptr} (h : StepMay ans l s (.dropResp r q) c) :
    Answering l s r := by
  cases h with
  | free ha => cases ha
  | event hl hphase ha =>
      cases ha with
      | free ha => cases ha
      | xfer _ _ _ ha =>
          cases ha with
          | free ha => cases ha
          | speak ha => cases ha
      | dropResp hu => exact ⟨_, _, _, hl, hphase, hu⟩
  | request _ _ _ _ ha =>
      cases ha with
      | free ha => cases ha
  | deferred _ _ ha =>
      cases ha with
      | free ha => cases ha
      | speak ha => cases ha

/-- What is known of a pending response while a sequence of actions leaves it alone. -/
structure Spared (k : Kernel) (r : Ptr) (resp : ResrcResp) (f : OpenFile) (c : Config) : Prop where
  ledger : Ledger c.world.srv
  minted : Minted c.world
  descriptors : Descriptors (0 ≤ ·) c
  retains : c.world.Retains r resp f
  trace : ∃ tr, c.world.kern.trace = k.trace ++ tr ∧ closesOf resp.statFd tr = []

theorem Spared.performs {k : Kernel} (h : Spared k r resp f c)
    (hentitled : Descriptors.Entitled (0 ≤ ·) a c) (hp : Performs a c c')
    (ha : ∀ q, a ≠ .dropResp r q) : Spared k r resp f c' := by
  have hgood := h.descriptors.nonneg _ (Kernel.mem_of_lookup h.retains.file)
  have hkept := h.retains.performs hgood hp h.minted h.descriptors ha
  refine ⟨h.ledger.performs hp, h.minted.performs h.ledger hp,
    h.descriptors.performs (fun _ hgood => hgood) hentitled hp, hkept, ?_⟩
  obtain ⟨tr, htr, hnone⟩ := h.trace
  obtain ⟨tr', htr', hopen⟩ := hp.leavesOpen
  refine ⟨tr ++ tr', by rw [htr', htr, List.append_assoc], ?_⟩
  rw [closesOf_append, hnone, hopen _ (Kernel.mem_of_lookup hkept.file), List.append_nil]

theorem Acts.spared {A : Action → Config → Prop} {k : Kernel} (h : Acts A c c')
    (hentitled : ∀ a c, A a c → Descriptors.Entitled (0 ≤ ·) a c)
    (hA : ∀ a c, A a c → ∀ q, a ≠ .dropResp r q) (hs : Spared k r resp f c) :
    Spared k r resp f c' :=
  h.keeps (fun _ _ _ ha hp hc => hc.performs (hentitled _ _ ha) hp (hA _ _ ha)) hs

/-- The step from `s` to `s'` frees a pending response: its message went out, its channel
failed, or the poller reported an error; and its descriptor is closed. -/
def Frees (r : Ptr) (resp : ResrcResp) (l : Label) (s s' : State) : Prop :=
  s'.world.srv.respAt r = none ∧ ∃ garbage ev rest tr, l = .event garbage ∧
    s.phase = .events (ev :: rest) ∧ ev.udata = .resp r ∧ Settles ev.err resp tr ∧
    s'.world.kern.trace = s.world.kern.trace ++ tr ++ [.closed resp.statFd true]

theorem Kernel.close_open (k : Kernel) (h : k.fds.lookup fd = some f) :
    (k.close ans fd).2.trace = k.trace ++ [.closed fd true] := by
  unfold Kernel.close
  rw [h]
  rfl

/-- A step leaves a pending response pending, or it is the one that frees it. -/
theorem next_pending_resp (hr : server.Reachable Brings s) (hg : Brings (ans, l) s)
    (hn : next (ans, l) s = some (.ok s')) (hrun : s'.phase ≠ .stopped)
    (h : s.world.Retains r resp f) :
    (s'.world.Retains r resp f ∧
      ∃ tr, s'.world.kern.trace = s.world.kern.trace ++ tr ∧ closesOf resp.statFd tr = []) ∨
      Frees r resp l s s' := by
  have hra : server.Reachable System.always s := hr.mono fun _ _ _ => trivial
  obtain ⟨hledger, hok⟩ := reachable_ledger hra
  have hd := (reachable_channeled hr (running_of_next hn)).descriptors
  by_cases hevent : Answering l s r
  · obtain ⟨garbage, ev, rest, rfl, hphase, hu⟩ := hevent
    obtain ⟨w, phase⟩ := s
    subst hphase
    have hne : resp.statFd ≠ w.srv.reqfd := by
      intro heq
      cases hd.exclusive.unique (.resp r) .socket resp.statFd
        (hd.nonneg _ (Kernel.mem_of_lookup h.file)) ⟨resp, h.live, rfl⟩ heq
    obtain ⟨e, herror, -⟩ | ⟨w₁, hok', hends⟩ := next_answering hu h.live hne hn
    · cases herror
    cases hok'
    cases hends with
    | kept he hk =>
        left
        refine ⟨⟨h.live, hk.fds ▸ h.file, hk.regs ▸ h.reg⟩, _, hk.trace, rfl⟩
    | @freed k tr hfds hregs htrace htr _ =>
        right
        refine ⟨Function.update_self .., garbage, ev, rest, tr, rfl, rfl, hu, htr, ?_⟩
        rw [Kernel.close_open k (hfds ▸ h.file), htrace]
  · left
    have hends := next_ends (A := StepMay ans l s) (fun a c ha => ha) hok hledger.nodup hn
    have hstart : Spared s.world.kern r resp f s.config :=
      ⟨hledger, Minted.reachable hra, hd, h, [], (List.append_nil _).symm, rfl⟩
    generalize hres : Except.ok s' = res at hends
    cases hends with
    | fault => cases hres
    | next _ hacts =>
        cases hres
        have hspared := hacts.spared (fun a c ha => ha.entitled hg hok)
          (fun a c ha q heq => hevent (heq ▸ ha).dropResp_cases) hstart
        exact ⟨hspared.retains, hspared.trace⟩
    | shut hacts =>
        obtain ⟨a, w', hstop⟩ := settle_ok hres.symm
        cases hstop
        exact absurd rfl hrun

/-- The pointer was given out, and no response is behind it any more. -/
structure Freed (r : Ptr) (c : Config) : Prop where
  given : r < c.world.srv.nextPtr
  gone : c.world.srv.respAt r = none

theorem freed_preserved (r : Ptr) : Preserved anything System.always (Freed r) := by
  refine Preserved.always (fun a c c' _ hp h => ?_) fun w w' _ hcleared h => ?_
  · refine ⟨Nat.lt_of_lt_of_le h.given hp.nextPtr_le, ?_⟩
    rcases hp.respAt_cases with ⟨hsame, -⟩ | ⟨new, -, hset, -⟩ | ⟨-, hset⟩ |
      ⟨r', resp', -, -, hset⟩
    · rw [hsame]
      exact h.gone
    · rw [hset, Function.update_of_ne (Nat.ne_of_lt h.given)]
      exact h.gone
    · rw [hset, Function.update_of_ne (Nat.ne_of_lt h.given)]
      exact h.gone
    · rw [hset, Function.update_apply]
      split
      · rfl
      · exact h.gone
  · exact ⟨hcleared.nextPtr ▸ h.given, hcleared.respAt ▸ h.gone⟩

/-- The response is pending in `s`, and since `s₀` its descriptor was not closed. -/
def PendingSince (s₀ : State) (r : Ptr) (resp : ResrcResp) (s : State) : Prop :=
  ∃ f tr, s.world.Retains r resp f ∧ s.world.kern.trace = s₀.world.kern.trace ++ tr ∧
    closesOf resp.statFd tr = []

/-- Since `s₀` the response was pending up to the one step that freed it, and no response is
ever behind its pointer again, in a run under the guard `G`. -/
def FreedSince (G : Answers × Label → State → Prop) (s₀ : State) (r : Ptr) (resp : ResrcResp)
    (s : State) : Prop :=
  ∃ t l t', server.Steps G s₀ t ∧ PendingSince s₀ r resp t ∧ G l t ∧
    server.next l t = some (.ok t') ∧ Frees r resp l.2 t t' ∧ server.Steps G t' s ∧
    ∀ u, server.Steps System.always t' u → u.world.srv.respAt r = none

/-- The life of a pending response. -/
theorem pendingSince_or_freedSince {G : Answers × Label → State → Prop}
    (hG : ∀ l s, G l s → Brings l s) {s₀ : State} (hr : server.Reachable G s₀)
    (hlive : s₀.world.srv.respAt r = some resp) (hsteps : server.Steps G s₀ s)
    (hrun : s.phase ≠ .stopped) : PendingSince s₀ r resp s ∨ FreedSince G s₀ r resp s := by
  induction hsteps with
  | refl =>
      obtain ⟨f, hf⟩ := (reachable_retaining (hr.mono hG) hrun).resp r resp hlive
      exact Or.inl ⟨f, [], hf, (List.append_nil _).symm, rfl⟩
  | @tail t s hst hstep ih =>
      obtain ⟨⟨ans, l⟩, hg, hn⟩ := hstep
      have hrt : server.Reachable G t := hr.steps hst
      have hra : server.Reachable System.always t := hrt.mono fun _ _ _ => trivial
      rcases ih (running_of_next hn) with
        hpending | ⟨t₁, l₁, t₂, h₁, hsince, hg₁, hn₁, hfrees, h₂, hgone⟩
      · obtain ⟨f, tr, hf, htr, hnone⟩ := hpending
        rcases next_pending_resp (hrt.mono hG) (hG _ _ hg) hn hrun hf with
          ⟨hf', tr', htr', hnone'⟩ | hfrees
        · refine Or.inl ⟨f, tr ++ tr', hf', by rw [htr', htr, List.append_assoc], ?_⟩
          rw [closesOf_append, hnone, hnone', List.append_nil]
        · refine Or.inr ⟨t, (ans, l), s, hst, ⟨f, tr, hf, htr, hnone⟩, hg, hn, hfrees, .refl, ?_⟩
          intro u hu
          obtain ⟨hledger, hok⟩ := reachable_ledger (hra.step trivial hn)
          have hlt := ((Minted.reachable hra).resp r resp hf.live).1
          have hle : t.world.srv.nextPtr ≤ s.world.srv.nextPtr :=
            next_nextPtr_le (reachable_ledger hra).1 (reachable_ledger hra).2 hn
          have hfreed : Freed r s.config := ⟨Nat.lt_of_lt_of_le hlt hle, hfrees.1⟩
          exact ((freed_preserved r).steps hu ⟨hledger, hok, hfreed⟩).inv.gone
      · exact Or.inr ⟨t₁, l₁, t₂, h₁, hsince, hg₁, hn₁, hfrees, h₂.tail ⟨(ans, l), hg, hn⟩,
          hgone⟩

/-- Whatever happens, a pending response stays pending, with a descriptor that is open,
registered for it and never closed, until the one step in which its message goes out, its
channel fails or the poller reports an error.  That step frees it and closes its descriptor
once, and no response is ever behind the pointer again. -/
theorem resp_life {s₀ : State} (hr : server.Reachable Brings s₀)
    (hlive : s₀.world.srv.respAt r = some resp) (hsteps : server.Steps Brings s₀ s)
    (hrun : s.phase ≠ .stopped) :
    PendingSince s₀ r resp s ∨
      ∃ t l t', server.Steps Brings s₀ t ∧ PendingSince s₀ r resp t ∧
        server.next l t = some (.ok t') ∧ Frees r resp l.2 t t' ∧
        server.Steps Brings t' s ∧
        ∀ u, server.Steps System.always t' u → u.world.srv.respAt r = none := by
  rcases pendingSince_or_freedSince (fun _ _ h => h) hr hlive hsteps hrun with
    hpending | ⟨t, l, t', hst, hsince, -, hn, hfrees, hrest, hgone⟩
  · exact Or.inl hpending
  · exact Or.inr ⟨t, l, t', hst, hsince, hn, hfrees, hrest, hgone⟩

section Runs

open Scenario

/-- A client that keeps no copy of what it sends; where `blocked`, the notice of the end
cannot be written for the moment. -/
def leaving (blocked : Bool) : Answers :=
  { answers tenBytes with
    clientKeeps := fun _ _ => false
    write := fun _ n =>
      if blocked ∧ n = (Pdu.xferStat protXferComplete).size then .error EAGAIN else .ok n }

/-- The status channel of the transfer 0 becomes writable. -/
def answerable (r : Ptr) : PollEvent := ⟨.resp r, false, false, true⟩

/-- A SEND whose completion message is held back. -/
def heldBack : List (Answers × Label) :=
  serve (leaving false) [⟨fileRequest .send 0 0, [1, 2], some client⟩] ++
    handle (leaving true) (writable 0)

/-- What follows: the message is written after all. -/
def answered : List (Answers × Label) := handle (leaving false) (answerable 1)

/-- The completion message is pending, and what follows frees the response. -/
def heldThenAnswered (s : State) : Bool :=
  (s.world.srv.respAt 1).any (fun resp => resp.pdu == .xferStat protXferComplete) &&
    (server.run Brings answered s).any fun s' =>
      s'.phase == .waiting && (s'.world.srv.respAt 1).isNone

theorem resp_life_of_heldBack : ∃ s₀ s resp, server.Reachable Brings s₀ ∧
    s₀.world.srv.respAt 1 = some resp ∧ resp.pdu = .xferStat protXferComplete ∧
    server.Steps Brings s₀ s ∧ s.world.srv.respAt 1 = none ∧
    ∃ t l t', PendingSince s₀ 1 resp t ∧ Frees 1 resp l t t' := by
  obtain ⟨s₀, hr, hP⟩ := exists_reachable Brings 4 100 heldBack heldThenAnswered
    (by decide +kernel)
  simp only [heldThenAnswered, Bool.and_eq_true, Option.any_eq_true, beq_iff_eq,
    Option.isNone_iff_eq_none] at hP
  obtain ⟨⟨resp, hlive, hpdu⟩, s, hrun, hwait, hgone⟩ := hP
  have hsteps := System.steps_of_run hrun
  have hphase : s.phase ≠ .stopped := by rw [hwait]; exact Phase.noConfusion
  refine ⟨s₀, s, resp, hr, hlive, hpdu, hsteps, hgone, ?_⟩
  rcases resp_life hr hlive hsteps hphase with ⟨f, tr, hf, -⟩ |
    ⟨t, l, t', -, hsince, -, hfrees, -⟩
  · rw [hf.live] at hgone
    cases hgone
  · exact ⟨t, l.2, t', hsince, hfrees⟩

end Runs

end Sendfiled
