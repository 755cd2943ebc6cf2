/-
The registrations of pending responses.  Freeing a response closes its descriptor and
leaves it to the kernel to forget the registration, which it does when no other copy of
the file is left.  In runs in which that is so, the registrations of responses are
exactly the pending ones, and no event refers to a response that was freed.
-/
import Sendfiled.Pending

namespace Sendfiled

open Prog Transition

variable {ans : Answers} {l : Label} {s s' : State} {a : Action} {c c' : Config} {r : Ptr}
  {resp : ResrcResp} {f : OpenFile} {w w' : World} {fd : Fd}

/-- The pending response a registration or an event refers to. -/
def Udata.resp? : Udata → Option Ptr
  | .resp r => some r
  | _ => none

theorem Udata.resp?_eq_some {u : Udata} : u.resp? = some r ↔ u = .resp r := by
  cases u <;> simp [Udata.resp?]

/-- The pending responses that are registered, once for each registration. -/
def Kernel.awaited (k : Kernel) : List Ptr := k.regs.filterMap fun reg => reg.udata.resp?

/-- Every pending response is registered, once, and nothing else is registered as one. -/
structure Matched (c : Config) : Prop where
  held : ∀ r resp, c.world.srv.respAt r = some resp → ∃ f, c.world.Retains r resp f
  current : ∀ reg ∈ c.world.kern.regs, ∀ r, reg.udata = .resp r →
    ∃ resp, reg.fd = resp.statFd ∧ c.world.Retains r resp reg.file
  once : c.world.kern.awaited.Nodup

namespace Matched

theorem statFd_nonneg (h : c.world.Retains r resp f) (hd : Descriptors (0 ≤ ·) c) :
    0 ≤ resp.statFd := hd.nonneg _ (Kernel.mem_of_lookup h.file)

/-- The actions that free no response. -/
theorem performs (h : Matched c) (hd : Descriptors (0 ≤ ·) c) (hm : Minted c.world)
    (hp : Performs a c c') (ha : ∀ r q, a ≠ .dropResp r q) : Matched c' := by
  have hkeep : ∀ {r resp f}, c.world.Retains r resp f → c'.world.Retains r resp f :=
    fun hr => hr.performs (statFd_nonneg hr hd) hp hm hd (ha _)
  have hheld : ∀ r resp, c.world.srv.respAt r = some resp → ∃ f, c'.world.Retains r resp f := by
    intro r resp hr
    obtain ⟨f, hf⟩ := h.held r resp hr
    exact ⟨f, hkeep hf⟩
  refine ⟨fun r resp hr => ?_, ?_, ?_⟩
  · rcases hp.respAt_cases with ⟨hsame, -⟩ | ⟨new, rfl, hset, -⟩ | ⟨-, hset⟩ |
      ⟨r', resp', rfl, -, -⟩
    · exact hheld r resp (hsame ▸ hr)
    · by_cases hnew : r = c.world.srv.nextPtr
      · subst hnew
        rw [hset, Function.update_self] at hr
        cases hr
        cases hp with
        | addResp _ hf =>
            exact ⟨_, hset ▸ Function.update_self .., hf,
              List.mem_append_right _ List.mem_cons_self⟩
      · rw [hset, Function.update_of_ne hnew] at hr
        exact hheld r resp hr
    · rw [hset] at hr
      exact hheld r resp (of_update_none hr).2
    · exact absurd rfl (ha _ _)
  · intro reg hreg r hu
    rcases hp.regs with hregs | ⟨new, hnew, -⟩
    · obtain ⟨resp, hfd, hret⟩ := h.current reg (hregs.subset hreg) r hu
      exact ⟨resp, hfd, hkeep hret⟩
    · rw [hnew.regs] at hreg
      rcases List.mem_append.mp hreg with hold | hin
      · obtain ⟨resp, hfd, hret⟩ := h.current reg hold r hu
        exact ⟨resp, hfd, hkeep hret⟩
      · cases List.mem_singleton.mp hin
        have hident := hnew.ident
        rw [hu] at hident
        obtain ⟨resp, hr, hfd⟩ := hident
        have hfile : c'.world.kern.fds.lookup reg.fd = some reg.file := hnew.fds ▸ hnew.file
        refine ⟨resp, hfd.symm, hr, hfd ▸ hfile, ?_⟩
        rw [hnew.regs, hfd, ← hu]
        exact List.mem_append_right _ List.mem_cons_self
  · rcases hp.regs with hregs | ⟨new, hnew, -⟩
    · exact (hregs.filterMap _).nodup h.once
    · unfold Kernel.awaited
      rw [hnew.regs, List.filterMap_append, List.filterMap_cons, List.filterMap_nil]
      cases hresp : new.udata.resp? with
      | none => simpa [Kernel.awaited] using h.once
      | some r =>
          apply List.Nodup.append h.once (List.nodup_singleton r)
          simp only [List.disjoint_singleton]
          intro hin
          obtain ⟨reg, hreg, hu⟩ := List.mem_filterMap.mp hin
          obtain ⟨resp, hfd, hret⟩ := h.current reg hreg r (Udata.resp?_eq_some.mp hu)
          have hident := hnew.ident
          rw [Udata.resp?_eq_some.mp hresp] at hident
          obtain ⟨resp', hr', hfd'⟩ := hident
          rw [(hkeep hret).live] at hr'
          cases hr'
          have hsame : reg.fd = new.fd := hfd.trans hfd'
          apply hnew.unlisted reg hreg
          refine ⟨hsame, Option.some.inj ?_⟩
          rw [← hret.file, ← hfd, hsame, hnew.file]

end Matched

/-- The server has no other descriptor for the file of the response, and the client keeps
none. -/
structure World.SoleCopy (ans : Answers) (w : World) (resp : ResrcResp) : Prop where
  sole : ∀ fd f, w.kern.fds.lookup fd = some f → w.kern.fds.lookup resp.statFd = some f →
    fd = resp.statFd
  unkept : ∀ t n, w.kern.fds.lookup resp.statFd = some (.client n) → ans.clientKeeps t n = false

/-- Closing the last copy of an open file removes its registrations. -/
theorem Kernel.close_last (k : Kernel) (h : k.fds.lookup fd = some f)
    (hsole : ∀ fd', k.fds.lookup fd' = some f → fd' = fd)
    (hkeeps : ∀ n, f = .client n → ans.clientKeeps k.tick n = false) :
    (k.close ans fd).2.regs = k.regs.filter fun reg => reg.file ≠ f := by
  have hcopy : k.hasCopy ans (k.fds.erase fd) f = false := by
    unfold Kernel.hasCopy
    rw [Bool.or_eq_false_iff]
    constructor
    · rw [List.any_eq_false]
      rintro ⟨fd', f'⟩ hmem heq
      simp only [beq_iff_eq] at heq
      subst heq
      have hlookup : (k.fds.erase fd).lookup fd' = some f' := AList.mem_lookup_iff.mpr hmem
      have hne : fd' ≠ fd := by
        rintro rfl
        rw [AList.lookup_erase] at hlookup
        cases hlookup
      rw [AList.lookup_erase_ne hne] at hlookup
      exact hne (hsole fd' hlookup)
    · cases f with
      | client n => exact hkeeps n rfl
      | file | timerfd | inherited => rfl
  unfold Kernel.close
  rw [h]
  simp only [hcopy]
  rfl

/-- The event of a pending response leaves the others alone. -/
theorem RespEnds.matched {err : Bool} (h : RespEnds ans err r resp w w')
    (hr : w.srv.respAt r = some resp)
    (hsole : err = true ∨ w.kern.postpones ans resp = false → w.SoleCopy ans resp)
    (hd : Descriptors (0 ≤ ·) ⟨[], w⟩) (hm : Matched ⟨[], w⟩) : Matched ⟨[], w'⟩ := by
  obtain ⟨f, hret⟩ := hm.held r resp hr
  cases h with
  | @kept k e _ hk =>
      have hkeep : ∀ {r resp f}, w.Retains r resp f → World.Retains ⟨w.srv, k⟩ r resp f := by
        intro r resp f h
        exact ⟨h.live, hk.fds ▸ h.file, hk.regs ▸ h.reg⟩
      have hregs : k.regs = w.kern.regs := hk.regs
      refine ⟨fun r' resp' hr' => ?_, fun reg hreg r' hu => ?_, ?_⟩
      · obtain ⟨f', hf'⟩ := hm.held r' resp' hr'
        exact ⟨f', hkeep hf'⟩
      · obtain ⟨resp', hfd, hf'⟩ := hm.current reg (hregs ▸ hreg) r' hu
        exact ⟨resp', hfd, hkeep hf'⟩
      · unfold Kernel.awaited
        rw [hregs]
        exact hm.once
  | @freed k tr hfds hregs _ _ hdue =>
      have hsole := hsole hdue
      have hfile : k.fds.lookup resp.statFd = some f := hfds ▸ hret.file
      have hlast : (k.close ans resp.statFd).2.regs = k.regs.filter fun reg => reg.file ≠ f := by
        refine k.close_last hfile (fun fd' hfd' => ?_) fun n hn =>
          hsole.unkept _ n (hret.file.trans (congrArg some hn))
        exact hsole.sole fd' f (hfds ▸ hfd') hret.file
      -- whoever has another file, or another descriptor, keeps it
      have hkeep : ∀ {r' resp' f'}, w.Retains r' resp' f' → r' ≠ r →
          World.Retains ⟨(w.srv.release resp.addr).dropResp r, (k.close ans resp.statFd).2⟩
            r' resp' f' := by
        intro r' resp' f' h hne
        have hfd : resp'.statFd ≠ resp.statFd := by
          intro heq
          have hown : w.srv.Owns [] (.resp r') resp.statFd := ⟨resp', h.live, heq.symm⟩
          have hsame := hd.eq_of_owns (.resp r) (Matched.statFd_nonneg hret hd) hown
            ⟨resp, hr, rfl⟩
          cases hsame
          exact hne rfl
        have hother : f' ≠ f := by
          rintro rfl
          exact hfd (hsole.sole _ _ h.file hret.file)
        refine ⟨?_, ?_, ?_⟩
        · exact (Function.update_of_ne hne _ _).trans h.live
        · exact (Kernel.close_lookup ans k hfd).trans (hfds ▸ h.file)
        · rw [hlast, hregs]
          exact List.mem_filter.mpr ⟨h.reg, by simpa using hother⟩
      refine ⟨fun r' resp' hr' => ?_, fun reg hreg r' hu => ?_, ?_⟩
      · obtain ⟨hne, hlive⟩ := of_update_none hr'
        obtain ⟨f', hf'⟩ := hm.held r' resp' hlive
        exact ⟨f', hkeep hf' hne⟩
      · rw [hlast, hregs] at hreg
        obtain ⟨hold, hfile'⟩ := List.mem_filter.mp hreg
        obtain ⟨resp', hfd, hf'⟩ := hm.current reg hold r' hu
        refine ⟨resp', hfd, hkeep hf' ?_⟩
        rintro rfl
        have hlive := hf'.live
        rw [show (⟨[], w⟩ : Config).world.srv.respAt r' = some resp from hr] at hlive
        cases hlive
        have hsame : f = reg.file := Option.some.inj (hret.file.symm.trans hf'.file)
        simp [hsame] at hfile'
      · unfold Kernel.awaited
        rw [hlast, hregs]
        exact (List.filter_sublist.filterMap _).nodup hm.once

/-- The steps in which every SEND brings its destination, and a response that is freed has
the only copy of its file. -/
structure Undivided (l : Answers × Label) (s : State) : Prop where
  dest : l.2 = .request → s.lacksDest = false
  sole : ∀ r resp, Disposing l s r resp → s.world.SoleCopy l.1 resp

/-- The pending responses the rest of the batch refers to. -/
def State.pendingResps (s : State) : List Ptr := s.pending.filterMap fun ev => ev.udata.resp?

/-- Registrations and events of responses go together with the pending responses. -/
structure Subscribed (s : State) : Prop where
  descriptors : Descriptors (0 ≤ ·) s.config
  matched : Matched s.config
  distinct : s.pendingResps.Nodup
  live : ∀ r ∈ s.pendingResps, ∃ resp, s.world.srv.respAt r = some resp

/-- What the actions of a step keep that frees no response. -/
structure Steady (s : State) (c : Config) : Prop where
  ledger : Ledger c.world.srv
  minted : Minted c.world
  descriptors : Descriptors (0 ≤ ·) c
  matched : Matched c
  live : ∀ r resp, s.world.srv.respAt r = some resp → c.world.srv.respAt r = some resp

theorem Steady.performs (h : Steady s c) (hp : Performs a c c')
    (hentitled : Descriptors.Entitled (0 ≤ ·) a c) (ha : ∀ r q, a ≠ .dropResp r q) :
    Steady s c' where
  ledger := h.ledger.performs hp
  minted := h.minted.performs h.ledger hp
  descriptors := h.descriptors.performs (fun _ hgood => hgood) hentitled hp
  matched := h.matched.performs h.descriptors h.minted hp ha
  live := by
    intro r resp hr
    obtain ⟨f, hf⟩ := h.matched.held r resp (h.live r resp hr)
    exact (hf.performs (Matched.statFd_nonneg hf h.descriptors) hp h.minted h.descriptors
      (ha r)).live

/-- What the poller returns refers to pending responses, each at most once. -/
theorem Matched.subscribed {evs : List PollEvent} (h : Matched ⟨[], w⟩)
    (hd : Descriptors (0 ≤ ·) ⟨[], w⟩) (hvalid : ValidBatch w.kern.regs evs) :
    Subscribed ⟨w, .events evs⟩ := by
  obtain ⟨us, hperm, hsub⟩ := hvalid.1
  have hus : (us.filterMap Udata.resp?).Perm (State.pendingResps ⟨w, .events evs⟩) := by
    refine (hperm.filterMap _).trans (List.Perm.of_eq ?_)
    rw [List.filterMap_map]
    rfl
  have hregs : (us.filterMap Udata.resp?).Sublist w.kern.awaited := by
    have hmap := hsub.filterMap Udata.resp?
    rw [List.filterMap_map] at hmap
    exact hmap
  refine ⟨hd, h, hus.nodup (hregs.nodup h.once), fun r hr => ?_⟩
  obtain ⟨reg, hreg, hu⟩ := List.mem_filterMap.mp (hregs.subset (hus.mem_iff.mpr hr))
  obtain ⟨resp, -, hret⟩ := h.current reg hreg r (Udata.resp?_eq_some.mp hu)
  exact ⟨resp, hret.live⟩

/-- A step that handles no event of a response. -/
theorem Subscribed.next_other (h : Subscribed s) (hr : server.Reachable System.always s)
    (hg : Undivided (ans, l) s) (hother : ∀ r, ¬ Answering l s r)
    (hn : next (ans, l) s = some (.ok s')) (hrun : s'.phase ≠ .stopped) : Subscribed s' := by
  obtain ⟨hledger, hok⟩ := reachable_ledger hr
  have hends := next_ends (A := StepMay ans l s) (fun a c ha => ha) hok hledger.nodup hn
  generalize hres : Except.ok s' = res at hends
  cases hends with
  | fault => cases hres
  | shut hacts =>
      obtain ⟨a, w', hstop⟩ := settle_ok hres.symm
      cases hstop
      exact absurd rfl hrun
  | next _ hacts =>
      cases hres
      have hstart : Steady s s.config :=
        ⟨hledger, Minted.reachable hr, h.descriptors, h.matched, fun _ _ hr => hr⟩
      have hend : Steady s s'.config := hacts.keeps (fun a c c' ha hp hc =>
        hc.performs hp (ha.entitled hg.dest hok) fun r q heq =>
          hother r (heq ▸ ha).dropResp_cases) hstart
      rcases next_pending hn with ⟨hphase, evs, hvalid, rfl⟩ | hsub
      · have hloose : s.config = ⟨[], s.world⟩ := by simp [State.config, hphase]
        exact (hloose ▸ h.matched).subscribed (hloose ▸ h.descriptors) hvalid
      · have hsub' := (hsub.trans (l.leaves_sublist _)).filterMap fun ev => ev.udata.resp?
        refine ⟨hend.descriptors, hend.matched, hsub'.nodup h.distinct, fun r hr => ?_⟩
        obtain ⟨resp, hlive⟩ := h.live r (hsub'.subset hr)
        exact ⟨resp, hend.live r resp hlive⟩

theorem RespEnds.descriptors {err : Bool} (h : RespEnds ans err r resp w w')
    (hr : w.srv.respAt r = some resp) (hd : Descriptors (0 ≤ ·) ⟨[], w⟩) :
    Descriptors (0 ≤ ·) ⟨[], w'⟩ := by
  cases h with
  | kept _ hk => exact hd.same (List.Sublist.refl _) hk.fds fun _ _ _ ho => ho
  | @freed k tr hfds _ _ _ _ =>
      have hk : Descriptors (0 ≤ ·) ⟨[], ⟨w.srv, k⟩⟩ :=
        hd.same (List.Sublist.refl _) hfds fun _ _ _ ho => ho
      refine hk.closed ans (List.Sublist.refl _) (fun o fd ho => ?_) fun _ _ => ?_
      · exact ho.congr rfl (fun _ hin => hin) (fun _ _ hx => hx) (fun _ _ ht => ht)
          fun q rs hq => (of_update_none hq).2
      · refine ⟨.resp r, ⟨resp, hr, rfl⟩, ?_⟩
        rintro ⟨rs, hrs, -⟩
        exact (of_update_none hrs).1 rfl

theorem RespEnds.live {err : Bool} {r' : Ptr} (h : RespEnds ans err r resp w w') (hne : r' ≠ r) :
    w'.srv.respAt r' = w.srv.respAt r' := by
  cases h with
  | kept => rfl
  | freed => exact Function.update_of_ne hne _ _

/-- The request socket is no response's descriptor. -/
theorem Descriptors.ne_reqfd {L : List Fd} (h : Descriptors (0 ≤ ·) ⟨L, w⟩)
    (hret : w.Retains r resp f) : resp.statFd ≠ w.srv.reqfd := by
  intro heq
  have hgood : 0 ≤ resp.statFd := h.nonneg _ (Kernel.mem_of_lookup hret.file)
  cases h.eq_of_owns (.resp r) (o := .socket) hgood heq ⟨resp, hret.live, rfl⟩

/-- A step that handles an event of a response. -/
theorem Subscribed.next_answering (h : Subscribed s) (hg : Undivided (ans, l) s)
    (hevent : Answering l s r) (hn : next (ans, l) s = some (.ok s')) : Subscribed s' := by
  obtain ⟨garbage, ev, rest, rfl, hphase, hu⟩ := hevent
  obtain ⟨w, phase⟩ := s
  subst hphase
  have hd : Descriptors (0 ≤ ·) ⟨[], w⟩ := h.descriptors
  have hm : Matched ⟨[], w⟩ := h.matched
  have hhead : ev.udata.resp? = some r := Udata.resp?_eq_some.mpr hu
  have hpending : State.pendingResps ⟨w, .events (ev :: rest)⟩ =
      r :: rest.filterMap fun ev => ev.udata.resp? := by
    rw [State.pendingResps, show State.pending ⟨w, .events (ev :: rest)⟩ = ev :: rest from rfl,
      List.filterMap_cons_some (f := fun ev : PollEvent => ev.udata.resp?) hhead]
  have hdistinct := h.distinct
  have hlive := h.live
  rw [hpending] at hdistinct hlive
  obtain ⟨hnot, hnodup⟩ := List.nodup_cons.mp hdistinct
  obtain ⟨resp, hr⟩ := hlive r List.mem_cons_self
  obtain ⟨f, hret⟩ := hm.held r resp hr
  rcases Sendfiled.next_answering hu hr (hd.ne_reqfd hret) hn with ⟨e, hfault, -⟩ | ⟨w', hw', hends⟩
  · cases hfault
  cases hw'
  have hsole : ev.err = true ∨ w.kern.postpones ans resp = false → w.SoleCopy ans resp :=
    fun hdue => hg.sole r resp ⟨_, ev, rest, rfl, rfl, hu, hr, hdue⟩
  refine ⟨hends.descriptors hr hd, hends.matched hr hsole hd hm, hnodup, fun r' hr' => ?_⟩
  have hne : r' ≠ r := by
    rintro rfl
    exact hnot hr'
  obtain ⟨resp', hlive'⟩ := hlive r' (List.mem_cons_of_mem _ hr')
  exact ⟨resp', (hends.live hne).trans hlive'⟩

theorem subscribed_initial (s : State) (h : Initial s) : Subscribed s := by
  have hnone := h.empty.2.2
  have hregs : ∀ reg ∈ s.world.kern.regs, ∀ r, reg.udata ≠ .resp r := by
    obtain ⟨-, reqfd, -, -, -, -, -, -, hkern⟩ := h
    intro reg hreg r hu
    rcases hkern.regs reg hreg with heq | heq <;> rw [hu] at heq <;> cases heq
  have hpending : s.pendingResps = [] := by
    simp [State.pendingResps, State.pending, h.1]
  refine ⟨h.descriptors _, ⟨fun r resp hr => ?_, fun reg hreg r hu => absurd hu (hregs reg hreg r),
    ?_⟩, ?_, ?_⟩
  · rw [show s.config.world.srv.respAt r = none from hnone r] at hr
    cases hr
  · have hnil : s.config.world.kern.awaited = [] := by
      refine List.filterMap_eq_nil_iff.mpr fun reg hreg => ?_
      cases hu : reg.udata.resp? with
      | none => rfl
      | some r => exact absurd (Udata.resp?_eq_some.mp hu) (hregs reg hreg r)
    rw [hnil]
    exact List.nodup_nil
  · rw [hpending]
    exact List.nodup_nil
  · rw [hpending]
    exact fun r hr => absurd hr List.not_mem_nil

/-- What holds at the start and is kept by every step that does not end the server holds as
long as the server runs. -/
theorem running_invariant {guard : Answers × Label → State → Prop} {I : State → Prop}
    (hinit : ∀ s, Initial s → I s)
    (hstep : ∀ ans l s s', server.Reachable System.always s → I s → guard (ans, l) s →
      next (ans, l) s = some (.ok s') → s'.phase ≠ .stopped → I s')
    (hr : server.Reachable guard s) (hrun : s.phase ≠ .stopped) : I s := by
  have hinv : server.Reachable System.always s ∧ (s.phase ≠ .stopped → I s) := by
    refine hr.invariant (I := fun s => server.Reachable System.always s ∧
      (s.phase ≠ .stopped → I s)) ?_ ?_
    · intro s h
      exact ⟨⟨s, h, .refl⟩, fun _ => hinit s h⟩
    · rintro ⟨ans, l⟩ s s' ⟨hreach, hs⟩ hg hn
      refine ⟨hreach.step (l := (ans, l)) trivial hn, fun hrun' => ?_⟩
      have hrun : s.phase ≠ .stopped := by
        intro hstop
        rw [show server.next (ans, l) s = none from next_stopped hstop _] at hn
        cases hn
      exact hstep ans l s s' hreach (hs hrun) hg hn hrun'
  exact hinv.2 hrun

theorem reachable_subscribed (hr : server.Reachable Undivided s) (hrun : s.phase ≠ .stopped) :
    Subscribed s := by
  refine running_invariant subscribed_initial (fun ans l s s' hreach h hg hn hrun' => ?_) hr hrun
  by_cases hevent : ∃ r, Answering l s r
  · obtain ⟨r, hevent⟩ := hevent
    exact h.next_answering hg hevent hn
  · exact h.next_other hreach hg (fun r ha => hevent ⟨r, ha⟩) hn hrun'

/-- A response is registered once while it is pending, and not at all otherwise. -/
theorem Matched.count (h : Matched c) (r : Ptr) :
    c.world.kern.awaited.count r = if (c.world.srv.respAt r).isSome then 1 else 0 := by
  cases hresp : c.world.srv.respAt r with
  | some resp =>
      obtain ⟨f, hret⟩ := h.held r resp hresp
      have hmem : r ∈ c.world.kern.awaited := List.mem_filterMap.mpr ⟨_, hret.reg, rfl⟩
      rw [Option.isSome_some, if_pos rfl]
      exact List.count_eq_one_of_mem h.once hmem
  | none =>
      have hout : r ∉ c.world.kern.awaited := by
        intro hmem
        obtain ⟨reg, hreg, hu⟩ := List.mem_filterMap.mp hmem
        obtain ⟨resp, -, hret⟩ := h.current reg hreg r (Udata.resp?_eq_some.mp hu)
        rw [hret.live] at hresp
        cases hresp
      simp [List.count_eq_zero.mpr hout]

theorem Subscribed.event (h : Subscribed s) {ev : PollEvent} (hev : ev ∈ s.pending)
    (hu : ev.udata = .resp r) : ∃ resp, s.world.srv.respAt r = some resp :=
  h.live r (List.mem_filterMap.mpr ⟨ev, hev, Udata.resp?_eq_some.mpr hu⟩)

/-- In every run in which each SEND brings its destination and each response that is freed
has the only copy of its file: a response is registered exactly if it is pending, and then
once, under its own descriptor, which is open; the events still to be handled refer to
pending responses, and none of them makes the server use freed memory. -/
theorem resp_registrations (hr : server.Reachable Undivided s) (hrun : s.phase ≠ .stopped) :
    (∀ r, s.world.kern.awaited.count r = if (s.world.srv.respAt r).isSome then 1 else 0) ∧
    (∀ reg ∈ s.world.kern.regs, ∀ r, reg.udata = .resp r →
      ∃ resp, s.world.srv.respAt r = some resp ∧ reg.fd = resp.statFd ∧
        s.world.kern.fds.lookup reg.fd = some reg.file) ∧
    (∀ ev ∈ s.pending, ∀ r, ev.udata = .resp r → ∃ resp, s.world.srv.respAt r = some resp) ∧
    ∀ ans garbage ev rest r e, s.phase = .events (ev :: rest) → ev.udata = .resp r →
      server.next (ans, .event garbage) s = some (.error e) → e = .assertion .sendPduWhole := by
  have h := reachable_subscribed hr hrun
  refine ⟨h.matched.count, fun reg hreg r hu => ?_, fun ev hev r hu => h.event hev hu, ?_⟩
  · obtain ⟨resp, hfd, hret⟩ := h.matched.current reg hreg r hu
    exact ⟨resp, hret.live, hfd, hfd ▸ hret.file⟩
  · intro ans garbage ev rest r e hphase hu hn
    have hmem : ev ∈ s.pending := by
      simp [State.pending, hphase]
    obtain ⟨resp, hlive⟩ := h.event hmem hu
    obtain ⟨w, phase⟩ := s
    subst hphase
    have hd : Descriptors (0 ≤ ·) ⟨[], w⟩ := h.descriptors
    obtain ⟨f, hret⟩ := h.matched.held r resp hlive
    rcases Sendfiled.next_answering hu hlive (hd.ne_reqfd hret) hn with
      ⟨e', hfault, htorn⟩ | ⟨w', hw', -⟩
    · cases hfault
      exact htorn.1
    · cases hw'

section Runs

open Scenario

/-- The part of `Undivided` that is about the state. -/
def undividedHere (l : Answers × Label) (s : State) : Bool :=
  (l.2 != .request || !s.lacksDest) && s.pendingResps.all fun r =>
    (s.world.srv.respAt r).all fun resp => s.world.kern.fds.entries.all fun entry =>
      s.world.kern.fds.lookup resp.statFd != some entry.2 || entry.1 == resp.statFd

theorem undivided_of_here {l : Answers × Label} {s : State} (h : undividedHere l s = true)
    (hkeeps : ∀ t n, l.1.clientKeeps t n = false) : Undivided l s := by
  simp only [undividedHere, Bool.and_eq_true, Bool.or_eq_true, bne_iff_ne, ne_eq,
    Bool.not_eq_true', List.all_eq_true, Option.all_eq_true, beq_iff_eq] at h
  refine ⟨fun hl => h.1.resolve_left fun hne => hne hl, fun r resp hevent =>
    ⟨?_, fun t n _ => hkeeps t n⟩⟩
  obtain ⟨garbage, ev, rest, -, hphase, hu, hr, -⟩ := hevent
  have hmem : r ∈ s.pendingResps :=
    List.mem_filterMap.mpr ⟨ev, by simp [State.pending, hphase], Udata.resp?_eq_some.mpr hu⟩
  intro fd f hfd hf
  exact (h.2 r hmem resp hr ⟨fd, f⟩ (AList.mem_lookup_iff.mp hfd)).resolve_left fun hne => hne hf

theorem resp_registrations_of_heldBack : ∃ s, server.Reachable Undivided s ∧
    s.world.srv.xferAt 0 = none ∧ s.pending = [answerable 1] ∧
    s.world.kern.awaited.count 1 = 1 ∧ ∃ resp, s.world.srv.respAt 1 = some resp := by
  obtain ⟨s, hr, hP⟩ := exists_reachable_forall (fun l s => undividedHere l s = true) 4 100
    (heldBack ++ [(leaving false, .wait [answerable 1])])
    (fun s => (s.world.srv.xferAt 0).isNone && s.pending == [answerable 1] &&
      s.phase != .stopped && (s.world.srv.respAt 1).isSome)
    (by
      intro l hl s hs
      refine undivided_of_here hs ?_
      simp only [heldBack, serve, handle, List.cons_append, List.nil_append, List.mem_cons,
        List.flatMap_cons, List.flatMap_nil, List.not_mem_nil, or_false] at hl
      rcases hl with rfl | rfl | rfl | rfl | rfl | rfl | rfl | rfl | rfl | rfl <;>
        exact fun _ _ => rfl)
    (by decide +kernel)
  simp only [Bool.and_eq_true, Option.isNone_iff_eq_none, beq_iff_eq, bne_iff_ne, ne_eq] at hP
  obtain ⟨⟨⟨hgone, hpending⟩, hrun⟩, hlive⟩ := hP
  obtain ⟨hcount, -, hevents, -⟩ := resp_registrations hr hrun
  refine ⟨s, hr, hgone, hpending, ?_, hevents (answerable 1) (by simp [hpending]) 1 rfl⟩
  rw [hcount 1, hlive, if_pos rfl]

end Runs

end Sendfiled
