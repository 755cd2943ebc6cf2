/-
The registrations of timers.  The descriptor of a timer is the only one its open file ever
has, so that closing it takes the registration away as well; hence the registrations of
timers are those of the live ones, in every run, and no event refers to a timer that was
deleted.
-/
import Sendfiled.Untimed
import Sendfiled.Guards
import Sendfiled.RespRegs
import Sendfiled.Undoing

namespace Sendfiled

open Prog Transition

variable {ans : Answers} {l : Label} {s s' : State} {a : Action} {c c' : Config} {t : Ptr}
  {tm : ResrcTimer} {n : Nat} {w w' : World}

/-- What an action does to the timers. -/
theorem Performs.timerAt_cases (hp : Performs a c c') :
    c'.world.srv.timerAt = c.world.srv.timerAt ∨
    (∃ tm, tm.ident = -1 ∧
      c'.world.srv.timerAt = Function.update c.world.srv.timerAt c.world.srv.nextPtr (some tm)) ∨
    c'.world.srv.timerAt = Function.update c.world.srv.timerAt c.world.srv.nextPtr none ∨
    (∃ t tm fd, c.world.srv.timerAt t = some tm ∧ tm.ident = -1 ∧ 0 < fd ∧
      c'.world.srv.timerAt = Function.update c.world.srv.timerAt t (some { tm with ident := fd })) ∨
    ∃ t, (a = .expire t ∨ a = .botch t) ∧
      c'.world.srv.timerAt = Function.update c.world.srv.timerAt t none := by
  cases hp with
  | quiet _ hs _ => exact Or.inl hs.timerAt
  | say | openFile | seek | openTimer | arrive | dup | shut | reshut | register | forget | enroll
  | skip | retire | discard | bury | cancel | ready | release | assign | move | balk | addResp
  | skipResp | dropResp => exact Or.inl rfl
  | addTimer hident => exact Or.inr (Or.inl ⟨_, hident, rfl⟩)
  | skipTimer => exact Or.inr (Or.inr (Or.inl rfl))
  | arm ht hident hpos => exact Or.inr (Or.inr (Or.inr (Or.inl ⟨_, _, _, ht, hident, hpos, rfl⟩)))
  | expire => exact Or.inr (Or.inr (Or.inr (Or.inr ⟨_, Or.inl rfl, rfl⟩)))
  | botch => exact Or.inr (Or.inr (Or.inr (Or.inr ⟨_, Or.inr rfl, rfl⟩)))

/-- A timer that was deleted does not come back. -/
theorem Performs.timer_gone (hp : Performs a c c') (hlt : t < c.world.srv.nextPtr)
    (hnone : c.world.srv.timerAt t = none) : c'.world.srv.timerAt t = none := by
  rcases hp.timerAt_cases with heq | ⟨tm, -, heq⟩ | heq | ⟨u, tm, fd, hu, -, -, heq⟩ | ⟨u, -, heq⟩
  · rw [heq, hnone]
  · rw [heq, Function.update_of_ne (Nat.ne_of_lt hlt), hnone]
  · rw [heq, Function.update_of_ne (Nat.ne_of_lt hlt), hnone]
  · have hne : t ≠ u := by
      rintro rfl
      rw [hnone] at hu
      cases hu
    rw [heq, Function.update_of_ne hne, hnone]
  · rw [heq]
    by_cases htu : t = u
    · rw [htu, Function.update_self]
    · rw [Function.update_of_ne htu, hnone]

/-- A descriptor was there before, or it is new: of a file just opened, of a timer just
made, sent by a client, or the copy of a status channel. -/
theorem Performs.lookup_cases (hp : Performs a c c') {fd : Fd} {f : OpenFile}
    (hf : c'.world.kern.fds.lookup fd = some f) :
    c.world.kern.fds.lookup fd = some f ∨ f = .file c.world.kern.nextFile ∨
      f = .timerfd c.world.kern.nextFile ∨ (∃ m, f = .client m) ∨
      ∃ p x, c.world.srv.xferAt p = some x ∧ c.world.kern.fds.lookup x.statFd = some f := by
  cases hp with
  | quiet _ _ hk => exact Or.inl (hk.fds ▸ hf)
  | say | seek | register | forget | enroll | skip | cancel | ready | release | assign | balk
  | addTimer | skipTimer | arm | addResp | skipResp => exact Or.inl hf
  | openFile => exact (Kernel.lookup_install hf).imp id fun hnew => Or.inl hnew.2
  | openTimer =>
      exact (Kernel.lookup_install hf).imp id fun hnew => Or.inr (Or.inl hnew.2)
  | arrive =>
      exact (Kernel.lookup_install hf).imp id fun hnew => Or.inr (Or.inr (Or.inl ⟨_, hnew.2⟩))
  | dup hx hstat =>
      rcases Kernel.lookup_install hf with hold | ⟨-, rfl⟩
      · exact Or.inl hold
      · exact Or.inr (Or.inr (Or.inr (Or.inr ⟨_, _, hx, hstat⟩)))
  | shut | reshut | retire | expire | botch | dropResp => exact Or.inl (Kernel.lookup_of_close hf)
  | discard | bury => exact Or.inl (Kernel.lookup_of_dismantle hf)
  | move ans _ _ _ _ hm => exact Or.inl ((Kernel.moveBytes_fds ans _ hm).1 ▸ hf)

theorem Kernel.dismantle_nextFile (k : Kernel) (ans : Answers) (x : ResrcXfer) :
    (k.dismantle ans x).nextFile = k.nextFile := by
  have hdel : (k.epollDel x.destFd).2.nextFile = k.nextFile := by
    unfold Kernel.epollDel
    split
    · rfl
    · split <;> rfl
  unfold Kernel.dismantle Kernel.closeAll Kernel.closeDest
  rw [Kernel.close_nextFile]
  split
  · rw [Kernel.close_nextFile, Kernel.close_nextFile, hdel]
  · rw [Kernel.close_nextFile, hdel]

theorem Performs.nextFile_le (hp : Performs a c c') :
    c.world.kern.nextFile ≤ c'.world.kern.nextFile := by
  cases hp with
  | quiet _ _ hk => exact Nat.le_of_eq hk.nextFile.symm
  | openFile | openTimer => exact Nat.le_succ _
  | say | seek | arrive | dup | register | forget | enroll | skip | cancel | ready | release
  | assign | balk | addTimer | skipTimer | arm | addResp | skipResp => exact Nat.le_refl _
  | shut ans | reshut ans | retire ans | expire ans | botch ans | dropResp ans =>
      exact Nat.le_of_eq (Kernel.close_nextFile ans _ _).symm
  | discard ans | bury ans => exact Nat.le_of_eq (Kernel.dismantle_nextFile _ ans _).symm
  | move ans _ _ _ _ hm => exact Nat.le_of_eq (Kernel.moveBytes_nextFile ans hm).symm

/-- The timer `t` was given the only descriptor of the open file `n`, and keeps it registered
until it is deleted; then nothing refers to either of them any more. -/
structure Ticking (t : Ptr) (tm : ResrcTimer) (n : Nat) (c : Config) : Prop where
  known : t < c.world.srv.nextPtr
  below : n < c.world.kern.nextFile
  live : ∀ tm', c.world.srv.timerAt t = some tm' → tm' = tm ∧ 0 < tm.ident ∧
    c.world.kern.fds.lookup tm.ident = some (.timerfd n) ∧
    ⟨tm.ident, .timerfd n, .timer t⟩ ∈ c.world.kern.regs
  sole : ∀ fd, c.world.kern.fds.lookup fd = some (.timerfd n) →
    fd = tm.ident ∧ c.world.srv.timerAt t = some tm
  regs : ∀ reg ∈ c.world.kern.regs, reg.udata = .timer t →
    c.world.srv.timerAt t = some tm ∧ reg.fd = tm.ident ∧ reg.file = .timerfd n

namespace Ticking

/-- While the timer lives, its descriptor has it for its owner. -/
theorem owner (h : Ticking t tm n c) (hd : Descriptors (0 < ·) c)
    (ht : c.world.srv.timerAt t = some tm) {o : Owner} (ho : c.world.srv.Owns c.loose o tm.ident) :
    o = .timer t :=
  hd.exclusive.unique o (.timer t) tm.ident (h.live tm ht).2.1 ho ⟨tm, ht, rfl⟩

/-- The open file gets no second descriptor. -/
theorem sole_performs (h : Ticking t tm n c) (hd : Descriptors (0 < ·) c) (hp : Performs a c c')
    {fd : Fd} (hf : c'.world.kern.fds.lookup fd = some (.timerfd n)) :
    c.world.kern.fds.lookup fd = some (.timerfd n) := by
  rcases hp.lookup_cases hf with hold | hnew | hnew | ⟨m, hnew⟩ | ⟨p, x, hx, hstat⟩
  · exact hold
  · cases hnew
  · cases hnew
    exact absurd h.below (Nat.lt_irrefl _)
  · cases hnew
  · -- the descriptor that is copied is a transfer's, not the timer's
    obtain ⟨hident, ht⟩ := h.sole x.statFd hstat
    have hchannel : c.world.srv.Owns c.loose (.channel p) tm.ident :=
      ⟨x, hx, Or.inl hident.symm⟩
    cases h.owner hd ht hchannel

/-- No action registers the timer again. -/
theorem regs_performs (h : Ticking t tm n c) (hp : Performs a c c')
    (hstays : c'.world.srv.timerAt t = some tm → c.world.srv.timerAt t = some tm)
    (hsame : ∀ tm', c'.world.srv.timerAt t = some tm' → tm' = tm)
    {reg : Reg} (hreg : reg ∈ c'.world.kern.regs) (hu : reg.udata = .timer t) :
    reg ∈ c.world.kern.regs := by
  rcases hp.regs with hsub | ⟨new, hnew, -⟩
  · exact hsub.subset hreg
  rw [hnew.regs] at hreg
  rcases List.mem_append.mp hreg with hold | hin
  · exact hold
  cases List.mem_singleton.mp hin
  have hident := hnew.ident
  rw [hu] at hident
  obtain ⟨tm', ht', hfd⟩ := hident
  cases hsame tm' ht'
  obtain ⟨-, -, hlookup, hmem⟩ := h.live tm (hstays ht')
  have hfile := hnew.file
  rw [← hfd, hlookup] at hfile
  exact absurd ⟨hfd, Option.some.inj hfile⟩ (hnew.unlisted _ hmem)

/-- The actions that do not delete the timer. -/
theorem other (h : Ticking t tm n c) (hledger : Ledger c.world.srv) (hd : Descriptors (0 < ·) c)
    (hp : Performs a c c')
    (hexpire : a ≠ .expire t) (hbotch : a ≠ .botch t) : Ticking t tm n c' := by
  have hkeep : c.world.srv.timerAt t = some tm → c'.world.srv.timerAt t = some tm := by
    intro ht
    apply hp.timer hledger ht _ hexpire hbotch
    intro hneg
    have hpos := (h.live tm ht).2.1
    rw [hneg] at hpos
    exact absurd hpos (by decide)
  have hback : ∀ tm', c'.world.srv.timerAt t = some tm' → c.world.srv.timerAt t = some tm ∧
      tm' = tm := by
    intro tm' ht'
    cases ht : c.world.srv.timerAt t with
    | none =>
        rw [hp.timer_gone h.known ht] at ht'
        cases ht'
    | some tm₀ =>
        obtain ⟨rfl, -⟩ := h.live tm₀ ht
        rw [hkeep ht] at ht'
        exact ⟨rfl, (Option.some.inj ht').symm⟩
  refine ⟨Nat.lt_of_lt_of_le h.known hp.nextPtr_le, Nat.lt_of_lt_of_le h.below hp.nextFile_le,
    ?_, ?_, ?_⟩
  · intro tm' ht'
    obtain ⟨ht, rfl⟩ := hback tm' ht'
    obtain ⟨-, hpos, hlookup, hmem⟩ := h.live _ ht
    have hspared := Descriptors.spares hp hd (o := .timer t) hpos ⟨_, ht, rfl⟩ ⟨_, ht', rfl⟩
    exact ⟨rfl, hpos, hspared.lookup.trans hlookup, hspared.regs _ hmem rfl hlookup⟩
  · intro fd hf
    obtain ⟨rfl, ht⟩ := h.sole fd (h.sole_performs hd hp hf)
    exact ⟨rfl, hkeep ht⟩
  · intro reg hreg hu
    have hold := h.regs_performs hp (fun ht' => (hback tm ht').1) (fun tm' ht' => (hback tm' ht').2)
      hreg hu
    obtain ⟨ht, hfd, hfile⟩ := h.regs reg hold hu
    exact ⟨hkeep ht, hfd, hfile⟩

/-- When the timer expires its descriptor is closed, and with it go its registrations. -/
theorem expired (h : Ticking t tm n c) (hp : Performs (.expire t) c c') : Ticking t tm n c' := by
  cases hp with
  | @expire L s k _ tm' ans ht =>
      obtain ⟨rfl, -, hlookup, -⟩ := h.live tm' ht
      have hgone : Function.update s.timerAt t none t = none := Function.update_self ..
      have hsole : ∀ fd, k.fds.lookup fd = some (.timerfd n) → fd = tm'.ident :=
        fun fd hf => (h.sole fd hf).1
      refine ⟨h.known, ?_, ?_, ?_, ?_⟩
      · exact Nat.lt_of_lt_of_eq h.below (Kernel.close_nextFile ans _ _).symm
      · intro tm₀ ht₀
        rw [show Function.update s.timerAt t none t = some tm₀ from ht₀] at hgone
        cases hgone
      · intro fd hf
        have hsame := hsole fd (Kernel.lookup_of_close hf)
        subst hsame
        rw [Kernel.close_fds, AList.lookup_erase] at hf
        cases hf
      · intro reg hreg hu
        dsimp only at hreg
        rw [k.close_last hlookup hsole (fun _ hc => by cases hc)] at hreg
        obtain ⟨hold, hfile⟩ := List.mem_filter.mp hreg
        rw [decide_eq_true_iff] at hfile
        exact absurd (h.regs reg hold hu).2.2 hfile

end Ticking

/-- What `syspoll_timer` does for the timer `t`.  Unless `timerfd_create` failed, the timer has
the only descriptor of a new open file, and is registered under it. -/
def Kernel.Clocked (k : Kernel) (t : Ptr) (ident : Fd) (k' : Kernel) : Prop :=
  (ident = -1 ∧ k'.regs = k.regs) ∨
    ∃ n, k'.fds.lookup ident = some (.timerfd n) ∧
      (∀ fd, k'.fds.lookup fd = some (.timerfd n) → fd = ident) ∧
      k'.regs = k.regs ++ [⟨ident, .timerfd n, .timer t⟩]

/-- A timer was made. -/
structure SetsTimer (w : World) (t : Ptr) (tm : ResrcTimer) (w' : World) : Prop where
  isNew : w.srv.nextPtr ≤ t
  timerAt : w'.srv.timerAt = Function.update w.srv.timerAt t (some tm)
  clocked : w.kern.Clocked t tm.ident w'.kern

section AddOpenFile

variable {req : ProtRequest} {clientPid : Nat} {statFd : Fd}

theorem wp_syspollTimer_sets (ht : w.srv.timerAt t = some tm) (hident : tm.ident = -1)
    (hnum : w.kern.Numbered) :
    wp (syspollTimer ans t) (fun ok w' => ok = true → ∃ tm',
      w'.srv.timerAt = Function.update w.srv.timerAt t (some tm') ∧
      w.kern.Clocked t tm'.ident w'.kern) (fun _ _ => True) w := by
  obtain ⟨s, k⟩ := w
  have hheld := hnum.holds_openedTimer
  simp only [syspollTimer, wp_bind, wp_sys, Kernel.timerfdCreate]
  cases hcreate : ans.timerfdCreate k.tick with
  | some e =>
      intro _
      exact ⟨tm, (Function.update_eq_self_iff.mpr ht.symm).symm, Or.inl ⟨hident, rfl⟩⟩
  | none =>
      have hfd : (Kernel.install (.timerfd k.nextFile)
          { k with nextFile := k.nextFile + 1 }).1 = k.openedTimer.1 := rfl
      have hkern : (Kernel.install (.timerfd k.nextFile)
          { k with nextFile := k.nextFile + 1 }).2 = k.openedTimer.2 := rfl
      have hclose : ∀ (P : World → Prop) fd w', wp (do preserveErrno (close ans fd); pure false)
          (fun ok w' => ok = true → P w') (fun _ _ => True) w' := by
        intro P fd w'
        simp only [wp_bind, wp_preserveErrno, close, wp_sys, wp_pure]
        exact fun hc => by cases hc
      simp only [hfd, hkern, wp_bind, wp_sys]
      generalize k.openedTimer.1 = fd at *
      generalize k.openedTimer.2 = k₁ at *
      rw [wp_ite]
      refine ⟨fun _ => ?_, fun _ => hclose _ _ _⟩
      have hk : k₁.Quiet (k₁.succeed.timerfdSettime ans).2 :=
        (Kernel.quiet_succeed k₁).trans (Kernel.quiet_attempt _ _)
      simp only [wp_bind]
      refine wp_getTimer_live (by exact ht) ?_
      simp only [wp_onSrv]
      refine wp_syspollRegister_cases (fun e _ => hclose _ _ _) fun f _ hf => ?_
      intro _
      have hf' : f = .timerfd k.nextFile := by
        dsimp only at hf
        rw [hk.fds, hheld.lookup] at hf
        exact (Option.some.inj hf).symm
      subst hf'
      refine ⟨{ tm with ident := fd }, rfl, Or.inr ⟨k.nextFile, hf, ?_, ?_⟩⟩
      · intro fd' hfd'
        by_contra hne
        change (k₁.succeed.timerfdSettime ans).2.fds.lookup fd' = _ at hfd'
        rw [hk.fds, hheld.others fd' hne] at hfd'
        exact Nat.lt_irrefl _ (hnum.fds _ _ hfd')
      · change _ ++ _ = _
        rw [hk.regs, hheld.regs]

/-- An open file has a timer of its own; where `add_open_file` fails there is none. -/
theorem wp_addOpenFile_sets (hledger : Ledger w.srv) (hnum : w.kern.Numbered) :
    wp (addOpenFile ans req clientPid statFd) (fun o w' => match o with
      | none => NoNewTimer w w'
      | some (t, _, _) => ∃ tm, SetsTimer w t tm w') (fun _ _ => True) w := by
  have hfails := @wp_addOpenFile_steps ans req w clientPid statFd hledger hnum
  have hsets : wp (addOpenFile ans req clientPid statFd) (fun o w' => ∀ t p info,
      o = some (t, p, info) → ∃ tm, SetsTimer w t tm w') (fun _ _ => True) w := by
    have htrivial : ∀ (m : M Unit) w', wp m (fun _ _ => True) (fun _ _ => True) w' :=
      fun m w' => wp_of_forall (fun _ _ => trivial) fun _ _ => trivial
    simp only [addOpenFile, wp_bind]
    refine wp_mono (wp_addXfer_steps hledger hnum) (fun o w₁ hadded => ?_) fun _ _ _ => trivial
    cases o with
    | none => exact fun _ _ _ hc => by cases hc
    | some added =>
        obtain ⟨p, info⟩ := added
        obtain ⟨rfl, x, -, hpending⟩ := hadded
        obtain ⟨s₁, k₁⟩ := w₁
        have hx : s₁.xferAt w.srv.nextPtr = some x := by
          rw [show s₁.xferAt = _ from hpending.xferAt]
          exact Function.update_self ..
        simp only [wp_bind]
        refine wp_getXfer_live (by exact hx) ?_
        simp only [newTimer, wp_bind]
        refine wp_malloc_cases (fun _ => ?_) fun addr _ _ => ?_
        · simp only [wp_pure, wp_bind]
          exact wp_mono (htrivial _ _) (fun _ _ _ _ _ _ hc => by cases hc) fun _ _ h => h
        · simp only [wp_bind, wp_gets, wp_onSrv, wp_pure]
          split
          · simp only [wp_bind]
            refine wp_mono (htrivial _ _) (fun _ _ _ => ?_) fun _ _ h => h
            exact wp_mono (htrivial _ _) (fun _ _ _ _ _ _ hc => by cases hc) fun _ _ h => h
          · simp only [wp_bind, wp_onSrv]
            refine wp_mono (wp_syspollTimer_sets (Function.update_self ..) rfl
              (hpending.numbered.quiet (Kernel.quiet_succeed k₁))) (fun ok w₂ hset => ?_)
              fun _ _ h => h
            cases ok with
            | true =>
                intro t p info heq
                cases heq
                obtain ⟨tm, htimer, hclocked⟩ := hset rfl
                refine ⟨tm, Nat.le_of_lt hpending.nextPtr, ?_, ?_⟩
                · rw [htimer]
                  simp only [Server.newTimer, Server.setTimer, Function.update_idem]
                  rw [show s₁.timerAt = _ from hpending.timerAt]
                · have hregs : k₁.regs = w.kern.regs := hpending.kern.regs
                  simpa only [Kernel.Clocked, Kernel.succeed, hregs] using hclocked
            | false =>
                simp only [Bool.false_eq_true, if_false, wp_bind]
                refine wp_mono (htrivial _ _) (fun _ _ _ => ?_) fun _ _ h => h
                refine wp_mono (htrivial _ _) (fun _ _ _ => ?_) fun _ _ h => h
                exact wp_mono (htrivial _ _) (fun _ _ _ _ _ _ hc => by cases hc) fun _ _ h => h
  refine wp_mono (wp_and hfails hsets) (fun o w' h => ?_) fun _ _ _ => trivial
  cases o with
  | none =>
      obtain ⟨tr, hundone, -⟩ := (h.1 rfl).undone
      refine ⟨fun t tm ht => hundone.timerAt ▸ ht, ?_⟩
      unfold Kernel.clocks
      rw [hundone.kern.regs]
  | some added => exact h.2 _ _ _ rfl

end AddOpenFile

section Requests

/-- A request makes one timer or none. -/
def MakesTimer (w w' : World) : Prop := NoNewTimer w w' ∨ ∃ t tm, SetsTimer w t tm w'

theorem wp_processFileOpen_sets (hledger : Ledger w.srv) (hnum : w.kern.Numbered) {buf : RecvBuf}
    {size clientPid : Nat} {fds : Fd × Fd} :
    wp (processFileOpen ans buf size clientPid fds) (fun b w' =>
      NoNewTimer w w' ∨ (b = true ∧ ∃ t tm, SetsTimer w t tm w')) (fun _ _ => True) w := by
  unfold processFileOpen
  cases protUnmarshalRequest buf size with
  | none => exact Or.inl (refl_of NoNewTimer w)
  | some req =>
      simp only [wp_bind]
      refine wp_mono (wp_addOpenFile_sets hledger hnum) (fun o w₁ h => ?_) fun _ _ _ => trivial
      cases o with
      | none =>
          have hrest : Untimed (do
              let _ ← sendReqErr ans none fds.1 (← getErrno)
              pure false) :=
            Untimed.getErrno.bind fun _ => (Untimed.sendReqErr _ _ _).bind fun _ => Untimed.pure _
          refine wp_mono (hrest.wp w₁) (fun b w₂ h₂ => ?_) fun _ _ _ => trivial
          exact Or.inl (trans_of NoNewTimer h h₂)
      | some added =>
          obtain ⟨t, p, info⟩ := added
          obtain ⟨tm, hset⟩ := h
          have ht : w₁.srv.timerAt t = some tm := by
            rw [hset.timerAt]
            exact Function.update_self ..
          simp only [wp_bind]
          refine wp_getTimer_live ht ?_
          refine wp_sendPdu_logged (fun b k result hk => ?_) fun _ _ _ => trivial
          refine Or.inr ⟨rfl, t, tm, hset.isNew, hset.timerAt, ?_⟩
          have hfds : k.fds = w₁.kern.fds := hk.fds
          have hregs : k.regs = w₁.kern.regs := hk.regs
          have hclocked := hset.clocked
          unfold Kernel.Clocked at hclocked ⊢
          dsimp only
          rwa [hfds, hregs]

theorem wp_processRequest_sets (hledger : Ledger w.srv) (hnum : w.kern.Numbered) {buf : RecvBuf}
    {size clientPid : Nat} {fds : Fd × Fd} :
    wp (processRequest ans buf size clientPid fds) (fun b w' =>
      NoNewTimer w w' ∨ (b = true ∧ ∃ t tm, SetsTimer w t tm w')) (fun _ _ => True) w := by
  have huntimed : ∀ {m : M Bool}, Untimed m → wp m (fun b w' =>
      NoNewTimer w w' ∨ (b = true ∧ ∃ t tm, SetsTimer w t tm w')) (fun _ _ => True) w :=
    fun h => wp_mono (h.wp w) (fun _ _ h => Or.inl h) fun _ _ _ => trivial
  unfold processRequest
  rw [wp_ite, wp_ite]
  refine ⟨fun _ => huntimed (Untimed.pure _), fun _ => ⟨fun _ => huntimed (Untimed.pure _),
    fun _ => ?_⟩⟩
  cases ProtCmdReq.ofCode (sfdGetCmd buf) with
  | none => exact huntimed (Untimed.pure _)
  | some cmd =>
      cases cmd with
      | fileOpen => exact wp_processFileOpen_sets hledger hnum
      | sendOpen => exact huntimed (Untimed.processSendOpen buf clientPid fds)
      | cancel => exact huntimed (Untimed.processCancel buf clientPid)
      | read | send => exact huntimed (Untimed.processReadSend buf size clientPid fds)

theorem wp_handleReceived_sets (hledger : Ledger w.srv) (hnum : w.kern.Numbered) {r : Received} :
    wp (handleReceived ans r) (fun _ w' => MakesTimer w w') (fun _ _ => True) w := by
  have huntimed : ∀ {m : M Unit}, Untimed m →
      wp m (fun _ w' => MakesTimer w w') (fun _ _ => True) w :=
    fun h => wp_mono (h.wp w) (fun _ _ h => Or.inl h) fun _ _ _ => trivial
  simp only [handleReceived, wp_bind, wp_assert, wp_gets]
  refine ⟨fun _ => ?_, fun _ => trivial⟩
  rw [wp_ite, wp_ite]
  refine ⟨fun _ => huntimed (Untimed.pure _), fun _ => ⟨fun _ => ?_, fun _ => ?_⟩⟩
  · exact huntimed ((Untimed.sendPdu _ _ _).bind fun _ => Untimed.closeFds r.fds r.nfds)
  · simp only [wp_bind]
    refine wp_mono (wp_processRequest_sets hledger hnum) (fun b w₁ h => ?_) fun _ _ _ => trivial
    rcases h with h | ⟨rfl, h⟩
    · have hrest : Untimed (if b = true then pure () else closeFds ans r.fds r.nfds) :=
        Untimed.ite (Untimed.pure ()) (Untimed.closeFds r.fds r.nfds)
      refine wp_mono (hrest.wp w₁) (fun _ w₂ h₂ => ?_) fun _ _ _ => trivial
      exact Or.inl (trans_of NoNewTimer h h₂)
    · exact Or.inr h

end Requests

/-- A step that does not end the server makes one timer or none. -/
theorem next_makesTimer (hledger : Ledger s.world.srv) (hnum : s.world.kern.Numbered)
    (hn : next (ans, l) s = some (.ok s')) (hrun : s'.phase ≠ .stopped) :
    MakesTimer s.world s'.world := by
  have hshut : ∀ w, shutdown ans w ≠ .ok s' := by
    intro w hw
    obtain ⟨_, w', hs'⟩ := settle_ok hw
    cases hs'
    exact hrun rfl
  have huntimed : ∀ {α : Type} {m : M α} {w : World} {f : α → World → Except Fault State},
      Untimed m → settle (m w) f = .ok s' → (∀ a w', f a w' = .ok s' → s'.world = w') →
      MakesTimer w s'.world := by
    intro α m w f hm hsettle hf
    refine settle_of_wp (P := fun res => res = .ok s' → MakesTimer w s'.world) (hm.wp w) ?_ ?_
      hsettle
    · intro a w' h hres
      rw [hf a w' hres]
      exact Or.inl h
    · intro e w' _ hres
      cases hres
  obtain ⟨w, phase⟩ := s
  cases l with
  | wait evs =>
      cases phase <;> simp only [next, reduceCtorEq] at hn
      split at hn
      · cases hn
        exact Or.inl (refl_of NoNewTimer w)
      · cases hn
  | waitFailed e =>
      cases phase <;> simp only [next, reduceCtorEq] at hn
      split at hn
      · exact absurd (Option.some.inj hn) (hshut _)
      · cases hn
        exact Or.inl ⟨fun _ _ ht => ht, List.Sublist.refl _⟩
  | event garbage =>
      cases phase with
      | events evs =>
          cases evs with
          | nil => simp only [next, reduceCtorEq] at hn
          | cons ev rest =>
              simp only [next, Option.some.injEq] at hn
              refine huntimed (Untimed.dispatchEvent ev) hn fun d w' hres => ?_
              cases d with
              | stop => exact absurd hres (hshut _)
              | request | handled =>
                  cases hres
                  rfl
      | _ => simp only [next, reduceCtorEq] at hn
  | receive d =>
      cases phase <;> simp only [next, reduceCtorEq, Option.some.injEq] at hn
      refine huntimed (Untimed.usRecv _ d) hn fun o w' hres => ?_
      cases o with
      | none =>
          dsimp only at hres
          split at hres
          · exact absurd hres (hshut _)
          · cases hres
            rfl
      | some r =>
          cases hres
          rfl
  | receiveFailed e =>
      cases phase <;> simp only [next, reduceCtorEq] at hn
      split at hn
      · exact absurd (Option.some.inj hn) (hshut _)
      · cases hn
        exact Or.inl ⟨fun _ _ ht => ht, List.Sublist.refl _⟩
  | request =>
      cases phase <;> simp only [next, reduceCtorEq, Option.some.injEq] at hn
      refine settle_of_wp (P := fun res => res = .ok s' → MakesTimer w s'.world)
        (wp_handleReceived_sets hledger hnum) ?_ ?_ hn
      · intro _ w' h hres
        cases hres
        exact h
      · intro e w' _ hres
        cases hres
  | deferred =>
      cases phase with
      | events evs =>
          cases evs with
          | cons ev rest => simp only [next, reduceCtorEq] at hn
          | nil =>
              simp only [next, Option.some.injEq] at hn
              refine huntimed Untimed.processDeferred hn fun _ w' hres => ?_
              cases hres
              rfl
      | _ => simp only [next, reduceCtorEq] at hn
  | clientCloses m =>
      simp only [next] at hn
      split at hn
      · cases hn
      · cases hn
        refine Or.inl ⟨fun t tm ht => ?_, ?_⟩
        · unfold clientClose at ht
          split at ht <;> exact ht
        · unfold clientClose
          split
          · exact List.Sublist.refl _
          · exact List.filter_sublist.filter _

/-- The next step handles an event of the timer. -/
def Expiring (l : Label) (s : State) (t : Ptr) : Prop :=
  ∃ garbage ev rest, l = .event garbage ∧ s.phase = .events (ev :: rest) ∧ ev.udata = .timer t

/-- A timer is deleted by its own event only, or by the request that made it. -/
theorem StepMay.expire_event (h : StepMay ans l s (.expire t) c) :
    s.world.srv.nextPtr < t ∨ Expiring l s t := by
  cases h with
  | free ha => cases ha
  | event hl hphase ha =>
      cases ha with
      | free ha => cases ha
      | xfer _ _ _ ha =>
          cases ha with
          | free ha => cases ha
          | speak ha => cases ha
      | expire hu => exact Or.inr ⟨_, _, _, hl, hphase, hu⟩
  | request _ _ _ _ ha =>
      cases ha with
      | free ha => cases ha
      | expire ht => exact Or.inl ht
  | deferred _ _ ha =>
      cases ha with
      | free ha => cases ha
      | speak ha => cases ha

/-- The timers that are registered, once for each registration. -/
def Kernel.timed (k : Kernel) : List Ptr := k.regs.filterMap fun reg => reg.udata.timer?

theorem Kernel.timed_eq (k : Kernel) :
    k.timed = k.clocks.filterMap fun reg => reg.udata.timer? := by
  unfold Kernel.timed Kernel.clocks
  rw [List.filterMap_filter]
  congr 1
  funext reg
  cases reg.udata.timer? <;> rfl

theorem NoNewTimer.timed (h : NoNewTimer w w') : w'.kern.timed.Sublist w.kern.timed := by
  rw [Kernel.timed_eq, Kernel.timed_eq]
  exact h.clocks.filterMap _

/-- The timers the rest of the batch refers to. -/
def State.pendingTimers (s : State) : List Ptr := s.pending.filterMap fun ev => ev.udata.timer?

/-- The timer is live, and `timerfd_create` did not fail for it. -/
def Server.Runs (s : Server) (t : Ptr) : Prop := ∃ tm, s.timerAt t = some tm ∧ tm.ident ≠ -1

/-- Registrations and events of timers go together with the live timers. -/
structure Timekeeping (s : State) : Prop where
  armed : ∀ t tm, s.world.srv.timerAt t = some tm → tm.ident ≠ -1 → ∃ n, Ticking t tm n s.config
  known : ∀ reg ∈ s.world.kern.regs, ∀ t, reg.udata = .timer t → s.world.srv.Runs t
  once : s.world.kern.timed.Nodup
  distinct : s.pendingTimers.Nodup
  live : ∀ t ∈ s.pendingTimers, s.world.srv.Runs t

/-- What a step knows of the timer `t` that was running when it began. -/
structure Minded (l : Label) (s : State) (t : Ptr) (tm : ResrcTimer) (n : Nat) (c : Config) :
    Prop where
  ledger : Ledger c.world.srv
  descriptors : Descriptors (0 < ·) c
  ticking : Ticking t tm n c
  kept : ¬ Expiring l s t → c.world.srv.timerAt t = some tm

theorem Minded.performs (h : Minded l s t tm n c) (hknown : t < s.world.srv.nextPtr)
    (hident : tm.ident ≠ -1) (ha : StepMay ans l s a c) (hp : Performs a c c') :
    Minded l s t tm n c' := by
  have hbotch : a ≠ .botch t := by
    rintro rfl
    obtain ⟨-, -, -, -, -, -, -, -, -, hlater, -⟩ := ha.botch_cases
    exact Nat.lt_asymm hlater hknown
  have hexpire : a = .expire t → Expiring l s t := by
    rintro rfl
    exact ha.expire_event.resolve_left (Nat.lt_asymm hknown)
  refine ⟨h.ledger.performs hp, h.descriptors.performs_pos hp, ?_, fun hother => ?_⟩
  · by_cases hown : a = .expire t
    · subst hown
      exact h.ticking.expired hp
    · exact h.ticking.other h.ledger h.descriptors hp hown hbotch
  · exact hp.timer h.ledger (h.kept hother) hident (fun hown => hother (hexpire hown)) hbotch

/-- A step keeps the invariant of a running timer, and the timer itself unless it handles its
event. -/
theorem Timekeeping.minded (h : Timekeeping s) (hr : server.Reachable System.always s)
    (hn : next (ans, l) s = some (.ok s')) (hrun : s'.phase ≠ .stopped)
    (ht : s.world.srv.timerAt t = some tm) (hident : tm.ident ≠ -1) :
    ∃ n, Minded l s t tm n s'.config := by
  obtain ⟨hledger, hok⟩ := reachable_ledger hr
  obtain ⟨n, hticking⟩ := h.armed t tm ht hident
  have hstart : Minded l s t tm n s.config :=
    ⟨hledger, reachable_descriptors hr hn, hticking, fun _ => ht⟩
  have hends := next_ends (A := StepMay ans l s) (fun a c ha => ha) hok hledger.nodup hn
  generalize hres : Except.ok s' = res at hends
  cases hends with
  | fault => cases hres
  | shut hacts =>
      obtain ⟨a, w', hstop⟩ := settle_ok hres.symm
      cases hstop
      exact absurd rfl hrun
  | next _ hacts =>
      cases hres
      refine ⟨n, hacts.keeps (fun a c c' ha hp hc => ?_) hstart⟩
      exact hc.performs (hledger.timer_lt t tm ht) hident ha hp

/-- A timer that has a descriptor has one that is not zero. -/
def Server.TimersPos (s : Server) : Prop :=
  ∀ t tm, s.timerAt t = some tm → tm.ident = -1 ∨ 0 < tm.ident

theorem timersPos_kept : Kept anything System.always (fun c => c.world.srv.TimersPos) where
  grants := fun _ _ _ _ _ _ _ _ _ _ => trivial
  acts := by
    intro a c c' _ _ hp h t tm ht
    have hother : ∀ u o, c'.world.srv.timerAt = Function.update c.world.srv.timerAt u o → t ≠ u →
        tm.ident = -1 ∨ 0 < tm.ident := by
      intro u o heq hne
      rw [heq, Function.update_of_ne hne] at ht
      exact h t tm ht
    rcases hp.timerAt_cases with heq | ⟨tm₀, hneg, heq⟩ | heq | ⟨u, tm₀, fd, hu, -, hpos, heq⟩ |
      ⟨u, -, heq⟩
    · exact h t tm (heq ▸ ht)
    · by_cases hnew : t = c.world.srv.nextPtr
      · rw [heq, hnew, Function.update_self] at ht
        cases ht
        exact Or.inl hneg
      · exact hother _ _ heq hnew
    · rw [heq] at ht
      exact h t tm (of_update_none ht).2
    · by_cases hown : t = u
      · rw [heq, hown, Function.update_self] at ht
        cases ht
        exact Or.inr hpos
      · exact hother _ _ heq hown
    · rw [heq] at ht
      exact h t tm (of_update_none ht).2

theorem reachable_timersPos (hr : server.Reachable System.always s) (hrun : s.phase ≠ .stopped) :
    s.world.srv.TimersPos := by
  have hinit : ∀ s, Initial s → s.config.world.srv.TimersPos := by
    intro s hinit t tm ht
    rw [show s.config.world.srv.timerAt t = none from hinit.empty.2.1 t] at ht
    cases ht
  rcases timersPos_kept.reachable hinit hr with hs | hs
  · exact hs.inv
  · exact absurd hs.1 hrun

namespace Timekeeping

variable (h : Timekeeping s) (hr : server.Reachable System.always s)
  (hn : next (ans, l) s = some (.ok s')) (hrun : s'.phase ≠ .stopped)

include h hr hn hrun

/-- The registrations that were there before. -/
theorem still_known {reg : Reg} (hold : reg ∈ s.world.kern.regs) (hreg : reg ∈ s'.world.kern.regs)
    (hu : reg.udata = .timer t) : s'.world.srv.Runs t := by
  obtain ⟨tm, ht, hident⟩ := h.known reg hold t hu
  obtain ⟨n, hminded⟩ := h.minded hr hn hrun ht hident
  exact ⟨tm, (hminded.ticking.regs reg hreg hu).1, hident⟩

/-- A timer the step has made. -/
theorem armed_new {tm : ResrcTimer} (hset : SetsTimer s.world t tm s'.world)
    (hident : tm.ident ≠ -1) : ∃ n, Ticking t tm n s'.config := by
  have hr' : server.Reachable System.always s' := hr.step trivial hn
  have ht : s'.world.srv.timerAt t = some tm := by
    rw [hset.timerAt]
    exact Function.update_self ..
  have hpos := (reachable_timersPos hr' hrun t tm ht).resolve_left hident
  rcases hset.clocked with ⟨hneg, -⟩ | ⟨n, hlookup, hsole, hregs⟩
  · exact absurd hneg hident
  refine ⟨n, ?_, ?_, ?_, ?_, ?_⟩
  · exact (reachable_ledger hr').1.timer_lt t tm ht
  · exact (reachable_numbered hr' hrun).fds _ _ hlookup
  · intro tm' ht'
    have hsame : tm' = tm := Option.some.inj (ht'.symm.trans ht)
    refine ⟨hsame, hpos, hlookup, ?_⟩
    change _ ∈ s'.world.kern.regs
    rw [hregs]
    exact List.mem_append_right _ List.mem_cons_self
  · exact fun fd hf => ⟨hsole fd hf, ht⟩
  · intro reg hreg hu
    change reg ∈ s'.world.kern.regs at hreg
    rw [hregs] at hreg
    rcases List.mem_append.mp hreg with hold | hin
    · -- a timer that was registered before is not new
      obtain ⟨tm₀, ht₀, -⟩ := h.known reg hold t hu
      exact absurd ((reachable_ledger hr).1.timer_lt t tm₀ ht₀) (Nat.not_lt.mpr hset.isNew)
    · rw [List.mem_singleton.mp hin]
      exact ⟨ht, rfl, rfl⟩

theorem next_armed (ht : s'.world.srv.timerAt t = some tm) (hident : tm.ident ≠ -1)
    (hmakes : MakesTimer s.world s'.world) : ∃ n, Ticking t tm n s'.config := by
  have hold : s.world.srv.timerAt t = some tm → ∃ n, Ticking t tm n s'.config := by
    intro ht₀
    obtain ⟨n, hminded⟩ := h.minded hr hn hrun ht₀ hident
    exact ⟨n, hminded.ticking⟩
  rcases hmakes with hnone | ⟨u, tm₀, hset⟩
  · exact hold (hnone.timers t tm ht)
  · by_cases hown : t = u
    · subst hown
      rw [hset.timerAt, Function.update_self] at ht
      cases ht
      exact h.armed_new hr hn hrun hset hident
    · rw [hset.timerAt, Function.update_of_ne hown] at ht
      exact hold ht

theorem next_known (hmakes : MakesTimer s.world s'.world) {reg : Reg}
    (hreg : reg ∈ s'.world.kern.regs) (hu : reg.udata = .timer t) : s'.world.srv.Runs t := by
  rcases hmakes with hnone | ⟨u, tm, hset⟩
  · have hclock := hnone.clocks.subset (Kernel.mem_clocks.mpr ⟨hreg, t, hu⟩)
    exact h.still_known hr hn hrun (Kernel.mem_clocks.mp hclock).1 hreg hu
  · rcases hset.clocked with ⟨-, hregs⟩ | ⟨n, hlookup, -, hregs⟩
    · exact h.still_known hr hn hrun (hregs ▸ hreg) hreg hu
    · have hmem := hreg
      rw [hregs] at hmem
      rcases List.mem_append.mp hmem with hold | hin
      · exact h.still_known hr hn hrun hold hreg hu
      · rw [List.mem_singleton.mp hin] at hu
        cases hu
        refine ⟨tm, ?_, ?_⟩
        · rw [hset.timerAt]
          exact Function.update_self ..
        · intro hneg
          rw [hneg] at hlookup
          have hnum := reachable_numbered (hr.step (l := (ans, l)) trivial hn) hrun
          exact hnum.notMem_neg (Kernel.mem_of_lookup hlookup)

omit hn hrun in
theorem next_once (hmakes : MakesTimer s.world s'.world) : s'.world.kern.timed.Nodup := by
  rcases hmakes with hnone | ⟨u, tm, hset⟩
  · exact hnone.timed.nodup h.once
  · rcases hset.clocked with ⟨-, hregs⟩ | ⟨n, -, -, hregs⟩
    · unfold Kernel.timed
      rw [hregs]
      exact h.once
    · unfold Kernel.timed
      rw [hregs, List.filterMap_append]
      refine List.Nodup.append h.once (List.nodup_singleton u) ?_
      intro t ht hin
      have hsame : t = u := by simpa [Udata.timer?] using hin
      subst hsame
      obtain ⟨reg, hreg, hu⟩ := List.mem_filterMap.mp ht
      obtain ⟨tm₀, ht₀, -⟩ := h.known reg hreg t (Udata.timer?_eq_some.mp hu)
      exact absurd ((reachable_ledger hr).1.timer_lt t tm₀ ht₀) (Nat.not_lt.mpr hset.isNew)

/-- A running timer whose event is not handled goes on running. -/
theorem still_runs (hruns : s.world.srv.Runs t) (hother : ¬ Expiring l s t) :
    s'.world.srv.Runs t := by
  obtain ⟨tm, ht, hident⟩ := hruns
  obtain ⟨n, hminded⟩ := h.minded hr hn hrun ht hident
  exact ⟨tm, hminded.kept hother, hident⟩

theorem next : Timekeeping s' := by
  have hr' : server.Reachable System.always s' := hr.step trivial hn
  have hrun₀ : s.phase ≠ .stopped := by
    intro hstop
    rw [next_stopped hstop _] at hn
    cases hn
  have hmakes := next_makesTimer (reachable_ledger hr).1 (reachable_numbered hr hrun₀) hn hrun
  refine ⟨fun t tm ht hident => h.next_armed hr hn hrun ht hident hmakes,
    fun reg hreg t hu => h.next_known hr hn hrun hmakes hreg hu, h.next_once hr hmakes, ?_, ?_⟩
  · rcases next_pending hn with ⟨hphase, evs, hvalid, rfl⟩ | hsub
    · obtain ⟨us, hperm, hsub⟩ := hvalid.1
      have hus : (us.filterMap Udata.timer?).Perm (State.pendingTimers ⟨s.world, .events evs⟩) := by
        refine (hperm.filterMap _).trans (List.Perm.of_eq ?_)
        rw [List.filterMap_map]
        rfl
      have hregs := hsub.filterMap Udata.timer?
      rw [List.filterMap_map] at hregs
      exact hus.nodup (List.Sublist.nodup hregs h.once)
    · have hsub' := (hsub.trans (l.leaves_sublist _)).filterMap fun ev => ev.udata.timer?
      exact hsub'.nodup h.distinct
  · intro t ht
    obtain ⟨ev, hev, hu⟩ := List.mem_filterMap.mp ht
    rw [Udata.timer?_eq_some] at hu
    rcases next_pending hn with ⟨hphase, evs, hvalid, rfl⟩ | hsub
    · obtain ⟨reg, hreg, hregu⟩ := List.mem_map.mp (hvalid.1.subset (List.mem_map_of_mem hev))
      exact h.known reg hreg t (hregu.trans hu)
    · have hin := hsub.subset hev
      have hpending := h.live t (List.mem_filterMap.mpr
        ⟨ev, (l.leaves_sublist _).subset hin, Udata.timer?_eq_some.mpr hu⟩)
      refine h.still_runs hr hn hrun hpending ?_
      -- the batch has no second event of the timer
      rintro ⟨garbage, ev', rest, rfl, hphase, hu'⟩
      have hbatch : s.pending = ev' :: rest := by simp [State.pending, hphase]
      have hdistinct := h.distinct
      unfold State.pendingTimers at hdistinct
      rw [hbatch, List.filterMap_cons_some (f := fun ev : PollEvent => ev.udata.timer?)
        (Udata.timer?_eq_some.mpr hu')] at hdistinct
      rw [hbatch] at hin
      exact (List.nodup_cons.mp hdistinct).1
        (List.mem_filterMap.mpr ⟨ev, hin, Udata.timer?_eq_some.mpr hu⟩)

end Timekeeping

theorem timekeeping_initial (s : State) (hinit : Initial s) : Timekeeping s := by
  have hnone := hinit.empty.2.1
  have hpending : s.pendingTimers = [] := by
    simp [State.pendingTimers, State.pending, hinit.1]
  have hregs : ∀ reg ∈ s.world.kern.regs, ∀ t, reg.udata ≠ .timer t := by
    obtain ⟨-, reqfd, -, -, -, -, -, -, hkern⟩ := hinit
    intro reg hreg t hu
    rcases hkern.regs reg hreg with heq | heq <;> rw [hu] at heq <;> cases heq
  refine ⟨fun t tm ht => ?_, fun reg hreg t hu => absurd hu (hregs reg hreg t), ?_, ?_, ?_⟩
  · rw [hnone t] at ht
    cases ht
  · have hnil : s.world.kern.timed = [] := by
      refine List.filterMap_eq_nil_iff.mpr fun reg hreg => ?_
      cases hu : reg.udata.timer? with
      | none => rfl
      | some t => exact absurd (Udata.timer?_eq_some.mp hu) (hregs reg hreg t)
    rw [hnil]
    exact List.nodup_nil
  · rw [hpending]
    exact List.nodup_nil
  · rw [hpending]
    exact fun t ht => absurd ht List.not_mem_nil

theorem reachable_timekeeping (hr : server.Reachable System.always s) (hrun : s.phase ≠ .stopped) :
    Timekeeping s :=
  running_invariant timekeeping_initial
    (fun _ _ _ _ hreach h _ hn hrun' => h.next hreach hn hrun') hr hrun

/-- The faults of an expiring timer: its message was not written whole, or the deferred list
has no room for its transfer. -/
def Answers.TimerFails (ans : Answers) (e : Fault) : Prop :=
  ans.Torn e ∨ e = .assertion .deferCancel

theorem wp_processTimer_faults (hledger : Ledger w.srv) (ht : w.srv.timerAt t = some tm) :
    wp (processTimer ans t) (fun _ _ => True) (fun e _ => ans.TimerFails e) w := by
  have hdelete : ∀ w' : World, w'.srv.timerAt t = some tm →
      wp (eraseTimer tm.txnid) (fun _ w₁ => wp (timerDelete ans t) (fun _ _ => True)
        (fun e _ => ans.TimerFails e) w₁) (fun e _ => ans.TimerFails e) w' := by
    intro w' ht'
    simp only [eraseTimer, wp_onSrv]
    exact wp_timerDelete (by exact ht') trivial
  simp only [processTimer, wp_bind]
  apply wp_getTimer_live ht
  simp only [wp_gets]
  cases hfind : w.srv.xfers.find tm.txnid with
  | none => simpa only [wp_bind] using hdelete w ht
  | some q =>
      obtain ⟨y, hq, -⟩ := hledger.of_find hfind
      simp only [wp_bind]
      apply wp_getXfer_live hq
      rw [wp_ite]
      refine ⟨fun _ => ?_, fun _ => by simpa only [wp_bind] using hdelete w ht⟩
      simp only [wp_bind, sendXferErr]
      apply wp_sendPdu_whole
      · intro b k result _
        simp only [deferCancel, wp_bind]
        apply wp_getXfer_live (by exact hq)
        simp only [wp_gets, wp_assert]
        refine ⟨fun _ => ?_, fun _ => Or.inr rfl⟩
        rw [wp_ite]
        constructor
        · intro _
          simp only [pushDeferred, wp_bind, wp_onSrv]
          exact wp_setDefer (by exact hq) (hdelete _ ht)
        · intro _
          exact wp_setDefer (by exact hq) (hdelete _ ht)
      · exact fun htorn _ => Or.inl ⟨rfl, htorn⟩

/-- The request socket is no timer's descriptor. -/
theorem Ticking.ne_reqfd (h : Ticking t tm n c) (hd : Descriptors (0 < ·) c)
    (ht : c.world.srv.timerAt t = some tm) : tm.ident ≠ c.world.srv.reqfd := by
  intro heq
  have hsocket : c.world.srv.Owns c.loose .socket tm.ident := heq
  cases h.owner hd ht hsocket

/-- Dispatching an event of a timer that is still to be handled. -/
theorem Timekeeping.wp_dispatchEvent (h : Timekeeping s) (hledger : Ledger s.world.srv)
    (hd : Descriptors (0 < ·) s.config) {ev : PollEvent} (hev : ev ∈ s.pending)
    (hu : ev.udata = .timer t) :
    wp (dispatchEvent ans ev) (fun d _ => d = .handled) (fun e _ => ans.TimerFails e) s.world := by
  have hmem : t ∈ s.pendingTimers := List.mem_filterMap.mpr ⟨ev, hev, Udata.timer?_eq_some.mpr hu⟩
  obtain ⟨tm, ht, hident⟩ := h.live t hmem
  obtain ⟨n, hticking⟩ := h.armed t tm ht hident
  have hne := hticking.ne_reqfd hd ht
  apply wp_dispatchEvent_resource
  · rw [hu]
    exact Udata.noConfusion
  · simp only [hu, identOf, wp_bind, wp_pure]
    exact wp_getTimer_live ht ⟨rfl, fun heq => hne (Option.some.inj heq)⟩
  · simp only [hu, processResource]
    exact wp_mono (wp_processTimer_faults hledger ht) (fun _ _ _ => trivial) fun _ _ he => he

/-- In every run: a timer is registered exactly if it is live and `timerfd_create` did not
fail for it, and then once, under its own descriptor, which is the only one of its open file;
the events still to be handled refer to live timers, no two of them to the same one, and none
of them makes the server use freed memory. -/
theorem timer_registrations (hr : server.Reachable System.always s) (hrun : s.phase ≠ .stopped) :
    (∀ t, s.world.srv.Runs t ∧ s.world.kern.timed.count t = 1 ∨
      ¬ s.world.srv.Runs t ∧ s.world.kern.timed.count t = 0) ∧
    (∀ reg ∈ s.world.kern.regs, ∀ t, reg.udata = .timer t →
      ∃ tm n, s.world.srv.timerAt t = some tm ∧ reg.fd = tm.ident ∧ reg.file = .timerfd n ∧
        ∀ fd, s.world.kern.fds.lookup fd = some reg.file ↔ fd = reg.fd) ∧
    s.pendingTimers.Nodup ∧ (∀ t ∈ s.pendingTimers, s.world.srv.Runs t) ∧
    ∀ ans garbage ev rest t e, s.phase = .events (ev :: rest) → ev.udata = .timer t →
      server.next (ans, .event garbage) s = some (.error e) →
      e = .assertion .sendPduWhole ∨ e = .assertion .deferCancel := by
  have h := reachable_timekeeping hr hrun
  refine ⟨fun t => ?_, fun reg hreg t hu => ?_, h.distinct, h.live, ?_⟩
  · by_cases hruns : s.world.srv.Runs t
    · obtain ⟨tm, ht, hident⟩ := hruns
      obtain ⟨n, hticking⟩ := h.armed t tm ht hident
      have hmem : t ∈ s.world.kern.timed :=
        List.mem_filterMap.mpr ⟨_, (hticking.live tm ht).2.2.2, rfl⟩
      exact Or.inl ⟨⟨tm, ht, hident⟩, List.count_eq_one_of_mem h.once hmem⟩
    · refine Or.inr ⟨hruns, List.count_eq_zero.mpr fun hmem => hruns ?_⟩
      obtain ⟨reg, hreg, hu⟩ := List.mem_filterMap.mp hmem
      exact h.known reg hreg t (Udata.timer?_eq_some.mp hu)
  · obtain ⟨tm, ht, hident⟩ := h.known reg hreg t hu
    obtain ⟨n, hticking⟩ := h.armed t tm ht hident
    obtain ⟨-, hfd, hfile⟩ := hticking.regs reg hreg hu
    refine ⟨tm, n, ht, hfd, hfile, fun fd => ?_⟩
    rw [hfile, hfd]
    constructor
    · exact fun hf => (hticking.sole fd hf).1
    · rintro rfl
      exact (hticking.live tm ht).2.2.1
  · intro ans garbage ev rest t e hphase hu hn
    have hev : ev ∈ s.pending := by
      simp [State.pending, hphase]
    have hwp : wp (dispatchEvent ans ev) _ _ s.world :=
      h.wp_dispatchEvent (reachable_ledger hr).1 (reachable_descriptors hr hn) hev hu
    obtain ⟨w, phase⟩ := s
    subst hphase
    simp only [server, next, Option.some.injEq] at hn
    refine settle_of_wp (P := fun res => res = .error e → _) hwp ?_ ?_ hn
    · rintro d w' rfl hres
      cases hres
    · intro e' w' he hres
      cases hres
      exact he.imp_left And.left

section Runs

open Scenario

theorem timer_registrations_of_openFileOnly : ∃ s, server.Reachable System.always s ∧
    s.pendingTimers = [1] ∧ s.world.srv.Runs 1 ∧ s.world.kern.timed.count 1 = 1 := by
  obtain ⟨s, hr, hP⟩ := exists_reachable System.always 4 4
    (openFileOnly ++ [(answers tenBytes, .wait [expiring 1])])
    (fun s => s.phase != .stopped && s.pendingTimers == [1]) (by decide +kernel)
  simp only [Bool.and_eq_true, beq_iff_eq, bne_iff_ne, ne_eq] at hP
  obtain ⟨hcount, -, -, hlive, -⟩ := timer_registrations hr hP.1
  have hruns : s.world.srv.Runs 1 := hlive 1 (by simp [hP.2])
  refine ⟨s, hr, hP.2, hruns, ?_⟩
  rcases hcount 1 with ⟨-, hone⟩ | ⟨hnot, -⟩
  · exact hone
  · exact absurd hruns hnot

end Runs

end Sendfiled
