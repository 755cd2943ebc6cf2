/-
Pending responses.  A message that ends a transfer and cannot be written for the moment is
held back with a duplicate of the status descriptor, registered with the poller, until it
is written or the channel fails.
-/
import Sendfiled.Delivery
import Sendfiled.Undoing
import Sendfiled.StatusChannel

namespace Sendfiled

open Prog Transition

variable {ans : Answers} {l : Label} {s s' : State} {a : Action} {c c' : Config} {p r : Ptr}
  {x y : ResrcXfer} {resp : ResrcResp} {f : OpenFile} {w w' : World} {pdu : Pdu} {fd : Fd}

/-- A write after which nothing is left to be done: the whole message went out, or the
channel has failed. -/
def Final (pdu : Pdu) (result : Except Errno Nat) : Prop :=
  result = .ok pdu.size ∨ ∃ e, result = .error e ∧ errnoIsFatal e = true

/-- The poller refuses the duplicate of `f` that gets the next descriptor: the number is
still registered for `f`, or `epoll_ctl` fails. -/
def World.RefusesCopy (ans : Answers) (f : OpenFile) (w : World) : Prop :=
  (∃ reg ∈ w.kern.regs, reg.fd = w.kern.fileFd ∧ reg.file = f) ∨
    ∃ n, ans.epollAdd n ≠ none

/-- The kernel after a message was held back. -/
def Kernel.holding (e : Effect) (f : OpenFile) (r : Ptr) (k : Kernel) : Kernel :=
  { k.log e with
    fds := k.fds.insert k.fileFd f
    regs := k.regs ++ [⟨k.fileFd, f, .resp r⟩] }

/-- What `send_terminal_resp` leaves behind: nothing, after a final write or where `dup`
fails; nothing, where the poller refuses the duplicate, which is then closed; or a pending
response that owns the duplicate. -/
inductive NoticeEnds (ans : Answers) (p : Ptr) (fd : Fd) (pdu : Pdu) (w : World) : World → Prop
  | settled {k : Kernel} {result : Except Errno Nat}
      (hk : (w.kern.log (.sent (some p) fd pdu result)).Quiet k) (hresult : Final pdu result) :
      NoticeEnds ans p fd pdu w ⟨w.srv, k⟩
  | unduplicated {k : Kernel} {e : Errno} (he : errnoIsFatal e = false)
      (hk : (w.kern.log (.sent (some p) fd pdu (.error e))).Quiet k)
      (hdup : ∃ n, ans.dup n ≠ none) : NoticeEnds ans p fd pdu w ⟨w.srv, k⟩
  | refused {s : Server} {k : Kernel} {e : Errno} {f : OpenFile} (he : errnoIsFatal e = false)
      (hf : w.kern.fds.lookup fd = some f) (hrefused : w.RefusesCopy ans f)
      (hs : w.srv.skipResp.Quiet s) (hfds : ∀ fd', k.fds.lookup fd' = w.kern.fds.lookup fd')
      (hregs : k.regs = w.kern.regs)
      (htrace : k.trace = w.kern.trace ++
        [.sent (some p) fd pdu (.error e), .closed w.kern.fileFd true]) :
      NoticeEnds ans p fd pdu w ⟨s, k⟩
  | held {s : Server} {k : Kernel} {e : Errno} {f : OpenFile} {addr : Addr}
      (he : errnoIsFatal e = false) (hf : w.kern.fds.lookup fd = some f)
      (hs : (w.srv.newResp ⟨addr, w.kern.fileFd, pdu, p⟩).Quiet s)
      (hk : (w.kern.holding (.sent (some p) fd pdu (.error e)) f w.srv.nextPtr).Quiet k) :
      NoticeEnds ans p fd pdu w ⟨s, k⟩

/-- Closing one of two descriptors for an open file leaves its registrations. -/
theorem Kernel.close_copy (k : Kernel) {fd' : Fd} (hfd : k.fds.lookup fd = some f)
    (hfd' : k.fds.lookup fd' = some f) (hne : fd' ≠ fd) :
    (k.close ans fd).2.regs = k.regs ∧
      (k.close ans fd).2.trace = k.trace ++ [.closed fd true] := by
  have hcopy : k.hasCopy ans (k.fds.erase fd) f = true := by
    have hkept : (k.fds.erase fd).lookup fd' = some f := (AList.lookup_erase_ne hne).trans hfd'
    unfold Kernel.hasCopy
    rw [Bool.or_eq_true, List.any_eq_true]
    exact Or.inl ⟨⟨fd', f⟩, AList.mem_lookup_iff.mp hkept, by simp⟩
  unfold Kernel.close
  rw [hfd]
  simp only [hcopy, if_true]
  exact ⟨rfl, rfl⟩

/-- The last part of `send_terminal_resp`, after the duplicate was made. -/
theorem wp_registerCopy {e : Errno} {k : Kernel} (hf : w.kern.fds.lookup fd = some f)
    (he : errnoIsFatal e = false)
    (hk : Kernel.Quiet { w.kern.log (.sent (some p) fd pdu (.error e)) with
      fds := w.kern.fds.insert w.kern.fileFd f } k)
    {E : Fault → World → Prop}
    (hE : ¬ ans.Allocates ⟨w.srv, k⟩ → ∀ k', k'.trace = k.trace ++ [.closed w.kern.fileFd true] →
      E .nullDeref ⟨w.srv, k'⟩) :
    wp (do
      match ← newResrcResp ans p w.kern.fileFd pdu with
      | none =>
          close ans w.kern.fileFd
          halt .nullDeref
      | some r =>
          if ← syspollRegister ans w.kern.fileFd (.resp r) then pure ()
          else
            respFree r
            close ans w.kern.fileFd)
      (fun _ w' => NoticeEnds ans p fd pdu w w') E ⟨w.srv, k⟩ := by
  have hfds : k.fds = w.kern.fds.insert w.kern.fileFd f := hk.fds
  have hcopy : k.fds.lookup w.kern.fileFd = some f := by
    rw [hfds]
    exact AList.lookup_insert _
  have hne : fd ≠ w.kern.fileFd := fun heq =>
    Kernel.fileFd_notMem w.kern (heq ▸ Kernel.mem_of_lookup hf)
  have hfd : k.fds.lookup fd = some f := by
    rw [hfds, AList.lookup_insert_ne hne, hf]
  simp only [newResrcResp, wp_bind]
  refine wp_malloc_cases (fun hnone => ?_) fun addr _ _ => ?_
  · simp only [wp_pure, close, wp_bind, wp_sys, wp_halt]
    obtain ⟨-, htrace⟩ := (k.fail ENOMEM).close_copy hcopy hfd hne
    exact hE hnone _ htrace
  simp only [wp_bind, wp_gets, wp_onSrv, wp_pure]
  refine wp_syspollRegister_cases (fun e' herr => ?_) fun g _ hg => ?_
  · -- the response is freed and the duplicate closed
    simp only [Bool.false_eq_true, if_false, respFree, close, wp_bind, wp_onSrv, wp_sys, wp_pure]
    refine wp_getResp_live (r := w.srv.nextPtr) (by exact Function.update_self ..) ?_
    obtain ⟨hregs, htrace⟩ := (k.succeed.fail e').close_copy hcopy hfd hne
    refine .refused he hf ?_ ?_ (fun fd' => ?_) (hregs.trans hk.regs) ?_
    · rcases Kernel.epollAddError_some herr (by exact hcopy) with ⟨reg, hreg, hsame⟩ | hfailed
      · exact Or.inl ⟨reg, hk.regs ▸ hreg, hsame⟩
      · exact Or.inr ⟨_, by rw [hfailed]; exact Option.some_ne_none e'⟩
    · simp [Server.Quiet, Server.skipResp, Server.newResp, Server.dropResp, Server.release]
    · rw [Kernel.close_fds]
      change (k.fds.erase w.kern.fileFd).lookup fd' = _
      by_cases heq : fd' = w.kern.fileFd
      · rw [heq, AList.lookup_erase]
        exact (AList.lookup_eq_none.mpr (Kernel.fileFd_notMem w.kern)).symm
      · rw [AList.lookup_erase_ne heq, hfds, AList.lookup_insert_ne heq]
    · have htold : k.trace = w.kern.trace ++ [.sent (some p) fd pdu (.error e)] := hk.trace
      rw [htrace]
      change k.trace ++ _ = _
      rw [htold, List.append_assoc]
      rfl
  · simp only [if_true, wp_pure]
    have hsame : g = f := Option.some.inj (hg.symm.trans hcopy)
    subst hsame
    refine @NoticeEnds.held ans p fd pdu w _ _ e _ addr he hf rfl ?_
    unfold Kernel.Quiet at hk ⊢
    simp only [Kernel.succeed, Kernel.holding, Kernel.log] at hk ⊢
    rw [hk]

/-- An allocation fails although nothing but the objects of `s` is allocated. -/
def Answers.Starves (ans : Answers) (s : Server) : Prop :=
  ∃ n, ∀ addr, ans.malloc n = some addr → s.allocated addr = true

/-- What stops a notice: a write that is short, or an allocation that fails. -/
def Answers.Disrupts (ans : Answers) (s : Server) (e : Fault) : Prop :=
  (e = .assertion .sendPduWhole ∧ ∃ t size n, ans.write t size = .ok n ∧ n ≠ size) ∨
    e = .nullDeref ∧ ans.Starves s

/-- From `w` on, an allocation fails although nothing but the objects of `w` is allocated. -/
def Answers.RunsOut (ans : Answers) (w : World) : Prop :=
  ∃ n, w.kern.tick ≤ n ∧ ∀ addr, ans.malloc n = some addr → w.srv.allocated addr = true

theorem Answers.RunsOut.starves (h : ans.RunsOut w) : ans.Starves w.srv := by
  obtain ⟨n, -, hn⟩ := h
  exact ⟨n, hn⟩

/-- The only faults that matter here are those of the allocator. -/
def AllocFault (ans : Answers) (w : World) (e : Fault) : Prop := e = .nullDeref → ans.RunsOut w

/-- `send_terminal_resp` comes to one of its ends, unless a write is short or the response
cannot be allocated. -/
theorem wp_sendTerminalResp_ends (hp : w.srv.xferAt p = some x) :
    wp (sendTerminalResp ans p pdu) (fun _ w' => NoticeEnds ans p x.statFd pdu w w')
      (fun e w' => AllocFault ans w e ∧ ans.Disrupts w.srv e ∧ w'.srv = w.srv ∧
        ∃ tr, w'.kern.trace = w.kern.trace ++ tr ∧ movedBy p tr = []) w := by
  simp only [sendTerminalResp, wp_bind]
  refine wp_getXfer_live hp ?_
  simp only [sendPdu, wp_bind, wp_sys]
  unfold Kernel.write
  cases hf : w.kern.fds.lookup x.statFd with
  | none =>
      simp only [wp_pure, Bool.false_eq_true, if_false, wp_bind, wp_getErrno]
      rw [wp_ite]
      refine ⟨fun _ => .settled (Kernel.quiet_fail _ _) (Or.inr ⟨EBADF, rfl, by decide⟩),
        fun hlater => absurd rfl hlater⟩
  | some f =>
      simp only
      cases hwrite : ans.write w.kern.tick pdu.size with
      | ok n =>
          simp only [wp_bind, wp_assert, wp_pure]
          refine ⟨fun hn => ?_, fun hshort => ⟨Fault.noConfusion,
            Or.inl ⟨rfl, _, _, n, hwrite, hshort⟩, trivial, ?_⟩⟩
          case refine_2 => exact ⟨[.sent (some p) x.statFd pdu (.ok n)], rfl, rfl⟩
          subst hn
          exact .settled (Kernel.quiet_succeed _) (Or.inl rfl)
      | error e =>
          simp only [wp_pure, Bool.false_eq_true, if_false, wp_bind, wp_getErrno]
          rw [wp_ite]
          refine ⟨fun hfatal => .settled (Kernel.quiet_fail _ _) (Or.inr ⟨e, rfl, hfatal⟩),
            fun hlater => ?_⟩
          have he : errnoIsFatal e = false := Bool.eq_false_iff.mpr hlater
          simp only [wp_bind, wp_sys]
          unfold Kernel.dup
          rw [show ((w.kern.log _).fail e).fds.lookup x.statFd = some f from hf]
          simp only
          cases hdup :
              ans.dup ((w.kern.log (.sent (some p) x.statFd pdu (.error e))).fail e).tick with
          | some e' =>
              exact .unduplicated he ((Kernel.quiet_fail e _).trans (Kernel.quiet_fail e' _))
                ⟨_, by rw [hdup]; exact Option.some_ne_none e'⟩
          | none =>
              let k := (((w.kern.log (.sent (some p) x.statFd pdu (.error e))).fail e).install
                f).2.succeed
              have htick : w.kern.tick ≤ k.tick := Nat.le_add_right _ 2
              have hstarves : ¬ ans.Allocates ⟨w.srv, k⟩ → ans.RunsOut w := by
                intro hnone
                refine ⟨k.tick, htick, fun addr haddr => ?_⟩
                by_contra hfree
                exact hnone ⟨addr, haddr, Bool.eq_false_iff.mpr hfree⟩
              have hrest := @wp_registerCopy ans p f w pdu x.statFd e k
                hf he rfl (E := fun e w' => AllocFault ans w e ∧ ans.Disrupts w.srv e ∧
                  w'.srv = w.srv ∧
                  ∃ tr, w'.kern.trace = w.kern.trace ++ tr ∧ movedBy p tr = [])
                fun hnone k' htrace => ⟨fun _ => hstarves hnone,
                  Or.inr ⟨rfl, (hstarves hnone).starves⟩, rfl,
                  [.sent (some p) x.statFd pdu (.error e), .closed w.kern.fileFd true], ?_, rfl⟩
              case refine_1 =>
                rw [htrace]
                exact List.append_assoc ..
              simp only [wp_bind] at hrest ⊢
              exact hrest

section Transferring

/-- Nothing is told that ends the transfer `p`, and neither its descriptors nor what is held
back nor what is registered has changed. -/
structure Undisturbed (p : Ptr) (w w' : World) : Prop where
  fds : w'.kern.fds = w.kern.fds
  regs : w'.kern.regs = w.kern.regs
  tick : w.kern.tick ≤ w'.kern.tick
  respAt : w'.srv.respAt = w.srv.respAt
  nextPtr : w'.srv.nextPtr = w.srv.nextPtr
  allocated : w'.srv.allocated = w.srv.allocated
  xfer : ∀ x, w.srv.xferAt p = some x → ∃ y, w'.srv.xferAt p = some y ∧ y.statFd = x.statFd ∧
    y.destFd = x.destFd ∧ y.file = x.file
  trace : ∃ tr, w'.kern.trace = w.kern.trace ++ tr ∧
    ∀ e ∈ tr, e.ongoing ∧ ∀ fd b, e ≠ .closed fd b

namespace Undisturbed

variable {w₁ : World}

theorem refl (p : Ptr) (w : World) : Undisturbed p w w :=
  ⟨rfl, rfl, Nat.le_refl _, rfl, rfl, rfl, fun x hx => ⟨x, hx, rfl, rfl, rfl⟩, [],
    (List.append_nil _).symm, by simp⟩

theorem trans (h : Undisturbed p w w₁) (h' : Undisturbed p w₁ w') : Undisturbed p w w' := by
  obtain ⟨tr, htr, hall⟩ := h.trace
  obtain ⟨tr', htr', hall'⟩ := h'.trace
  refine ⟨h'.fds.trans h.fds, h'.regs.trans h.regs, Nat.le_trans h.tick h'.tick,
    h'.respAt.trans h.respAt, h'.nextPtr.trans h.nextPtr, h'.allocated.trans h.allocated,
    fun x hx => ?_, tr ++ tr', ?_, fun e he => ?_⟩
  · obtain ⟨y, hy, hstat, hdest, hfile⟩ := h.xfer x hx
    obtain ⟨z, hz, hstat', hdest', hfile'⟩ := h'.xfer y hy
    exact ⟨z, hz, hstat'.trans hstat, hdest'.trans hdest, hfile'.trans hfile⟩
  · rw [htr', htr, List.append_assoc]
  · rcases List.mem_append.mp he with he | he
    · exact hall e he
    · exact hall' e he

/-- One more call that ends nothing. -/
theorem log {k : Kernel} {e : Effect} (hk : (w.kern.log e).Quiet k)
    (htick : w.kern.tick ≤ k.tick) (he : e.ongoing) (hclose : ∀ fd b, e ≠ .closed fd b) :
    Undisturbed p w ⟨w.srv, k⟩ := by
  refine ⟨hk.fds, hk.regs, htick, rfl, rfl, rfl, fun x hx => ⟨x, hx, rfl, rfl, rfl⟩, [e],
    hk.trace, ?_⟩
  intro e' he'
  rw [List.mem_singleton.mp he']
  exact ⟨he, hclose⟩

/-- A change to the record that leaves its descriptors alone. -/
theorem setXfer (ds : List Ptr) (hx : w.srv.xferAt p = some x) (hstat : y.statFd = x.statFd)
    (hdest : y.destFd = x.destFd) (hfile : y.file = x.file) :
    Undisturbed p w ⟨{ w.srv.setXfer p y with deferredXfers := ds }, w.kern⟩ := by
  refine ⟨rfl, rfl, Nat.le_refl _, rfl, rfl, rfl, fun z hz => ?_, [], (List.append_nil _).symm,
    by simp⟩
  rw [hx] at hz
  cases hz
  exact ⟨y, by simp [Server.setXfer], hstat, hdest, hfile⟩

end Undisturbed

/-- What a call that serves the transfer `p` leaves behind: nothing that matters here, or
what the notice of the end leaves. -/
inductive TransferEnds (ans : Answers) (p : Ptr) (w : World) : World → Prop
  | quiet {w' : World} (h : Undisturbed p w w') : TransferEnds ans p w w'
  | notice {w₁ w' : World} {y : ResrcXfer} {pdu : Pdu} (h : Undisturbed p w w₁)
      (hy : w₁.srv.xferAt p = some y) (hpdu : pdu.terminal = true)
      (hends : NoticeEnds ans p y.statFd pdu w₁ w') : TransferEnds ans p w w'

theorem TransferEnds.after {w₁ : World} (h : Undisturbed p w w₁)
    (hends : TransferEnds ans p w₁ w') : TransferEnds ans p w w' := by
  cases hends with
  | quiet h' => exact .quiet (h.trans h')
  | notice h' hy hpdu hnotice => exact .notice (h.trans h') hy hpdu hnotice

theorem AllocFault.after {w₁ : World} {e : Fault} (h : Undisturbed p w w₁)
    (he : AllocFault ans w₁ e) : AllocFault ans w e := by
  intro hnull
  obtain ⟨n, hle, hn⟩ := he hnull
  exact ⟨n, Nat.le_trans h.tick hle, h.allocated ▸ hn⟩

theorem wp_after {α : Type} {w₁ : World} {m : M α} (h : Undisturbed p w w₁)
    (hm : wp m (fun _ w' => TransferEnds ans p w₁ w') (fun e _ => AllocFault ans w₁ e) w₁) :
    wp m (fun _ w' => TransferEnds ans p w w') (fun e _ => AllocFault ans w e) w₁ :=
  wp_mono hm (fun _ _ hends => hends.after h) fun _ _ he => he.after h

theorem wp_notice_ends (hx : w.srv.xferAt p = some x) (hpdu : pdu.terminal = true) (b : Bool) :
    wp (do sendTerminalResp ans p pdu; pure b) (fun _ w' => TransferEnds ans p w w')
      (fun e _ => AllocFault ans w e) w := by
  simp only [wp_bind, wp_pure]
  refine wp_mono (wp_sendTerminalResp_ends hx) (fun _ w' hends => ?_) fun e w' he hnull => ?_
  · exact .notice (Undisturbed.refl p w) hx hpdu hends
  · subst hnull
    exact he.1 rfl

theorem wp_hasStatChannel_ends (hx : w.srv.xferAt p = some x) {m m' : M Bool}
    (hm : wp m (fun _ w' => TransferEnds ans p w w') (fun e _ => AllocFault ans w e) w)
    (hm' : wp m' (fun _ w' => TransferEnds ans p w w') (fun e _ => AllocFault ans w e) w) :
    wp (do if ← hasStatChannel p then m else m') (fun _ w' => TransferEnds ans p w w')
      (fun e _ => AllocFault ans w e) w := by
  simp only [hasStatChannel, wp_bind]
  refine wp_getXfer_live hx ?_
  simp only [wp_assert, wp_pure]
  refine ⟨fun _ => ?_, fun _ hnull => by cases hnull⟩
  rw [wp_ite]
  exact ⟨fun _ => hm, fun _ => hm'⟩

theorem wp_still {b : Bool} : wp (pure b : M Bool) (fun _ w' => TransferEnds ans p w w')
    (fun e _ => AllocFault ans w e) w :=
  .quiet (Undisturbed.refl p w)

theorem wp_completeXfer_ends (hx : w.srv.xferAt p = some x) :
    wp (completeXfer ans p) (fun _ w' => TransferEnds ans p w w')
      (fun e _ => AllocFault ans w e) w :=
  wp_hasStatChannel_ends hx (wp_notice_ends hx (by simp [Pdu.terminal]) false) wp_still

theorem wp_resume_ends (hx : w.srv.xferAt p = some x) :
    wp (do setDefer p .none; pure true) (fun _ w' => TransferEnds ans p w w')
      (fun e _ => AllocFault ans w e) w := by
  simp only [wp_bind, wp_pure]
  exact wp_setDefer hx (.quiet (Undisturbed.setXfer w.srv.deferredXfers hx rfl rfl rfl))

theorem wp_transferError_ends {total : Nat} (hx : w.srv.xferAt p = some x)
    (htotal : total + x.nbytesLeft.toNat < 2 ^ 64) :
    wp (transferError ans p total) (fun _ w' => TransferEnds ans p w w')
      (fun e _ => AllocFault ans w e) w := by
  simp only [transferError, wp_bind, wp_getErrno]
  rw [wp_ite]
  refine ⟨fun _ => wp_hasStatChannel_ends hx (wp_notice_ends hx rfl false) wp_still, fun _ => ?_⟩
  simp only [wp_bind]
  refine wp_getXfer_live hx ?_
  rw [wp_ite]
  refine ⟨fun _ => wp_completeXfer_ends hx, fun hleft => ?_⟩
  refine wp_hasStatChannel_ends hx ?_ (wp_resume_ends hx)
  have hsize : total ≠ protXferComplete := by
    have hpos : 0 < x.nbytesLeft.toNat := by
      by_contra hzero
      exact hleft (BitVec.eq_of_toNat_eq (by simp; omega))
    unfold protXferComplete
    omega
  simp only [wp_bind]
  refine wp_sendPdu_written (fun sent => ?_) Fault.noConfusion
  have hquiet : Undisturbed p w
      ⟨w.srv, (w.kern.write ans (some p) x.statFd (.xferStat total)).2⟩ := by
    refine .log (Kernel.write_quiet ..) ?_ ⟨total, rfl, hsize⟩ (by simp)
    rw [Kernel.write_tick]
    exact Nat.le_succ _
  rw [wp_ite]
  refine ⟨fun _ => wp_after hquiet (wp_resume_ends hx), fun _ => ?_⟩
  simp only [wp_bind, wp_getErrno]
  rw [wp_ite]
  exact ⟨fun _ => .quiet hquiet, fun _ => wp_after hquiet (wp_resume_ends hx)⟩

theorem wp_deferReady_ends (hx : w.srv.xferAt p = some x) :
    wp (do deferReady p; pure true) (fun _ w' => TransferEnds ans p w w')
      (fun e _ => AllocFault ans w e) w := by
  simp only [deferReady, wp_bind]
  refine wp_getXfer_live hx ?_
  simp only [wp_gets, wp_assert]
  refine ⟨fun _ => ⟨fun _ => ?_, fun _ hnull => by cases hnull⟩, fun _ hnull => by cases hnull⟩
  simp only [pushDeferred, wp_onSrv, wp_pure]
  refine wp_setDefer (by exact hx) (.quiet ?_)
  exact Undisturbed.setXfer (w.srv.deferredXfers ++ [p]) hx rfl rfl rfl

/-- The rounds of the loop write data; the notice comes last. -/
theorem wp_transferLoop_ends (fuel : Nat) {total : Nat} (hx : w.srv.xferAt p = some x)
    (htotal : total + x.nbytesLeft.toNat < 2 ^ 64) :
    wp (transferLoop ans p fuel total) (fun _ w' => TransferEnds ans p w w')
      (fun e _ => AllocFault ans w e) w := by
  induction fuel generalizing w x total with
  | zero => exact fun hnull => by cases hnull
  | succ fuel ih =>
      simp only [transferLoop, wp_bind]
      refine wp_getXfer_live hx ?_
      simp only [wp_gets, wp_assert, fileTransfer, wp_sys]
      refine ⟨fun _ => ?_, fun _ hnull => by cases hnull⟩
      generalize hn : min x.file.blksize (min x.nbytesLeft.toNat (w.srv.pipeCapacity - total)) = n
      have htick := Kernel.moveBytes_tick ans p x.file.fd x.destFd n w.kern
      obtain ⟨e, k', heq, -, -, hk⟩ | ⟨m, k', heq, hm⟩ :=
        Kernel.moveBytes_spec ans p x.file.fd x.destFd n w.kern
      · simp only [heq]
        have htick : w.kern.tick ≤ k'.tick := by
          rw [heq] at htick
          exact htick ▸ Nat.le_succ _
        have hquiet : Undisturbed p w ⟨w.srv, k'⟩ := .log hk htick trivial (by simp)
        exact wp_after hquiet (wp_transferError_ends hx htotal)
      simp only [heq, wp_bind, wp_assert]
      refine ⟨fun _ => ?_, fun _ hnull => by cases hnull⟩
      simp only [wp_onSrv]
      let z : ResrcXfer := { x with nbytesLeft := x.nbytesLeft - BitVec.ofNat 64 m }
      have hz : (w.srv.setXfer p z).xferAt p = some z := by simp [Server.setXfer]
      have hzleft : z.nbytesLeft.toNat + m = x.nbytesLeft.toNat := by
        have hlt := x.nbytesLeft.isLt
        simp only [z, BitVec.toNat_sub, BitVec.toNat_ofNat]
        omega
      have hmoved : Undisturbed p w ⟨w.srv.setXfer p z, k'⟩ := by
        obtain ⟨bytes, -, hbytes⟩ := Kernel.moveBytes_trace ans _ heq
        obtain ⟨hfds, hregs⟩ := Kernel.moveBytes_fds ans _ heq
        rw [heq] at htick
        refine ⟨hfds, hregs, htick ▸ Nat.le_succ _, rfl, rfl, rfl, fun y hy => ?_,
          [.moved p x.destFd bytes], hbytes, ?_⟩
        · rw [hx] at hy
          cases hy
          exact ⟨z, hz, rfl, rfl, rfl⟩
        · intro e he
          rw [List.mem_singleton.mp he]
          exact ⟨trivial, by simp⟩
      rw [wp_ite]
      refine ⟨fun _ => wp_after hmoved (wp_completeXfer_ends hz), fun _ => ?_⟩
      rw [wp_ite]
      refine ⟨fun _ => ?_, fun _ => wp_after hmoved (ih hz (by omega))⟩
      rw [wp_ite]
      exact ⟨fun _ => wp_after hmoved (wp_deferReady_ends hz), fun _ => .quiet hmoved⟩

theorem wp_transferFile_ends (hx : w.srv.xferAt p = some x) :
    wp (transferFile ans p) (fun _ w' => TransferEnds ans p w w')
      (fun e _ => AllocFault ans w e) w := by
  simp only [transferFile, wp_bind]
  refine wp_getXfer_live hx ?_
  have hlt := x.nbytesLeft.isLt
  have hloop : wp (transferLoop ans p (w.srv.pipeCapacity + 1) 0)
      (fun _ w' => TransferEnds ans p w w') (fun e _ => AllocFault ans w e) w :=
    wp_transferLoop_ends _ hx (by omega)
  cases x.cmd with
  | read => exact hloop
  | send => exact hloop
  | fileOpen => exact wp_still
  | sendOpen => exact wp_still
  | cancel => exact wp_still

end Transferring

/-- The response `r` is pending: it owns a descriptor for `f`, which is registered for it. -/
structure World.Retains (w : World) (r : Ptr) (resp : ResrcResp) (f : OpenFile) : Prop where
  live : w.srv.respAt r = some resp
  file : w.kern.fds.lookup resp.statFd = some f
  reg : ⟨resp.statFd, f, .resp r⟩ ∈ w.kern.regs

/-- Among the calls is a write of a message that ends the transfer `p`, and it failed for
the moment only. -/
def Postponed (p : Ptr) (fd : Fd) (pdu : Pdu) (tr : List Effect) : Prop :=
  pdu.terminal = true ∧ ∃ e, errnoIsFatal e = false ∧ Effect.sent (some p) fd pdu (.error e) ∈ tr

/-- A message that could not be written on the status channel of `p` is held back with a
duplicate of its descriptor, unless `dup` fails or the poller refuses the duplicate. -/
def Retained (ans : Answers) (p : Ptr) (w w' : World) : Prop :=
  ∃ tr, w'.kern.trace = w.kern.trace ++ tr ∧ ∀ fd pdu, Postponed p fd pdu tr →
    ∃ x, w.srv.xferAt p = some x ∧ fd = x.statFd ∧ ((∃ n, ans.dup n ≠ none) ∨
      ∃ f, w.kern.fds.lookup fd = some f ∧ (w.RefusesCopy ans f ∨
        ∃ addr, w'.Retains w.srv.nextPtr ⟨addr, w.kern.fileFd, pdu, p⟩ f))

section Retaining

theorem Effect.ongoing.not_terminal {q : Option Ptr} {result : Except Errno Nat}
    (h : (Effect.sent q fd pdu result).ongoing) : pdu.terminal = false := by
  obtain ⟨size, rfl, hsize⟩ := h
  exact beq_eq_false_iff_ne.mpr hsize

theorem not_postponed_of_ongoing {tr : List Effect} (h : ∀ e ∈ tr, e.ongoing) :
    ¬ Postponed p fd pdu tr := by
  rintro ⟨hpdu, e, -, hmem⟩
  rw [(h _ hmem).not_terminal] at hpdu
  cases hpdu

theorem Postponed.append {tr tr' : List Effect} (h : Postponed p fd pdu (tr ++ tr')) :
    Postponed p fd pdu tr ∨ Postponed p fd pdu tr' := by
  obtain ⟨hpdu, e, he, hmem⟩ := h
  rcases List.mem_append.mp hmem with hmem | hmem
  · exact Or.inl ⟨hpdu, e, he, hmem⟩
  · exact Or.inr ⟨hpdu, e, he, hmem⟩

theorem OnlyCloses.ongoing {tr : List Effect} (h : OnlyCloses tr) : ∀ e ∈ tr, e.ongoing := by
  intro e he
  obtain ⟨fd, b, rfl⟩ := h e he
  trivial

theorem Undisturbed.refusesCopy {w₁ : World} (h : Undisturbed p w w₁)
    (hrefused : w₁.RefusesCopy ans f) : w.RefusesCopy ans f := by
  unfold World.RefusesCopy Kernel.fileFd at *
  rwa [h.regs, h.fds] at hrefused

/-- A notice that could not be written for the moment. -/
theorem NoticeEnds.retained (h : NoticeEnds ans p fd pdu w w') :
    ∃ tr, w'.kern.trace = w.kern.trace ++ tr ∧ ∀ fd' pdu', Postponed p fd' pdu' tr →
      fd' = fd ∧ ((∃ n, ans.dup n ≠ none) ∨ ∃ f, w.kern.fds.lookup fd = some f ∧
        (w.RefusesCopy ans f ∨
          ∃ addr, w'.Retains w.srv.nextPtr ⟨addr, w.kern.fileFd, pdu', p⟩ f)) := by
  cases h with
  | settled hk hresult =>
      refine ⟨_, hk.trace, ?_⟩
      rintro fd' pdu' ⟨-, e, he, hmem⟩
      cases List.mem_singleton.mp hmem
      rcases hresult with hok | ⟨e', heq, hfatal⟩
      · cases hok
      · cases heq
        rw [he] at hfatal
        cases hfatal
  | unduplicated _ hk hdup =>
      refine ⟨_, hk.trace, ?_⟩
      rintro fd' pdu' ⟨-, e, -, hmem⟩
      cases List.mem_singleton.mp hmem
      exact ⟨rfl, Or.inl hdup⟩
  | refused _ hf hrefused _ _ _ htrace =>
      refine ⟨_, htrace, ?_⟩
      rintro fd' pdu' ⟨-, e, -, hmem⟩
      rcases List.mem_cons.mp hmem with heq | hmem
      · cases heq
        exact ⟨rfl, Or.inr ⟨_, hf, Or.inl hrefused⟩⟩
      · cases List.mem_singleton.mp hmem
  | @held srv k _ f addr _ hf hs hk =>
      refine ⟨_, hk.trace, ?_⟩
      rintro fd' pdu' ⟨-, e, -, hmem⟩
      cases List.mem_singleton.mp hmem
      refine ⟨rfl, Or.inr ⟨f, hf, Or.inr ⟨addr, ?_, ?_, ?_⟩⟩⟩
      · exact (congrFun hs.respAt _).trans (Function.update_self ..)
      · rw [hk.fds]
        exact AList.lookup_insert _
      · rw [hk.regs]
        exact List.mem_append_right _ List.mem_cons_self

theorem TransferEnds.retained (h : TransferEnds ans p w w') (hx : w.srv.xferAt p = some x) :
    Retained ans p w w' := by
  cases h with
  | quiet h =>
      obtain ⟨tr, htr, hall⟩ := h.trace
      exact ⟨tr, htr, fun fd pdu hpost =>
        absurd hpost (not_postponed_of_ongoing fun e he => (hall e he).1)⟩
  | @notice w₁ _ y pdu h hy _ hends =>
      obtain ⟨tr, htr, hall⟩ := h.trace
      obtain ⟨tr', htr', hlast⟩ := hends.retained
      obtain ⟨z, hz, hstat, -⟩ := h.xfer x hx
      rw [hy] at hz
      cases hz
      refine ⟨tr ++ tr', by rw [htr', htr, List.append_assoc], fun fd pdu' hpost => ?_⟩
      rcases hpost.append with hpost | hpost
      · exact absurd hpost (not_postponed_of_ongoing fun e he => (hall e he).1)
      obtain ⟨rfl, hdup | ⟨f, hf, hrest⟩⟩ := hlast fd pdu' hpost
      · exact ⟨x, hx, hstat, Or.inl hdup⟩
      refine ⟨x, hx, hstat, Or.inr ⟨f, h.fds ▸ hf, ?_⟩⟩
      rcases hrest with hrefused | ⟨addr, hkept⟩
      · exact Or.inl (h.refusesCopy hrefused)
      · unfold Kernel.fileFd at hkept ⊢
        rw [h.nextPtr, h.fds] at hkept
        exact Or.inr ⟨addr, hkept⟩

/-- An open descriptor is not the next one to be given out. -/
theorem Descriptors.ne_fileFd {L : List Fd} (h : Descriptors (0 ≤ ·) ⟨L, w⟩) {o : Owner}
    (ho : w.srv.Owns L o fd) : w.kern.fileFd ≠ fd := by
  rintro rfl
  exact Kernel.fileFd_notMem w.kern (h.mem (lowestFree_nonneg w.kern.fds.keys) ho)

/-- What is held back outlives the descriptors of its transfer. -/
theorem Retained.dismantle {w₁ : World} {srv : Server} {k : Kernel} {L : List Fd}
    (h : Retained ans p w w₁)
    (hd : Descriptors (0 ≤ ·) ⟨L, w⟩) (hx : w.srv.xferAt p = some x) (hstat : y.statFd = x.statFd)
    (hdest : y.destFd = x.destFd) (hfile : y.file = x.file) (hresp : srv.respAt = w₁.srv.respAt)
    (hk : (w₁.kern.dismantle ans y).Quiet k) : Retained ans p w ⟨srv, k⟩ := by
  obtain ⟨tr, htr, hkept⟩ := h
  obtain ⟨tr', htr', honly, -⟩ := Kernel.dismantle_trace ans w₁.kern y
  refine ⟨tr ++ tr', ?_, fun fd pdu hpost => ?_⟩
  · rw [hk.trace, htr', htr, List.append_assoc]
  rcases hpost.append with hpost | hpost
  case inr => exact absurd hpost (not_postponed_of_ongoing honly.ongoing)
  obtain ⟨z, hz, hfd, hdup | ⟨f, hf, hrest⟩⟩ := hkept fd pdu hpost
  · exact ⟨z, hz, hfd, Or.inl hdup⟩
  refine ⟨z, hz, hfd, Or.inr ⟨f, hf, ?_⟩⟩
  rcases hrest with hrefused | ⟨addr, hlive, hlookup, hreg⟩
  · exact Or.inl hrefused
  have hspared : Kernel.Spares w.kern.fileFd w₁.kern (w₁.kern.dismantle ans y) := by
    apply Kernel.dismantle_spares ans
    · rw [hstat]
      exact hd.ne_fileFd (o := .channel p) ⟨x, hx, Or.inl rfl⟩
    · rw [hdest]
      exact hd.ne_fileFd (o := .channel p) ⟨x, hx, Or.inr rfl⟩
    · rw [hfile]
      exact hd.ne_fileFd (o := .file p) ⟨x, hx, rfl⟩
  refine Or.inr ⟨addr, ?_, ?_, ?_⟩
  · exact (congrFun hresp _).trans hlive
  · rw [hk.fds]
    exact hspared.lookup.trans hlookup
  · rw [hk.regs]
    exact hspared.regs _ hreg rfl hlookup

/-- Changes to the transfers and their lists do not matter. -/
theorem Retained.congr {srv : Server} (h : Retained ans p w w')
    (hresp : srv.respAt = w'.srv.respAt) : Retained ans p w ⟨srv, w'.kern⟩ := by
  obtain ⟨tr, htr, hkept⟩ := h
  refine ⟨tr, htr, fun fd pdu hpost => ?_⟩
  obtain ⟨z, hz, hfd, hdup | ⟨f, hf, hrest⟩⟩ := hkept fd pdu hpost
  · exact ⟨z, hz, hfd, Or.inl hdup⟩
  refine ⟨z, hz, hfd, Or.inr ⟨f, hf, hrest.imp_right ?_⟩⟩
  rintro ⟨addr, hlive, hlookup, hreg⟩
  exact ⟨addr, (congrFun hresp _).trans hlive, hlookup, hreg⟩

theorem Retained.refl (p : Ptr) (w : World) : Retained ans p w w :=
  ⟨[], (List.append_nil _).symm, fun _ _ hpost =>
    absurd hpost (not_postponed_of_ongoing (by simp))⟩

theorem NoticeEnds.xferAt (h : NoticeEnds ans p fd pdu w w') : w'.srv.xferAt = w.srv.xferAt := by
  cases h with
  | settled | unduplicated => rfl
  | refused _ _ _ hs => exact hs.xferAt
  | held _ _ hs => exact hs.xferAt

theorem TransferEnds.xfer (h : TransferEnds ans p w w') (hx : w.srv.xferAt p = some x) :
    ∃ y, w'.srv.xferAt p = some y ∧ y.statFd = x.statFd ∧ y.destFd = x.destFd ∧
      y.file = x.file := by
  cases h with
  | quiet h => exact h.xfer x hx
  | notice h _ _ hends =>
      obtain ⟨y, hy, hsame⟩ := h.xfer x hx
      exact ⟨y, by rw [hends.xferAt, hy], hsame⟩

section Handlers

variable {L : List Fd}

theorem wp_processXfer_retained {err : Bool} (hd : Descriptors (0 ≤ ·) ⟨L, w⟩) :
    wp (processXfer ans err p) (fun _ w' => Retained ans p w w')
      (fun e _ => AllocFault ans w e) w := by
  -- deleting the transfer after whatever was told
  have hdelete : ∀ {w₁ : World} {x y : ResrcXfer}, Retained ans p w w₁ → w.srv.xferAt p = some x →
      w₁.srv.xferAt p = some y → y.statFd = x.statFd → y.destFd = x.destFd → y.file = x.file →
      wp (preserveErrno (deleteRegisteredXfer ans p)) (fun _ w' => Retained ans p w w')
        (fun e _ => AllocFault ans w e) w₁ := by
    intro w₁ x y hkept hx hy hstat hdest hfile
    rw [wp_preserveErrno]
    apply wp_deleteRegisteredXfer hy
    exact hkept.dismantle hd hx hstat hdest hfile rfl (Kernel.quiet_errno _ _)
  simp only [processXfer, wp_bind]
  rw [wp_getXfer]
  refine ⟨fun x hx => ?_, fun _ hnull => by cases hnull⟩
  rw [wp_ite]
  refine ⟨fun _ => Retained.refl p w, fun _ => ?_⟩
  rw [wp_ite]
  refine ⟨fun _ => hdelete (Retained.refl p w) hx hx rfl rfl rfl, fun _ => ?_⟩
  rw [wp_ite]
  refine ⟨fun _ => Retained.refl p w, fun _ => ?_⟩
  simp only [wp_bind]
  refine wp_mono (wp_transferFile_ends hx) (fun more w₁ hends => ?_) fun _ _ he => he
  have hkept := hends.retained hx
  rw [wp_ite]
  refine ⟨fun _ => hkept, fun _ => ?_⟩
  obtain ⟨y, hy, hstat, hdest, hfile⟩ := hends.xfer hx
  exact hdelete hkept hx hy hstat hdest hfile

theorem wp_visitDeferred_retained {i : Nat} (hd : Descriptors (0 ≤ ·) ⟨L, w⟩) :
    wp (visitDeferred ans i p) (fun _ w' => Retained ans p w w')
      (fun e _ => AllocFault ans w e) w := by
  have hdelete : ∀ {w₁ : World} {x y : ResrcXfer}, Retained ans p w w₁ → w.srv.xferAt p = some x →
      w₁.srv.xferAt p = some y → y.statFd = x.statFd → y.destFd = x.destFd → y.file = x.file →
      wp (do undeferXfer i p; deleteRegisteredXfer ans p; pure false)
        (fun _ w' => Retained ans p w w') (fun e _ => AllocFault ans w e) w₁ := by
    intro w₁ x y hkept hx hy hstat hdest hfile
    simp only [wp_bind, wp_pure]
    refine wp_undeferXfer hy ?_
    refine wp_deleteRegisteredXfer (x := { y with defer := .none }) (by simp [Server.setXfer]) ?_
    exact hkept.dismantle (y := { y with defer := .none }) hd hx hstat hdest hfile rfl rfl
  simp only [visitDeferred, wp_bind]
  rw [wp_getXfer]
  refine ⟨fun x hx => ?_, fun _ hnull => by cases hnull⟩
  cases x.defer with
  | none => exact fun hnull => by cases hnull
  | cancel => exact hdelete (Retained.refl p w) hx hx rfl rfl rfl
  | ready =>
      simp only [wp_bind]
      refine wp_mono (wp_transferFile_ends hx) (fun more w₁ hends => ?_) fun _ _ he => he
      have hkept := hends.retained hx
      obtain ⟨y, hy, hstat, hdest, hfile⟩ := hends.xfer hx
      rw [wp_ite]
      refine ⟨fun _ => ?_, fun _ => hdelete hkept hx hy hstat hdest hfile⟩
      simp only [wp_bind]
      refine wp_getXfer_live hy ?_
      rw [wp_ite]
      refine ⟨fun _ => ?_, fun _ => hkept⟩
      simp only [wp_bind, wp_pure]
      exact wp_undeferXfer hy (hkept.congr rfl)

end Handlers

end Retaining

end Sendfiled
