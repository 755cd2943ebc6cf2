/-
The value of `errno` where a table refuses a new entry.  `xfer_table_insert` does not set
it, so what is left in it is what was there when the request was received.
-/
import Sendfiled.Undoing

namespace Sendfiled

open Prog

variable {ans : Answers} {req : ProtRequest} {w w' : World} {clientPid : Nat} {statFd destFd : Fd}

theorem Kernel.attempt_errno {answer : Option Errno} {k : Kernel}
    (h : (k.attempt answer).1 = true) : (k.attempt answer).2.errno = k.errno := by
  cases answer with
  | none => rfl
  | some e => cases h

theorem Kernel.lseek_errno {fd : Fd} {offset : Nat} {k : Kernel}
    (h : (k.lseek ans fd offset).1 = true) : (k.lseek ans fd offset).2.errno = k.errno := by
  unfold lseek at h ⊢
  cases hseek : ans.lseek k.tick with
  | some e =>
      rw [hseek] at h
      cases h
  | none =>
      rw [hseek] at h
      dsimp only at h ⊢
      cases hfd : k.fds.lookup fd with
      | none =>
          rw [hfd] at h
          cases h
      | some f =>
          rw [hfd] at h
          cases f with
          | file n => rfl
          | client n | timerfd n | inherited n => cases h

/-- Opening a file sets `errno` only when it fails. -/
theorem wp_fileOpenRead_errno (name : List UInt8) (offset len : BitVec 64) :
    wp (fileOpenRead ans name offset len)
      (fun o w' => o.isSome → w'.kern.errno = w.kern.errno) (fun _ _ => True) w := by
  have hfail : ∀ fd w', wp (do preserveErrno (close ans fd); pure none)
      (fun (o : Option (Fd × FioStat)) w' => o.isSome → w'.kern.errno = w.kern.errno)
      (fun _ _ => True) w' := by
    intro fd w'
    simp only [wp_bind, wp_preserveErrno, close, wp_sys, wp_pure]
    exact fun hsome => by cases hsome
  simp only [fileOpenRead, wp_bind, wp_sys]
  cases hopen : (w.kern.openFile ans name).1 with
  | none => exact fun hsome => by cases hsome
  | some opened =>
      have herrno : (w.kern.openFile ans name).2.errno = w.kern.errno := by
        unfold Kernel.openFile at hopen ⊢
        cases hanswer : ans.openFile w.kern.tick name with
        | error e =>
            rw [hanswer] at hopen
            cases hopen
        | ok node => rfl
      simp only [wp_bind, wp_sys]
      rw [wp_ite]
      refine ⟨fun hstat => ?_, fun _ => hfail _ _⟩
      have herrno₁ := (Kernel.attempt_errno hstat).trans herrno
      rw [wp_ite]
      refine ⟨fun _ => ?_, fun _ => ?_⟩
      · simp only [wp_bind, wp_sys]
        rw [wp_ite]
        refine ⟨fun hlock => ?_, fun _ => hfail _ _⟩
        have herrno₂ := (Kernel.attempt_errno hlock).trans herrno₁
        rw [wp_ite]
        refine ⟨fun _ => ?_, fun _ _ => herrno₂⟩
        simp only [wp_bind, wp_sys]
        rw [wp_ite]
        exact ⟨fun hseek _ => (Kernel.lseek_errno hseek).trans herrno₂, fun _ => hfail _ _⟩
      · simp only [wp_bind, wp_setErrno]
        exact hfail _ _

theorem fileOpenRead_errno {name : List UInt8} {offset len : BitVec 64} {o : Fd × FioStat}
    (h : fileOpenRead ans name offset len w = .done (some o) w') :
    w'.kern.errno = w.kern.errno :=
  wp_done (wp_fileOpenRead_errno name offset len) h rfl

/-- Where the slot of a transfer is taken, `add_xfer` fails and leaves `errno` alone. -/
theorem SlotTaken.wp_addXfer (h : SlotTaken ans req w) (hnum : w.kern.Numbered) :
    wp (addXfer ans req clientPid statFd destFd)
      (fun o w' => o = none ∧ w'.kern.errno = w.kern.errno) (fun _ _ => False) w := by
  obtain ⟨fd, info, w₁, nbytes, hroom, hopen, hrange, ⟨a, ha, hfree⟩, htaken⟩ := h
  have hsrv : w₁.srv = w.srv := (wp_done (wp_fileOpenRead_steps hnum) hopen).srv
  have herrno := fileOpenRead_errno hopen
  simp only [addXfer, wp_bind, wp_gets]
  rw [if_neg hroom, wp_bind]
  refine wp_of_done hopen ?_
  simp only [hrange, insertXfer, xferNew, wp_bind, wp_gets]
  refine wp_malloc_cases (fun hnot => absurd ⟨a, ha, hfree⟩ hnot) fun addr _ _ => ?_
  simp only [wp_bind, wp_gets, wp_onSrv, wp_pure]
  have hins : XferTable.insert (fun _ => w₁.srv.nextTxnid) w₁.srv.xfers w₁.srv.nextPtr = none := by
    rw [hsrv, XferTable.insert, if_pos (Option.isSome_iff_ne_none.mpr htaken)]
  simp only [Server.newXfer, Server.setXfer, hins, wp_bind, wp_preserveErrno]
  refine wp_deleteXferAndCloseFileFd (by simp; rfl) ?_
  exact ⟨rfl, herrno⟩

/-- So does `add_open_file`. -/
theorem SlotTaken.wp_addOpenFile (h : SlotTaken ans req w) (hnum : w.kern.Numbered) :
    wp (addOpenFile ans req clientPid statFd)
      (fun o w' => o = none ∧ w'.kern.errno = w.kern.errno) (fun _ _ => False) w := by
  simp only [addOpenFile, wp_bind]
  refine wp_mono (h.wp_addXfer hnum) (fun o w₁ hfailed => ?_) fun _ _ hc => hc
  obtain ⟨rfl, herrno⟩ := hfailed
  exact ⟨rfl, herrno⟩

/-- A transfer that is made leaves `errno` alone as well. -/
theorem addXfer_errno {p : Ptr} {info : FioStat}
    (h : addXfer ans req clientPid statFd destFd w = .done (some (p, info)) w') :
    w'.kern.errno = w.kern.errno := by
  have hwp : wp (addXfer ans req clientPid statFd destFd)
      (fun o w' => o.isSome → w'.kern.errno = w.kern.errno) (fun _ _ => True) w := by
    simp only [addXfer, wp_bind, wp_gets]
    rw [wp_ite]
    refine ⟨fun _ hsome => (by cases hsome), fun _ => ?_⟩
    rw [wp_bind]
    refine wp_mono (wp_fileOpenRead_errno _ _ _) (fun o w₁ herrno => ?_) fun _ _ h => h
    cases o with
    | none => exact fun hsome => by cases hsome
    | some opened =>
        obtain ⟨fd, info⟩ := opened
        dsimp only
        cases rangeCheck info.size req.offset req.len with
        | error e => exact fun hsome => by cases hsome
        | ok nbytes =>
            simp only [insertXfer, xferNew, wp_bind, wp_gets]
            refine wp_malloc_cases (fun _ hsome => by cases hsome) fun addr _ _ => ?_
            simp only [wp_bind, wp_gets, wp_onSrv, wp_pure]
            split
            · simp only [wp_bind, wp_preserveErrno]
              refine wp_deleteXferAndCloseFileFd (by simp [Server.newXfer, Server.setXfer]; rfl) ?_
              exact fun hsome => by cases hsome
            · exact fun _ => herrno rfl
  exact wp_done hwp h rfl

/-- The same for the timer of an open file. -/
theorem TimerSlotTaken.wp_addOpenFile (h : TimerSlotTaken ans req clientPid statFd w)
    (hledger : Ledger w.srv) (hnum : w.kern.Numbered) :
    wp (addOpenFile ans req clientPid statFd)
      (fun o w' => o = none ∧ w'.kern.errno = w.kern.errno) (fun _ _ => False) w := by
  obtain ⟨p, info, w₁, hadd, ⟨a, ha, hfree⟩, htaken⟩ := h
  obtain ⟨rfl, x, -, hpending⟩ := wp_done (wp_addXfer_steps hledger hnum) hadd
  have herrno := addXfer_errno hadd
  have hx : w₁.srv.xferAt w.srv.nextPtr = some x := by
    rw [hpending.xferAt]
    exact Function.update_self ..
  simp only [addOpenFile, wp_bind]
  refine wp_of_done hadd ?_
  simp only [wp_bind]
  refine wp_getXfer_live hx ?_
  simp only [newTimer, wp_bind]
  refine wp_malloc_cases (fun hnot => absurd ⟨a, ha, hfree⟩ hnot) fun addr _ _ => ?_
  simp only [wp_bind, wp_gets, wp_onSrv, wp_pure]
  have hins : XferTable.insert (fun _ => x.txnid) w₁.srv.xferTimers w₁.srv.nextPtr = none := by
    rw [hpending.xferTimers, hpending.txnid, XferTable.insert,
      if_pos (Option.isSome_iff_ne_none.mpr htaken)]
  simp only [Server.newTimer, Server.setTimer, hins, wp_bind, wp_preserveErrno]
  refine wp_timerDelete (by simp; rfl) ?_
  refine wp_deleteUnregisteredXfer (by exact hx) ?_
  exact ⟨rfl, herrno⟩

/-- Arming a timer does not lose it. -/
theorem wp_syspollTimer_live {t : Ptr} {tm : ResrcTimer} (ht : w.srv.timerAt t = some tm) :
    wp (syspollTimer ans t) (fun _ w' => ∃ tm', w'.srv.timerAt t = some tm')
      (fun _ _ => True) w := by
  have hclose : ∀ fd w', (∃ tm', w'.srv.timerAt t = some tm') →
      wp (do preserveErrno (close ans fd); pure false)
        (fun (_ : Bool) w' => ∃ tm', w'.srv.timerAt t = some tm') (fun _ _ => True) w' := by
    intro fd w' hlive
    simp only [wp_bind, wp_preserveErrno, close, wp_sys, wp_pure]
    exact hlive
  simp only [syspollTimer, wp_bind, wp_sys]
  split
  · exact ⟨tm, ht⟩
  · simp only [wp_bind, wp_sys]
    rw [wp_ite]
    refine ⟨fun _ => ?_, fun _ => hclose _ _ ⟨tm, ht⟩⟩
    simp only [wp_bind]
    refine wp_getTimer_live (by exact ht) ?_
    simp only [wp_onSrv]
    have hset : ∀ fd, Function.update w.srv.timerAt t (some { tm with ident := fd }) t =
        some { tm with ident := fd } := fun fd => Function.update_self ..
    refine wp_syspollRegister_cases (fun e _ => ?_) fun f _ _ => ?_
    · exact hclose _ _ ⟨_, hset _⟩
    · exact ⟨_, hset _⟩

/-- The timer that `add_open_file` returns is there. -/
theorem wp_addOpenFile_live :
    wp (addOpenFile ans req clientPid statFd)
      (fun o w' => ∀ t p info, o = some (t, p, info) → ∃ tm, w'.srv.timerAt t = some tm)
      (fun _ _ => True) w := by
  have htrivial : ∀ {α : Type} (m : M α) w', wp m (fun _ _ => True) (fun _ _ => True) w' :=
    fun m w' => wp_of_forall (fun _ _ => trivial) fun _ _ => trivial
  simp only [addOpenFile, wp_bind]
  refine wp_mono (htrivial _ w) (fun o w₁ _ => ?_) fun _ _ h => h
  cases o with
  | none => exact nofun
  | some added =>
      simp only [wp_bind]
      refine wp_mono (htrivial _ w₁) (fun x w₂ _ => ?_) fun _ _ h => h
      simp only [newTimer, wp_bind]
      refine wp_malloc_cases (fun _ => ?_) fun addr _ _ => ?_
      · simp only [wp_pure, wp_bind]
        exact wp_mono (htrivial _ _) (fun _ _ _ => nofun) fun _ _ h => h
      · simp only [wp_bind, wp_gets, wp_onSrv, wp_pure]
        split
        · simp only [wp_bind]
          refine wp_mono (htrivial _ _) (fun _ _ _ => ?_) fun _ _ h => h
          exact wp_mono (htrivial _ _) (fun _ _ _ => nofun) fun _ _ h => h
        · simp only [wp_bind, wp_onSrv]
          refine wp_mono (wp_syspollTimer_live (Function.update_self ..)) (fun ok w₃ hlive => ?_)
            fun _ _ h => h
          cases ok with
          | true =>
              intro t p info heq
              cases heq
              exact hlive
          | false =>
              simp only [Bool.false_eq_true, if_false, wp_bind]
              refine wp_mono (htrivial _ _) (fun _ _ _ => ?_) fun _ _ h => h
              refine wp_mono (htrivial _ _) (fun _ _ _ => ?_) fun _ _ h => h
              exact wp_mono (htrivial _ _) (fun _ _ _ => nofun) fun _ _ h => h

end Sendfiled
