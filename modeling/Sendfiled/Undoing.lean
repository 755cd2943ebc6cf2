/-
Undoing the creation of a transfer.  Whatever step of `add_xfer` or `add_open_file` fails,
the steps before it are undone, and `errno` says why, unless the step was the insertion
into a table: that sets no error.
-/
import Sendfiled.Creation

namespace Sendfiled

open Prog Transition

variable {ans : Answers} {req : ProtRequest} {w w' : World}

/-- The allocator has memory for one more object. -/
def Answers.Allocates (ans : Answers) (w : World) : Prop :=
  ∃ a, ans.malloc w.kern.tick = some a ∧ w.srv.allocated a = false

/-- The two endings of `malloc`. -/
theorem wp_malloc_cases {Q : Option Addr → World → Prop} {E : Fault → World → Prop}
    (hnone : ¬ ans.Allocates w → Q none { w with kern := w.kern.fail ENOMEM })
    (hsome : ∀ a, ans.malloc w.kern.tick = some a → w.srv.allocated a = false → Q (some a)
      { srv := { w.srv with allocated := Function.update w.srv.allocated a true }
        kern := w.kern.succeed }) : wp (malloc ans) Q E w := by
  simp only [malloc, wp_modifyGet]
  cases hanswer : ans.malloc w.kern.tick with
  | none =>
      apply hnone
      rintro ⟨a, ha, -⟩
      rw [hanswer] at ha
      cases ha
  | some a =>
      by_cases hused : w.srv.allocated a = true
      · simp only [hused, if_true]
        apply hnone
        rintro ⟨a', ha', hfree⟩
        rw [hanswer] at ha'
        cases ha'
        rw [hused] at hfree
        cases hfree
      · simp only [hused]
        exact hsome a hanswer (by simpa using hused)

/-- The step at which `add_xfer` fails, and the error it fails with. -/
inductive AddFails (ans : Answers) (req : ProtRequest) (w : World) : Errno → Prop
  | full (h : w.srv.xfers.size = w.srv.xfers.capacity) : AddFails ans req w EMFILE
  | file {e : Errno} (hroom : w.srv.xfers.size ≠ w.srv.xfers.capacity)
      (h : FileFails ans req w.kern e) : AddFails ans req w e
  | range {fd : Fd} {info : FioStat} {w₁ : World} {e : Errno}
      (hroom : w.srv.xfers.size ≠ w.srv.xfers.capacity)
      (hopen : fileOpenRead ans req.filename req.offset req.len w = .done (some (fd, info)) w₁)
      (h : rangeCheck info.size req.offset req.len = .error e) : AddFails ans req w e
  | memory {fd : Fd} {info : FioStat} {w₁ : World} {nbytes : BitVec 64}
      (hroom : w.srv.xfers.size ≠ w.srv.xfers.capacity)
      (hopen : fileOpenRead ans req.filename req.offset req.len w = .done (some (fd, info)) w₁)
      (hrange : rangeCheck info.size req.offset req.len = .ok nbytes)
      (h : ¬ ans.Allocates w₁) : AddFails ans req w ENOMEM

/-- Everything is ready for the transfer, but its slot in the table is taken. -/
def SlotTaken (ans : Answers) (req : ProtRequest) (w : World) : Prop :=
  ∃ fd info w₁ nbytes, w.srv.xfers.size ≠ w.srv.xfers.capacity ∧
    fileOpenRead ans req.filename req.offset req.len w = .done (some (fd, info)) w₁ ∧
    rangeCheck info.size req.offset req.len = .ok nbytes ∧ ans.Allocates w₁ ∧
    w.srv.xfers.find w.srv.nextTxnid ≠ none

/-- The tables, the list, the resources, the descriptors and the registrations are as
before; a transaction ID may have been used up. -/
structure Undone (w : World) (tr : List Effect) (w' : World) : Prop where
  xfers : w'.srv.xfers = w.srv.xfers
  xferTimers : w'.srv.xferTimers = w.srv.xferTimers
  deferredXfers : w'.srv.deferredXfers = w.srv.deferredXfers
  xferAt : w'.srv.xferAt = w.srv.xferAt
  timerAt : w'.srv.timerAt = w.srv.timerAt
  respAt : w'.srv.respAt = w.srv.respAt
  nextTxnid : w'.srv.nextTxnid = w.srv.nextTxnid ∨
    w'.srv.nextTxnid = (w.srv.nextTxnid + 1) % 2 ^ 64
  kern : w.kern.Restored tr w'.kern

/-- The transfer `x` has been made, and nothing else has changed. -/
structure Pending (ans : Answers) (req : ProtRequest) (w : World) (x : ResrcXfer)
    (tr : List Effect) (w' : World) : Prop where
  room : w.srv.xfers.size ≠ w.srv.xfers.capacity
  opens : ans.Opens req w.kern
  free : w.srv.xfers.find x.txnid = none
  xfers : w'.srv.xfers = (w.srv.enroll x).xfers
  xferAt : w'.srv.xferAt = (w.srv.enroll x).xferAt
  xferTimers : w'.srv.xferTimers = w.srv.xferTimers
  timerAt : w'.srv.timerAt = w.srv.timerAt
  respAt : w'.srv.respAt = w.srv.respAt
  deferredXfers : w'.srv.deferredXfers = w.srv.deferredXfers
  txnid : x.txnid = w.srv.nextTxnid
  nextTxnid : w'.srv.nextTxnid = (w.srv.nextTxnid + 1) % 2 ^ 64
  nextPtr : w.srv.nextPtr < w'.srv.nextPtr
  file : x.file.fd = w.kern.fileFd
  kern : w.kern.Holds w.kern.fileFd (.file w.kern.nextFile) tr w'.kern
  numbered : w'.kern.Numbered

/-- What the creation of a timer leaves alone. -/
structure Server.SameBut (s s' : Server) : Prop where
  xfers : s'.xfers = s.xfers
  xferAt : s'.xferAt = s.xferAt
  respAt : s'.respAt = s.respAt
  deferredXfers : s'.deferredXfers = s.deferredXfers
  nextTxnid : s'.nextTxnid = s.nextTxnid

theorem Pending.congr {x : ResrcXfer} {tr tr' : List Effect} {s s' : Server} {k k' : Kernel}
    (h : Pending ans req w x tr ⟨s, k⟩) (hs : s.SameBut s')
    (htimers : s'.xferTimers = w.srv.xferTimers) (htimerAt : s'.timerAt = w.srv.timerAt)
    (hptr : s.nextPtr ≤ s'.nextPtr)
    (hk : w.kern.Holds w.kern.fileFd (.file w.kern.nextFile) tr' k') (hnum : k'.Numbered) :
    Pending ans req w x tr' ⟨s', k'⟩ where
  room := h.room
  opens := h.opens
  free := h.free
  xfers := hs.xfers.trans h.xfers
  xferAt := hs.xferAt.trans h.xferAt
  xferTimers := htimers
  timerAt := htimerAt
  respAt := hs.respAt.trans h.respAt
  deferredXfers := hs.deferredXfers.trans h.deferredXfers
  txnid := h.txnid
  nextTxnid := hs.nextTxnid.trans h.nextTxnid
  nextPtr := Nat.lt_of_lt_of_le h.nextPtr hptr
  file := h.file
  kern := hk
  numbered := hnum

/-- Inserting and erasing an element leaves the table as it was. -/
theorem XferTable.erase_put {α : Type} {t : XferTable α} {key : α → Option Nat}
    (h : t.Represents key) {k : Nat} (hfree : t.find k = none) (a : α) :
    (t.put (t.indexof k) (some a) ((t.size + 1) % 2 ^ 64)).erase k = t := by
  have hlt := t.indexof_lt k
  apply XferTable.ext'
  · rfl
  · change (t.elems.set (t.indexof k) (some a)).set (t.indexof k) none = t.elems
    have hslot : t.elems[t.indexof k]? = some none := by
      rw [t.slot_eq_getElem? hlt]
      exact congrArg some hfree
    rw [List.set_set]
    obtain ⟨_, hget⟩ := List.getElem?_eq_some_iff.mp hslot
    rw [← hget]
    exact List.set_getElem_self hlt
  · change ((t.size + 1) % 2 ^ 64 + 2 ^ 64 - 1) % 2 ^ 64 = t.size
    have hsize := h.size_lt
    omega

theorem update_none_self {α : Type} {f : Ptr → Option α} {p : Ptr} (hp : f p = none)
    (v : Option α) : Function.update (Function.update f p v) p none = f := by
  rw [Function.update_idem, ← hp]
  exact Function.update_eq_self p f

theorem Ledger.xferAt_nextPtr {s : Server} (h : Ledger s) : s.xferAt s.nextPtr = none := by
  cases hx : s.xferAt s.nextPtr with
  | none => rfl
  | some x => exact absurd (h.xfer_lt _ x hx) (Nat.lt_irrefl _)

/-- Deleting the transfer again leaves nothing behind. -/
theorem Pending.undo {x : ResrcXfer} {tr : List Effect} (h : Pending ans req w x tr w')
    (hledger : Ledger w.srv) {Q : Unit → World → Prop} {E : Fault → World → Prop}
    (hQ : ∀ w'', Undone w (tr ++ [.closed w.kern.fileFd true]) w'' → Q () w'') :
    wp (deleteUnregisteredXfer ans w.srv.nextPtr) Q E w' := by
  have hx : w'.srv.xferAt w.srv.nextPtr = some x := by
    rw [h.xferAt]
    exact Function.update_self ..
  refine wp_deleteUnregisteredXfer hx (hQ _ ?_)
  refine ⟨?_, h.xferTimers, h.deferredXfers, ?_, h.timerAt, h.respAt, Or.inr h.nextTxnid, ?_⟩
  · change w'.srv.xfers.erase x.txnid = w.srv.xfers
    rw [h.xfers]
    exact XferTable.erase_put hledger.xfers h.free _
  · change Function.update w'.srv.xferAt w.srv.nextPtr none = w.srv.xferAt
    rw [h.xferAt]
    exact update_none_self hledger.xferAt_nextPtr _
  · rw [h.file]
    exact h.kern.close ans

/-- The call is a `close` of the descriptor. -/
def Effect.closes (fd : Fd) : Effect → Bool
  | .closed fd' _ => fd' == fd
  | _ => false

/-- If the file of the request was opened, it was closed exactly once. -/
def Tidies (ans : Answers) (req : ProtRequest) (w : World) (tr : List Effect) : Prop :=
  w.srv.xfers.size ≠ w.srv.xfers.capacity → ans.Opens req w.kern →
    tr.filter (Effect.closes w.kern.fileFd) = [.closed w.kern.fileFd true]

theorem tidies_of_closed {tr : List Effect} (htr : ∀ e ∈ tr, e.closes w.kern.fileFd = false) :
    Tidies ans req w (tr ++ [.closed w.kern.fileFd true]) := by
  intro _ _
  have hnone : tr.filter (Effect.closes w.kern.fileFd) = [] := by
    apply List.filter_eq_nil_iff.mpr
    intro e he
    simp [htr e he]
  rw [List.filter_append, hnone]
  simp [Effect.closes]

theorem tidies_single : Tidies ans req w [.closed w.kern.fileFd true] := by
  intro _ _
  simp [Effect.closes]

/-- `add_xfer` has failed. -/
structure AddFailed (ans : Answers) (req : ProtRequest) (w w' : World) : Prop where
  undone : ∃ tr, Undone w tr w' ∧ OnlyCloses tr ∧ Tidies ans req w tr
  why : SlotTaken ans req w ∨ AddFails ans req w w'.kern.errno

/-- `add_xfer` has made a transfer. -/
structure Added (ans : Answers) (req : ProtRequest) (clientPid : Nat) (statFd destFd : Fd)
    (w : World) (p : Ptr) (w' : World) : Prop where
  ptr : p = w.srv.nextPtr
  pending : ∃ x, Created req clientPid statFd destFd x ∧ Pending ans req w x [] w'

theorem Undone.of_srv {s : Server} {k : Kernel} (hsrv : s = w.srv) {tr : List Effect}
    (hkern : w.kern.Restored tr k) : Undone w tr ⟨s, k⟩ := by
  subst hsrv
  exact ⟨rfl, rfl, rfl, rfl, rfl, rfl, Or.inl rfl, hkern⟩

section AddXfer

variable {clientPid : Nat} {statFd destFd fd : Fd} {info : FioStat} {nbytes : BitVec 64}

theorem wp_insertXfer_steps {w₁ : World} (hledger : Ledger w.srv)
    (hroom : w.srv.xfers.size ≠ w.srv.xfers.capacity)
    (hrun : fileOpenRead ans req.filename req.offset req.len w = .done (some (fd, info)) w₁)
    (hopened : FileOpened ans req w fd w₁)
    (hrange : rangeCheck info.size req.offset req.len = .ok nbytes) :
    wp (insertXfer ans req clientPid statFd destFd fd info nbytes) (fun o w' => match o with
      | none => AddFailed ans req w w'
      | some (p, _) => Added ans req clientPid statFd destFd w p w') (fun _ _ => False) w₁ := by
  obtain ⟨s₁, k₁⟩ := w₁
  obtain ⟨rfl, rfl, hopens, hholds, hnum⟩ := hopened
  simp only [insertXfer, xferNew, wp_bind, wp_gets]
  refine wp_malloc_cases (fun hnot => ?_) fun addr hmem hunused => ?_
  · simp only [wp_pure, wp_bind, wp_preserveErrno, close, wp_sys]
    refine ⟨⟨_, .of_srv rfl ?_, Kernel.onlyCloses_singleton _ _, tidies_single⟩,
      Or.inr (.memory hroom hrun hrange hnot)⟩
    exact ((hholds.quiet (Kernel.quiet_fail _ _)).close ans).quiet (Kernel.quiet_errno _ _)
  · simp only [wp_bind, wp_gets, wp_onSrv, wp_pure]
    cases hins : XferTable.insert (fun _ => w.srv.nextTxnid) w.srv.xfers w.srv.nextPtr with
    | none =>
        simp only [Server.newXfer, Server.setXfer, hins, wp_bind, wp_preserveErrno]
        refine wp_deleteXferAndCloseFileFd (by simp; rfl) ?_
        have htaken : w.srv.xfers.find w.srv.nextTxnid ≠ none := by
          intro hfree
          simp [XferTable.insert, hfree] at hins
        refine ⟨⟨[.closed w.kern.fileFd true], ?_, Kernel.onlyCloses_singleton _ _, tidies_single⟩,
          Or.inl ⟨_, _, _, _, hroom, hrun, hrange, ⟨addr, hmem, hunused⟩, htaken⟩⟩
        refine ⟨rfl, rfl, rfl, update_none_self hledger.xferAt_nextPtr _, rfl, rfl, Or.inr rfl, ?_⟩
        exact ((hholds.quiet (Kernel.quiet_succeed _)).close ans).quiet (Kernel.quiet_errno _ _)
    | some table =>
        simp only [Server.newXfer, Server.setXfer, hins, wp_bind, wp_onSrv, wp_pure]
        obtain ⟨hfree, rfl⟩ := XferTable.insert_eq_some hins
        let x : ResrcXfer :=
          { addr := addr, destFd := destFd, statFd := statFd, cmd := req.cmd
            txnid := w.srv.nextTxnid
            file := { size := nbytes, fd := w.kern.fileFd, blksize := info.blksize }
            nbytesLeft := nbytes, clientPid := clientPid, defer := .none }
        refine ⟨rfl, x, ⟨rfl, rfl, rfl, rfl, rfl, rfl⟩, ?_⟩
        exact
          { room := hroom
            opens := hopens
            free := hfree
            xfers := rfl
            xferAt := rfl
            xferTimers := rfl
            timerAt := rfl
            respAt := rfl
            deferredXfers := rfl
            txnid := rfl
            nextTxnid := rfl
            nextPtr := Nat.lt_succ_self _
            file := rfl
            kern := hholds.quiet (Kernel.quiet_succeed _)
            numbered := hnum.quiet (Kernel.quiet_succeed _) }

/-- Why `add_xfer` fails, and what it leaves behind. -/
theorem wp_addXfer_steps (hledger : Ledger w.srv) (hnum : w.kern.Numbered) :
    wp (addXfer ans req clientPid statFd destFd) (fun o w' => match o with
      | none => AddFailed ans req w w'
      | some (p, _) => Added ans req clientPid statFd destFd w p w') (fun _ _ => False) w := by
  simp only [addXfer, wp_bind, wp_gets]
  rw [wp_ite]
  refine ⟨fun hfull => ?_, fun hroom => ?_⟩
  · simp only [wp_bind, wp_setErrno, wp_pure]
    refine ⟨⟨[], .of_srv rfl (.of_quiet (Kernel.quiet_errno _ _)), by simp [OnlyCloses], ?_⟩,
      Or.inr (.full hfull)⟩
    exact fun hroom => absurd hfull hroom
  simp only [wp_bind]
  have hsteps := @wp_fileOpenRead_steps ans req w hnum
  cases hrun : fileOpenRead ans req.filename req.offset req.len w with
  | fault e w₁ => exact (wp_fault hsteps hrun).elim
  | done o w₁ =>
      have hdone := wp_done hsteps hrun
      refine wp_of_done hrun ?_
      cases o with
      | none =>
          obtain ⟨hsrv, hfails, tr, hrestored, honly, htr⟩ := hdone
          refine ⟨⟨tr, .of_srv hsrv hrestored, honly, fun _ hopens => ?_⟩,
            Or.inr (.file hroom hfails)⟩
          rw [htr hopens]
          simp [Effect.closes]
      | some opened =>
          obtain ⟨fd, info⟩ := opened
          dsimp only at hdone ⊢
          cases hrange : rangeCheck info.size req.offset req.len with
          | error e =>
              simp only [wp_bind, close, wp_sys, wp_setErrno, wp_pure]
              refine ⟨⟨_, .of_srv hdone.srv ?_, Kernel.onlyCloses_singleton _ _, tidies_single⟩,
                Or.inr (.range hroom hrun hrange)⟩
              have hholds := hdone.holds
              rw [hdone.eq] at hholds ⊢
              exact (hholds.close ans).quiet (Kernel.quiet_errno _ _)
          | ok n => exact wp_insertXfer_steps hledger hroom hrun hdone hrange

end AddXfer

section AddOpenFile

variable {clientPid : Nat} {statFd : Fd}

/-- The step at which `add_open_file` fails, and the error it fails with. -/
inductive OpenFails (ans : Answers) (req : ProtRequest) (clientPid : Nat) (statFd : Fd)
    (w : World) : Errno → Prop
  | add {e : Errno} (h : AddFails ans req w e) : OpenFails ans req clientPid statFd w e
  | memory {p : Ptr} {info : FioStat} {w₁ : World}
      (hadd : addXfer ans req clientPid statFd (-1) w = .done (some (p, info)) w₁)
      (h : ¬ ans.Allocates w₁) : OpenFails ans req clientPid statFd w ENOMEM
  | settime {p : Ptr} {info : FioStat} {w₁ : World} {e : Errno}
      (hadd : addXfer ans req clientPid statFd (-1) w = .done (some (p, info)) w₁)
      (halloc : ans.Allocates w₁) (hfree : w.srv.xferTimers.find w.srv.nextTxnid = none)
      (hcreate : ans.timerfdCreate (w₁.kern.tick + 1) = none)
      (h : ans.timerfdSettime (w₁.kern.tick + 2) = some e) :
      OpenFails ans req clientPid statFd w e
  | register {p : Ptr} {info : FioStat} {w₁ : World} {e : Errno}
      (hadd : addXfer ans req clientPid statFd (-1) w = .done (some (p, info)) w₁)
      (halloc : ans.Allocates w₁) (hfree : w.srv.xferTimers.find w.srv.nextTxnid = none)
      (hcreate : ans.timerfdCreate (w₁.kern.tick + 1) = none)
      (hset : ans.timerfdSettime (w₁.kern.tick + 2) = none)
      (h : ans.epollAdd (w₁.kern.tick + 3) = some e) : OpenFails ans req clientPid statFd w e

/-- Everything is ready for the timer, but its slot in the table is taken. -/
def TimerSlotTaken (ans : Answers) (req : ProtRequest) (clientPid : Nat) (statFd : Fd)
    (w : World) : Prop :=
  ∃ p info w₁, addXfer ans req clientPid statFd (-1) w = .done (some (p, info)) w₁ ∧
    ans.Allocates w₁ ∧ w.srv.xferTimers.find w.srv.nextTxnid ≠ none

/-- `add_open_file` has failed. -/
structure OpenFailed (ans : Answers) (req : ProtRequest) (clientPid : Nat) (statFd : Fd)
    (w w' : World) : Prop where
  undone : ∃ tr, Undone w tr w' ∧ OnlyCloses tr ∧ Tidies ans req w tr
  why : SlotTaken ans req w ∨ TimerSlotTaken ans req clientPid statFd w ∨
    OpenFails ans req clientPid statFd w w'.kern.errno

/-- The transfer `x` has been made and its timer `tm` inserted at `t`. -/
structure Timed (ans : Answers) (req : ProtRequest) (w : World) (x : ResrcXfer) (t : Ptr)
    (tm : ResrcTimer) (tr : List Effect) (w' : World) : Prop where
  pending : Pending ans req w x tr ⟨{ w'.srv with
    xferTimers := w.srv.xferTimers, timerAt := w.srv.timerAt }, w'.kern⟩
  isNew : w.srv.timerAt t = none
  free : w.srv.xferTimers.find x.txnid = none
  timerAt : w'.srv.timerAt = Function.update w.srv.timerAt t (some tm)
  xferTimers : w'.srv.xferTimers = w.srv.xferTimers.put (w.srv.xferTimers.indexof x.txnid)
    (some t) ((w.srv.xferTimers.size + 1) % 2 ^ 64)

/-- The kernel has changed, but not for good. -/
theorem Timed.restored {x : ResrcXfer} {t : Ptr} {tm : ResrcTimer} {tr tr' : List Effect}
    (h : Timed ans req w x t tm tr w') {k : Kernel} (hk : w'.kern.Restored tr' k)
    (hnum : k.Numbered) : Timed ans req w x t tm (tr ++ tr') ⟨w'.srv, k⟩ := by
  refine ⟨?_, h.isNew, h.free, h.timerAt, h.xferTimers⟩
  exact { h.pending with kern := h.pending.kern.restored hk, numbered := hnum }

/-- Taking the timer back. -/
theorem Timed.drop {x : ResrcXfer} {t : Ptr} {tm : ResrcTimer} {tr : List Effect}
    (h : Timed ans req w x t tm tr w') (hledger : Ledger w.srv) (hgone : tm.ident ∉ w'.kern.fds)
    {Q : Unit → World → Prop} {E : Fault → World → Prop}
    (hQ : ∀ w'', w''.kern.errno = w'.kern.errno →
      Pending ans req w x (tr ++ [.closed tm.ident false]) w'' → Q () w'') :
    wp (preserveErrno (eraseTimer x.txnid))
      (fun _ w'' => wp (preserveErrno (timerDelete ans t)) Q E w'') E w' := by
  have ht : w'.srv.timerAt t = some tm := by
    rw [h.timerAt]
    exact Function.update_self ..
  rw [wp_preserveErrno]
  simp only [eraseTimer, wp_onSrv]
  rw [wp_preserveErrno]
  refine wp_timerDelete (by exact ht) (hQ _ rfl ?_)
  have hclose := Kernel.Restored.close_again hgone ans
  have hp := h.pending
  exact
    { hp with
      xferTimers := by
        change w'.srv.xferTimers.erase x.txnid = w.srv.xferTimers
        rw [h.xferTimers]
        exact XferTable.erase_put hledger.timers h.free t
      timerAt := by
        change Function.update w'.srv.timerAt t none = w.srv.timerAt
        rw [h.timerAt]
        exact update_none_self h.isNew _
      kern := hp.kern.restored (hclose.quiet (Kernel.quiet_errno _ _))
      numbered := (hp.numbered.close ans _).quiet (Kernel.quiet_errno _ _) }

/-- `syspoll_timer` has failed: the timer's descriptor is closed, whether the timer knows
its number or not. -/
structure TimerFailed (ans : Answers) (req : ProtRequest) (w : World) (x : ResrcXfer) (t : Ptr)
    (tick : Nat) (w' : World) : Prop where
  timed : ∃ tm tr, Timed ans req w x t tm tr w' ∧ tm.ident ∉ w'.kern.fds ∧
    tm.ident ≠ w.kern.fileFd ∧ OnlyCloses tr ∧ ∀ e ∈ tr, e.closes w.kern.fileFd = false
  created : ans.timerfdCreate tick = none
  why : ans.timerfdSettime (tick + 1) = some w'.kern.errno ∨
    (ans.timerfdSettime (tick + 1) = none ∧ ans.epollAdd (tick + 2) = some w'.kern.errno)

theorem wp_syspollTimer_steps {x : ResrcXfer} {t : Ptr} {tm : ResrcTimer}
    (h : Timed ans req w x t tm [] w') (hident : tm.ident = -1) :
    wp (syspollTimer ans t)
      (fun ok w'' => ok = false → TimerFailed ans req w x t w'.kern.tick w'')
      (fun _ _ => False) w' := by
  obtain ⟨s', k'⟩ := w'
  have hnum : k'.Numbered := h.pending.numbered
  have hfile : k'.fds.lookup w.kern.fileFd = some (.file w.kern.nextFile) := h.pending.kern.lookup
  have hheld := hnum.holds_openedTimer
  have hnum₁ := hnum.openedTimer
  have htick : k'.openedTimer.2.tick = k'.tick := rfl
  have hother : k'.openedTimer.1 ≠ w.kern.fileFd := by
    intro heq
    have hnot := hheld.isNew
    rw [heq, ← AList.lookup_isSome, hfile] at hnot
    exact hnot rfl
  have hneg : (-1 : Fd) ≠ w.kern.fileFd := by
    intro heq
    apply hnum.notMem_neg
    rw [heq, ← AList.lookup_isSome, hfile]
    rfl
  simp only [syspollTimer, wp_bind, wp_sys, Kernel.timerfdCreate]
  cases hcreate : ans.timerfdCreate k'.tick with
  | some e => exact fun hc => by cases hc
  | none =>
      have hfd : (Kernel.install (.timerfd k'.nextFile)
          { k' with nextFile := k'.nextFile + 1 }).1 = k'.openedTimer.1 := rfl
      have hkern : (Kernel.install (.timerfd k'.nextFile)
          { k' with nextFile := k'.nextFile + 1 }).2 = k'.openedTimer.2 := rfl
      simp only [hfd, hkern, wp_bind]
      generalize k'.openedTimer.1 = fd at *
      generalize k'.openedTimer.2 = k₁ at *
      -- closing the timer's descriptor takes it back
      have hback : ∀ k₂, k₁.Quiet k₂ → k'.Restored [.closed fd true]
          { (k₂.close ans fd).2 with errno := k₂.errno } := fun k₂ hk =>
        ((hheld.quiet hk).close ans).quiet (Kernel.quiet_errno _ _)
      have hnumback : ∀ k₂, k₁.Quiet k₂ →
          Kernel.Numbered { (k₂.close ans fd).2 with errno := k₂.errno } := fun k₂ hk =>
        ((hnum₁.quiet hk).close ans fd).quiet (Kernel.quiet_errno _ _)
      have hquiet : ∀ e ∈ [Effect.closed fd true], e.closes w.kern.fileFd = false := by
        intro e he
        rw [List.mem_singleton.mp he]
        simpa [Effect.closes] using hother
      refine wp_attempt (ans.timerfdSettime (k'.tick + 1)) (by rw [← htick]; rfl)
        (fun e hset => ?_) fun hset => ?_
      · simp only [Bool.false_eq_true, if_false, wp_bind, wp_preserveErrno, close, wp_sys, wp_pure]
        intro _
        have hk : k₁.Quiet (k₁.succeed.fail e) := rfl
        refine ⟨⟨tm, _, h.restored (hback _ hk) (hnumback _ hk), ?_, ?_,
          Kernel.onlyCloses_singleton _ _, hquiet⟩, hcreate, Or.inl hset⟩
        · rw [hident]
          exact (hnumback _ hk).notMem_neg
        · rw [hident]
          exact hneg
      · simp only [if_true, wp_bind]
        have ht : s'.timerAt t = some tm := by
          rw [show s'.timerAt = _ from h.timerAt]
          exact Function.update_self ..
        refine wp_getTimer_live (by exact ht) ?_
        simp only [wp_onSrv]
        refine wp_syspollRegister_cases (fun e herr => ?_) fun f _ _ => ?_
        · simp only [Bool.false_eq_true, if_false, wp_bind, wp_preserveErrno, close, wp_sys,
            wp_pure]
          intro _
          have hk : k₁.Quiet (k₁.succeed.succeed.fail e) := rfl
          have hset' : Timed ans req w x t { tm with ident := fd } []
              ⟨s'.setTimer t { tm with ident := fd }, k'⟩ := by
            refine ⟨h.pending, h.isNew, h.free, ?_, h.xferTimers⟩
            change Function.update s'.timerAt t _ = _
            rw [show s'.timerAt = _ from h.timerAt, Function.update_idem]
          refine ⟨⟨{ tm with ident := fd }, _,
            hset'.restored (hback _ hk) (hnumback _ hk), ?_, hother,
            Kernel.onlyCloses_singleton _ _, hquiet⟩, hcreate, Or.inr ⟨hset, ?_⟩⟩
          · simp [Kernel.close_fds, AList.mem_erase]
          · rcases Kernel.epollAddError_some herr hheld.lookup with ⟨reg, hreg, -, hf⟩ | hrefused
            · exact absurd hf (hheld.unwatched reg (hheld.regs ▸ hreg))
            · rw [← htick]
              exact hrefused
        · simp only [if_true, wp_pure]
          exact fun hc => by cases hc

/-- Why `add_open_file` fails, and what it leaves behind. -/
theorem wp_addOpenFile_steps (hledger : Ledger w.srv) (hnum : w.kern.Numbered) :
    wp (addOpenFile ans req clientPid statFd)
      (fun o w' => o = none → OpenFailed ans req clientPid statFd w w') (fun _ _ => False) w := by
  simp only [addOpenFile, wp_bind]
  have hsteps := @wp_addXfer_steps ans req w clientPid statFd (-1) hledger hnum
  cases hrun : addXfer ans req clientPid statFd (-1) w with
  | fault e w₁ => exact (wp_fault hsteps hrun).elim
  | done o w₁ =>
      have hdone := wp_done hsteps hrun
      refine wp_of_done hrun ?_
      cases o with
      | none =>
          simp only [wp_pure]
          intro _
          exact ⟨hdone.undone, hdone.why.imp id fun hfails => Or.inr (.add hfails)⟩
      | some added =>
          obtain ⟨p, info⟩ := added
          obtain ⟨rfl, x, -, hpending⟩ := hdone
          obtain ⟨s₁, k₁⟩ := w₁
          have hx : s₁.xferAt w.srv.nextPtr = some x := by
            rw [show s₁.xferAt = _ from hpending.xferAt]
            exact Function.update_self ..
          simp only [wp_bind]
          refine wp_getXfer_live (by exact hx) ?_
          simp only [newTimer, wp_bind]
          refine wp_malloc_cases (fun hnot => ?_) fun addr hmem hunused => ?_
          · simp only [wp_pure, wp_bind]
            rw [wp_preserveErrno]
            have hpending' : Pending ans req w x [] ⟨s₁, k₁.fail ENOMEM⟩ :=
              { hpending with
                kern := hpending.kern.quiet (Kernel.quiet_fail _ _)
                numbered := hpending.numbered.quiet (Kernel.quiet_fail _ _) }
            refine hpending'.undo hledger fun w₂ hundone => ?_
            intro _
            refine ⟨⟨_, { hundone with kern := hundone.kern.quiet (Kernel.quiet_errno _ _) },
              Kernel.onlyCloses_singleton _ _, tidies_single⟩, Or.inr (Or.inr (.memory hrun hnot))⟩
          · have halloc : ans.Allocates ⟨s₁, k₁⟩ := ⟨addr, hmem, hunused⟩
            have hgone : w.srv.timerAt s₁.nextPtr = none := by
              cases ht : w.srv.timerAt s₁.nextPtr with
              | none => rfl
              | some tm =>
                  have hlt := hledger.timer_lt _ tm ht
                  exact absurd (Nat.lt_trans hlt hpending.nextPtr) (Nat.lt_irrefl _)
            let tm : ResrcTimer := ⟨addr, -1, x.txnid, x.addr⟩
            simp only [wp_bind, wp_gets, wp_onSrv, wp_pure]
            rw [show s₁.xferTimers = w.srv.xferTimers from hpending.xferTimers]
            cases hins : XferTable.insert (fun _ => x.txnid) w.srv.xferTimers s₁.nextPtr with
            | none =>
                simp only [Server.newTimer, Server.setTimer, hins, wp_bind]
                have htaken : w.srv.xferTimers.find w.srv.nextTxnid ≠ none := by
                  intro hfree
                  rw [← hpending.txnid] at hfree
                  simp [XferTable.insert, hfree] at hins
                rw [wp_preserveErrno]
                refine wp_timerDelete (show _ = some tm by simp [tm]) ?_
                rw [wp_preserveErrno]
                have hneg : (-1 : Fd) ∉ k₁.succeed.fds := hpending.numbered.notMem_neg
                have hclose := (Kernel.Restored.close_again hneg ans).quiet
                  (Kernel.quiet_errno k₁.errno _)
                have hheld := hpending.kern.quiet (Kernel.quiet_succeed k₁)
                refine @Pending.undo ans req w _ x [.closed (-1) false] ?_ hledger _ _
                  fun w₂ hundone => ?_
                · refine hpending.congr ⟨rfl, rfl, rfl, rfl, rfl⟩ rfl ?_
                    (Nat.le_succ _) (hheld.restored hclose)
                    (((hpending.numbered.quiet (Kernel.quiet_succeed k₁)).close ans
                      (-1)).quiet (Kernel.quiet_errno _ _))
                  change Function.update (Function.update s₁.timerAt s₁.nextPtr (some tm))
                    s₁.nextPtr none = w.srv.timerAt
                  rw [show s₁.timerAt = w.srv.timerAt from hpending.timerAt]
                  exact update_none_self hgone _
                · intro _
                  refine ⟨⟨_, { hundone with kern := hundone.kern.quiet (Kernel.quiet_errno _ _) },
                    (Kernel.onlyCloses_singleton _ _).append (Kernel.onlyCloses_singleton _ _),
                    tidies_of_closed ?_⟩, Or.inr (Or.inl ⟨_, _, _, hrun, halloc, htaken⟩)⟩
                  intro e he
                  rw [List.mem_singleton.mp he]
                  simpa [Effect.closes] using w.kern.neg_ne_fileFd
            | some table =>
                simp only [Server.newTimer, Server.setTimer, hins, wp_bind, wp_onSrv]
                obtain ⟨hfree, rfl⟩ := XferTable.insert_eq_some hins
                refine wp_mono (@wp_syspollTimer_steps ans req w _ x s₁.nextPtr tm ?_ rfl)
                  (fun ok w₂ hfailed => ?_) fun _ _ hc => hc
                · refine ⟨hpending.congr ⟨rfl, rfl, rfl, rfl, rfl⟩ rfl rfl (Nat.le_succ _)
                    (hpending.kern.quiet (Kernel.quiet_succeed k₁))
                    (hpending.numbered.quiet (Kernel.quiet_succeed k₁)), hgone, hfree, ?_, rfl⟩
                  rw [show s₁.timerAt = w.srv.timerAt from hpending.timerAt]
                · cases ok with
                  | true => exact fun hc => by cases hc
                  | false =>
                      obtain ⟨⟨tm', tr, htimed, hclosed, hother, honly, hquiet⟩, hcreate, hwhy⟩ :=
                        hfailed rfl
                      simp only [Bool.false_eq_true, if_false, wp_bind]
                      refine htimed.drop hledger hclosed fun w₃ herrno hpending₃ => ?_
                      rw [wp_preserveErrno]
                      refine hpending₃.undo hledger fun w₄ hundone => ?_
                      intro _
                      refine ⟨⟨_, { hundone with
                        kern := hundone.kern.quiet (Kernel.quiet_errno _ _) },
                        (honly.append (Kernel.onlyCloses_singleton _ _)).append
                          (Kernel.onlyCloses_singleton _ _),
                        tidies_of_closed ?_⟩, Or.inr (Or.inr ?_)⟩
                      · intro e he
                        rcases List.mem_append.mp he with he | he
                        · exact hquiet e he
                        · rw [List.mem_singleton.mp he]
                          simpa [Effect.closes] using hother
                      · rw [hpending.txnid] at hfree
                        change OpenFails ans req clientPid statFd w w₃.kern.errno
                        rw [herrno]
                        rcases hwhy with hset | ⟨hset, hadd⟩
                        · exact .settime hrun halloc hfree hcreate hset
                        · exact .register hrun halloc hfree hcreate hset hadd

end AddOpenFile

end Sendfiled
