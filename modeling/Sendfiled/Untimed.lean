/-
The code that makes no timers.  Only `add_open_file` allocates timers and has them
registered; whatever else the server runs may delete a timer, and no more.
-/
import Sendfiled.Descriptors
import Sendfiled.Lib.Within

namespace Sendfiled

open Prog

/-- The timer a registration or an event refers to. -/
def Udata.timer? : Udata → Option Ptr
  | .timer t => some t
  | _ => none

theorem Udata.timer?_eq_some {u : Udata} {t : Ptr} : u.timer? = some t ↔ u = .timer t := by
  cases u <;> simp [Udata.timer?]

/-- The registrations of timers. -/
def Kernel.clocks (k : Kernel) : List Reg := k.regs.filter fun reg => reg.udata.timer?.isSome

theorem Kernel.mem_clocks {k : Kernel} {reg : Reg} :
    reg ∈ k.clocks ↔ reg ∈ k.regs ∧ ∃ t, reg.udata = .timer t := by
  simp only [Kernel.clocks, List.mem_filter, Option.isSome_iff_exists, Udata.timer?_eq_some]

theorem Kernel.installAll_regs (files : List Nat) (k : Kernel) :
    (Kernel.installAll files k).2.regs = k.regs := by
  induction files generalizing k with
  | nil => rfl
  | cons n rest ih => exact ih _

/-- Every timer was there before, and so was every registration of one. -/
structure NoNewTimer (w w' : World) : Prop where
  timers : ∀ t tm, w'.srv.timerAt t = some tm → w.srv.timerAt t = some tm
  clocks : w'.kern.clocks.Sublist w.kern.clocks

instance : IsPreorder World NoNewTimer where
  refl _ := ⟨fun _ _ ht => ht, List.Sublist.refl _⟩
  trans _ _ _ h h' := ⟨fun t tm ht => h.timers t tm (h'.timers t tm ht), h'.clocks.trans h.clocks⟩

/-- The code makes no timer and registers none. -/
def Untimed {α : Type} (m : M α) : Prop := Within NoNewTimer m

namespace Untimed

variable {α β : Type} {m m' : M α}

theorem pure (a : α) : Untimed (Pure.pure a : M α) := Within.pure a

theorem halt (e : Fault) : Untimed (Prog.halt e : M α) := Within.halt e

theorem gets (f : World → α) : Untimed (Prog.gets f : M α) := Within.gets f

theorem bind {f : α → M β} (h : Untimed m) (hf : ∀ a, Untimed (f a)) : Untimed (m >>= f) :=
  Within.bind h hf

theorem ite {c : Prop} [Decidable c] (h : Untimed m) (h' : Untimed m') :
    Untimed (if c then m else m') := Within.ite h h'

/-- A system call that registers no timer. -/
theorem sys {f : Kernel → α × Kernel} (h : ∀ k, (f k).2.clocks.Sublist k.clocks) :
    Untimed (sys f) :=
  Within.modifyGet fun w => ⟨fun _ _ ht => ht, h w.kern⟩

/-- A system call that leaves the registrations alone. -/
theorem call {f : Kernel → α × Kernel} (h : ∀ k, (f k).2.regs = k.regs) :
    Untimed (Sendfiled.sys f) := by
  apply sys
  intro k
  unfold Kernel.clocks
  rw [h k]

theorem onSrv {f : Server → Server}
    (h : ∀ s t tm, (f s).timerAt t = some tm → s.timerAt t = some tm) : Untimed (onSrv f) :=
  Within.modify fun w => ⟨h w.srv, List.Sublist.refl _⟩

/-- A change that leaves the timers alone. -/
theorem keep {f : Server → Server} (h : ∀ s, (f s).timerAt = s.timerAt) :
    Untimed (Sendfiled.onSrv f) :=
  onSrv fun s t tm ht => by rwa [h s] at ht

theorem getErrno : Untimed getErrno := gets _

theorem setErrno (e : Errno) : Untimed (setErrno e) :=
  Within.modify fun _ => ⟨fun _ _ ht => ht, List.Sublist.refl _⟩

theorem preserveErrno {m : M Unit} (h : Untimed m) : Untimed (preserveErrno m) :=
  getErrno.bind fun _ => h.bind fun _ => setErrno _

theorem assert (c : Prop) [Decidable c] (a : Assertion) : Untimed (assert c a) := Within.check

theorem getXfer (p : Ptr) : Untimed (getXfer p) := by
  refine (gets _).bind fun o => ?_
  cases o with
  | some x => exact pure x
  | none => exact halt _

theorem getTimer (t : Ptr) : Untimed (getTimer t) := by
  refine (gets _).bind fun o => ?_
  cases o with
  | some tm => exact pure tm
  | none => exact halt _

theorem getResp (r : Ptr) : Untimed (getResp r) := by
  refine (gets _).bind fun o => ?_
  cases o with
  | some resp => exact pure resp
  | none => exact halt _

variable {ans : Answers}

theorem malloc : Untimed (malloc ans) := by
  refine Within.modifyGet fun w => ?_
  split
  · exact ⟨fun _ _ ht => ht, List.Sublist.refl _⟩
  · split <;> exact ⟨fun _ _ ht => ht, List.Sublist.refl _⟩

theorem close (fd : Fd) : Untimed (close ans fd) :=
  (sys fun k => (k.close_regs_sublist ans fd).filter _).bind fun _ => pure ()

theorem syspollRegister (fd : Fd) {u : Udata} (hu : u.timer? = none) :
    Untimed (syspollRegister ans fd u) := by
  apply sys
  intro k
  unfold Kernel.epollAdd
  split
  · simp [Kernel.clocks, Kernel.succeed, hu]
  · exact List.Sublist.refl _
  · exact List.Sublist.refl _

theorem syspollDeregister (fd : Fd) : Untimed (syspollDeregister fd) :=
  sys fun k => (k.epollDel_regs fd).filter _

theorem sendPdu (xfer : Option Ptr) (fd : Fd) (pdu : Pdu) : Untimed (sendPdu ans xfer fd pdu) := by
  refine (call fun k => ?_).bind fun result => ?_
  · obtain ⟨_, hk⟩ := k.write_spec ans xfer fd pdu
    exact hk.regs
  · cases result with
    | error e => exact pure false
    | ok n => exact (assert _ _).bind fun _ => pure true

theorem sendReqErr (xfer : Option Ptr) (fd : Fd) (stat : Errno) :
    Untimed (sendReqErr ans xfer fd stat) :=
  (assert _ _).bind fun _ => sendPdu _ _ _

section Resources

variable (p : Ptr)

theorem xferDelete : Untimed (xferDelete p) :=
  (getXfer p).bind fun _ => keep fun _ => rfl

theorem respFree : Untimed (respFree p) :=
  (getResp p).bind fun _ => keep fun _ => rfl

theorem eraseXfer (txnid : Nat) : Untimed (eraseXfer txnid) := keep fun _ => rfl

theorem timerDelete (t : Ptr) : Untimed (timerDelete ans t) :=
  (getTimer t).bind fun _ => (close _).bind fun _ => onSrv fun _ _ _ ht => (of_update_none ht).2

theorem eraseTimer (txnid : Nat) : Untimed (eraseTimer txnid) := keep fun _ => rfl

theorem setDefer (d : Deferral) : Untimed (setDefer p d) :=
  (getXfer p).bind fun _ => keep fun _ => rfl

theorem pushDeferred : Untimed (pushDeferred p) := keep fun _ => rfl

theorem deleteXferAndCloseFileFd : Untimed (deleteXferAndCloseFileFd ans p) :=
  (getXfer p).bind fun _ => (close _).bind fun _ => xferDelete p

theorem deleteXferAndCloseAllFds : Untimed (deleteXferAndCloseAllFds ans p) :=
  (getXfer p).bind fun _ => (close _).bind fun _ =>
    ite ((close _).bind fun _ => deleteXferAndCloseFileFd p) (deleteXferAndCloseFileFd p)

theorem registerXfer : Untimed (registerXfer ans p) :=
  (getXfer p).bind fun _ => syspollRegister _ rfl

theorem deleteUnregisteredXfer : Untimed (deleteUnregisteredXfer ans p) :=
  (getXfer p).bind fun _ => (eraseXfer _).bind fun _ => deleteXferAndCloseFileFd p

theorem deleteRegisteredXfer : Untimed (deleteRegisteredXfer ans p) :=
  (getXfer p).bind fun _ => (eraseXfer _).bind fun _ =>
    ((getXfer p).bind fun _ => syspollDeregister _).bind fun _ => deleteXferAndCloseAllFds p

theorem deferCancel : Untimed (deferCancel p) :=
  (getXfer p).bind fun _ => (gets _).bind fun _ => (assert _ _).bind fun _ =>
    ite ((pushDeferred p).bind fun _ => setDefer p _) (setDefer p _)

theorem deferReady : Untimed (deferReady p) :=
  (getXfer p).bind fun _ => (gets _).bind fun _ => (assert _ _).bind fun _ =>
    (assert _ _).bind fun _ => (pushDeferred p).bind fun _ => setDefer p _

theorem undeferXfer (i : Nat) : Untimed (undeferXfer i p) :=
  (setDefer p _).bind fun _ => keep fun _ => rfl

end Resources

section Transfers

variable (p : Ptr)

theorem hasStatChannel : Untimed (hasStatChannel p) :=
  (getXfer p).bind fun _ => (assert _ _).bind fun _ => pure _

theorem newResrcResp (fd : Fd) (pdu : Pdu) : Untimed (newResrcResp ans p fd pdu) := by
  refine malloc.bind fun o => ?_
  cases o with
  | none => exact pure none
  | some addr => exact (gets _).bind fun _ => (keep (by exact fun _ => rfl)).bind fun _ => pure _

theorem sendTerminalResp (pdu : Pdu) : Untimed (sendTerminalResp ans p pdu) := by
  refine (getXfer p).bind fun x => (sendPdu _ _ _).bind fun _ => ite (pure ()) ?_
  refine getErrno.bind fun _ => ite (pure ()) ((call fun k => ?_).bind fun o => ?_)
  · rcases k.dup_spec ans x.statFd with ⟨k', heq, -, hk⟩ | ⟨f, k', heq, -, hk⟩ <;>
      exact heq ▸ hk.regs
  · cases o with
    | none => exact pure ()
    | some fd =>
        refine (newResrcResp p fd pdu).bind fun o => ?_
        cases o with
        | none => exact (close fd).bind fun _ => halt _
        | some r =>
            exact (syspollRegister fd rfl).bind fun _ =>
              ite (pure ()) ((respFree r).bind fun _ => close fd)

theorem completeXfer : Untimed (completeXfer ans p) :=
  (hasStatChannel p).bind fun _ => ite ((sendTerminalResp p _).bind fun _ => pure _) (pure _)

theorem fileTransfer (x : ResrcXfer) (nbytes : Nat) : Untimed (fileTransfer ans p x nbytes) := by
  apply call
  intro k
  unfold Kernel.moveBytes
  split
  · split
    · rfl
    · split
      · split <;> rfl
      · rfl
  · rfl

theorem transferError (total : Nat) : Untimed (transferError ans p total) := by
  have hresume : Untimed (do Sendfiled.setDefer p .none; Pure.pure true) :=
    (setDefer p _).bind fun _ => pure _
  refine getErrno.bind fun e => ite ?_ ((getXfer p).bind fun x => ite (completeXfer p) ?_)
  · exact (hasStatChannel p).bind fun _ =>
      ite ((sendTerminalResp p _).bind fun _ => pure _) (pure _)
  · exact (hasStatChannel p).bind fun _ => ite
      ((sendPdu _ _ _).bind fun _ => ite hresume (getErrno.bind fun _ => ite (pure _) hresume))
      hresume

theorem transferLoop (fuel total : Nat) : Untimed (transferLoop ans p fuel total) := by
  induction fuel generalizing total with
  | zero => exact halt _
  | succ fuel ih =>
      refine (getXfer p).bind fun x => (gets _).bind fun capacity => (assert _ _).bind fun _ => ?_
      refine (fileTransfer p x _).bind fun result => ?_
      cases result with
      | error e => exact transferError p total
      | ok n =>
          refine (assert _ _).bind fun _ => (keep (by exact fun _ => rfl)).bind fun _ => ?_
          exact ite (completeXfer p)
            (ite (ite ((deferReady p).bind fun _ => pure _) (pure _)) (ih _))

theorem transferFile : Untimed (transferFile ans p) := by
  refine (getXfer p).bind fun x => ?_
  cases x.cmd with
  | read | send => exact (gets _).bind fun _ => transferLoop p _ _
  | fileOpen | sendOpen | cancel => exact pure _

end Transfers

section Events

theorem processTimer (t : Ptr) : Untimed (processTimer ans t) := by
  have hdelete : ∀ txnid, Untimed (do Sendfiled.eraseTimer txnid; Sendfiled.timerDelete ans t) :=
    fun txnid => (eraseTimer txnid).bind fun _ => timerDelete t
  refine (getTimer t).bind fun tm => (gets _).bind fun table => ?_
  cases table.find tm.txnid with
  | none => exact hdelete _
  | some p =>
      exact (getXfer p).bind fun _ => ite
        ((sendPdu _ _ _).bind fun _ => (deferCancel p).bind fun _ => hdelete _) (hdelete _)

theorem dropResp (r : Ptr) : Untimed (dropResp ans r) :=
  (getResp r).bind fun _ => (close _).bind fun _ => respFree r

theorem processResp (err : Bool) (r : Ptr) : Untimed (processResp ans err r) :=
  (getResp r).bind fun _ => ite (dropResp r) <| (sendPdu _ _ _).bind fun _ =>
    ite (dropResp r) (getErrno.bind fun _ => ite (dropResp r) (pure ()))

theorem processXfer (err : Bool) (p : Ptr) : Untimed (processXfer ans err p) :=
  (getXfer p).bind fun _ => ite (pure ()) <| ite (preserveErrno (deleteRegisteredXfer p)) <|
    ite (pure ()) <| (transferFile p).bind fun _ =>
      ite (pure ()) (preserveErrno (deleteRegisteredXfer p))

theorem processResource (err : Bool) (u : Udata) : Untimed (processResource ans err u) := by
  cases u with
  | timer t => exact processTimer t
  | resp r => exact processResp err r
  | xfer p => exact processXfer err p
  | sigfd | reqfd => exact halt _

theorem dispatchEvent (ev : PollEvent) : Untimed (dispatchEvent ans ev) := by
  have hget : Untimed (syspollGet ans ev) :=
    ite (pure _) (ite ((call fun _ => rfl).bind fun _ => pure _) (pure _))
  have hident : Untimed (identOf ev.udata) := by
    cases ev.udata with
    | sigfd => exact pure _
    | reqfd => exact gets _
    | xfer p => exact (getXfer p).bind fun _ => pure _
    | timer t => exact (getTimer t).bind fun _ => pure _
    | resp r => exact (getResp r).bind fun _ => pure _
  exact hget.bind fun _ => ite (pure _) <| hident.bind fun _ => (gets _).bind fun _ =>
    ite (ite (pure _) ((assert _ _).bind fun _ => pure _))
      ((processResource _ _).bind fun _ => pure _)

theorem deferredLoop (fuel i : Nat) : Untimed (deferredLoop ans fuel i) := by
  induction fuel generalizing i with
  | zero => exact halt _
  | succ fuel ih =>
      refine (gets _).bind fun deferred => ?_
      cases deferred[i]? with
      | none => exact pure ()
      | some p =>
          have hdelete : Untimed (do
              Sendfiled.undeferXfer i p
              Sendfiled.deleteRegisteredXfer ans p
              Sendfiled.deferredLoop ans fuel i) :=
            (undeferXfer p i).bind fun _ => (deleteRegisteredXfer p).bind fun _ => ih i
          refine (getXfer p).bind fun x => ?_
          cases x.defer with
          | cancel => exact hdelete
          | none => exact halt _
          | ready =>
              exact (transferFile p).bind fun _ => ite
                ((getXfer p).bind fun _ => ite ((undeferXfer p i).bind fun _ => ih i) (ih _))
                hdelete

theorem processDeferred : Untimed (processDeferred ans) :=
  (gets _).bind fun _ => deferredLoop _ _

end Events

section Requests

theorem usRecv (old : Fd × Fd) (d : Datagram) : Untimed (usRecv ans old d) := by
  refine (call fun k => ?_).bind fun msg => (keep (by exact fun _ => rfl)).bind fun _ => ?_
  · exact Kernel.installAll_regs _ k
  · refine ite ((setErrno _).bind fun _ => pure _) ?_
    cases msg.creds with
    | none => exact (setErrno _).bind fun _ => pure _
    | some creds => exact pure _

theorem fileOpenRead (name : List UInt8) (offset len : BitVec 64) :
    Untimed (fileOpenRead ans name offset len) := by
  have hback : ∀ fd, Untimed (do
      Sendfiled.preserveErrno (Sendfiled.close ans fd)
      Pure.pure (none : Option (Fd × FioStat))) :=
    fun fd => (preserveErrno (close fd)).bind fun _ => pure _
  refine (call fun k => ?_).bind fun o => ?_
  · rcases k.openFile_spec ans name with ⟨k', heq, hk⟩ | ⟨node, k', heq, -, hk⟩ <;>
      exact heq ▸ hk.regs
  · cases o with
    | none => exact pure _
    | some opened =>
        obtain ⟨fd, node⟩ := opened
        refine (call fun k => (k.quiet_attempt _).regs).bind fun _ => ite (ite ?_ ?_) (hback fd)
        · refine (call fun k => (k.quiet_attempt _).regs).bind fun _ =>
            ite (ite ?_ (pure _)) (hback fd)
          refine (call fun k => ?_).bind fun _ => ite (pure _) (hback fd)
          rcases k.lseek_spec ans fd offset.toNat with ⟨k', heq, hk⟩ | ⟨n, k', heq, -, hk⟩ <;>
            exact heq ▸ hk.regs
        · exact (setErrno _).bind fun _ => hback fd

theorem insertXfer (req : ProtRequest) (clientPid : Nat) (statFd destFd fd : Fd) (info : FioStat)
    (nbytes : BitVec 64) :
    Untimed (insertXfer ans req clientPid statFd destFd fd info nbytes) := by
  have hnew : ∀ txnid, Untimed (xferNew ans req.cmd ⟨nbytes, fd, info.blksize⟩ nbytes clientPid
      statFd destFd txnid) := by
    intro txnid
    refine malloc.bind fun o => ?_
    cases o with
    | none => exact pure _
    | some addr =>
        exact (gets _).bind fun _ => (keep (by exact fun _ => rfl)).bind fun _ => pure _
  refine (gets _).bind fun txnid => (hnew txnid).bind fun o => ?_
  cases o with
  | none => exact (preserveErrno (close fd)).bind fun _ => pure _
  | some p =>
      refine (keep (by exact fun _ => rfl)).bind fun _ => (gets _).bind fun table => ?_
      cases table.insert (fun _ => txnid) p with
      | none => exact (preserveErrno (deleteXferAndCloseFileFd p)).bind fun _ => pure _
      | some table' => exact (keep (by exact fun _ => rfl)).bind fun _ => pure _

theorem addXfer (req : ProtRequest) (clientPid : Nat) (statFd destFd : Fd) :
    Untimed (addXfer ans req clientPid statFd destFd) := by
  refine (gets _).bind fun _ => ite ((setErrno _).bind fun _ => pure _) ?_
  refine (fileOpenRead _ _ _).bind fun o => ?_
  cases o with
  | none => exact pure _
  | some opened =>
      obtain ⟨fd, info⟩ := opened
      cases hrange : rangeCheck info.size req.offset req.len with
      | error e =>
          simp only [hrange]
          exact (close fd).bind fun _ => (setErrno e).bind fun _ => pure _
      | ok nbytes =>
          simp only [hrange]
          exact insertXfer _ _ _ _ _ _ _

variable (buf : RecvBuf) (size clientPid : Nat) (fds : Fd × Fd)

theorem getOpenFile (txnid : Nat) : Untimed (getOpenFile clientPid txnid) := by
  refine (gets _).bind fun table => ?_
  cases table.find txnid with
  | none => exact pure _
  | some p => exact (getXfer p).bind fun _ => ite (pure _) (pure _)

theorem processSendOpen : Untimed (processSendOpen ans buf clientPid fds) := by
  have hrefuse : Untimed (do Sendfiled.close ans fds.1; Pure.pure false) :=
    (close _).bind fun _ => pure _
  unfold Sendfiled.processSendOpen
  cases protUnmarshalSendOpen buf with
  | none => exact pure _
  | some txnid =>
      refine (getOpenFile clientPid txnid).bind fun o => ?_
      cases o with
      | none => exact hrefuse
      | some p =>
          refine (getXfer p).bind fun x => ite hrefuse ?_
          refine (keep (by exact fun _ => rfl)).bind fun _ => (registerXfer p).bind fun _ => ?_
          exact ite (pure _) (getErrno.bind fun _ => (sendPdu _ _ _).bind fun _ =>
            (deleteUnregisteredXfer p).bind fun _ => pure _)

theorem processCancel : Untimed (processCancel buf clientPid) := by
  unfold Sendfiled.processCancel
  cases protUnmarshalCancel buf with
  | none => exact pure _
  | some txnid =>
      refine (getOpenFile clientPid txnid).bind fun o => ?_
      cases o with
      | none => exact pure _
      | some p => exact (deferCancel p).bind fun _ => pure _

theorem processReadSend : Untimed (processReadSend ans buf size clientPid fds) := by
  unfold Sendfiled.processReadSend
  cases protUnmarshalRequest buf size with
  | none => exact pure _
  | some req =>
      refine (addXfer req clientPid _ _).bind fun o => ?_
      cases o with
      | none => exact getErrno.bind fun _ => (sendReqErr _ _ _).bind fun _ => pure _
      | some added =>
          obtain ⟨p, info⟩ := added
          refine (registerXfer p).bind fun _ => ite ?_ ?_
          · exact (getXfer p).bind fun _ => (sendPdu _ _ _).bind fun _ => pure _
          · exact (getXfer p).bind fun _ => getErrno.bind fun _ => (sendReqErr _ _ _).bind fun _ =>
              (deleteUnregisteredXfer p).bind fun _ => pure _

theorem closeFds (nfds : Nat) : Untimed (closeFds ans fds nfds) :=
  ite ((close _).bind fun _ => ite (close _) (pure ())) (pure ())

end Requests

end Untimed

end Sendfiled
