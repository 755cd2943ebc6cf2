/-
The memory of the server process, the programs that run over it together with
the kernel, and the small C helpers everything else is written with.
-/
import Sendfiled.Kernel
import Sendfiled.XferTable
import Sendfiled.Lib.Prog
import Sendfiled.Lib.SwapRemove

namespace Sendfiled

open Prog

/-- `struct server`, with the objects it points to.  `deferredXfers` is the part
of the array below `ndeferred_xfers`. -/
structure Server where
  xfers : XferTable Ptr
  xferTimers : XferTable Ptr
  deferredXfers : List Ptr
  nextTxnid : Nat
  reqfd : Fd
  uid : Nat
  pipeCapacity : Nat
  recvbuf : RecvBuf
  xferAt : Ptr → Option ResrcXfer
  timerAt : Ptr → Option ResrcTimer
  respAt : Ptr → Option ResrcResp
  nextPtr : Ptr
  allocated : Addr → Bool

structure World where
  srv : Server
  kern : Kernel

/-- A piece of the server's code. -/
abbrev M := Program Fault World

/-- A system call. -/
def sys {α : Type} (f : Kernel → α × Kernel) : M α :=
  modifyGet fun w => ((f w.kern).1, { w with kern := (f w.kern).2 })

/-- A change to the server's memory. -/
def onSrv (f : Server → Server) : M Unit :=
  modify fun w => { w with srv := f w.srv }

/-- The value of `errno`. -/
def getErrno : M Errno := gets fun w => w.kern.errno

def setErrno (e : Errno) : M Unit :=
  modify fun w => { w with kern := { w.kern with errno := e } }

/-- `PRESERVE_ERRNO`. -/
def preserveErrno (statement : M Unit) : M Unit := do
  let saved ← getErrno
  statement
  setErrno saved

/-- `assert`. -/
def assert (c : Prop) [Decidable c] (a : Assertion) : M Unit :=
  check c (.assertion a)

namespace Server

def setXfer (p : Ptr) (x : ResrcXfer) (s : Server) : Server :=
  { s with xferAt := Function.update s.xferAt p (some x) }

def setTimer (p : Ptr) (t : ResrcTimer) (s : Server) : Server :=
  { s with timerAt := Function.update s.timerAt p (some t) }

def newXfer (x : ResrcXfer) (s : Server) : Server :=
  { s.setXfer s.nextPtr x with nextPtr := s.nextPtr + 1 }

def newTimer (t : ResrcTimer) (s : Server) : Server :=
  { s.setTimer s.nextPtr t with nextPtr := s.nextPtr + 1 }

def newResp (r : ResrcResp) (s : Server) : Server :=
  { s with
    respAt := Function.update s.respAt s.nextPtr (some r)
    nextPtr := s.nextPtr + 1 }

def release (a : Addr) (s : Server) : Server :=
  { s with allocated := Function.update s.allocated a false }

def dropXfer (p : Ptr) (s : Server) : Server :=
  { s with xferAt := Function.update s.xferAt p none }

def dropTimer (p : Ptr) (s : Server) : Server :=
  { s with timerAt := Function.update s.timerAt p none }

def dropResp (p : Ptr) (s : Server) : Server :=
  { s with respAt := Function.update s.respAt p none }

end Server

/-- Follow a pointer to a transfer. -/
def getXfer (p : Ptr) : M ResrcXfer := do
  match ← gets fun w => w.srv.xferAt p with
  | some x => pure x
  | none => halt .useAfterFree

def getTimer (p : Ptr) : M ResrcTimer := do
  match ← gets fun w => w.srv.timerAt p with
  | some t => pure t
  | none => halt .useAfterFree

def getResp (p : Ptr) : M ResrcResp := do
  match ← gets fun w => w.srv.respAt p with
  | some r => pure r
  | none => halt .useAfterFree

variable (ans : Answers)

/-- `malloc`.  An answer that names memory in use is an allocation failure. -/
def malloc : M (Option Addr) := modifyGet fun w =>
  match ans.malloc w.kern.tick with
  | none => (none, { w with kern := w.kern.fail ENOMEM })
  | some a =>
      if w.srv.allocated a then (none, { w with kern := w.kern.fail ENOMEM })
      else (some a,
        { srv := { w.srv with allocated := Function.update w.srv.allocated a true }
          kern := w.kern.succeed })

def close (fd : Fd) : M Unit := do
  let _ ← sys (Kernel.close ans fd)
  pure ()

/-- `xfer_delete`: on Linux there is no I/O context to release. -/
def xferDelete (p : Ptr) : M Unit := do
  let x ← getXfer p
  onSrv fun s => (s.release x.addr).dropXfer p

def timerDelete (p : Ptr) : M Unit := do
  let t ← getTimer p
  close ans t.ident
  onSrv fun s => (s.release t.addr).dropTimer p

/-- `free` of a pending response. -/
def respFree (p : Ptr) : M Unit := do
  let r ← getResp p
  onSrv fun s => (s.release r.addr).dropResp p

/-- `xfer_new`. -/
def xferNew (cmd : ProtCmdReq) (file : ResrcXferFile) (nbytes : BitVec 64)
    (clientPid : Nat) (statFd destFd : Fd) (txnid : Nat) : M (Option Ptr) := do
  match ← malloc ans with
  | none => pure none
  | some addr =>
      let p ← gets fun w => w.srv.nextPtr
      onSrv fun s => s.newXfer
        { addr := addr
          destFd := destFd
          statFd := statFd
          cmd := cmd
          txnid := txnid
          file := file
          nbytesLeft := nbytes
          clientPid := clientPid
          defer := .none }
      pure (some p)

def syspollRegister (fd : Fd) (udata : Udata) : M Bool :=
  sys (Kernel.epollAdd ans fd udata)

def syspollDeregister (fd : Fd) : M Bool := sys (Kernel.epollDel fd)

/-- `syspoll_timer`.  When `timerfd_create` fails the function returns `-1`,
which is true as a bool. -/
def syspollTimer (p : Ptr) : M Bool := do
  match ← sys (Kernel.timerfdCreate ans) with
  | none => pure true
  | some fd =>
      if ← sys (Kernel.timerfdSettime ans) then
        let t ← getTimer p
        onSrv fun s => s.setTimer p { t with ident := fd }
        if ← syspollRegister ans fd (.timer p) then
          pure true
        else
          preserveErrno (close ans fd)
          pure false
      else
        preserveErrno (close ans fd)
        pure false

/-- `send_pdu`. -/
def sendPdu (xfer : Option Ptr) (fd : Fd) (pdu : Pdu) : M Bool := do
  match ← sys (Kernel.write ans xfer fd pdu) with
  | .error _ => pure false
  | .ok n =>
      assert (n = pdu.size) .sendPduWhole
      pure true

def sendFileInfo (xfer : Ptr) (fd : Fd) (txnid : Nat) (info : FioStat) : M Bool :=
  sendPdu ans (some xfer) fd
    (.fileInfo info.size info.atime info.mtime info.ctime txnid)

def sendXferStat (xfer : Ptr) (fd : Fd) (size : Nat) : M Bool :=
  sendPdu ans (some xfer) fd (.xferStat size)

def sendReqErr (xfer : Option Ptr) (fd : Fd) (stat : Errno) : M Bool := do
  assert (0 < stat ∧ stat ≤ 0xFF) .sendReqErrStat
  sendPdu ans xfer fd (.hdr .fileInfo stat)

/-- The status is cast to `uint8_t`. -/
def sendXferErr (xfer : Option Ptr) (fd : Fd) (stat : Errno) : M Bool :=
  sendPdu ans xfer fd (.hdr .xferStat (stat % 256))

/-- `file_open_read`: open, stat, lock and position the file. -/
def fileOpenRead (name : List UInt8) (offset len : BitVec 64) :
    M (Option (Fd × FioStat)) := do
  match ← sys (Kernel.openFile ans name) with
  | none => pure none
  | some (fd, node) =>
      if ← sys (Kernel.fstat ans) then
        if node.regular then
          if ← sys (Kernel.lock ans offset.toInt len.toInt) then
            let info : FioStat :=
              { size := node.size, atime := node.atime, mtime := node.mtime
                ctime := node.ctime, blksize := node.blksize % 2 ^ 32 }
            if 0 < offset.toInt then
              if ← sys (Kernel.lseek ans fd offset.toNat) then
                pure (some (fd, info))
              else
                preserveErrno (close ans fd)
                pure none
            else pure (some (fd, info))
          else
            preserveErrno (close ans fd)
            pure none
        else
          setErrno EINVAL
          preserveErrno (close ans fd)
          pure none
      else
        preserveErrno (close ans fd)
        pure none

end Sendfiled
