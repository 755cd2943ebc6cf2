/-
The life of a transfer in server.c: deletion, deferral, the pending terminal
response and the transfer of file data.
-/
import Sendfiled.World

namespace Sendfiled

open Prog

variable (ans : Answers)

def deleteXferAndCloseFileFd (p : Ptr) : M Unit := do
  let x ← getXfer p
  close ans x.file.fd
  xferDelete p

def deleteXferAndCloseAllFds (p : Ptr) : M Unit := do
  let x ← getXfer p
  close ans x.statFd
  if x.destFd ≠ x.statFd ∧ 0 ≤ x.destFd then
    close ans x.destFd
    deleteXferAndCloseFileFd ans p
  else deleteXferAndCloseFileFd ans p

def registerXfer (p : Ptr) : M Bool := do
  let x ← getXfer p
  syspollRegister ans x.destFd (.xfer p)

def deregisterXfer (p : Ptr) : M Bool := do
  let x ← getXfer p
  syspollDeregister x.destFd

def eraseXfer (txnid : Nat) : M Unit :=
  onSrv fun s => { s with xfers := s.xfers.erase txnid }

def eraseTimer (txnid : Nat) : M Unit :=
  onSrv fun s => { s with xferTimers := s.xferTimers.erase txnid }

def deleteUnregisteredXfer (p : Ptr) : M Unit := do
  let x ← getXfer p
  eraseXfer x.txnid
  deleteXferAndCloseFileFd ans p

def deleteRegisteredXfer (p : Ptr) : M Unit := do
  let x ← getXfer p
  eraseXfer x.txnid
  let _ ← deregisterXfer p
  deleteXferAndCloseAllFds ans p

/-- Append a transfer to `deferred_xfers`. -/
def pushDeferred (p : Ptr) : M Unit :=
  onSrv fun s => { s with deferredXfers := s.deferredXfers ++ [p] }

def setDefer (p : Ptr) (d : Deferral) : M Unit := do
  let x ← getXfer p
  onSrv fun s => s.setXfer p { x with defer := d }

/-- `defer_xfer(srv, xfer, CANCEL)`. -/
def deferCancel (p : Ptr) : M Unit := do
  let x ← getXfer p
  let s ← gets fun w => w.srv
  assert (x.defer = .ready ∨ s.deferredXfers.length < s.xfers.size) .deferCancel
  if x.defer = .none then
    pushDeferred p
    setDefer p .cancel
  else setDefer p .cancel

/-- `defer_xfer(srv, xfer, READY)`. -/
def deferReady (p : Ptr) : M Unit := do
  let x ← getXfer p
  let s ← gets fun w => w.srv
  assert (x.defer ≠ .cancel) .deferReadyNotCancel
  assert (s.deferredXfers.length < s.xfers.size) .deferReadyRoom
  pushDeferred p
  setDefer p .ready

/-- `undefer_xfer`: the last entry of the list takes the place of entry `i`. -/
def undeferXfer (i : Nat) (p : Ptr) : M Unit := do
  setDefer p .none
  onSrv fun s => { s with deferredXfers := s.deferredXfers.swapRemove i }

def hasStatChannel (p : Ptr) : M Bool := do
  let x ← getXfer p
  assert (x.statFd = x.destFd ∨ x.cmd = .send) .statChannel
  pure (decide (x.statFd ≠ x.destFd))

/-- `new_resrc_resp`. -/
def newResrcResp (xfer : Ptr) (fd : Fd) (pdu : Pdu) : M (Option Ptr) := do
  match ← malloc ans with
  | none => pure none
  | some addr =>
      let r ← gets fun w => w.srv.nextPtr
      onSrv fun s => s.newResp { addr := addr, statFd := fd, pdu := pdu, xfer := xfer }
      pure (some r)

/-- `send_terminal_resp`.  After a failed allocation the function goes on to
register the null response. -/
def sendTerminalResp (p : Ptr) (pdu : Pdu) : M Unit := do
  let x ← getXfer p
  if ← sendPdu ans (some p) x.statFd pdu then pure ()
  else if errnoIsFatal (← getErrno) then pure ()
  else
    match ← sys (Kernel.dup ans x.statFd) with
    | none => pure ()
    | some statFd =>
        match ← newResrcResp ans p statFd pdu with
        | none =>
            close ans statFd
            halt .nullDeref
        | some r =>
            if ← syspollRegister ans statFd (.resp r) then pure ()
            else
              respFree r
              close ans statFd

/-- The end of a transfer all of whose bytes were written. -/
def completeXfer (p : Ptr) : M Bool := do
  if ← hasStatChannel p then
    sendTerminalResp ans p (.xferStat protXferComplete)
    pure false
  else pure false

/-- `splice` for READ and `sendfile` for SEND; both read from the position of
the file's descriptor. -/
def fileTransfer (p : Ptr) (x : ResrcXfer) (nbytes : Nat) : M (Except Errno Nat) :=
  sys (Kernel.moveBytes ans p x.file.fd x.destFd nbytes)

/-- A write that failed with `errno`. -/
def transferError (p : Ptr) (total : Nat) : M Bool := do
  let e ← getErrno
  if errnoIsFatal e then
    if ← hasStatChannel p then
      sendTerminalResp ans p (.hdr .xferStat (e % 256))
      pure false
    else pure false
  else
    let x ← getXfer p
    if x.nbytesLeft = 0 then completeXfer ans p
    else if ← hasStatChannel p then
      if ← sendXferStat ans p x.statFd total then
        setDefer p .none
        pure true
      else if errnoIsFatal (← getErrno) then pure false
      else
        setDefer p .none
        pure true
    else
      setDefer p .none
      pure true

/-- The loop of `transfer_file`; `total` is `total_nwritten`.  Every round that
goes on has written at least one byte of at most `pipe_capacity()`. -/
def transferLoop (p : Ptr) : Nat → Nat → M Bool
  | 0, _ => halt .outOfFuel
  | fuel + 1, total => do
      let x ← getXfer p
      let capacity ← gets fun w => w.srv.pipeCapacity
      let writeSize := min x.file.blksize (min x.nbytesLeft.toNat (capacity - total))
      assert (0 < writeSize) .writeSize
      match ← fileTransfer ans p x writeSize with
      | .error _ => transferError ans p total
      | .ok nwritten =>
          assert (0 < nwritten) .nwritten
          let left := x.nbytesLeft - BitVec.ofNat 64 nwritten
          onSrv fun s => s.setXfer p { x with nbytesLeft := left }
          if left = 0 then completeXfer ans p
          else if capacity ≤ total + nwritten then
            if x.defer = .none then
              deferReady p
              pure true
            else pure true
          else transferLoop p fuel (total + nwritten)

def transferFile (p : Ptr) : M Bool := do
  let x ← getXfer p
  match x.cmd with
  | .read | .send => do
      let capacity ← gets fun w => w.srv.pipeCapacity
      transferLoop ans p (capacity + 1) 0
  | _ => pure false

end Sendfiled
