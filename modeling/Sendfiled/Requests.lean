/-
Client requests: reception on the UNIX socket (unix_socket_server.c and its
Linux part) and their processing in server.c.
-/
import Sendfiled.Transfer

namespace Sendfiled

open Prog

variable (ans : Answers)

/-- The size and range checks of `add_xfer`: the number of bytes to transfer, or
the error the request is refused with.  All arithmetic is on `size_t`. -/
def rangeCheck (fileSize : Nat) (offset len : BitVec 64) : Except Errno (BitVec 64) :=
  if fileSize = 0 then .error EINVAL
  else if fileSize < (offset + len).toNat then .error ERANGE
  else if 0 < len.toNat then .ok len
  else .ok (BitVec.ofNat 64 fileSize - offset)

/-- The part of `add_xfer` after the checks: allocate the transfer and insert it
into the table. -/
def insertXfer (req : ProtRequest) (clientPid : Nat) (statFd destFd fd : Fd)
    (info : FioStat) (nbytes : BitVec 64) : M (Option (Ptr × FioStat)) := do
  let txnid ← gets fun w => w.srv.nextTxnid
  match ← xferNew ans req.cmd { size := nbytes, fd := fd, blksize := info.blksize }
      nbytes clientPid statFd destFd txnid with
  | none =>
      preserveErrno (close ans fd)
      pure none
  | some p =>
      onSrv fun s => { s with nextTxnid := (s.nextTxnid + 1) % 2 ^ 64 }
      let table ← gets fun w => w.srv.xfers
      match table.insert (fun _ => txnid) p with
      | none =>
          preserveErrno (deleteXferAndCloseFileFd ans p)
          pure none
      | some table' =>
          onSrv fun s => { s with xfers := table' }
          pure (some (p, { info with size := nbytes.toNat }))

def addXfer (req : ProtRequest) (clientPid : Nat) (statFd destFd : Fd) :
    M (Option (Ptr × FioStat)) := do
  let table ← gets fun w => w.srv.xfers
  if table.size = table.capacity then
    setErrno EMFILE
    pure none
  else
    match ← fileOpenRead ans req.filename req.offset req.len with
    | none => pure none
    | some (fd, info) =>
        match rangeCheck info.size req.offset req.len with
        | .error e =>
            close ans fd
            setErrno e
            pure none
        | .ok nbytes =>
            insertXfer ans req clientPid statFd destFd fd info nbytes

/-- Allocate the timer of an open file; `fail1` and `fail2` are left to the
caller. -/
def newTimer (txnid : Nat) (xferAddr : Addr) : M (Option Ptr) := do
  match ← malloc ans with
  | none => pure none
  | some addr =>
      let t ← gets fun w => w.srv.nextPtr
      onSrv fun s => s.newTimer
        { addr := addr, ident := -1, txnid := txnid, xferAddr := xferAddr }
      pure (some t)

/-- `add_open_file`.  Besides the timer the result holds the transfer, for the
trace, and the file's information. -/
def addOpenFile (req : ProtRequest) (clientPid : Nat) (statFd : Fd) :
    M (Option (Ptr × Ptr × FioStat)) := do
  match ← addXfer ans req clientPid statFd (-1) with
  | none => pure none
  | some (p, info) =>
      let x ← getXfer p
      match ← newTimer ans x.txnid x.addr with
      | none =>
          preserveErrno (deleteUnregisteredXfer ans p)
          pure none
      | some t =>
          let table ← gets fun w => w.srv.xferTimers
          match table.insert (fun _ => x.txnid) t with
          | none =>
              preserveErrno (timerDelete ans t)
              preserveErrno (deleteUnregisteredXfer ans p)
              pure none
          | some table' =>
              onSrv fun s => { s with xferTimers := table' }
              if ← syspollTimer ans t then pure (some (t, p, info))
              else
                preserveErrno (eraseTimer x.txnid)
                preserveErrno (timerDelete ans t)
                preserveErrno (deleteUnregisteredXfer ans p)
                pure none

/-- Whether a client may act on a transfer.  A PID that could not be determined
matches every client. -/
def pidMatches (x : ResrcXfer) (clientPid : Nat) : Bool :=
  x.clientPid == usInvalidPid || x.clientPid == clientPid

/-- `get_open_file`. -/
def getOpenFile (clientPid txnid : Nat) : M (Option Ptr) := do
  let table ← gets fun w => w.srv.xfers
  match table.find txnid with
  | none => pure none
  | some p =>
      let x ← getXfer p
      if pidMatches x clientPid then pure (some p) else pure none

/-- The FILE_OPEN branch of `process_request`. -/
def processFileOpen (buf : RecvBuf) (size clientPid : Nat) (fds : Fd × Fd) : M Bool := do
  match protUnmarshalRequest buf size with
  | none => pure false
  | some pdu =>
      match ← addOpenFile ans pdu clientPid fds.1 with
      | none =>
          let _ ← sendReqErr ans none fds.1 (← getErrno)
          pure false
      | some (t, p, info) =>
          let timer ← getTimer t
          let _ ← sendFileInfo ans p fds.1 timer.txnid info
          pure true

/-- Give an open file its destination and register it. -/
def startOpenFile (p : Ptr) (x : ResrcXfer) (destFd : Fd) : M Bool := do
  onSrv fun s => s.setXfer p { x with cmd := .send, destFd := destFd }
  if ← registerXfer ans p then pure true
  else
    let _ ← sendXferErr ans (some p) x.statFd (← getErrno)
    deleteUnregisteredXfer ans p
    pure false

/-- The SEND_OPEN branch. -/
def processSendOpen (buf : RecvBuf) (clientPid : Nat) (fds : Fd × Fd) : M Bool := do
  match protUnmarshalSendOpen buf with
  | none => pure false
  | some txnid =>
      match ← getOpenFile clientPid txnid with
      | none =>
          close ans fds.1
          pure false
      | some p =>
          let x ← getXfer p
          if x.defer = .cancel then
            close ans fds.1
            pure false
          else startOpenFile ans p x fds.1

/-- The CANCEL branch. -/
def processCancel (buf : RecvBuf) (clientPid : Nat) : M Bool := do
  match protUnmarshalCancel buf with
  | none => pure false
  | some txnid =>
      match ← getOpenFile clientPid txnid with
      | none => pure false
      | some p =>
          deferCancel p
          pure true

/-- The READ and SEND branch. -/
def processReadSend (buf : RecvBuf) (size clientPid : Nat) (fds : Fd × Fd) : M Bool := do
  match protUnmarshalRequest buf size with
  | none => pure false
  | some pdu =>
      let destFd := if pdu.cmd = .send then fds.2 else fds.1
      match ← addXfer ans pdu clientPid fds.1 destFd with
      | none =>
          let _ ← sendReqErr ans none fds.1 (← getErrno)
          pure false
      | some (p, info) =>
          if ← registerXfer ans p then
            let x ← getXfer p
            let _ ← sendFileInfo ans p x.statFd x.txnid info
            pure true
          else
            let x ← getXfer p
            let _ ← sendReqErr ans (some p) x.statFd (← getErrno)
            deleteUnregisteredXfer ans p
            pure false

def processRequest (buf : RecvBuf) (size clientPid : Nat) (fds : Fd × Fd) : M Bool :=
  if sfdGetStat buf ≠ 0 then pure false
  else if !protIsRequest (sfdGetCmd buf) then pure false
  else
    match ProtCmdReq.ofCode (sfdGetCmd buf) with
    | some .fileOpen => processFileOpen ans buf size clientPid fds
    | some .sendOpen => processSendOpen ans buf clientPid fds
    | some .cancel => processCancel buf clientPid
    | some .read | some .send => processReadSend ans buf size clientPid fds
    | none => pure false

def closeFds (fds : Fd × Fd) (nfds : Nat) : M Unit :=
  if 0 < nfds then do
    close ans fds.1
    if nfds = 2 then close ans fds.2 else pure ()
  else pure ()

/-- A datagram as `us_recv` hands it over. -/
structure Received where
  nread : Nat
  nfds : Nat
  fds : Fd × Fd
  uid : Nat
  pid : Nat
deriving DecidableEq, Repr

/-- The descriptor array after `us_get_fds_and_creds`.  Without descriptors in
the message the array keeps its old contents; otherwise it is zeroed first. -/
def recvFds (old : Fd × Fd) : List Fd → Fd × Fd
  | [] => old
  | [a] => (a, 0)
  | a :: b :: _ => (a, b)

/-- `us_recv`; `none` stands for `-1`.  The flags are compared for equality, so
a message truncated in both its parts is not noticed. -/
def usRecv (old : Fd × Fd) (d : Datagram) : M (Option Received) := do
  let msg ← sys (Kernel.recvmsg ans d)
  onSrv fun s => { s with recvbuf := s.recvbuf.receive d.data }
  if msg.trunc ≠ msg.ctrunc then
    setErrno ERANGE
    pure none
  else
    match msg.creds with
    | none =>
        setErrno EBADF
        pure none
    | some creds => pure (some
        { nread := min d.data.length protReqMaxSize
          nfds := msg.rights.length
          fds := recvFds old msg.rights
          uid := creds.uid
          pid := creds.pid })

/-- The body of the loop of `handle_reqfd` once a datagram was received. -/
def handleReceived (r : Received) : M Unit := do
  assert (r.nread ≠ 0) .recvNonempty
  let buf ← gets fun w => w.srv.recvbuf
  let uid ← gets fun w => w.srv.uid
  if sfdGetCmd buf ≠ ProtCmdReq.cancel.code ∧ (r.nfds < 1 ∨ protMaxFds < r.nfds) then
    pure ()
  else if r.uid ≠ uid then
    let _ ← sendXferErr ans none r.fds.1 EACCES
    closeFds ans r.fds r.nfds
  else if ← processRequest ans buf r.nread r.pid r.fds then pure ()
  else closeFds ans r.fds r.nfds

/-- One round of the loop of `handle_reqfd`: the descriptor array for the next
round, or `none` when the socket failed. -/
def handleDatagram (old : Fd × Fd) (d : Datagram) : M (Option (Fd × Fd)) := do
  match ← usRecv ans old d with
  | none => pure none
  | some r =>
      handleReceived ans r
      pure (some r.fds)

/-- The loop of `handle_reqfd` over the datagrams that can be received until
the socket reports `last`.  `old` is what the descriptor array holds. -/
def handleReqfd (last : Errno) : Fd × Fd → List Datagram → M Bool
  | _, [] => do
      setErrno last
      pure (!errnoIsFatal last)
  | old, d :: rest => do
      match ← handleDatagram ans old d with
      | none => pure (!errnoIsFatal (← getErrno))
      | some fds => handleReqfd last fds rest

end Sendfiled
