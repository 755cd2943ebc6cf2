/-
server.c over the poller of syspoll_kqueue.c.  The parts of the server that do not touch
the poller are those of the other platform; what calls it is stated here again, with the
change list of the poller as part of the state.
-/
import Sendfiled.FreeBsd.Kqueue
import Sendfiled.Run

namespace Sendfiled.Kqueue

open Prog Transition
open FreeBsd (K KEvent PollAssertion SIGTERM SYSPOLL_ERROR SYSPOLL_READ SYSPOLL_TERM
  SYSPOLL_WRITE Syspoll kqAdd syspollKevent)

section Memory

/-- The server process with its poller and `open_file_timeout_ms`. -/
structure Host where
  world : World
  poll : Syspoll
  openFileTimeoutMs : Nat

/-- A fault of the server's code or a failed assertion of the poller. -/
inductive HostFault where
  | server (f : Fault)
  | poll (a : PollAssertion)
deriving DecidableEq, Repr

abbrev H := Program HostFault Host

/-- Code that does not touch the poller. -/
def onWorld {α : Type} (m : M α) : H α :=
  zoom Host.world (fun w h => { h with world := w }) .server m

/-- A call of the poller. -/
def onPoll {α : Type} (m : K α) : H α :=
  zoom Host.poll (fun p h => { h with poll := p }) .poll m

/-- `PRESERVE_ERRNO`. -/
def preserveErrno (statement : H Unit) : H Unit := do
  let saved ← onWorld getErrno
  statement
  onWorld (setErrno saved)

/-- Where a resource is in memory.  No two resources have the same pointer. -/
def addrOf : Udata → Nat
  | .reqfd | .sigfd => 0
  | .xfer p | .timer p | .resp p => p + 1

/-- What the tag at an address tells the resource to be. -/
def resourceAt (s : Server) : Nat → Option Udata
  | 0 => some .reqfd
  | p + 1 =>
      if (s.timerAt p).isSome then some (.timer p)
      else if (s.respAt p).isSome then some (.resp p)
      else if (s.xferAt p).isSome then some (.xfer p)
      else none

end Memory

namespace Host

variable (ans : Answers)

section Transfers

def registerXfer (p : Ptr) : H Bool := do
  let x ← onWorld (getXfer p)
  onPoll (FreeBsd.syspollRegister ⟨x.destFd, addrOf (.xfer p)⟩ SYSPOLL_WRITE)
  pure true

def deregisterXfer (p : Ptr) : H Bool := do
  let x ← onWorld (getXfer p)
  onPoll (FreeBsd.syspollDeregister x.destFd)
  pure true

def deleteRegisteredXfer (p : Ptr) : H Unit := do
  let x ← onWorld (getXfer p)
  onWorld (eraseXfer x.txnid)
  let _ ← deregisterXfer p
  onWorld (deleteXferAndCloseAllFds ans p)

/-- `send_terminal_resp`. -/
def sendTerminalResp (p : Ptr) (pdu : Pdu) : H Unit := do
  let x ← onWorld (getXfer p)
  if ← onWorld (sendPdu ans (some p) x.statFd pdu) then pure ()
  else if errnoIsFatal (← onWorld getErrno) then pure ()
  else
    match ← onWorld (sys (Kernel.dup ans x.statFd)) with
    | none => pure ()
    | some statFd =>
        match ← onWorld (newResrcResp ans p statFd pdu) with
        | none =>
            onWorld (close ans statFd)
            halt (.server .nullDeref)
        | some r => onPoll (FreeBsd.syspollRegister ⟨statFd, addrOf (.resp r)⟩ SYSPOLL_WRITE)

/-- The end of a transfer all of whose bytes were written. -/
def completeXfer (p : Ptr) : H Bool := do
  if ← onWorld (hasStatChannel p) then
    sendTerminalResp ans p (.xferStat protXferComplete)
    pure false
  else pure false

/-- `file_splice` and `file_sendfile`, of which the rest of the server sees an error or a
number of bytes. -/
def fileTransfer (nbytes : Nat) : M (Except Errno Nat) :=
  sys fun k =>
    match ans.io k.tick nbytes with
    | .error e => (.error e, k.fail e)
    | .ok n => (.ok n, k.succeed)

/-- A write that failed with `errno`. -/
def transferError (p : Ptr) (total : Nat) : H Bool := do
  let e ← onWorld getErrno
  if errnoIsFatal e then
    if ← onWorld (hasStatChannel p) then
      sendTerminalResp ans p (.hdr .xferStat (e % 256))
      pure false
    else pure false
  else
    let x ← onWorld (getXfer p)
    if x.nbytesLeft = 0 then completeXfer ans p
    else if ← onWorld (hasStatChannel p) then
      if ← onWorld (sendXferStat ans p x.statFd total) then
        onWorld (setDefer p .none)
        pure true
      else if errnoIsFatal (← onWorld getErrno) then pure false
      else
        onWorld (setDefer p .none)
        pure true
    else
      onWorld (setDefer p .none)
      pure true

/-- The loop of `transfer_file`; `total` is `total_nwritten`. -/
def transferLoop (p : Ptr) : Nat → Nat → H Bool
  | 0, _ => halt (.server .outOfFuel)
  | fuel + 1, total => do
      let x ← onWorld (getXfer p)
      let capacity ← onWorld (gets fun w => w.srv.pipeCapacity)
      let writeSize := min x.file.blksize (min x.nbytesLeft.toNat (capacity - total))
      onWorld (assert (0 < writeSize) .writeSize)
      match ← onWorld (fileTransfer ans writeSize) with
      | .error _ => transferError ans p total
      | .ok nwritten =>
          onWorld (assert (0 < nwritten) .nwritten)
          let left := x.nbytesLeft - BitVec.ofNat 64 nwritten
          onWorld (onSrv fun s => s.setXfer p { x with nbytesLeft := left })
          if left = 0 then completeXfer ans p
          else if capacity ≤ total + nwritten then
            if x.defer = .none then
              onWorld (deferReady p)
              pure true
            else pure true
          else transferLoop p fuel (total + nwritten)

def transferFile (p : Ptr) : H Bool := do
  let x ← onWorld (getXfer p)
  match x.cmd with
  | .read | .send => do
      let capacity ← onWorld (gets fun w => w.srv.pipeCapacity)
      transferLoop ans p (capacity + 1) 0
  | _ => pure false

end Transfers

section Requests

/-- `add_open_file`.  `syspoll_timer` of this poller does not fail. -/
def addOpenFile (req : ProtRequest) (clientPid : Nat) (statFd : Fd) :
    H (Option (Ptr × Ptr × FioStat)) := do
  match ← onWorld (addXfer ans req clientPid statFd (-1)) with
  | none => pure none
  | some (p, info) =>
      let x ← onWorld (getXfer p)
      match ← onWorld (newTimer ans x.txnid x.addr) with
      | none =>
          onWorld (Sendfiled.preserveErrno (deleteUnregisteredXfer ans p))
          pure none
      | some t =>
          let table ← onWorld (gets fun w => w.srv.xferTimers)
          match table.insert (fun _ => x.txnid) t with
          | none =>
              onWorld (Sendfiled.preserveErrno (timerDelete ans t))
              onWorld (Sendfiled.preserveErrno (deleteUnregisteredXfer ans p))
              pure none
          | some table' =>
              onWorld (onSrv fun s => { s with xferTimers := table' })
              let timer ← onWorld (getTimer t)
              let millis ← gets Host.openFileTimeoutMs
              onPoll (FreeBsd.syspollTimer ⟨timer.ident, addrOf (.timer t)⟩ millis)
              pure (some (t, p, info))

/-- The FILE_OPEN branch of `process_request`. -/
def processFileOpen (buf : RecvBuf) (size clientPid : Nat) (fds : Fd × Fd) : H Bool := do
  match protUnmarshalRequest buf size with
  | none => pure false
  | some pdu =>
      match ← addOpenFile ans pdu clientPid fds.1 with
      | none =>
          let _ ← onWorld (do sendReqErr ans none fds.1 (← getErrno))
          pure false
      | some (t, p, info) =>
          let timer ← onWorld (getTimer t)
          let _ ← onWorld (sendFileInfo ans p fds.1 timer.txnid info)
          pure true

/-- The SEND_OPEN branch.  `syspoll_register` of this poller does not fail. -/
def processSendOpen (buf : RecvBuf) (clientPid : Nat) (fds : Fd × Fd) : H Bool := do
  match protUnmarshalSendOpen buf with
  | none => pure false
  | some txnid =>
      match ← onWorld (getOpenFile clientPid txnid) with
      | none =>
          onWorld (close ans fds.1)
          pure false
      | some p =>
          let x ← onWorld (getXfer p)
          if x.defer = .cancel then
            onWorld (close ans fds.1)
            pure false
          else
            onWorld (onSrv fun s => s.setXfer p { x with cmd := .send, destFd := fds.1 })
            registerXfer p

/-- The READ and SEND branch. -/
def processReadSend (buf : RecvBuf) (size clientPid : Nat) (fds : Fd × Fd) : H Bool := do
  match protUnmarshalRequest buf size with
  | none => pure false
  | some pdu =>
      let destFd := if pdu.cmd = .send then fds.2 else fds.1
      match ← onWorld (addXfer ans pdu clientPid fds.1 destFd) with
      | none =>
          let _ ← onWorld (do sendReqErr ans none fds.1 (← getErrno))
          pure false
      | some (p, info) =>
          let _ ← registerXfer p
          let x ← onWorld (getXfer p)
          let _ ← onWorld (sendFileInfo ans p x.statFd x.txnid info)
          pure true

def processRequest (buf : RecvBuf) (size clientPid : Nat) (fds : Fd × Fd) : H Bool :=
  if sfdGetStat buf ≠ 0 then pure false
  else if !protIsRequest (sfdGetCmd buf) then pure false
  else
    match ProtCmdReq.ofCode (sfdGetCmd buf) with
    | some .fileOpen => processFileOpen ans buf size clientPid fds
    | some .sendOpen => processSendOpen ans buf clientPid fds
    | some .cancel => onWorld (processCancel buf clientPid)
    | some .read | some .send => processReadSend ans buf size clientPid fds
    | none => pure false

/-- `us_recv`: the credentials of a message do not tell the client's PID. -/
def usRecv (old : Fd × Fd) (d : Datagram) : M (Option Received) := do
  let r ← Sendfiled.usRecv ans old d
  pure (r.map fun r => { r with pid := usInvalidPid })

/-- The body of the loop of `handle_reqfd` once a datagram was received. -/
def handleReceived (r : Received) : H Unit := do
  onWorld (assert (r.nread ≠ 0) .recvNonempty)
  let buf ← onWorld (gets fun w => w.srv.recvbuf)
  let uid ← onWorld (gets fun w => w.srv.uid)
  if sfdGetCmd buf ≠ ProtCmdReq.cancel.code ∧ (r.nfds < 1 ∨ protMaxFds < r.nfds) then
    pure ()
  else if r.uid ≠ uid then
    let _ ← onWorld (sendXferErr ans none r.fds.1 EACCES)
    onWorld (closeFds ans r.fds r.nfds)
  else if ← processRequest ans buf r.nread r.pid r.fds then pure ()
  else onWorld (closeFds ans r.fds r.nfds)

end Requests

section Events

/-- The branch for transfers of `process_events`. -/
def processXfer (errorEvent : Bool) (p : Ptr) : H Unit := do
  let x ← onWorld (getXfer p)
  if x.defer = .cancel then pure ()
  else if errorEvent then Kqueue.preserveErrno (deleteRegisteredXfer ans p)
  else if x.defer = .ready then pure ()
  else if ← transferFile ans p then pure ()
  else Kqueue.preserveErrno (deleteRegisteredXfer ans p)

def processResource (errorEvent : Bool) : Udata → H Unit
  | .timer t => onWorld (processTimer ans t)
  | .resp r => onWorld (processResp ans errorEvent r)
  | .xfer p => processXfer ans errorEvent p
  | .sigfd | .reqfd => halt (.server (.assertion .isXfer))

/-- Follow the user data of an event. -/
def follow (udata : Option Nat) : H Udata := do
  match udata with
  | none => halt (.server .nullDeref)
  | some a =>
      match ← gets fun h => resourceAt h.world.srv a with
      | some u => pure u
      | none => halt (.server .useAfterFree)

/-- The body of the loop of `process_events`, up to `handle_reqfd`'s own loop. -/
def dispatchEvent (i : Nat) : H Dispatch := do
  let events ← onPoll (FreeBsd.syspollGet i)
  if events.events &&& SYSPOLL_TERM ≠ 0 then pure .stop
  else
    let resrc ← follow events.udata
    let ident ← onWorld (identOf resrc)
    let reqfd ← gets fun h => h.world.srv.reqfd
    if ident = some reqfd then
      if events.events &&& SYSPOLL_ERROR ≠ 0 then pure .stop
      else
        onWorld (assert (events.events = SYSPOLL_READ) .reqfdEvents)
        pure .request
    else
      processResource ans (decide (events.events &&& SYSPOLL_ERROR ≠ 0)) resrc
      pure .handled

/-- The loop of `process_deferred` from index `i`. -/
def deferredLoop : Nat → Nat → H Unit
  | 0, _ => halt (.server .outOfFuel)
  | fuel + 1, i => do
      let deferred ← gets fun h => h.world.srv.deferredXfers
      match deferred[i]? with
      | none => pure ()
      | some p =>
          let x ← onWorld (getXfer p)
          match x.defer with
          | .cancel => do
              onWorld (undeferXfer i p)
              deleteRegisteredXfer ans p
              deferredLoop fuel i
          | .ready => do
              if ← transferFile ans p then
                let x' ← onWorld (getXfer p)
                if x'.defer = .none then
                  onWorld (undeferXfer i p)
                  deferredLoop fuel i
                else deferredLoop fuel (i + 1)
              else
                onWorld (undeferXfer i p)
                deleteRegisteredXfer ans p
                deferredLoop fuel i
          | .none => halt (.server (.assertion .deferredNotNone))

def processDeferred : H Unit := do
  let deferred ← gets fun h => h.world.srv.deferredXfers
  deferredLoop ans (deferred.length + 1) 0

end Events

section Startup

/-- The changes `syspoll_new` queues.  The resource is a variable of its own, which is gone
when the kernel gets to see it; both changes are for SIGTERM. -/
def syspollNew : K Unit := do
  kqAdd ⟨SIGTERM, 0⟩ .signal 0 0 0
  kqAdd ⟨SIGTERM, 0⟩ .signal 0 0 0

/-- `srv_run` up to its loop. -/
def srvStart : H Unit := do
  onPoll syspollNew
  let reqfd ← gets fun h => h.world.srv.reqfd
  onPoll (FreeBsd.syspollRegister ⟨reqfd, addrOf .reqfd⟩ SYSPOLL_READ)

end Startup

end Host

section Runs

/-- Where `srv_run` stands.  Of the `n` events of a batch the `i`-th is next. -/
inductive HostPhase where
  | starting
  | waiting
  | events (i n : Nat)
  | receiving (fds : Fd × Fd) (i n : Nat)
  | requested (r : Received) (i n : Nat)
  | stopped
deriving DecidableEq, Repr

structure HostState where
  host : Host
  phase : HostPhase

/-- What happens next, as far as the environment chooses it. -/
inductive HostLabel where
  | start
  | wait (batch : List KEvent)
  | waitFailed (e : Errno)
  | event (garbage : Fd × Fd)
  | receive (d : Datagram)
  | receiveFailed (e : Errno)
  | request
  | deferred
deriving DecidableEq, Repr

namespace HostState

/-- The state after a piece of code, or its fault. -/
def settle {α : Type} (o : Outcome HostFault Host α)
    (f : α → Host → Except HostFault HostState) : Except HostFault HostState :=
  match o with
  | .done a h => f a h
  | .fault e _ => .error e

/-- Leave the loop of `srv_run`. -/
def shutdown (ans : Answers) (h : Host) : Except HostFault HostState :=
  settle (onWorld (srvDelete ans) h) fun _ h' => .ok ⟨h', .stopped⟩

def withErrno (e : Errno) (h : Host) : Host :=
  { h with world := { h.world with kern := { h.world.kern with errno := e } } }

/-- The poller after `syspoll_kevent`, which empties the change list also when it fails. -/
def flushed (h : Host) : Host := { h with poll := { h.poll with size := 0 } }

/-- One step of the server. -/
def next : Answers × HostLabel → HostState → Option (Except HostFault HostState)
  | (_, .start), ⟨h, .starting⟩ =>
      some <| settle (Host.srvStart h) fun _ h' => .ok ⟨h', .waiting⟩
  | (_, .wait batch), ⟨h, .waiting⟩ =>
      if batch.length ≤ h.poll.capacity then
        some <| settle (onPoll (syspollKevent batch) h) fun n h' => .ok ⟨h', .events 0 n⟩
      else none
  | (ans, .waitFailed e), ⟨h, .waiting⟩ =>
      if e ≠ EINTR ∧ errnoIsFatal e then some (shutdown ans (withErrno e (flushed h)))
      else some (.ok ⟨withErrno e (flushed h), .events 0 0⟩)
  | (ans, .event garbage), ⟨h, .events i n⟩ =>
      if i < n then
        some <| settle (Host.dispatchEvent ans i h) fun
          | .stop, h' => shutdown ans h'
          | .request, h' => .ok ⟨h', .receiving garbage (i + 1) n⟩
          | .handled, h' => .ok ⟨h', .events (i + 1) n⟩
      else none
  | (ans, .receive d), ⟨h, .receiving old i n⟩ =>
      some <| settle (onWorld (Host.usRecv ans old d) h) fun
        | none, h' =>
            if errnoIsFatal h'.world.kern.errno then shutdown ans h' else .ok ⟨h', .events i n⟩
        | some r, h' => .ok ⟨h', .requested r i n⟩
  | (ans, .receiveFailed e), ⟨h, .receiving _ i n⟩ =>
      if errnoIsFatal e then some (shutdown ans (withErrno e h))
      else some (.ok ⟨withErrno e h, .events i n⟩)
  | (ans, .request), ⟨h, .requested r i n⟩ =>
      some <| settle (Host.handleReceived ans r h) fun _ h' => .ok ⟨h', .receiving r.fds i n⟩
  | (ans, .deferred), ⟨h, .events i n⟩ =>
      if i < n then none
      else some <| settle (Host.processDeferred ans h) fun _ h' => .ok ⟨h', .waiting⟩
  | _, _ => none

/-- `srv_new` has allocated everything, and the poller has room for `2 * maxfds` entries. -/
def Initial (maxfds : Nat) (s : HostState) : Prop :=
  s.phase = .starting ∧ s.host.poll.size = 0 ∧ s.host.poll.capacity = 2 * maxfds ∧
    ∃ reqfd uid pipeCapacity,
      srvNew reqfd maxfds uid pipeCapacity = some s.host.world.srv ∧
      FreshKernel reqfd s.host.world.kern

end HostState

/-- The server and its environment, for a given `maxfds`. -/
def hostServer (maxfds : Nat) : System HostFault HostState (Answers × HostLabel) where
  init := HostState.Initial maxfds
  next := HostState.next

end Runs

end Sendfiled.Kqueue
