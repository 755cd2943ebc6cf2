/-
The two processing loops of server.c, start-up and shutdown.
-/
import Sendfiled.Requests

namespace Sendfiled

open Prog

variable (ans : Answers)

/-- An event as `epoll_wait` returns it. -/
structure PollEvent where
  udata : Udata
  err : Bool
  inp : Bool
  out : Bool
deriving DecidableEq, Repr

/-- `struct syspoll_events`. -/
structure SyspollEvents where
  error : Bool
  read : Bool
  write : Bool
  term : Bool
deriving DecidableEq, Repr

/-- `syspoll_get`.  Of the resources only the signal descriptor is treated
specially. -/
def syspollGet (ev : PollEvent) : M SyspollEvents :=
  if ev.err then pure ⟨true, false, false, false⟩
  else if ev.inp ∧ ev.udata = .sigfd then do
    let term ← sys fun k => (ans.termSignal k.tick, k.succeed)
    pure ⟨!term, false, false, term⟩
  else pure ⟨false, ev.inp, ev.out, false⟩

/-- The first field of the resource the user data points to, which is the
descriptor it is registered with.  The signal descriptor is not the request
descriptor and not otherwise used. -/
def identOf : Udata → M (Option Fd)
  | .sigfd => pure none
  | .reqfd => gets fun w => some w.srv.reqfd
  | .xfer p => do
      let x ← getXfer p
      pure (some x.destFd)
  | .timer p => do
      let t ← getTimer p
      pure (some t.ident)
  | .resp p => do
      let r ← getResp p
      pure (some r.statFd)

/-- The timer branch of `process_events`. -/
def processTimer (t : Ptr) : M Unit := do
  let timer ← getTimer t
  let table ← gets fun w => w.srv.xfers
  match table.find timer.txnid with
  | none =>
      eraseTimer timer.txnid
      timerDelete ans t
  | some p =>
      let x ← getXfer p
      if x.addr = timer.xferAddr ∧ x.nbytesLeft = x.file.size then
        let _ ← sendXferErr ans (some p) x.statFd ETIMEDOUT
        deferCancel p
        eraseTimer timer.txnid
        timerDelete ans t
      else
        eraseTimer timer.txnid
        timerDelete ans t

/-- Close a pending response's descriptor and free it. -/
def dropResp (r : Ptr) : M Unit := do
  let resp ← getResp r
  close ans resp.statFd
  respFree r

/-- The branch for pending responses. -/
def processResp (errorEvent : Bool) (r : Ptr) : M Unit := do
  let resp ← getResp r
  if errorEvent then dropResp ans r
  else if ← sendPdu ans (some resp.xfer) resp.statFd resp.pdu then dropResp ans r
  else if errnoIsFatal (← getErrno) then dropResp ans r
  else pure ()

/-- The branch for transfers. -/
def processXfer (errorEvent : Bool) (p : Ptr) : M Unit := do
  let x ← getXfer p
  if x.defer = .cancel then pure ()
  else if errorEvent then preserveErrno (deleteRegisteredXfer ans p)
  else if x.defer = .ready then pure ()
  else if ← transferFile ans p then pure ()
  else preserveErrno (deleteRegisteredXfer ans p)

/-- What the resource tags select.  The bytes after the signal descriptor are
no resource's tag. -/
def processResource (errorEvent : Bool) : Udata → M Unit
  | .timer t => processTimer ans t
  | .resp r => processResp ans errorEvent r
  | .xfer p => processXfer ans errorEvent p
  | .sigfd | .reqfd => halt (.assertion .isXfer)

/-- What `process_events` does after looking at one event: leave the loop, go
on to the request socket, or take the next event. -/
inductive Dispatch where
  | stop
  | request
  | handled
deriving DecidableEq, Repr

/-- The body of the loop of `process_events`, up to `handle_reqfd`'s own loop. -/
def dispatchEvent (ev : PollEvent) : M Dispatch := do
  let events ← syspollGet ans ev
  if events.term then pure .stop
  else
    let ident ← identOf ev.udata
    let reqfd ← gets fun w => w.srv.reqfd
    if ident = some reqfd then
      if events.error then pure .stop
      else
        assert (events = ⟨false, true, false, false⟩) .reqfdEvents
        pure .request
    else
      processResource ans events.error ev.udata
      pure .handled

/-- What the request socket has to offer when its event is handled: datagrams,
the error that ends the reception, and the uninitialised descriptor array. -/
structure Inbox where
  datagrams : List Datagram
  last : Errno
  garbage : Fd × Fd
deriving DecidableEq, Repr

def processEvents : List (PollEvent × Inbox) → M Bool
  | [] => pure true
  | (ev, inbox) :: rest => do
      match ← dispatchEvent ans ev with
      | .stop => pure false
      | .request =>
          if ← handleReqfd ans inbox.last inbox.garbage inbox.datagrams then
            processEvents rest
          else pure false
      | .handled => processEvents rest

/-- The loop of `process_deferred` from index `i`.  Every round removes an entry
or passes one, so the bound is never reached. -/
def deferredLoop : Nat → Nat → M Unit
  | 0, _ => halt .outOfFuel
  | fuel + 1, i => do
      let deferred ← gets fun w => w.srv.deferredXfers
      match deferred[i]? with
      | none => pure ()
      | some p =>
          let x ← getXfer p
          match x.defer with
          | .cancel => do
              undeferXfer i p
              deleteRegisteredXfer ans p
              deferredLoop fuel i
          | .ready => do
              if ← transferFile ans p then
                let x' ← getXfer p
                if x'.defer = .none then
                  undeferXfer i p
                  deferredLoop fuel i
                else deferredLoop fuel (i + 1)
              else
                undeferXfer i p
                deleteRegisteredXfer ans p
                deferredLoop fuel i
          | .none => halt (.assertion .deferredNotNone)

def processDeferred : M Unit := do
  let deferred ← gets fun w => w.srv.deferredXfers
  deferredLoop ans (deferred.length + 1) 0

/-- `xfer_table_delete`: the table is gone after its elements were deleted. -/
def clearTable (t : XferTable Ptr) : XferTable Ptr where
  order := t.order
  elems := List.replicate (2 ^ t.order) none
  size := 0
  order_lt := t.order_lt
  length_eq := by simp

/-- `srv_delete`. -/
def srvDelete : M Unit := do
  sys fun k => ((), { k with regs := [] })
  close ans (← gets fun w => w.srv.reqfd)
  let xfers ← gets fun w => w.srv.xfers.stored
  forEach (deleteXferAndCloseAllFds ans) xfers
  let timers ← gets fun w => w.srv.xferTimers.stored
  forEach (timerDelete ans) timers
  onSrv fun s => { s with
    xfers := clearTable s.xfers
    xferTimers := clearTable s.xferTimers
    deferredXfers := [] }

/-- `srv_new`, given the descriptor of the request socket. -/
def srvNew (reqfd : Fd) (maxfds uid pipeCapacity : Nat) : Option Server :=
  match XferTable.construct maxfds, XferTable.construct maxfds with
  | some xfers, some xferTimers => some
      { xfers := xfers
        xferTimers := xferTimers
        deferredXfers := []
        nextTxnid := 1
        reqfd := reqfd
        uid := uid
        pipeCapacity := pipeCapacity
        recvbuf := .zeroed
        xferAt := fun _ => none
        timerAt := fun _ => none
        respAt := fun _ => none
        nextPtr := 0
        allocated := fun _ => false }
  | _, _ => none

end Sendfiled
