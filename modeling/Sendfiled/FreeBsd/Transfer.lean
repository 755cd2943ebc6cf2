/-
`transfer_file` as it is built for FreeBSD: one transfer with its file and its destination,
over the `file_splice` of file_io_userspace_splice.c and the `file_sendfile` of
file_io_freebsd.c.
-/
import Sendfiled.Requests
import Sendfiled.Lib.Transition

namespace Sendfiled.FreeBsd

open Prog Transition

section Files

/-- A byte of the file, with the place it was read from. -/
structure FileByte where
  pos : Nat
  byte : UInt8
deriving DecidableEq, Repr

/-- `count` bytes of a file from `start` on. -/
def fileRange (node : FileNode) (start count : Nat) : List FileByte :=
  (List.range' start count).map fun i => ⟨i, node.byte i⟩

/-- `struct fio_ctx`.  The list holds the buffer up to `wp`. -/
structure FioCtx where
  capacity : Nat
  data : List FileByte
  rp : Nat
  rp_le : rp ≤ data.length
  data_le : data.length ≤ capacity

namespace FioCtx

/-- `fio_ctx_new`. -/
def new (capacity : Nat) : FioCtx := ⟨capacity, [], 0, Nat.le_refl 0, Nat.zero_le capacity⟩

def wp (ctx : FioCtx) : Nat := ctx.data.length

/-- The source's name for the room behind `wp`. -/
def nunwritten (ctx : FioCtx) : Nat := ctx.capacity - ctx.wp

/-- What was read and is still to be written. -/
def pending (ctx : FioCtx) : List FileByte := ctx.data.drop ctx.rp

/-- Read bytes into the room behind `wp`. -/
def fill (bytes : List FileByte) (ctx : FioCtx) : FioCtx where
  capacity := ctx.capacity
  data := ctx.data ++ bytes.take ctx.nunwritten
  rp := ctx.rp
  rp_le := by
    have h := ctx.rp_le
    rw [List.length_append]
    omega
  data_le := by
    have h := ctx.data_le
    rw [List.length_append, List.length_take, nunwritten, wp]
    omega

/-- `rp += n`, and back to the start of the buffer once everything is written. -/
def advance (n : Nat) (ctx : FioCtx) : FioCtx :=
  if h : ctx.rp + n < ctx.data.length then
    { ctx with rp := ctx.rp + n, rp_le := Nat.le_of_lt h }
  else new ctx.capacity

end FioCtx

/-- What the calls of a transfer work on: the position of the file's descriptor, the buffer
of `file_splice`, and what the destination has received. -/
structure Io where
  pos : Nat
  ctx : FioCtx
  out : List FileByte
  errno : Errno
  tick : Nat

/-- What the kernel answers to the call made at a given tick.  `sendfile` tells apart the
number of bytes it sent and whether it failed. -/
structure IoAnswers where
  read : Nat → Except Errno Nat
  write : Nat → Except Errno Nat
  sendfile : Nat → Nat × Option Errno
  sendStat : Nat → Option Errno

variable (ans : IoAnswers) (node : FileNode)

namespace Io

def fail (e : Errno) (io : Io) : Io := { io with errno := e, tick := io.tick + 1 }

/-- `read` of a regular file: at least one byte unless the file has ended. -/
def read (n : Nat) (io : Io) : Except Errno (List FileByte) × Io :=
  match ans.read io.tick with
  | .error e => (.error e, io.fail e)
  | .ok answer =>
      let m := min (max 1 answer) (min n (node.size - io.pos))
      (.ok (fileRange node io.pos m), { io with pos := io.pos + m, tick := io.tick + 1 })

/-- `write` of at least one byte. -/
def write (bytes : List FileByte) (io : Io) : Except Errno Nat × Io :=
  match ans.write io.tick with
  | .error e => (.error e, io.fail e)
  | .ok answer =>
      let m := min (max 1 answer) bytes.length
      (.ok m, { io with out := io.out ++ bytes.take m, tick := io.tick + 1 })

/-- FreeBSD's `sendfile`: from the offset it is given, and possibly failing after it has
sent some bytes. -/
def sendfile (offset nbytes : Nat) (io : Io) : Nat × Option Errno × Io :=
  let available := min nbytes (node.size - offset)
  match ans.sendfile io.tick with
  | (answer, some e) =>
      let m := min answer available
      (m, some e, { io with out := io.out ++ fileRange node offset m }.fail e)
  | (answer, none) =>
      let m := min (max 1 answer) available
      (m, none, { io with out := io.out ++ fileRange node offset m, tick := io.tick + 1 })

end Io

/-- The second half of `file_splice`. -/
def writeBuffered (io : Io) : Except Errno Nat × Io :=
  if io.ctx.rp < io.ctx.wp then
    match io.write ans io.ctx.pending with
    | (.error e, io') => (.error e, io')
    | (.ok nwritten, io') => (.ok nwritten, { io' with ctx := io'.ctx.advance nwritten })
  else (.ok 0, io)

def fileSplice (nbytes : Nat) (io : Io) : Except Errno Nat × Io :=
  if 0 < io.ctx.nunwritten then
    match io.read ans node (min nbytes io.ctx.nunwritten) with
    | (.error e, io') => (.error e, io')
    | (.ok bytes, io') =>
        if bytes = [] then (.ok 0, io')
        else writeBuffered ans { io' with ctx := io'.ctx.fill bytes }
  else writeBuffered ans io

/-- The number of bytes sent is returned when the call did not fail. -/
def fileSendfile (nbytes : Nat) (io : Io) : Except Errno Nat × Io :=
  match io.sendfile ans node 0 nbytes with
  | (_, some e, io') => (.error e, io')
  | (nsent, none, io') => (.ok nsent, io')

end Files

section Transfers

/-- One call of `file_splice` or `file_sendfile`. -/
structure Call where
  nbytes : Nat
  before : Io
  result : Except Errno Nat
  after : Io

/-- A transfer, the calls made for it so far and what its client was told. -/
structure Stream where
  xfer : ResrcXfer
  io : Io
  calls : List Call
  told : List Pdu

abbrev T := Program Fault Stream

variable (ans : IoAnswers) (node : FileNode) (pipeCapacity : Nat)

def assert (c : Prop) [Decidable c] (a : Assertion) : T Unit := check c (.assertion a)

def onXfer (f : ResrcXfer → ResrcXfer) : T Unit := modify fun s => { s with xfer := f s.xfer }

def tell (pdu : Pdu) : T Unit := modify fun s => { s with told := s.told ++ [pdu] }

def setDefer (d : Deferral) : T Unit := onXfer fun x => { x with defer := d }

def hasStatChannel : T Bool := do
  let x ← gets fun s => s.xfer
  assert (x.statFd = x.destFd ∨ x.cmd = .send) .statChannel
  pure (decide (x.statFd ≠ x.destFd))

/-- `send_xfer_stat`. -/
def sendXferStat (size : Nat) : T Bool := do
  match ← gets fun s => ans.sendStat s.io.tick with
  | some e =>
      modify fun s => { s with io := s.io.fail e }
      pure false
  | none =>
      tell (.xferStat size)
      pure true

/-- `file_splice` for READ and `file_sendfile` for SEND. -/
def fileTransfer (cmd : ProtCmdReq) (nbytes : Nat) (io : Io) : Except Errno Nat × Io :=
  if cmd = .read then fileSplice ans node nbytes io else fileSendfile ans node nbytes io

/-- The call of one of them that is made for the transfer. -/
def Stream.call (nbytes : Nat) (s : Stream) : Call :=
  let (result, io) := fileTransfer ans node s.xfer.cmd nbytes s.io
  ⟨nbytes, s.io, result, io⟩

def Stream.moved (nbytes : Nat) (s : Stream) : Stream :=
  { s with io := (s.call ans node nbytes).after, calls := s.calls ++ [s.call ans node nbytes] }

def move (nbytes : Nat) : T (Except Errno Nat) :=
  modifyGet fun s => ((s.call ans node nbytes).result, s.moved ans node nbytes)

/-- The end of a transfer all of whose bytes were written.  What becomes of the message is
the business of `send_terminal_resp`. -/
def completeXfer : T Bool := do
  if ← hasStatChannel then
    tell (.xferStat protXferComplete)
    pure false
  else pure false

/-- A write that failed with `errno`. -/
def transferError (total : Nat) : T Bool := do
  let e ← gets fun s => s.io.errno
  if errnoIsFatal e then
    if ← hasStatChannel then
      tell (.hdr .xferStat (e % 256))
      pure false
    else pure false
  else
    let x ← gets fun s => s.xfer
    if x.nbytesLeft = 0 then completeXfer
    else if ← hasStatChannel then
      if ← sendXferStat ans total then
        setDefer .none
        pure true
      else if errnoIsFatal (← gets fun s => s.io.errno) then pure false
      else
        setDefer .none
        pure true
    else
      setDefer .none
      pure true

/-- The loop of `transfer_file`; `total` is `total_nwritten`. -/
def transferLoop : Nat → Nat → T Bool
  | 0, _ => halt .outOfFuel
  | fuel + 1, total => do
      let x ← gets fun s => s.xfer
      let writeSize := min x.file.blksize (min x.nbytesLeft.toNat (pipeCapacity - total))
      assert (0 < writeSize) .writeSize
      match ← move ans node writeSize with
      | .error _ => transferError ans total
      | .ok nwritten =>
          assert (0 < nwritten) .nwritten
          let left := x.nbytesLeft - BitVec.ofNat 64 nwritten
          onXfer fun x => { x with nbytesLeft := left }
          if left = 0 then completeXfer
          else if pipeCapacity ≤ total + nwritten then
            if x.defer = .none then
              setDefer .ready
              pure true
            else pure true
          else transferLoop fuel (total + nwritten)

def transferFile : T Bool := do
  let x ← gets fun s => s.xfer
  match x.cmd with
  | .read | .send => transferLoop ans node pipeCapacity (pipeCapacity + 1) 0
  | _ => pure false

end Transfers

section Runs

/-- What has become of a transfer. -/
inductive Status where
  | going
  | ended
  | aborted (fault : Fault)
deriving DecidableEq, Repr

structure State where
  stream : Stream
  status : Status

/-- A transfer as `add_xfer` creates it for an accepted range: the descriptor of the file
stands at the offset and the buffer is as large as a block of the file. -/
structure Created (node : FileNode) (offset len : BitVec 64) (s : Stream) : Prop where
  offset_nonneg : 0 ≤ offset.toInt
  accepted : rangeCheck node.size offset len = .ok s.xfer.nbytesLeft
  blksize : s.xfer.file.blksize = node.blksize
  pos : s.io.pos = offset.toNat
  ctx : s.io.ctx = FioCtx.new node.blksize
  out : s.io.out = []
  calls : s.calls = []

/-- One call of `transfer_file`, before which the transfer may have been deferred. -/
def State.next (ans : IoAnswers) (node : FileNode) (pipeCapacity : Nat) (d : Deferral)
    (s : State) : State :=
  match transferFile ans node pipeCapacity
      { s.stream with xfer := { s.stream.xfer with defer := d } } with
  | .done true stream => ⟨stream, .going⟩
  | .done false stream => ⟨stream, .ended⟩
  | .fault f stream => ⟨stream, .aborted f⟩

/-- The calls of `transfer_file` for one transfer, up to the one that ends it. -/
def transfers (ans : IoAnswers) (node : FileNode) (pipeCapacity : Nat)
    (init : Stream → Prop) : System Empty State Deferral where
  init s := s.status = .going ∧ init s.stream
  next d s := if s.status = .going then some (.ok (s.next ans node pipeCapacity d)) else none

end Runs

end Sendfiled.FreeBsd
