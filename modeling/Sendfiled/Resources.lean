/-
Commands, messages, error numbers and the resources the poller can return:
protocol.h, responses.h and server_resources.h.
-/
import Mathlib.Algebra.Ring.Nat
import Mathlib.Tactic.Basic

namespace Sendfiled

/-- A file descriptor; negative values denote no descriptor. -/
abbrev Fd := Int

/-- An `errno` value. -/
abbrev Errno := Nat

/-- The identity of one allocation.  It is never given out twice, so a pointer
to freed memory can be told from a pointer to what replaced it. -/
abbrev Ptr := Nat

/-- A machine address, which may be handed out again after `free`. -/
abbrev Addr := Nat

def EINTR : Errno := 4
def EBADF : Errno := 9
def EAGAIN : Errno := 11
def ENOMEM : Errno := 12
def EACCES : Errno := 13
def EEXIST : Errno := 17
def ENOENT : Errno := 2
def EINVAL : Errno := 22
def ENFILE : Errno := 23
def EMFILE : Errno := 24
def ENOSPC : Errno := 28
def ERANGE : Errno := 34
def ENAMETOOLONG : Errno := 36
def ENOLCK : Errno := 37
def ENOBUFS : Errno := 105
def ETIMEDOUT : Errno := 110

/-- On Linux `EWOULDBLOCK` and `EAGAIN` are the same number. -/
def errnoIsFatal (err : Errno) : Bool :=
  !(err == EAGAIN || err == ENFILE || err == ENOBUFS || err == ENOLCK || err == ENOSPC)

/-- `enum prot_cmd_req`. -/
inductive ProtCmdReq where
  | fileOpen
  | read
  | send
  | sendOpen
  | cancel
deriving DecidableEq, Repr

def ProtCmdReq.code : ProtCmdReq → Nat
  | .fileOpen => 0x01
  | .read => 0x02
  | .send => 0x03
  | .sendOpen => 0x04
  | .cancel => 0x05

/-- The cases of the switch on the command byte; anything else is its default. -/
def ProtCmdReq.ofCode : Nat → Option ProtCmdReq
  | 0x01 => some .fileOpen
  | 0x02 => some .read
  | 0x03 => some .send
  | 0x04 => some .sendOpen
  | 0x05 => some .cancel
  | _ => none

/-- `PROT_IS_REQUEST`: responses have bit 7 set, requests do not. -/
def protIsRequest (cmd : Nat) : Bool := cmd &&& 0x80 == 0

/-- `PROT_MAXFDS`. -/
def protMaxFds : Nat := 2

/-- `US_INVALID_PID`. -/
def usInvalidPid : Nat := 0

/-- `PROT_XFER_COMPLETE`, that is `(size_t)-1`. -/
def protXferComplete : Nat := 2 ^ 64 - 1

/-- `SFD_FILE_INFO` and `SFD_XFER_STAT`, the response command IDs. -/
inductive SfdCmdId where
  | fileInfo
  | xferStat
deriving DecidableEq, Repr

/-- The messages written to status channels.  A bare header reports an error;
the other two carry status `SFD_STAT_OK`. -/
inductive Pdu where
  | hdr (cmd : SfdCmdId) (stat : Nat)
  | fileInfo (size atime mtime ctime txnid : Nat)
  | xferStat (size : Nat)
deriving DecidableEq, Repr

/-- `sizeof` the message's structure. -/
def Pdu.size : Pdu → Nat
  | .hdr .. => 2
  | .fileInfo .. => 48
  | .xferStat .. => 16

/-- `sfd_xfer_complete`. -/
def Pdu.xferComplete : Pdu → Bool
  | .xferStat size => size == protXferComplete
  | _ => false

/-- `enum deferral`. -/
inductive Deferral where
  | none
  | cancel
  | ready
deriving DecidableEq, Repr

/-- `struct fio_stat`. -/
structure FioStat where
  size : Nat
  atime : Nat
  mtime : Nat
  ctime : Nat
  blksize : Nat
deriving DecidableEq, Repr

/-- `struct resrc_xfer_file`. -/
structure ResrcXferFile where
  size : BitVec 64
  fd : Fd
  blksize : Nat
deriving DecidableEq, Repr

/-- `struct resrc_xfer`, with the address it was allocated at. -/
structure ResrcXfer where
  addr : Addr
  destFd : Fd
  statFd : Fd
  cmd : ProtCmdReq
  txnid : Nat
  file : ResrcXferFile
  nbytesLeft : BitVec 64
  clientPid : Nat
  defer : Deferral
deriving DecidableEq, Repr

/-- `struct resrc_timer`. -/
structure ResrcTimer where
  addr : Addr
  ident : Fd
  txnid : Nat
  xferAddr : Addr
deriving DecidableEq, Repr

/-- `struct resrc_resp`.  The transfer whose message it holds is recorded for
the trace only. -/
structure ResrcResp where
  addr : Addr
  statFd : Fd
  pdu : Pdu
  xfer : Ptr
deriving DecidableEq, Repr

/-- The user data of a poller registration: which resource it points to. -/
inductive Udata where
  | sigfd
  | reqfd
  | xfer (p : Ptr)
  | timer (p : Ptr)
  | resp (p : Ptr)
deriving DecidableEq, Repr

/-- `struct prot_request`, its offset and length as the 64-bit words they are
on the wire.  `filename` is the C string the pointer denotes. -/
structure ProtRequest where
  cmd : ProtCmdReq
  offset : BitVec 64
  len : BitVec 64
  filename : List UInt8
  filenameLen : Nat
deriving DecidableEq, Repr

/-- The assertions of the server, by the function that makes them. -/
inductive Assertion where
  | sendPduWhole
  | sendReqErrStat
  | recvNonempty
  | reqfdEvents
  | isXfer
  | deferredNotNone
  | writeSize
  | nwritten
  | statChannel
  | deferCancel
  | deferReadyNotCancel
  | deferReadyRoom
deriving DecidableEq, Repr

/-- What ends the process before the event loop does: a failed assertion, an
access through a pointer to freed memory or through a null pointer.
`outOfFuel` marks a loop bound of the model; no function ever reaches it. -/
inductive Fault where
  | assertion (a : Assertion)
  | useAfterFree
  | nullDeref
  | outOfFuel
deriving DecidableEq, Repr

end Sendfiled
