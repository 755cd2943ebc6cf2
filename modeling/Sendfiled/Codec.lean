/-
The receive buffer and the request decoders of protocol_server.c, over the
little-endian 64-bit layout of the structures in protocol.h.
-/
import Sendfiled.Resources

namespace Sendfiled

/-- `PROT_FILENAME_MAX`, without the terminating NUL. -/
def protFilenameMax : Nat := 512

/-- `PROT_REQ_BASE_SIZE`: two header bytes, six of padding, offset and len. -/
def protReqBaseSize : Nat := 24

/-- `PROT_REQ_MINSIZE`. -/
def protReqMinSize : Nat := protReqBaseSize + 1 + 1

/-- `PROT_REQ_MAXSIZE`: `sizeof(struct prot_request)` plus the longest name. -/
def protReqMaxSize : Nat := 40 + protFilenameMax + 1

/-- The server's one receive buffer, reused for every request. -/
structure RecvBuf where
  bytes : List UInt8
  length_eq : bytes.length = protReqMaxSize

namespace RecvBuf

/-- `calloc(PROT_REQ_MAXSIZE, 1)`. -/
def zeroed : RecvBuf := ⟨List.replicate protReqMaxSize 0, by simp⟩

def byte (buf : RecvBuf) (i : Nat) : UInt8 := buf.bytes.getD i 0

/-- Receive a datagram: its bytes replace the front of the buffer, as many as
fit, and the rest of the buffer keeps what earlier requests left in it. -/
def receive (buf : RecvBuf) (data : List UInt8) : RecvBuf where
  bytes := data.take protReqMaxSize ++ buf.bytes.drop data.length
  length_eq := by
    have h := buf.length_eq
    simp only [List.length_append, List.length_take, List.length_drop, h]
    omega

/-- The two buffers agree on their first `n` bytes. -/
def Agree (n : Nat) (a b : RecvBuf) : Prop := ∀ i < n, a.byte i = b.byte i

end RecvBuf

/-- The little-endian number in `count` bytes of the buffer from `start` on. -/
def leNat (buf : RecvBuf) (start : Nat) : Nat → Nat
  | 0 => 0
  | count + 1 => (buf.byte start).toNat + 256 * leNat buf (start + 1) count

def sfdGetCmd (buf : RecvBuf) : Nat := (buf.byte 0).toNat

def sfdGetStat (buf : RecvBuf) : Nat := (buf.byte 1).toNat

/-- The C string that starts at an offset of the buffer. -/
def cString (buf : RecvBuf) (start : Nat) : List UInt8 :=
  (buf.bytes.drop start).takeWhile (· ≠ 0)

/-- The three commands `prot_unmarshal_request` accepts. -/
def fileCmd (cmd : Nat) : Option ProtCmdReq :=
  match ProtCmdReq.ofCode cmd with
  | some .send => some .send
  | some .read => some .read
  | some .fileOpen => some .fileOpen
  | _ => none

def protUnmarshalRequest (buf : RecvBuf) (size : Nat) : Option ProtRequest :=
  if size < protReqMinSize then none
  else
    match fileCmd (sfdGetCmd buf) with
    | none => none
    | some cmd =>
        if sfdGetStat buf ≠ 0 then none
        else if buf.byte (size - 1) ≠ 0 then none
        else if protFilenameMax < size - protReqBaseSize - 1 then none
        else some
          { cmd := cmd
            offset := BitVec.ofNat 64 (leNat buf 8 8)
            len := BitVec.ofNat 64 (leNat buf 16 8)
            filename := cString buf protReqBaseSize
            filenameLen := size - protReqBaseSize - 1 }

/-- `prot_unmarshal_send_open` and `prot_unmarshal_cancel` differ in the command
they expect only.  Neither is told how many bytes were received. -/
def protUnmarshalTxnid (cmd : ProtCmdReq) (buf : RecvBuf) : Option Nat :=
  if sfdGetCmd buf ≠ cmd.code ∨ sfdGetStat buf ≠ 0 then none
  else some (leNat buf 8 8)

def protUnmarshalSendOpen (buf : RecvBuf) : Option Nat :=
  protUnmarshalTxnid .sendOpen buf

def protUnmarshalCancel (buf : RecvBuf) : Option Nat :=
  protUnmarshalTxnid .cancel buf

end Sendfiled
