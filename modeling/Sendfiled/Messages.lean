/-
The messages between client and server as bytes: the marshalling functions of
protocol_client.c and protocol_server.c, the buffers sendfiled.c sends, and the decoders of
both sides with the structures they fill in.  A structure is its header, padding up to the
first word, and words of eight bytes.
-/
import Sendfiled.Codec
import Sendfiled.Lib.LittleEndian
import Mathlib.Tactic.SplitIfs

namespace Sendfiled

open LittleEndian

/-- `struct prot_request`.  Of the pointer to the file name the model keeps the bytes from
its address on. -/
structure ProtRequestPdu where
  cmd : UInt8
  stat : UInt8
  offset : BitVec 64
  len : BitVec 64
  filename : List UInt8
  filenameLen : Nat
deriving DecidableEq, Repr

/-- `struct prot_send_open` and `struct prot_cancel`, which have the same fields. -/
structure ProtTxnPdu where
  cmd : UInt8
  stat : UInt8
  txnid : BitVec 64
deriving DecidableEq, Repr

/-- `struct sfd_file_info`. -/
structure SfdFileInfo where
  cmd : UInt8
  stat : UInt8
  size : BitVec 64
  atime : BitVec 64
  mtime : BitVec 64
  ctime : BitVec 64
  txnid : BitVec 64
deriving DecidableEq, Repr

/-- `struct sfd_xfer_stat`. -/
structure SfdXferStat where
  cmd : UInt8
  stat : UInt8
  size : BitVec 64
deriving DecidableEq, Repr

/-- The value of `enum sfd_cmd_id`. -/
def SfdCmdId.code : SfdCmdId → Nat
  | .fileInfo => 0x81
  | .xferStat => 0x82

section Marshalling

/-- `strnlen`, on the bytes from an address on. -/
def strnlen (s : List UInt8) (max : Nat) : Nat := ((s.take max).takeWhile (· ≠ 0)).length

/-- The length `marshal_req` finds for a name; a null pointer has none. -/
def namelen : Option (List UInt8) → Nat
  | some s => strnlen s (protFilenameMax + 1)
  | none => 0

/-- `marshal_req`. -/
def marshalReq (cmd : ProtCmdReq) (offset len : BitVec 64) (filename : Option (List UInt8)) :
    Except Errno ProtRequestPdu :=
  if namelen filename = protFilenameMax + 1 then .error ENAMETOOLONG
  else .ok
    { cmd := UInt8.ofNat cmd.code
      stat := 0
      offset := offset
      len := len
      filename := filename.getD []
      filenameLen := namelen filename }

def protMarshalRead (filename : Option (List UInt8)) (offset len : BitVec 64) :
    Except Errno ProtRequestPdu :=
  marshalReq .read offset len filename

def protMarshalFileOpen (filename : Option (List UInt8)) (offset len : BitVec 64) :
    Except Errno ProtRequestPdu :=
  marshalReq .fileOpen offset len filename

def protMarshalSend (filename : Option (List UInt8)) (offset len : BitVec 64) :
    Except Errno ProtRequestPdu :=
  marshalReq .send offset len filename

def protMarshalSendOpen (txnid : BitVec 64) : ProtTxnPdu :=
  { cmd := UInt8.ofNat ProtCmdReq.sendOpen.code, stat := 0, txnid := txnid }

def protMarshalCancel (txnid : BitVec 64) : ProtTxnPdu :=
  { cmd := UInt8.ofNat ProtCmdReq.cancel.code, stat := 0, txnid := txnid }

def protMarshalFileInfo (size atime mtime ctime txnid : BitVec 64) : SfdFileInfo :=
  { cmd := UInt8.ofNat SfdCmdId.fileInfo.code
    stat := 0
    size := size
    atime := atime
    mtime := mtime
    ctime := ctime
    txnid := txnid }

def protMarshalXferStat (size : BitVec 64) : SfdXferStat :=
  { cmd := UInt8.ofNat SfdCmdId.xferStat.code, stat := 0, size := size }

/-- The first eight bytes of a structure that was zeroed before it was filled in. -/
def header (cmd stat : UInt8) : List UInt8 := [cmd, stat, 0, 0, 0, 0, 0, 0]

/-- The part of a request that is sent as it is, `PROT_REQ_BASE_SIZE` bytes. -/
def ProtRequestPdu.base (req : ProtRequestPdu) : List UInt8 :=
  header req.cmd req.stat ++ words [req.offset, req.len]

/-- `REQ_IOVS`: the base of the structure, then the name with its terminating NUL. -/
def reqIovs (req : ProtRequestPdu) : List UInt8 :=
  req.base ++ req.filename.take (req.filenameLen + 1)

def ProtTxnPdu.bytes (pdu : ProtTxnPdu) : List UInt8 :=
  header pdu.cmd pdu.stat ++ words [pdu.txnid]

def SfdFileInfo.bytes (pdu : SfdFileInfo) : List UInt8 :=
  header pdu.cmd pdu.stat ++ words [pdu.size, pdu.atime, pdu.mtime, pdu.ctime, pdu.txnid]

def SfdXferStat.bytes (pdu : SfdXferStat) : List UInt8 :=
  header pdu.cmd pdu.stat ++ words [pdu.size]

end Marshalling

section Decoding

/-! The decoders return whether they accept the buffer, and the structure they were given,
filled in or as it was. -/

/-- `memcpy` of the base of a request. -/
def ProtRequestPdu.copyBase (buf : List UInt8) (pdu : ProtRequestPdu) : ProtRequestPdu :=
  { pdu with
    cmd := buf.getD 0 0, stat := buf.getD 1 0, offset := wordAt buf 0, len := wordAt buf 1 }

/-- `prot_unmarshal_request`. -/
def unmarshalRequest (pdu : ProtRequestPdu) (buf : RecvBuf) (size : Nat) :
    Bool × ProtRequestPdu :=
  if size < protReqMinSize then (false, pdu)
  else if fileCmd (sfdGetCmd buf) = none then (false, pdu)
  else if sfdGetStat buf ≠ 0 then (false, pdu)
  else if buf.byte (size - 1) ≠ 0 then (false, pdu)
  else if protFilenameMax < size - protReqBaseSize - 1 then (false, pdu)
  else (true, { pdu.copyBase buf.bytes with
    filename := buf.bytes.drop protReqBaseSize
    filenameLen := size - protReqBaseSize - 1 })

/-- `prot_unmarshal_send_open` and `prot_unmarshal_cancel`. -/
def unmarshalTxn (cmd : ProtCmdReq) (pdu : ProtTxnPdu) (buf : RecvBuf) : Bool × ProtTxnPdu :=
  if sfdGetCmd buf ≠ cmd.code ∨ sfdGetStat buf ≠ 0 then (false, pdu)
  else (true, ⟨buf.byte 0, buf.byte 1, wordAt buf.bytes 0⟩)

def unmarshalSendOpen (pdu : ProtTxnPdu) (buf : RecvBuf) : Bool × ProtTxnPdu :=
  unmarshalTxn .sendOpen pdu buf

def unmarshalCancel (pdu : ProtTxnPdu) (buf : RecvBuf) : Bool × ProtTxnPdu :=
  unmarshalTxn .cancel pdu buf

/-- `HDR_OK`. -/
def hdrOk (buf : List UInt8) (cmd : SfdCmdId) : Bool :=
  (buf.getD 0 0).toNat == cmd.code && (buf.getD 1 0).toNat == 0

def sfdUnmarshalFileInfo (pdu : SfdFileInfo) (buf : List UInt8) : Bool × SfdFileInfo :=
  if !hdrOk buf .fileInfo then (false, pdu)
  else (true, ⟨buf.getD 0 0, buf.getD 1 0, wordAt buf 0, wordAt buf 1, wordAt buf 2, wordAt buf 3,
    wordAt buf 4⟩)

def sfdUnmarshalXferStat (pdu : SfdXferStat) (buf : List UInt8) : Bool × SfdXferStat :=
  if !hdrOk buf .xferStat then (false, pdu)
  else (true, ⟨buf.getD 0 0, buf.getD 1 0, wordAt buf 0⟩)

end Decoding

section Reading

variable {buf : RecvBuf} {data rest : List UInt8}

/-- The number read from a receive buffer byte by byte is the one in those bytes. -/
theorem leNat_eq_ofLE (buf : RecvBuf) (start count : Nat) :
    leNat buf start count = ofLE ((buf.bytes.drop start).take count) := by
  induction count generalizing start with
  | zero => simp [leNat, ofLE]
  | succ count ih =>
      rw [leNat, ih, RecvBuf.byte, List.getD_eq_getElem?_getD]
      by_cases hlt : start < buf.bytes.length
      · rw [List.drop_eq_getElem_cons hlt, List.take_succ_cons, ofLE,
          List.getElem?_eq_getElem hlt]
        rfl
      · rw [List.drop_of_length_le (by omega), List.drop_of_length_le (by omega),
          List.getElem?_eq_none (by omega)]
        simp [ofLE]

/-- A message that fits is found at the front of the receive buffer. -/
theorem RecvBuf.receive_bytes (buf : RecvBuf) (hfits : data.length ≤ protReqMaxSize) :
    (buf.receive data).bytes = data ++ buf.bytes.drop data.length := by
  change data.take protReqMaxSize ++ _ = _
  rw [List.take_of_length_le hfits]

theorem header_getD (cmd stat : UInt8) (tail : List UInt8) :
    (header cmd stat ++ tail).getD 0 0 = cmd ∧ (header cmd stat ++ tail).getD 1 0 = stat :=
  ⟨rfl, rfl⟩

theorem RecvBuf.byte_receive (buf : RecvBuf) {i : Nat} (hi : i < data.length)
    (hfits : i < protReqMaxSize) : (buf.receive data).byte i = data.getD i 0 := by
  have hlt : i < (data.take protReqMaxSize).length := by
    rw [List.length_take]
    omega
  change (data.take protReqMaxSize ++ _).getD i 0 = _
  rw [List.getD_eq_getElem?_getD, List.getD_eq_getElem?_getD, List.getElem?_append_left hlt,
    List.getElem?_take_of_lt hfits]

/-- What the server's decoders see of the header of a message. -/
theorem RecvBuf.sfdGet_receive (buf : RecvBuf) (hlen : 2 ≤ data.length) :
    sfdGetCmd (buf.receive data) = (data.getD 0 0).toNat ∧
      sfdGetStat (buf.receive data) = (data.getD 1 0).toNat := by
  rw [sfdGetCmd, sfdGetStat, buf.byte_receive (by omega) (by decide),
    buf.byte_receive (by omega) (by decide)]
  exact ⟨rfl, rfl⟩

end Reading

section RoundTrips

/-- The name of a request is the string at its address. -/
def ProtRequestPdu.name (pdu : ProtRequestPdu) : List UInt8 := pdu.filename.takeWhile (· ≠ 0)

theorem takeWhile_name {name : List UInt8} (hname : (0 : UInt8) ∉ name) (rest : List UInt8) :
    (name ++ 0 :: rest).takeWhile (· ≠ 0) = name := by
  induction name with
  | nil => simp
  | cons b name ih =>
      have hb : b ≠ 0 := fun heq => hname (heq ▸ List.mem_cons_self)
      rw [List.cons_append, List.takeWhile_cons_of_pos (by simpa using hb),
        ih fun hmem => hname (List.mem_cons_of_mem b hmem)]

/-- `strnlen` of a name that is not too long. -/
theorem strnlen_name {name : List UInt8} (hname : (0 : UInt8) ∉ name) {max : Nat}
    (hlen : name.length < max) (rest : List UInt8) :
    strnlen (name ++ 0 :: rest) max = name.length := by
  obtain ⟨k, rfl⟩ : ∃ k, max = name.length + (k + 1) := ⟨max - name.length - 1, by omega⟩
  rw [strnlen, List.take_append, List.take_of_length_le (by omega), Nat.add_sub_cancel_left,
    List.take_succ_cons, takeWhile_name hname]

/-- The datagram of a request. -/
theorem marshalReq_name {name : List UInt8} (hname : (0 : UInt8) ∉ name)
    (hlen : name.length ≤ protFilenameMax) (cmd : ProtCmdReq) (offset len : BitVec 64)
    (rest : List UInt8) : ∃ req, marshalReq cmd offset len (some (name ++ 0 :: rest)) = .ok req ∧
      reqIovs req = header (UInt8.ofNat cmd.code) 0 ++ words [offset, len] ++ (name ++ [0]) := by
  have hstr := strnlen_name hname (Nat.lt_succ_of_le hlen) rest
  have hne : ¬ namelen (some (name ++ 0 :: rest)) = protFilenameMax + 1 := by
    rw [namelen, hstr]
    omega
  simp only [marshalReq, if_neg hne]
  refine ⟨_, rfl, ?_⟩
  have htake : (name ++ 0 :: rest).take (name.length + 1) = name ++ [0] := by
    rw [List.take_append, List.take_of_length_le (by omega), Nat.add_sub_cancel_left]
    rfl
  simp only [reqIovs, ProtRequestPdu.base, Option.getD_some, namelen, hstr]
  rw [htake]

/-- The receive buffer after a datagram that carries a name. -/
theorem receive_request (old : RecvBuf) {cmd stat : UInt8} {offset len : BitVec 64}
    {name : List UInt8} (hlen : name.length ≤ protFilenameMax) :
    ∃ rest, (old.receive (header cmd stat ++ words [offset, len] ++ (name ++ [0]))).bytes =
      header cmd stat ++ words [offset, len] ++ (name ++ 0 :: rest) := by
  refine ⟨old.bytes.drop (header cmd stat ++ words [offset, len] ++ (name ++ [0])).length, ?_⟩
  rw [old.receive_bytes]
  · simp only [List.append_assoc, List.cons_append, List.nil_append]
  · simp only [List.length_append, length_words, header, List.length_cons, List.length_nil,
      protReqMaxSize]
    omega

theorem unmarshalRequest_receive (old : RecvBuf) (pdu : ProtRequestPdu) {cmd : ProtCmdReq}
    (hcmd : fileCmd cmd.code = some cmd) (offset len : BitVec 64) {name : List UInt8}
    (hne : name ≠ []) (hlen : name.length ≤ protFilenameMax) (hname : (0 : UInt8) ∉ name)
    {data : List UInt8}
    (hdata : data = header (UInt8.ofNat cmd.code) 0 ++ words [offset, len] ++ (name ++ [0])) :
    ∃ out, unmarshalRequest pdu (old.receive data) data.length = (true, out) ∧
      out.cmd = UInt8.ofNat cmd.code ∧ out.stat = 0 ∧ out.offset = offset ∧ out.len = len ∧
      out.name = name ∧ out.filenameLen = name.length := by
  have hpos : 0 < name.length := List.length_pos_iff.mpr hne
  have hsize : data.length = protReqBaseSize + name.length + 1 := by
    rw [hdata]
    simp only [List.length_append, length_words, header, List.length_cons, List.length_nil,
      protReqBaseSize]
    omega
  obtain ⟨rest, hbytes⟩ := @receive_request old (UInt8.ofNat cmd.code) 0 offset len name hlen
  rw [← hdata] at hbytes
  have hhdr := old.sfdGet_receive (show 2 ≤ data.length by omega)
  have hfront := header_getD (UInt8.ofNat cmd.code) 0 (words [offset, len] ++ (name ++ [0]))
  rw [← List.append_assoc, ← hdata] at hfront
  rw [hfront.1, hfront.2] at hhdr
  have hcode : (UInt8.ofNat cmd.code).toNat = cmd.code := by cases cmd <;> rfl
  have hlast : (old.receive data).byte (data.length - 1) = 0 := by
    have hlength : (header (UInt8.ofNat cmd.code) 0 ++ words [offset, len] ++ name).length =
        data.length - 1 := by
      rw [hsize]
      simp only [List.length_append, length_words, header, List.length_cons, List.length_nil,
        protReqBaseSize]
      omega
    rw [RecvBuf.byte, hbytes, ← List.append_assoc, ← hlength, List.getD_eq_getElem?_getD,
      List.getElem?_append_right (Nat.le_refl _), Nat.sub_self]
    rfl
  have hword : ∀ i w, [offset, len][i]? = some w → wordAt (old.receive data).bytes i = w := by
    intro i w hi
    rw [hbytes]
    exact wordAt_words rfl _ _ hi
  have hdrop : (old.receive data).bytes.drop protReqBaseSize = name ++ 0 :: rest := by
    have hbase : (header (UInt8.ofNat cmd.code) 0 ++ words [offset, len]).length =
        protReqBaseSize := by
      simp [length_words, header, protReqBaseSize]
    rw [hbytes, ← hbase, List.drop_left]
  have hget := header_getD (UInt8.ofNat cmd.code) 0 (words [offset, len] ++ (name ++ 0 :: rest))
  rw [← List.append_assoc, ← hbytes] at hget
  have hcopy : pdu.copyBase (old.receive data).bytes =
      { pdu with cmd := UInt8.ofNat cmd.code, stat := 0, offset := offset, len := len } := by
    rw [ProtRequestPdu.copyBase, hget.1, hget.2, hword 0 offset rfl, hword 1 len rfl]
  have hfits : data.length - protReqBaseSize - 1 = name.length := by omega
  have hres : unmarshalRequest pdu (old.receive data) data.length = (true,
      { pdu.copyBase (old.receive data).bytes with
        filename := (old.receive data).bytes.drop protReqBaseSize
        filenameLen := data.length - protReqBaseSize - 1 }) := by
    unfold unmarshalRequest
    rw [if_neg (by rw [hsize, protReqMinSize]; omega),
      if_neg (by rw [hhdr.1, hcode, hcmd]; nofun), if_neg (by rw [hhdr.2]; decide),
      if_neg (by rw [hlast]; decide), if_neg (by rw [hfits]; omega)]
  rw [hres, hcopy, hdrop, hfits]
  exact ⟨_, rfl, rfl, rfl, rfl, rfl, takeWhile_name hname rest, rfl⟩

/-- A message that names a transaction. -/
theorem unmarshalTxn_receive (old : RecvBuf) (pdu : ProtTxnPdu) (cmd : ProtCmdReq)
    (txnid : BitVec 64) :
    unmarshalTxn cmd pdu (old.receive (ProtTxnPdu.bytes ⟨UInt8.ofNat cmd.code, 0, txnid⟩)) =
      (true, ⟨UInt8.ofNat cmd.code, 0, txnid⟩) := by
  generalize hdata : ProtTxnPdu.bytes ⟨UInt8.ofNat cmd.code, 0, txnid⟩ = data
  rw [ProtTxnPdu.bytes] at hdata
  have hlen : data.length = 16 := by
    rw [← hdata, List.length_append, length_words]
    rfl
  have hhdr := old.sfdGet_receive (show 2 ≤ data.length by omega)
  have hfst := old.byte_receive (show 0 < data.length by omega) (by decide)
  have hsnd := old.byte_receive (show 1 < data.length by omega) (by decide)
  have hfront := header_getD (UInt8.ofNat cmd.code) 0 (words [txnid])
  rw [hdata] at hfront
  have hcode : (UInt8.ofNat cmd.code).toNat = cmd.code := by cases cmd <;> rfl
  have hword : wordAt (old.receive data).bytes 0 = txnid := by
    rw [old.receive_bytes (by rw [hlen]; decide), ← hdata]
    exact wordAt_words rfl _ _ rfl
  rw [hfront.1, hfront.2, hcode] at hhdr
  unfold unmarshalTxn
  rw [if_neg (by rw [hhdr.1, hhdr.2]; simp), hfst, hsnd, hfront.1, hfront.2, hword]

theorem hdrOk_header (cmd : SfdCmdId) (tail : List UInt8) :
    hdrOk (header (UInt8.ofNat cmd.code) 0 ++ tail) cmd = true := by
  cases cmd <;> rfl

theorem sfdUnmarshalFileInfo_bytes (pdu : SfdFileInfo) (size atime mtime ctime txnid : BitVec 64)
    (rest : List UInt8) :
    sfdUnmarshalFileInfo pdu ((protMarshalFileInfo size atime mtime ctime txnid).bytes ++ rest) =
      (true, protMarshalFileInfo size atime mtime ctime txnid) := by
  have hword := fun i w h => @wordAt_words (header (UInt8.ofNat SfdCmdId.fileInfo.code) 0) rfl
    [size, atime, mtime, ctime, txnid] rest i w h
  have hok := hdrOk_header .fileInfo (words [size, atime, mtime, ctime, txnid] ++ rest)
  rw [← List.append_assoc] at hok
  simp only [sfdUnmarshalFileInfo, SfdFileInfo.bytes, protMarshalFileInfo, hok, Bool.not_true,
    Bool.false_eq_true, if_false, hword 0 size rfl, hword 1 atime rfl, hword 2 mtime rfl,
    hword 3 ctime rfl, hword 4 txnid rfl]
  rfl

theorem sfdUnmarshalXferStat_bytes (pdu : SfdXferStat) (size : BitVec 64) (rest : List UInt8) :
    sfdUnmarshalXferStat pdu ((protMarshalXferStat size).bytes ++ rest) =
      (true, protMarshalXferStat size) := by
  have hword := @wordAt_words (header (UInt8.ofNat SfdCmdId.xferStat.code) 0) rfl [size] rest 0
    size rfl
  have hok := hdrOk_header .xferStat (words [size] ++ rest)
  rw [← List.append_assoc] at hok
  simp only [sfdUnmarshalXferStat, SfdXferStat.bytes, protMarshalXferStat, hok, Bool.not_true,
    Bool.false_eq_true, if_false, hword]
  rfl

end RoundTrips

section Kinds

/-- The decoders, by the messages they are for. -/
inductive MsgKind where
  | request
  | sendOpen
  | cancel
  | fileInfo
  | xferStat
deriving DecidableEq, Repr

/-- The messages the marshalling functions build for each of the decoders. -/
inductive Built : MsgKind → List UInt8 → Prop
  | read {filename : Option (List UInt8)} {offset len : BitVec 64} {req : ProtRequestPdu}
      (h : protMarshalRead filename offset len = .ok req) : Built .request (reqIovs req)
  | send {filename : Option (List UInt8)} {offset len : BitVec 64} {req : ProtRequestPdu}
      (h : protMarshalSend filename offset len = .ok req) : Built .request (reqIovs req)
  | fileOpen {filename : Option (List UInt8)} {offset len : BitVec 64} {req : ProtRequestPdu}
      (h : protMarshalFileOpen filename offset len = .ok req) : Built .request (reqIovs req)
  | sendOpen (txnid : BitVec 64) : Built .sendOpen (protMarshalSendOpen txnid).bytes
  | cancel (txnid : BitVec 64) : Built .cancel (protMarshalCancel txnid).bytes
  | fileInfo (size atime mtime ctime txnid : BitVec 64) :
      Built .fileInfo (protMarshalFileInfo size atime mtime ctime txnid).bytes
  | xferStat (size : BitVec 64) : Built .xferStat (protMarshalXferStat size).bytes

/-- A decoder accepts a message.  The server receives it into its buffer, over what was in
there before; on the client's side anything may follow it. -/
def MsgKind.Accepts (data : List UInt8) : MsgKind → Prop
  | .request => ∃ (pdu : ProtRequestPdu) (old : RecvBuf),
      (unmarshalRequest pdu (old.receive data) data.length).1 = true
  | .sendOpen => ∃ (pdu : ProtTxnPdu) (old : RecvBuf),
      (unmarshalSendOpen pdu (old.receive data)).1 = true
  | .cancel => ∃ (pdu : ProtTxnPdu) (old : RecvBuf),
      (unmarshalCancel pdu (old.receive data)).1 = true
  | .fileInfo => ∃ pdu rest, (sfdUnmarshalFileInfo pdu (data ++ rest)).1 = true
  | .xferStat => ∃ pdu rest, (sfdUnmarshalXferStat pdu (data ++ rest)).1 = true

/-- The decoder for a command. -/
def MsgKind.ofCmd : Nat → Option MsgKind
  | 0x01 | 0x02 | 0x03 => some .request
  | 0x04 => some .sendOpen
  | 0x05 => some .cancel
  | 0x81 => some .fileInfo
  | 0x82 => some .xferStat
  | _ => none

theorem MsgKind.ofCmd_of_fileCmd {n : Nat} (h : fileCmd n ≠ none) : ofCmd n = some .request := by
  cases hcode : ProtCmdReq.ofCode n with
  | none => simp [fileCmd, hcode] at h
  | some cmd =>
      unfold ProtCmdReq.ofCode at hcode
      split at hcode
      · rfl
      · rfl
      · rfl
      · exact absurd rfl h
      · exact absurd rfl h
      · cases hcode

theorem unmarshalTxn_accepts {cmd : ProtCmdReq} {pdu : ProtTxnPdu} {buf : RecvBuf}
    (h : (unmarshalTxn cmd pdu buf).1 = true) : sfdGetCmd buf = cmd.code ∧ sfdGetStat buf = 0 := by
  unfold unmarshalTxn at h
  split at h
  · cases h
  · rename_i hnot
    simpa using hnot

theorem hdrOk_eq {buf : List UInt8} {cmd : SfdCmdId} (h : hdrOk buf cmd = true) :
    (buf.getD 0 0).toNat = cmd.code ∧ (buf.getD 1 0).toNat = 0 := by
  simpa [hdrOk] using h

/-- What a decoder accepts has a command of its kind, and no error. -/
theorem MsgKind.Accepts.header {data : List UInt8} {kind : MsgKind} (h : kind.Accepts data)
    (hlen : 2 ≤ data.length) :
    ofCmd (data.getD 0 0).toNat = some kind ∧ (data.getD 1 0).toNat = 0 := by
  have hfront : ∀ rest i, i < 2 → (data ++ rest).getD i 0 = data.getD i 0 := by
    intro rest i hi
    rw [List.getD_eq_getElem?_getD, List.getD_eq_getElem?_getD,
      List.getElem?_append_left (by omega)]
  cases kind with
  | request =>
      obtain ⟨pdu, old, h⟩ := h
      obtain ⟨hcmd, hstat⟩ := old.sfdGet_receive hlen
      rw [← hcmd, ← hstat]
      unfold unmarshalRequest at h
      repeat' split at h
      all_goals try cases h
      rename_i hfile hok _ _
      exact ⟨ofCmd_of_fileCmd hfile, by simpa using hok⟩
  | sendOpen =>
      obtain ⟨pdu, old, h⟩ := h
      obtain ⟨hcmd, hstat⟩ := unmarshalTxn_accepts h
      rw [← (old.sfdGet_receive hlen).1, ← (old.sfdGet_receive hlen).2, hcmd]
      exact ⟨rfl, hstat⟩
  | cancel =>
      obtain ⟨pdu, old, h⟩ := h
      obtain ⟨hcmd, hstat⟩ := unmarshalTxn_accepts h
      rw [← (old.sfdGet_receive hlen).1, ← (old.sfdGet_receive hlen).2, hcmd]
      exact ⟨rfl, hstat⟩
  | fileInfo =>
      obtain ⟨pdu, rest, h⟩ := h
      unfold sfdUnmarshalFileInfo at h
      split at h
      · cases h
      · rename_i hok
        obtain ⟨hcmd, hstat⟩ := hdrOk_eq (by simpa using hok)
        rw [hfront rest 0 (by decide)] at hcmd
        rw [hfront rest 1 (by decide)] at hstat
        exact ⟨by rw [hcmd]; rfl, hstat⟩
  | xferStat =>
      obtain ⟨pdu, rest, h⟩ := h
      unfold sfdUnmarshalXferStat at h
      split at h
      · cases h
      · rename_i hok
        obtain ⟨hcmd, hstat⟩ := hdrOk_eq (by simpa using hok)
        rw [hfront rest 0 (by decide)] at hcmd
        rw [hfront rest 1 (by decide)] at hstat
        exact ⟨by rw [hcmd]; rfl, hstat⟩

/-- What is built for a decoder has a command of its kind. -/
theorem Built.header {kind : MsgKind} {data : List UInt8} (h : Built kind data) :
    2 ≤ data.length ∧ MsgKind.ofCmd (data.getD 0 0).toNat = some kind := by
  have hreq : ∀ cmd, MsgKind.ofCmd (UInt8.ofNat (ProtCmdReq.code cmd)).toNat = some .request →
      ∀ offset len filename req, marshalReq cmd offset len filename = .ok req →
      2 ≤ (reqIovs req).length ∧ MsgKind.ofCmd ((reqIovs req).getD 0 0).toNat = some .request := by
    intro cmd hcmd offset len filename req hreq
    unfold marshalReq at hreq
    split at hreq
    · cases hreq
    · cases hreq
      exact ⟨Nat.le_add_left 2 _, hcmd⟩
  cases h with
  | read h => exact hreq .read rfl _ _ _ _ h
  | send h => exact hreq .send rfl _ _ _ _ h
  | fileOpen h => exact hreq .fileOpen rfl _ _ _ _ h
  | sendOpen | cancel | fileInfo | xferStat => exact ⟨Nat.le_add_left 2 _, rfl⟩

theorem Built.rejected {kind other : MsgKind} {data : List UInt8} (h : Built kind data)
    (hne : other ≠ kind) : ¬ other.Accepts data := by
  intro haccepts
  have hother := (haccepts.header h.header.1).1
  rw [h.header.2] at hother
  exact hne (Option.some.inj hother).symm

/-- The header of an error, `prot_hdr` with a status. -/
theorem error_rejected (kind : MsgKind) {cmd stat : UInt8} (hstat : stat ≠ 0) :
    ¬ kind.Accepts [cmd, stat] := by
  intro haccepts
  have hzero : stat.toNat = 0 := (haccepts.header (Nat.le_refl 2)).2
  exact hstat (UInt8.toNat_inj.mp hzero)

end Kinds

section Rejecting

/-! A decoder writes to its structure in the branch that accepts only. -/

theorem unmarshalRequest_false {pdu : ProtRequestPdu} {buf : RecvBuf} {size : Nat}
    (h : (unmarshalRequest pdu buf size).1 = false) : (unmarshalRequest pdu buf size).2 = pdu := by
  unfold unmarshalRequest at h ⊢
  split_ifs at h ⊢ <;> rfl

theorem unmarshalTxn_false {cmd : ProtCmdReq} {pdu : ProtTxnPdu} {buf : RecvBuf}
    (h : (unmarshalTxn cmd pdu buf).1 = false) : (unmarshalTxn cmd pdu buf).2 = pdu := by
  unfold unmarshalTxn at h ⊢
  split_ifs at h ⊢
  rfl

theorem sfdUnmarshalFileInfo_false {pdu : SfdFileInfo} {buf : List UInt8}
    (h : (sfdUnmarshalFileInfo pdu buf).1 = false) : (sfdUnmarshalFileInfo pdu buf).2 = pdu := by
  unfold sfdUnmarshalFileInfo at h ⊢
  split_ifs at h ⊢
  rfl

theorem sfdUnmarshalXferStat_false {pdu : SfdXferStat} {buf : List UInt8}
    (h : (sfdUnmarshalXferStat pdu buf).1 = false) : (sfdUnmarshalXferStat pdu buf).2 = pdu := by
  unfold sfdUnmarshalXferStat at h ⊢
  split_ifs at h ⊢
  rfl

end Rejecting

section Server

/-! The server's model of a request is what its decoder fills in, with the name read as a
string. -/

/-- The request in a structure that was filled in. -/
def ProtRequestPdu.request (pdu : ProtRequestPdu) : Option ProtRequest :=
  (fileCmd pdu.cmd.toNat).map fun cmd =>
    { cmd := cmd
      offset := pdu.offset
      len := pdu.len
      filename := pdu.name
      filenameLen := pdu.filenameLen }

theorem wordAt_eq_leNat (buf : RecvBuf) (i : Nat) :
    wordAt buf.bytes i = BitVec.ofNat 64 (leNat buf (8 + 8 * i) 8) := by
  rw [leNat_eq_ofLE]
  rfl

theorem protUnmarshalRequest_eq (pdu : ProtRequestPdu) (buf : RecvBuf) (size : Nat) :
    protUnmarshalRequest buf size =
      if (unmarshalRequest pdu buf size).1 then (unmarshalRequest pdu buf size).2.request
      else none := by
  have hoffset : wordAt buf.bytes 0 = BitVec.ofNat 64 (leNat buf 8 8) := wordAt_eq_leNat buf 0
  have hlen : wordAt buf.bytes 1 = BitVec.ofNat 64 (leNat buf 16 8) := wordAt_eq_leNat buf 1
  unfold protUnmarshalRequest unmarshalRequest
  by_cases hsize : size < protReqMinSize
  · simp only [if_pos hsize, Bool.false_eq_true, if_false]
  · simp only [if_neg hsize]
    cases hcmd : fileCmd (sfdGetCmd buf) with
    | none => simp only [if_true, Bool.false_eq_true, if_false]
    | some cmd =>
        have hbyte : fileCmd (buf.bytes.getD 0 0).toNat = some cmd := hcmd
        simp only [reduceCtorEq, if_false]
        by_cases hstat : sfdGetStat buf ≠ 0
        · simp only [if_pos hstat, Bool.false_eq_true, if_false]
        by_cases hlast : buf.byte (size - 1) ≠ 0
        · simp only [if_neg hstat, if_pos hlast, Bool.false_eq_true, if_false]
        by_cases hlong : protFilenameMax < size - protReqBaseSize - 1
        · simp only [if_neg hstat, if_neg hlast, if_pos hlong, Bool.false_eq_true, if_false]
        · simp only [if_neg hstat, if_neg hlast, if_neg hlong, if_true, ProtRequestPdu.request,
            ProtRequestPdu.copyBase, hbyte, hoffset, hlen]
          rfl

theorem protUnmarshalTxnid_eq (cmd : ProtCmdReq) (pdu : ProtTxnPdu) (buf : RecvBuf) :
    protUnmarshalTxnid cmd buf =
      if (unmarshalTxn cmd pdu buf).1 then some (unmarshalTxn cmd pdu buf).2.txnid.toNat
      else none := by
  have hlt : leNat buf 8 8 < 2 ^ 64 := by
    rw [leNat_eq_ofLE]
    calc ofLE ((buf.bytes.drop 8).take 8)
        < 256 ^ ((buf.bytes.drop 8).take 8).length := ofLE_lt _
      _ ≤ 256 ^ 8 := Nat.pow_le_pow_right (by decide) (List.length_take_le 8 _)
  have htxnid : (wordAt buf.bytes 0).toNat = leNat buf 8 8 := by
    rw [wordAt_eq_leNat, BitVec.toNat_ofNat, Nat.mod_eq_of_lt hlt]
  unfold protUnmarshalTxnid unmarshalTxn
  by_cases hbad : sfdGetCmd buf ≠ cmd.code ∨ sfdGetStat buf ≠ 0
  · simp only [if_pos hbad, Bool.false_eq_true, if_false]
  · simp only [if_neg hbad, if_true, htxnid]

end Server

section Codecs

/-- The functions that marshal a request for a file, with their commands. -/
def fileMarshallers :
    List (ProtCmdReq ×
      (Option (List UInt8) → BitVec 64 → BitVec 64 → Except Errno ProtRequestPdu)) :=
  [(.read, protMarshalRead), (.send, protMarshalSend), (.fileOpen, protMarshalFileOpen)]

/-- The decoders of the two sides undo what the marshalling functions do, and none takes a
message for one of another kind. -/
structure CodecsInverse : Prop where
  /-- A request for a file, whatever is in memory behind the name and was in the receive
  buffer before. -/
  request : ∀ p ∈ fileMarshallers, ∀ (offset len : BitVec 64) (name rest : List UInt8),
    1 ≤ name.length → name.length ≤ protFilenameMax → (0 : UInt8) ∉ name →
    ∃ req, p.2 (some (name ++ 0 :: rest)) offset len = .ok req ∧
      (reqIovs req).length ≤ protReqMaxSize ∧
      ∀ (old : RecvBuf) (pdu : ProtRequestPdu), ∃ out,
        unmarshalRequest pdu (old.receive (reqIovs req)) (reqIovs req).length = (true, out) ∧
        out.cmd = UInt8.ofNat p.1.code ∧ out.stat = 0 ∧ out.offset = offset ∧ out.len = len ∧
        out.name = name ∧ out.filenameLen = name.length
  sendOpen : ∀ (txnid : BitVec 64) (old : RecvBuf) (pdu : ProtTxnPdu),
    unmarshalSendOpen pdu (old.receive (protMarshalSendOpen txnid).bytes) =
      (true, protMarshalSendOpen txnid)
  cancel : ∀ (txnid : BitVec 64) (old : RecvBuf) (pdu : ProtTxnPdu),
    unmarshalCancel pdu (old.receive (protMarshalCancel txnid).bytes) =
      (true, protMarshalCancel txnid)
  fileInfo : ∀ (size atime mtime ctime txnid : BitVec 64) (pdu : SfdFileInfo) (rest : List UInt8),
    sfdUnmarshalFileInfo pdu ((protMarshalFileInfo size atime mtime ctime txnid).bytes ++ rest) =
      (true, protMarshalFileInfo size atime mtime ctime txnid)
  xferStat : ∀ (size : BitVec 64) (pdu : SfdXferStat) (rest : List UInt8),
    sfdUnmarshalXferStat pdu ((protMarshalXferStat size).bytes ++ rest) =
      (true, protMarshalXferStat size)
  otherKind : ∀ {kind other : MsgKind} {data : List UInt8},
    Built kind data → other ≠ kind → ¬ other.Accepts data
  error : ∀ (kind : MsgKind) (cmd stat : UInt8), stat ≠ 0 → ¬ kind.Accepts [cmd, stat]
  requestKept : ∀ (pdu : ProtRequestPdu) (buf : RecvBuf) (size : Nat),
    (unmarshalRequest pdu buf size).1 = false → (unmarshalRequest pdu buf size).2 = pdu
  sendOpenKept : ∀ (pdu : ProtTxnPdu) (buf : RecvBuf),
    (unmarshalSendOpen pdu buf).1 = false → (unmarshalSendOpen pdu buf).2 = pdu
  cancelKept : ∀ (pdu : ProtTxnPdu) (buf : RecvBuf),
    (unmarshalCancel pdu buf).1 = false → (unmarshalCancel pdu buf).2 = pdu
  fileInfoKept : ∀ (pdu : SfdFileInfo) (buf : List UInt8),
    (sfdUnmarshalFileInfo pdu buf).1 = false → (sfdUnmarshalFileInfo pdu buf).2 = pdu
  xferStatKept : ∀ (pdu : SfdXferStat) (buf : List UInt8),
    (sfdUnmarshalXferStat pdu buf).1 = false → (sfdUnmarshalXferStat pdu buf).2 = pdu

/-- The whole way of a request for a file. -/
theorem marshalReq_unmarshalRequest {cmd : ProtCmdReq} (hcmd : fileCmd cmd.code = some cmd)
    (offset len : BitVec 64) {name : List UInt8} (rest : List UInt8) (hpos : 1 ≤ name.length)
    (hlen : name.length ≤ protFilenameMax) (hname : (0 : UInt8) ∉ name) :
    ∃ req, marshalReq cmd offset len (some (name ++ 0 :: rest)) = .ok req ∧
      (reqIovs req).length ≤ protReqMaxSize ∧
      ∀ (old : RecvBuf) (pdu : ProtRequestPdu), ∃ out,
        unmarshalRequest pdu (old.receive (reqIovs req)) (reqIovs req).length = (true, out) ∧
        out.cmd = UInt8.ofNat cmd.code ∧ out.stat = 0 ∧ out.offset = offset ∧ out.len = len ∧
        out.name = name ∧ out.filenameLen = name.length := by
  obtain ⟨req, hreq, hbytes⟩ := marshalReq_name hname hlen cmd offset len rest
  refine ⟨req, hreq, ?_, fun old pdu => ?_⟩
  · rw [hbytes]
    simp only [List.length_append, length_words, header, List.length_cons, List.length_nil,
      protReqMaxSize]
    omega
  · exact unmarshalRequest_receive old pdu hcmd offset len (List.length_pos_iff.mp hpos) hlen hname
      hbytes

theorem codecs_inverse : CodecsInverse where
  request := by
    intro p hp offset len name rest hpos hlen hname
    simp only [fileMarshallers, List.mem_cons, List.not_mem_nil, or_false] at hp
    rcases hp with rfl | rfl | rfl <;>
      exact marshalReq_unmarshalRequest rfl offset len rest hpos hlen hname
  sendOpen := fun txnid old pdu => unmarshalTxn_receive old pdu .sendOpen txnid
  cancel := fun txnid old pdu => unmarshalTxn_receive old pdu .cancel txnid
  fileInfo := fun size atime mtime ctime txnid pdu rest =>
    sfdUnmarshalFileInfo_bytes pdu size atime mtime ctime txnid rest
  xferStat := fun size pdu rest => sfdUnmarshalXferStat_bytes pdu size rest
  otherKind := fun hbuilt hne => hbuilt.rejected hne
  error := fun kind _ _ hstat => error_rejected kind hstat
  requestKept := fun _ _ _ => unmarshalRequest_false
  sendOpenKept := fun _ _ => unmarshalTxn_false
  cancelKept := fun _ _ => unmarshalTxn_false
  fileInfoKept := fun _ _ => sfdUnmarshalFileInfo_false
  xferStatKept := fun _ _ => sfdUnmarshalXferStat_false

end Codecs

end Sendfiled
