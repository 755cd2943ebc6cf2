/-
The grammar of a request for a file (protocol.h) and the decoder that is to accept exactly
it.  The decoder looks at the last byte received but not at the bytes of the name before it.
-/
import Sendfiled.Messages

namespace Sendfiled

open LittleEndian

/-- `prot_unmarshal_request`, on any memory. -/
def unmarshalBytes (pdu : ProtRequestPdu) (buf : List UInt8) (size : Nat) :
    Bool × ProtRequestPdu :=
  if size < protReqMinSize then (false, pdu)
  else if fileCmd (buf.getD 0 0).toNat = none then (false, pdu)
  else if (buf.getD 1 0).toNat ≠ 0 then (false, pdu)
  else if buf.getD (size - 1) 0 ≠ 0 then (false, pdu)
  else if protFilenameMax < size - protReqBaseSize - 1 then (false, pdu)
  else (true, { pdu.copyBase buf with
    filename := buf.drop protReqBaseSize
    filenameLen := size - protReqBaseSize - 1 })

/-- The server decodes its receive buffer. -/
theorem unmarshalRequest_eq_bytes (pdu : ProtRequestPdu) (buf : RecvBuf) (size : Nat) :
    unmarshalRequest pdu buf size = unmarshalBytes pdu buf.bytes size := rfl

/-- A header, the alignment padding, the offset and the length, and a name with its
terminating NUL. -/
def requestBytes (cmd : ProtCmdReq) (padding : List UInt8) (offset len : BitVec 64)
    (name : List UInt8) : List UInt8 :=
  [UInt8.ofNat cmd.code, 0] ++ padding ++ words [offset, len] ++ (name ++ [0])

/-- The grammar of requests. -/
def IsRequest (bytes : List UInt8) : Prop :=
  ∃ cmd ∈ [ProtCmdReq.read, .send, .fileOpen], ∃ padding offset len name,
    padding.length = 6 ∧ 1 ≤ name.length ∧ name.length ≤ protFilenameMax ∧
    (0 : UInt8) ∉ name ∧ bytes = requestBytes cmd padding offset len name

/-- Bytes with the padding behind the header cleared. -/
def clearPadding (bytes : List UInt8) : List UInt8 :=
  bytes.take 2 ++ List.replicate 6 0 ++ bytes.drop 8

/-- What the decoder is to do with the first `n` bytes of a buffer: accept exactly the
requests, with the name's length, and with everything needed to marshal them again. -/
def DecodesGrammar (pdu : ProtRequestPdu) (buf : List UInt8) (n : Nat) : Prop :=
  ((unmarshalBytes pdu buf n).1 = true ↔ IsRequest (buf.take n)) ∧
  ∀ out, unmarshalBytes pdu buf n = (true, out) →
    out.name.length = out.filenameLen ∧
    ∃ cmd req, fileCmd out.cmd.toNat = some cmd ∧
      marshalReq cmd out.offset out.len (some out.filename) = .ok req ∧
      reqIovs req = clearPadding (buf.take n)

/-- The tests of the decoder. -/
structure Admitted (buf : List UInt8) (n : Nat) : Prop where
  size : protReqMinSize ≤ n
  cmd : fileCmd (buf.getD 0 0).toNat ≠ none
  stat : buf.getD 1 0 = 0
  last : buf.getD (n - 1) 0 = 0
  name : n - protReqBaseSize - 1 ≤ protFilenameMax

/-- The bytes between the fixed part of a request and its last byte. -/
def nameBytes (buf : List UInt8) (n : Nat) : List UInt8 := (buf.take (n - 1)).drop protReqBaseSize

variable {pdu : ProtRequestPdu} {buf : List UInt8} {n : Nat}

theorem unmarshalBytes_of_admitted (h : Admitted buf n) :
    unmarshalBytes pdu buf n = (true, { pdu.copyBase buf with
      filename := buf.drop protReqBaseSize
      filenameLen := n - protReqBaseSize - 1 }) := by
  unfold unmarshalBytes
  have hstat : ¬ (buf.getD 1 0).toNat ≠ 0 := by
    rw [h.stat]
    decide
  rw [if_neg (Nat.not_lt.mpr h.size), if_neg h.cmd, if_neg hstat, if_neg (fun hne => hne h.last),
    if_neg (Nat.not_lt.mpr h.name)]

theorem unmarshalBytes_iff : (unmarshalBytes pdu buf n).1 = true ↔ Admitted buf n := by
  constructor
  · intro h
    unfold unmarshalBytes at h
    split_ifs at h with hsize hcmd hstat hlast hname
    refine ⟨Nat.not_lt.mp hsize, hcmd, ?_, Decidable.not_not.mp hlast, Nat.not_lt.mp hname⟩
    exact UInt8.toNat_inj.mp (Decidable.not_not.mp hstat)
  · intro h
    rw [unmarshalBytes_of_admitted h]

/-- The three commands are told by their codes. -/
theorem fileCmd_eq_some {k : Nat} {cmd : ProtCmdReq} (h : fileCmd k = some cmd) :
    cmd ∈ [ProtCmdReq.read, .send, .fileOpen] ∧ k = cmd.code := by
  unfold fileCmd ProtCmdReq.ofCode at h
  split at h
  · rename_i heq
    split at heq <;> cases heq
    cases h
    decide
  · rename_i heq
    split at heq <;> cases heq
    cases h
    decide
  · rename_i heq
    split at heq <;> cases heq
    cases h
    decide
  · cases h

theorem fileCmd_of_mem {cmd : ProtCmdReq} (h : cmd ∈ [ProtCmdReq.read, .send, .fileOpen]) :
    fileCmd (UInt8.ofNat cmd.code).toNat = some cmd := by
  simp only [List.mem_cons, List.not_mem_nil, or_false] at h
  rcases h with rfl | rfl | rfl <;> rfl

/-- The fixed part of a request is its header, the padding and two words. -/
theorem take_base (h : protReqBaseSize ≤ buf.length) :
    buf.take protReqBaseSize = [buf.getD 0 0, buf.getD 1 0] ++ (buf.drop 2).take 6 ++
      words [wordAt buf 0, wordAt buf 1] := by
  have hlen : 24 ≤ buf.length := h
  have hwords : words [wordAt buf 0, wordAt buf 1] = (buf.drop 8).take 16 := by
    have h₀ := @toLE_wordAt buf 0 (by omega)
    have h₁ := @toLE_wordAt buf 1 (by omega)
    simp only [words, List.flatMap_cons, List.flatMap_nil, List.append_nil]
    rw [h₀, h₁, show (16 : Nat) = 8 + 8 by rfl, List.take_add, List.drop_drop]
  obtain ⟨b₀, b₁, rest, rfl⟩ : ∃ b₀ b₁ rest, buf = b₀ :: b₁ :: rest := by
    cases buf with
    | nil => simp at hlen
    | cons b₀ tail =>
        cases tail with
        | nil => simp at hlen
        | cons b₁ rest => exact ⟨b₀, b₁, rest, rfl⟩
  rw [hwords]
  simp only [protReqBaseSize, List.take_succ_cons, List.getD_cons_zero, List.getD_cons_succ,
    List.drop_succ_cons, List.drop_zero, List.cons_append, List.nil_append]
  rw [show (22 : Nat) = 6 + 16 by rfl, List.take_add]

theorem clearPadding_append {a b : UInt8} {padding : List UInt8} (hpad : padding.length = 6)
    (rest : List UInt8) : clearPadding ([a, b] ++ padding ++ rest) = header a b ++ rest := by
  have hfront : ([a, b] ++ padding).length = 8 := by
    rw [List.length_append, hpad]
    rfl
  rw [clearPadding, List.drop_left' hfront]
  rfl

/-- The bytes that pass the tests, taken apart. -/
theorem Admitted.take_eq (h : Admitted buf n) (hn : n ≤ buf.length) :
    buf.take n = buf.take protReqBaseSize ++ (nameBytes buf n ++ [0]) := by
  have hsize : 26 ≤ n := h.size
  have hlast : buf.take n = buf.take (n - 1) ++ [0] := by
    have hlt : n - 1 < buf.length := by omega
    have hget : buf[n - 1] = 0 := by
      rw [← h.last, List.getD_eq_getElem?_getD, List.getElem?_eq_getElem hlt, Option.getD_some]
    rw [show n = n - 1 + 1 by omega, List.take_succ_eq_append_getElem hlt, hget,
      Nat.add_sub_cancel]
  have hbase : (buf.take (n - 1)).take protReqBaseSize = buf.take protReqBaseSize := by
    rw [List.take_take, Nat.min_eq_left]
    change 24 ≤ n - 1
    omega
  rw [hlast, ← List.append_assoc, ← hbase, nameBytes, List.take_append_drop]

theorem length_nameBytes (hn : n ≤ buf.length) :
    (nameBytes buf n).length = n - protReqBaseSize - 1 := by
  rw [nameBytes, List.length_drop, List.length_take, Nat.min_eq_left (by omega)]
  omega

/-- What passes the tests and has no NUL in its name is a request. -/
theorem Admitted.isRequest (h : Admitted buf n) (hn : n ≤ buf.length)
    (hname : (0 : UInt8) ∉ nameBytes buf n) : IsRequest (buf.take n) := by
  have hsize : 26 ≤ n := h.size
  have hlen := length_nameBytes hn
  obtain ⟨cmd, hcmd⟩ := Option.ne_none_iff_exists'.mp h.cmd
  obtain ⟨hmem, hcode⟩ := fileCmd_eq_some hcmd
  have hbyte : buf.getD 0 0 = UInt8.ofNat cmd.code := by
    rw [← hcode, UInt8.ofNat_toNat]
  refine ⟨cmd, hmem, (buf.drop 2).take 6, wordAt buf 0, wordAt buf 1, nameBytes buf n, ?_, ?_, ?_,
    hname, ?_⟩
  · rw [List.length_take, List.length_drop]
    omega
  · rw [hlen]
    change 1 ≤ n - 24 - 1
    omega
  · rw [hlen]
    exact h.name
  · rw [h.take_eq hn, take_base (Nat.le_trans (show 24 ≤ n by omega) hn), hbyte, h.stat,
      requestBytes]

/-- A request passes the tests, and its name is what stands before the last byte. -/
theorem IsRequest.admitted (h : IsRequest (buf.take n)) (hn : n ≤ buf.length) :
    Admitted buf n ∧ (0 : UInt8) ∉ nameBytes buf n := by
  obtain ⟨cmd, hmem, padding, offset, len, name, hpad, hpos, hmax, hname, hbytes⟩ := h
  have hfront : ([UInt8.ofNat cmd.code, 0] ++ padding ++ words [offset, len]).length = 24 := by
    simp [length_words, hpad]
  have hlen : n = 24 + name.length + 1 := by
    have hlength := congrArg List.length hbytes
    rw [List.length_take, Nat.min_eq_left hn, requestBytes, List.length_append, hfront,
      List.length_append, List.length_singleton] at hlength
    omega
  have hget : ∀ i, i < n → buf.getD i 0 = (requestBytes cmd padding offset len name).getD i 0 := by
    intro i hi
    rw [← hbytes, List.getD_eq_getElem?_getD, List.getD_eq_getElem?_getD,
      List.getElem?_take_of_lt hi]
  have hnameBytes : nameBytes buf n = name := by
    have htake : buf.take (n - 1) = (buf.take n).take (n - 1) := by
      rw [List.take_take, Nat.min_eq_left (by omega)]
    rw [nameBytes, htake, hbytes, requestBytes, ← List.append_assoc, List.take_left',
      show protReqBaseSize = 24 from rfl, ← hfront, List.drop_left]
    rw [List.length_append, hfront]
    omega
  refine ⟨⟨?_, ?_, ?_, ?_, ?_⟩, hnameBytes ▸ hname⟩
  · change 26 ≤ n
    omega
  · rw [hget 0 (by omega)]
    change fileCmd (UInt8.ofNat cmd.code).toNat ≠ none
    rw [fileCmd_of_mem hmem]
    nofun
  · rw [hget 1 (by omega)]
    rfl
  · have hall : ([UInt8.ofNat cmd.code, 0] ++ padding ++ words [offset, len] ++ name).length =
        n - 1 := by
      rw [List.length_append, hfront]
      omega
    rw [hget (n - 1) (by omega), requestBytes, ← List.append_assoc, ← hall,
      List.getD_eq_getElem?_getD, List.getElem?_append_right (Nat.le_refl _), Nat.sub_self]
    rfl
  · change n - 24 - 1 ≤ protFilenameMax
    omega

/-- What is accepted without a NUL in its name can be marshalled again. -/
theorem Admitted.remarshal (h : Admitted buf n) (hn : n ≤ buf.length)
    (hname : (0 : UInt8) ∉ nameBytes buf n) {out : ProtRequestPdu}
    (hout : unmarshalBytes pdu buf n = (true, out)) :
    out.name.length = out.filenameLen ∧
    ∃ cmd req, fileCmd out.cmd.toNat = some cmd ∧
      marshalReq cmd out.offset out.len (some out.filename) = .ok req ∧
      reqIovs req = clearPadding (buf.take n) := by
  have hsize : 26 ≤ n := h.size
  have hlen := length_nameBytes hn
  have htake := h.take_eq hn
  have hbase : buf.take protReqBaseSize = _ := take_base (Nat.le_trans (show 24 ≤ n by omega) hn)
  rw [unmarshalBytes_of_admitted h] at hout
  cases hout
  have hfile : buf.drop protReqBaseSize = nameBytes buf n ++ 0 :: buf.drop n := by
    have hsplit : buf = buf.take protReqBaseSize ++ (nameBytes buf n ++ 0 :: buf.drop n) := by
      calc buf = buf.take n ++ buf.drop n := (List.take_append_drop n buf).symm
        _ = _ := by
          rw [htake]
          simp only [List.append_assoc, List.cons_append, List.nil_append]
    have hlength : (buf.take protReqBaseSize).length = protReqBaseSize := by
      rw [List.length_take, Nat.min_eq_left]
      exact Nat.le_trans (show 24 ≤ n by omega) hn
    have hdrop := congrArg (List.drop protReqBaseSize) hsplit
    rw [List.drop_left' hlength] at hdrop
    exact hdrop
  obtain ⟨cmd, hcmd⟩ := Option.ne_none_iff_exists'.mp h.cmd
  obtain ⟨-, hcode⟩ := fileCmd_eq_some hcmd
  have hbyte : buf.getD 0 0 = UInt8.ofNat cmd.code := by
    rw [← hcode, UInt8.ofNat_toNat]
  obtain ⟨req, hreq, hiovs⟩ := marshalReq_name hname (by rw [hlen]; exact h.name) cmd
    (wordAt buf 0) (wordAt buf 1) (buf.drop n)
  refine ⟨?_, cmd, req, hcmd, ?_, ?_⟩
  · change ((buf.drop protReqBaseSize).takeWhile (· ≠ 0)).length = n - protReqBaseSize - 1
    rw [hfile, takeWhile_name hname, hlen]
  · change marshalReq cmd (wordAt buf 0) (wordAt buf 1) (some (buf.drop protReqBaseSize)) = .ok req
    rw [hfile, hreq]
  · have hpad : ((buf.drop 2).take 6).length = 6 := by
      rw [List.length_take, List.length_drop]
      omega
    have hclear := clearPadding_append (a := UInt8.ofNat cmd.code) (b := 0) hpad
      (words [wordAt buf 0, wordAt buf 1] ++ (nameBytes buf n ++ [0]))
    rw [hiovs, htake, hbase, hbyte, h.stat]
    simpa only [List.append_assoc] using hclear.symm

/-- The decoder accepts exactly its grammar, except for bytes that pass all of its tests
and have a NUL in the name. -/
theorem decodesGrammar_iff (pdu : ProtRequestPdu) (hn : n ≤ buf.length) :
    DecodesGrammar pdu buf n ↔ (Admitted buf n → (0 : UInt8) ∉ nameBytes buf n) := by
  constructor
  · intro h hadmitted
    have hrequest := h.1.mp (unmarshalBytes_iff.mpr hadmitted)
    exact (hrequest.admitted hn).2
  · intro hname
    refine ⟨?_, fun out hout => ?_⟩
    · rw [unmarshalBytes_iff]
      exact ⟨fun h => h.isRequest hn (hname h), fun h => (h.admitted hn).1⟩
    · have hadmitted : Admitted buf n := by
        have hfirst : (unmarshalBytes pdu buf n).1 = true := by rw [hout]
        exact unmarshalBytes_iff.mp hfirst
      exact hadmitted.remarshal hn (hname hadmitted) hout

instance (buf : List UInt8) (n : Nat) : Decidable (Admitted buf n) :=
  decidable_of_iff ((unmarshalBytes ⟨0, 0, 0, 0, [], 0⟩ buf n).1 = true) unmarshalBytes_iff

/-- A READ request for the file `a`, and the name found in it. -/
theorem decodesGrammar_one_letter :
    DecodesGrammar ⟨0, 0, 0, 0, [], 0⟩
      (header (UInt8.ofNat ProtCmdReq.read.code) 0 ++ words [0, 0] ++ [97, 0]) 26 :=
  (decodesGrammar_iff ⟨0, 0, 0, 0, [], 0⟩ (by decide)).mpr (by decide)

/-- A READ request whose name is two NULs. -/
def nulNamed : List UInt8 :=
  header (UInt8.ofNat ProtCmdReq.read.code) 0 ++ words [0, 0] ++ [0, 0]

/-- The request with two NULs is accepted, with an empty string for its name of length 1. -/
theorem nulNamed_accepted :
    ¬ ∀ (pdu : ProtRequestPdu) (buf : List UInt8) (n : Nat), n ≤ buf.length →
      DecodesGrammar pdu buf n := by
  intro h
  have hn : 26 ≤ nulNamed.length := by decide
  have hdecodes := h ⟨0, 0, 0, 0, [], 0⟩ nulNamed 26 hn
  have hrequest := hdecodes.1.mp (unmarshalBytes_iff.mpr (by decide))
  exact (hrequest.admitted hn).2 (by decide)

end Sendfiled
