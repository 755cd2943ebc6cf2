/-
Descriptors and credentials as bytes.  The client lays them out as control messages; the
server walks over the control messages it received and copies what it finds into an array of
two descriptors and a structure for the credentials.
-/
import Mathlib.Algebra.Ring.Int.Defs
import Sendfiled.Lib.Cmsg
import Sendfiled.Requests
import Sendfiled.Startup.Process

namespace Sendfiled

open LittleEndian Cmsg
open Startup (Os)

section Platform

/-- `sizeof cmsg_len`, which is a `size_t` or a `socklen_t`. -/
def cmsgLenSize : Os → Nat
  | .linux => 8
  | .freebsd => 4

def solSocket : Os → Nat
  | .linux => 1
  | .freebsd => 0xffff

def scmRights : Nat := 1

/-- `SCM_CREDENTIALS` or `SCM_CREDS`. -/
def scmCreds : Os → Nat
  | .linux => 2
  | .freebsd => 3

def usCmsgSpace (os : Os) (s : Nat) : Nat := space (cmsgLenSize os) s

def usCmsgLen (os : Os) (s : Nat) : Nat := len (cmsgLenSize os) s

/-- The credentials `us_recv` has room for: a `struct ucred`, or the control message of a
`struct sockcred` with `CMGROUP_MAX` groups. -/
def credsRoom : Os → Nat
  | .linux => 12
  | .freebsd => usCmsgSpace .freebsd (24 + 4 * (16 - 1))

end Platform

section Integers

/-- An `int` in memory. -/
def intBytes (n : Int) : List UInt8 := toLE 4 (n % 2 ^ 32).toNat

/-- An array of `int`s. -/
def ints (l : List Int) : List UInt8 := l.flatMap intBytes

def intAt (buf : List UInt8) (i : Nat) : Int :=
  (BitVec.ofNat 32 (ofLE ((buf.drop (4 * i)).take 4))).toInt

/-- The number is an `int`. -/
def IsInt (n : Int) : Prop := -2 ^ 31 ≤ n ∧ n < 2 ^ 31

theorem length_intBytes (n : Int) : (intBytes n).length = 4 := length_toLE 4 _

theorem ints_cons (n : Int) (l : List Int) : ints (n :: l) = intBytes n ++ ints l :=
  List.flatMap_cons

theorem length_ints (l : List Int) : (ints l).length = 4 * l.length := by
  induction l with
  | nil => rfl
  | cons n l ih =>
      rw [ints_cons, List.length_append, length_intBytes, ih, List.length_cons]
      omega

theorem intAt_append {n : Int} (h : IsInt n) {pre : List UInt8} (post : List UInt8) {i : Nat}
    (hpre : pre.length = 4 * i) : intAt (pre ++ (intBytes n ++ post)) i = n := by
  have hlt : (n % 2 ^ 32).toNat < 256 ^ 4 := by
    have hmod := Int.emod_lt_of_pos n (show (0 : Int) < 2 ^ 32 by decide)
    omega
  obtain ⟨hlow, hhigh⟩ := h
  rw [intAt, ← hpre, List.drop_left, intBytes, List.take_left' (length_toLE 4 _), ofLE_toLE,
    Nat.mod_eq_of_lt hlt, BitVec.toInt_eq_toNat_cond, BitVec.toNat_ofNat]
  split <;> omega

end Integers

section Server

/-- What `us_get_fds_and_creds` writes to: the array of descriptors, the count, and the
credentials; and what it has seen. -/
structure Gotten where
  fds : List UInt8
  nfds : Nat
  creds : List UInt8
  gotFds : Bool
  gotCreds : Bool
deriving DecidableEq, Repr

/-- How the walk goes wrong: one of its two assertions fails, or memory is written, or read,
behind the end of an array. -/
inductive AncillaryFault where
  | level
  | rightsLen
  | overrun
  | overread
deriving DecidableEq, Repr

variable (os : Os)

/-- `cmsg->cmsg_len - data_off`, in a `size_t`. -/
def payloadSize (control : List UInt8) (off : Nat) : Nat :=
  (lenAt (cmsgLenSize os) control off + 2 ^ 64 - dataOff (cmsgLenSize os)) % 2 ^ 64

/-- Bytes are copied to the start of an array. -/
def fill (dst bytes : List UInt8) : Except AncillaryFault (List UInt8) :=
  if bytes.length ≤ dst.length then .ok (bytes ++ dst.drop bytes.length) else .error .overrun

/-- `memcpy(dst, CMSG_DATA(cmsg), payload_size)`. -/
def copyPayload (control : List UInt8) (off : Nat) (dst : List UInt8) :
    Except AncillaryFault (List UInt8) :=
  if off + dataOff (cmsgLenSize os) + payloadSize os control off ≤ control.length then
    fill dst (dataAt (cmsgLenSize os) control off (payloadSize os control off))
  else .error .overread

/-- The branch for descriptors. -/
def getFds (control : List UInt8) (off : Nat) (s : Gotten) : Except AncillaryFault Gotten :=
  if lenAt (cmsgLenSize os) control off < usCmsgLen os 4 then .error .rightsLen
  else
    (fill s.fds (List.replicate (4 * s.nfds) 0)).bind fun zeroed =>
      (copyPayload os control off zeroed).map fun fds =>
        { s with
          fds := fds
          nfds := payloadSize os control off / 4
          gotFds := true }

/-- The branch for credentials. -/
def getCreds (control : List UInt8) (off : Nat) (s : Gotten) : Except AncillaryFault Gotten :=
  (copyPayload os control off s.creds).map fun creds =>
    { s with creds := creds, gotCreds := true }

/-- The body of the loop of `us_get_fds_and_creds`. -/
def getCmsg (control : List UInt8) (off : Nat) (s : Gotten) : Except AncillaryFault Gotten :=
  if levelAt (cmsgLenSize os) control off ≠ solSocket os then .error .level
  else if typeAt (cmsgLenSize os) control off = scmRights then getFds os control off s
  else if typeAt (cmsgLenSize os) control off = scmCreds os then getCreds os control off s
  else .ok s

/-- `us_get_fds_and_creds`. -/
def usGetFdsAndCreds (control : List UInt8) (fds : List UInt8) (nfds : Nat)
    (creds : List UInt8) : Except AncillaryFault Gotten :=
  match forEach (cmsgLenSize os) control (getCmsg os control)
      { fds := fds, nfds := nfds, creds := creds, gotFds := false, gotCreds := false } with
  | .error e => .error e
  | .ok s => .ok (if s.gotFds then s else { s with nfds := 0 })

section Walk

variable {os : Os} {m : Message}

/-- A `size_t` holds the length of a record. -/
theorem len_lt_size (h : m.Fits (cmsgLenSize os)) :
    len (cmsgLenSize os) m.data.length < 2 ^ 64 := by
  have hlen := h.len
  cases os with
  | linux =>
      simp only [cmsgLenSize] at hlen ⊢
      omega
  | freebsd =>
      simp only [cmsgLenSize] at hlen ⊢
      omega

theorem payloadSize_bytes (h : m.Fits (cmsgLenSize os)) (pre post : List UInt8) :
    payloadSize os (pre ++ (m.bytes (cmsgLenSize os) ++ post)) pre.length = m.data.length := by
  have hsize := len_lt_size h
  rw [payloadSize, lenAt_bytes h]
  unfold len at hsize ⊢
  have hcancel : dataOff (cmsgLenSize os) + m.data.length + 2 ^ 64 - dataOff (cmsgLenSize os) =
      m.data.length + 2 ^ 64 := by omega
  rw [hcancel, Nat.add_mod_right, Nat.mod_eq_of_lt (by omega)]

theorem copyPayload_bytes (h : m.Fits (cmsgLenSize os)) (pre post dst : List UInt8) :
    copyPayload os (pre ++ (m.bytes (cmsgLenSize os) ++ post)) pre.length dst =
      fill dst m.data := by
  have hlength := m.length_bytes (cmsgLenSize os)
  have hdata := le_align m.data.length
  rw [copyPayload, payloadSize_bytes h, dataAt_bytes, if_pos]
  unfold space at hlength
  simp only [List.length_append]
  omega

/-- The two branches and the whole body, as functions of the message. -/
def takeFds (s : Gotten) (m : Message) : Except AncillaryFault Gotten :=
  if m.data.length < 4 then .error .rightsLen
  else
    (fill s.fds (List.replicate (4 * s.nfds) 0)).bind fun zeroed =>
      (fill zeroed m.data).map fun fds =>
        { s with fds := fds, nfds := m.data.length / 4, gotFds := true }

def takeCreds (s : Gotten) (m : Message) : Except AncillaryFault Gotten :=
  (fill s.creds m.data).map fun creds => { s with creds := creds, gotCreds := true }

def takeCmsg (os : Os) (s : Gotten) (m : Message) : Except AncillaryFault Gotten :=
  if m.level ≠ solSocket os then .error .level
  else if m.type = scmRights then takeFds s m
  else if m.type = scmCreds os then takeCreds s m
  else .ok s

theorem getFds_bytes (h : m.Fits (cmsgLenSize os)) (pre post : List UInt8) (s : Gotten) :
    getFds os (pre ++ (m.bytes (cmsgLenSize os) ++ post)) pre.length s = takeFds s m := by
  have hshort : len (cmsgLenSize os) m.data.length < usCmsgLen os 4 ↔ m.data.length < 4 := by
    unfold usCmsgLen len
    omega
  rw [getFds, takeFds, lenAt_bytes h, payloadSize_bytes h]
  simp only [hshort, copyPayload_bytes h]

theorem getCreds_bytes (h : m.Fits (cmsgLenSize os)) (pre post : List UInt8) (s : Gotten) :
    getCreds os (pre ++ (m.bytes (cmsgLenSize os) ++ post)) pre.length s = takeCreds s m := by
  rw [getCreds, takeCreds, copyPayload_bytes h]

theorem getCmsg_reads (h : m.Fits (cmsgLenSize os)) :
    Reads (cmsgLenSize os) (getCmsg os) (takeCmsg os) m := by
  intro pre post s
  rw [getCmsg, takeCmsg, levelAt_bytes h, typeAt_bytes h, getFds_bytes h, getCreds_bytes h]

/-- The walk over the control messages that were put into a buffer takes them one by one. -/
theorem usGetFdsAndCreds_encode {ms : List Message} (hfits : ∀ m ∈ ms, m.Fits (cmsgLenSize os))
    (fds : List UInt8) (nfds : Nat) (creds : List UInt8) :
    usGetFdsAndCreds os (encode (cmsgLenSize os) ms) fds nfds creds =
      match ms.foldlM (takeCmsg os)
        { fds := fds, nfds := nfds, creds := creds, gotFds := false, gotCreds := false } with
      | .error e => .error e
      | .ok s => .ok (if s.gotFds then s else { s with nfds := 0 }) := by
  rw [usGetFdsAndCreds, forEach_encode hfits fun m hm => getCmsg_reads (hfits m hm)]

end Walk

section Bounds

variable {os : Os} {m : Message} {s s' : Gotten}

/-- What the server is prepared for. -/
structure Prepared (os : Os) (m : Message) : Prop where
  level : m.level = solSocket os
  rights : m.type = scmRights → 4 ≤ m.data.length ∧ m.data.length ≤ 4 * protMaxFds
  creds : m.type = scmCreds os → m.data.length ≤ credsRoom os

/-- The arrays of `us_recv` and `handle_reqfd`. -/
structure Gotten.Sized (os : Os) (s : Gotten) : Prop where
  fds : s.fds.length = 4 * protMaxFds
  nfds : s.nfds ≤ protMaxFds
  creds : s.creds.length = credsRoom os

theorem scmRights_ne_scmCreds (os : Os) : scmRights ≠ scmCreds os := by
  cases os <;> decide

theorem fill_ok {dst bytes dst' : List UInt8} (h : fill dst bytes = .ok dst') :
    bytes.length ≤ dst.length ∧ dst'.length = dst.length := by
  unfold fill at h
  split at h
  · cases h
    rename_i hle
    refine ⟨hle, ?_⟩
    simp only [List.length_append, List.length_drop]
    omega
  · cases h

theorem fill_of_le {dst bytes : List UInt8} (h : bytes.length ≤ dst.length) :
    fill dst bytes = .ok (bytes ++ dst.drop bytes.length) :=
  if_pos h

/-- Descriptors are taken if they fit into the array. -/
theorem takeFds_ok (h : takeFds s m = .ok s') :
    4 ≤ m.data.length ∧ m.data.length ≤ s.fds.length ∧ s'.fds.length = s.fds.length ∧
      s'.nfds = m.data.length / 4 ∧ s'.creds = s.creds := by
  unfold takeFds at h
  split at h
  · cases h
  rename_i hlen
  cases hzero : fill s.fds (List.replicate (4 * s.nfds) 0) with
  | error e =>
      rw [hzero] at h
      cases h
  | ok zeroed =>
      rw [hzero] at h
      change (fill zeroed m.data).map _ = _ at h
      cases hcopy : fill zeroed m.data with
      | error e =>
          rw [hcopy] at h
          cases h
      | ok fds =>
          rw [hcopy] at h
          cases h
          have hz := (fill_ok hzero).2
          obtain ⟨hle, hf⟩ := fill_ok hcopy
          exact ⟨Nat.le_of_not_lt hlen, hz ▸ hle, hf.trans hz, rfl, rfl⟩

theorem takeCreds_ok (h : takeCreds s m = .ok s') :
    m.data.length ≤ s.creds.length ∧ s'.creds.length = s.creds.length ∧ s'.fds = s.fds ∧
      s'.nfds = s.nfds := by
  unfold takeCreds at h
  cases hcopy : fill s.creds m.data with
  | error e =>
      rw [hcopy] at h
      cases h
  | ok creds =>
      rw [hcopy] at h
      cases h
      exact ⟨(fill_ok hcopy).1, (fill_ok hcopy).2, rfl, rfl⟩

/-- What a message the walk gets past is, and what it leaves of the sizes. -/
theorem Gotten.Sized.of_takeCmsg (hs : s.Sized os) (h : takeCmsg os s m = .ok s') :
    Prepared os m ∧ s'.Sized os := by
  obtain ⟨hfds, hnfds, hcreds⟩ := hs
  have hne := scmRights_ne_scmCreds os
  unfold takeCmsg at h
  split at h
  · cases h
  rename_i hlevel
  have hlevel := not_not.mp hlevel
  split at h
  · rename_i htype
    obtain ⟨hlow, hhigh, hfds', hnfds', hcreds'⟩ := takeFds_ok h
    refine ⟨⟨hlevel, fun _ => ⟨hlow, hfds ▸ hhigh⟩, fun hc => absurd (htype.symm.trans hc) hne⟩,
      hfds'.trans hfds, ?_, hcreds' ▸ hcreds⟩
    rw [hnfds']
    omega
  rename_i htype
  split at h
  · obtain ⟨hle, hcreds', hfds', hnfds'⟩ := takeCreds_ok h
    exact ⟨⟨hlevel, fun hr => absurd hr htype, fun _ => hcreds ▸ hle⟩, hfds' ▸ hfds,
      hnfds' ▸ hnfds, hcreds'.trans hcreds⟩
  · rename_i htype'
    cases h
    exact ⟨⟨hlevel, fun hr => absurd hr htype, fun hc => absurd hc htype'⟩, hfds, hnfds, hcreds⟩

theorem Gotten.Sized.takeCmsg_returns (hs : s.Sized os) (h : Prepared os m) :
    ∃ s', takeCmsg os s m = .ok s' := by
  obtain ⟨hfds, hnfds, hcreds⟩ := hs
  obtain ⟨hlevel, hrights, hcred⟩ := h
  unfold takeCmsg
  rw [if_neg (not_not.mpr hlevel)]
  by_cases htype : m.type = scmRights
  · obtain ⟨hlow, hhigh⟩ := hrights htype
    have hzeros : (List.replicate (4 * s.nfds) (0 : UInt8)).length ≤ s.fds.length := by
      rw [List.length_replicate]
      omega
    have hzero := fill_of_le hzeros
    have hroom : m.data.length ≤ (List.replicate (4 * s.nfds) (0 : UInt8) ++
        s.fds.drop (List.replicate (4 * s.nfds) (0 : UInt8)).length).length := by
      rw [(fill_ok hzero).2, hfds]
      exact hhigh
    have hcopy := fill_of_le hroom
    rw [if_pos htype, takeFds, if_neg (by omega), hzero]
    exact ⟨_, congrArg (Except.map _) hcopy⟩
  · rw [if_neg htype]
    by_cases htype' : m.type = scmCreds os
    · rw [if_pos htype', takeCreds, fill_of_le (hcreds ▸ hcred htype')]
      exact ⟨_, rfl⟩
    · rw [if_neg htype']
      exact ⟨_, rfl⟩

/-- The walk gets past all messages if and only if the server is prepared for each of them. -/
theorem Gotten.Sized.foldlM_iff (hs : s.Sized os) (ms : List Message) :
    (∃ s', ms.foldlM (takeCmsg os) s = .ok s') ↔ ∀ m ∈ ms, Prepared os m := by
  induction ms generalizing s with
  | nil => exact ⟨fun _ m hm => absurd hm List.not_mem_nil, fun _ => ⟨s, rfl⟩⟩
  | cons m ms ih =>
      rw [List.foldlM_cons, List.forall_mem_cons]
      cases htake : takeCmsg os s m with
      | error e =>
          constructor
          · rintro ⟨s', h⟩
            cases h
          · rintro ⟨hm, -⟩
            obtain ⟨t, ht⟩ := hs.takeCmsg_returns hm
            rw [htake] at ht
            cases ht
      | ok t =>
          obtain ⟨hm, ht⟩ := hs.of_takeCmsg htake
          exact ⟨fun h => ⟨hm, (ih ht).mp h⟩, fun h => (ih ht).mpr h.2⟩

end Bounds

section Delivery

/-- `sizeof cmsg_buf` in `us_recv`. -/
def recvRoom : Os → Nat
  | .linux => usCmsgSpace .linux (4 * protMaxFds) + usCmsgSpace .linux 12
  | .freebsd => usCmsgSpace .freebsd (4 * protMaxFds) + usCmsgSpace .freebsd (24 + 4 * (16 - 1))

def rightsMsg (os : Os) (l : List Fd) : Message := ⟨solSocket os, scmRights, ints l⟩

def credsMsg (os : Os) (c : List UInt8) : Message := ⟨solSocket os, scmCreds os, c⟩

/-- The control messages of a datagram on a socket that passes credentials. -/
def delivery (os : Os) (c : List UInt8) (l : List Fd) : List Message :=
  credsMsg os c :: if l = [] then [] else [rightsMsg os l]

variable {os : Os} {c creds : List UInt8} {l : List Fd} {old : Fd × Fd}

theorem level_lt (os : Os) : solSocket os < 256 ^ 4 := by cases os <;> decide

theorem scmCreds_lt (os : Os) : scmCreds os < 256 ^ 4 := by cases os <;> decide

/-- Data that is not long has a length in any header. -/
theorem len_lt {n : Nat} (h : n ≤ 2 ^ 18) : len (cmsgLenSize os) n < 256 ^ cmsgLenSize os := by
  cases os <;>
    simp only [cmsgLenSize, Cmsg.len, dataOff, hdrSize, align] <;>
    omega

theorem credsMsg_fits (h : c.length ≤ 2 ^ 16) : (credsMsg os c).Fits (cmsgLenSize os) :=
  ⟨len_lt (h.trans (by decide)), level_lt os, scmCreds_lt os⟩

theorem rightsMsg_fits (h : l.length ≤ 2 ^ 16) : (rightsMsg os l).Fits (cmsgLenSize os) := by
  have hright : scmRights < 256 ^ 4 := by decide
  refine ⟨len_lt ?_, level_lt os, hright⟩
  change (ints l).length ≤ 2 ^ 18
  rw [length_ints]
  omega

theorem delivery_fits (hc : c.length ≤ 2 ^ 16) (hl : l.length ≤ 2 ^ 16) :
    ∀ m ∈ delivery os c l, m.Fits (cmsgLenSize os) := by
  intro m hm
  unfold delivery at hm
  split at hm
  · rw [List.mem_singleton] at hm
    exact hm ▸ credsMsg_fits hc
  · rw [List.mem_cons, List.mem_singleton] at hm
    rcases hm with rfl | rfl
    · exact credsMsg_fits hc
    · exact rightsMsg_fits hl

theorem delivery_prepared :
    (∀ m ∈ delivery os c l, Prepared os m) ↔ l.length ≤ protMaxFds ∧ c.length ≤ credsRoom os := by
  have hne := scmRights_ne_scmCreds os
  have hcreds : Prepared os (credsMsg os c) ↔ c.length ≤ credsRoom os :=
    ⟨fun h => h.creds rfl, fun h => ⟨rfl, fun hr => absurd hr.symm hne, fun _ => h⟩⟩
  have hlength := length_ints l
  rw [delivery, List.forall_mem_cons, hcreds]
  by_cases hl : l = []
  · rw [if_pos hl, hl]
    exact ⟨fun h => ⟨Nat.zero_le _, h.1⟩, fun h => ⟨h.2, fun m hm => absurd hm List.not_mem_nil⟩⟩
  · have hpos := List.length_pos_iff.mpr hl
    have hrights : Prepared os (rightsMsg os l) ↔ l.length ≤ protMaxFds := by
      constructor
      · intro h
        have hle : (ints l).length ≤ 4 * protMaxFds := (h.rights rfl).2
        omega
      · intro h
        refine ⟨rfl, fun _ => ?_, fun hc => absurd hc hne⟩
        change 4 ≤ (ints l).length ∧ (ints l).length ≤ 4 * protMaxFds
        omega
    rw [if_neg hl, List.forall_mem_singleton, hrights]
    exact and_comm

/-- What fits into the buffer of `us_recv` is small. -/
theorem lengths_of_room
    (h : (encode (cmsgLenSize os) (delivery os c l)).length ≤ recvRoom os) :
    c.length ≤ 2 ^ 16 ∧ l.length ≤ 2 ^ 16 := by
  have hc := le_align c.length
  have hl := le_align (4 * l.length)
  have hroom : recvRoom os ≤ 128 := by cases os <;> decide
  have hfirst : (credsMsg os c).data.length = c.length := rfl
  rw [delivery, encode_cons, List.length_append, Message.length_bytes, hfirst, space] at h
  by_cases hnil : l = []
  · rw [hnil]
    exact ⟨by omega, Nat.zero_le _⟩
  · have hsecond : (rightsMsg os l).data.length = 4 * l.length := length_ints l
    rw [if_neg hnil, encode_cons, List.length_append, Message.length_bytes, hsecond, space] at h
    exact ⟨by omega, by omega⟩

end Delivery

section Results

variable {os : Os}

/-- With any control messages in its buffer `us_get_fds_and_creds` runs to its end, and writes
to its arrays only, if and only if it is prepared for each of them. -/
theorem usGetFdsAndCreds_ok_iff {fds creds : List UInt8} {nfds : Nat}
    (hfds : fds.length = 4 * protMaxFds) (hnfds : nfds ≤ protMaxFds)
    (hcreds : creds.length = credsRoom os) {ms : List Message}
    (hfits : ∀ m ∈ ms, m.Fits (cmsgLenSize os)) :
    (∃ s, usGetFdsAndCreds os (encode (cmsgLenSize os) ms) fds nfds creds = .ok s) ↔
      ∀ m ∈ ms, Prepared os m := by
  have hsized : Gotten.Sized os
      { fds := fds, nfds := nfds, creds := creds, gotFds := false, gotCreds := false } :=
    ⟨hfds, hnfds, hcreds⟩
  rw [usGetFdsAndCreds_encode hfits, ← hsized.foldlM_iff ms]
  cases ms.foldlM (takeCmsg os)
      { fds := fds, nfds := nfds, creds := creds, gotFds := false, gotCreds := false } with
  | error e =>
      constructor
      · rintro ⟨s, h⟩
        cases h
      · rintro ⟨s, h⟩
        cases h
  | ok s => exact ⟨fun _ => ⟨s, rfl⟩, fun _ => ⟨_, rfl⟩⟩

/-- The array of `handle_reqfd`, after the descriptors of a message were copied into it. -/
theorem fill_rights {a b : Fd} {l : List Fd} (hl : l ≠ []) (hlen : l.length ≤ protMaxFds) :
    (fill (ints [a, b]) (List.replicate (4 * protMaxFds) 0)).bind (fun zeroed =>
        fill zeroed (ints l)) =
      .ok (ints [(recvFds (a, b) l).1, (recvFds (a, b) l).2]) := by
  have hzero : fill (ints [a, b]) (List.replicate (4 * protMaxFds) 0) =
      .ok (List.replicate (4 * protMaxFds) 0) := by
    have hlength : (ints [a, b]).length = 4 * protMaxFds := length_ints [a, b]
    rw [fill_of_le (by rw [List.length_replicate, hlength]), List.length_replicate, ← hlength,
      List.drop_length, List.append_nil]
  rw [hzero]
  change fill (List.replicate 8 0) (ints l) = _
  have hroom : (ints l).length ≤ (List.replicate 8 (0 : UInt8)).length := by
    rw [length_ints, List.length_replicate]
    unfold protMaxFds at hlen
    omega
  rw [fill_of_le hroom, length_ints]
  rcases l with _ | ⟨x, _ | ⟨y, _ | ⟨z, l⟩⟩⟩
  · exact absurd rfl hl
  · have hrest : (List.replicate 8 (0 : UInt8)).drop 4 = ints [0] := by decide
    change Except.ok (ints [x] ++ (List.replicate 8 (0 : UInt8)).drop 4) = .ok (ints [x, 0])
    rw [hrest, ints_cons x [0], ints_cons x []]
    rfl
  · change Except.ok (ints [x, y] ++ (List.replicate 8 (0 : UInt8)).drop 8) = .ok (ints [x, y])
    rw [List.drop_of_length_le (by rw [List.length_replicate]), List.append_nil]
  · simp only [List.length_cons, protMaxFds] at hlen
    omega

theorem takeCmsg_credsMsg (s : Gotten) (c : List UInt8) :
    takeCmsg os s (credsMsg os c) = takeCreds s (credsMsg os c) := by
  have hlevel : (credsMsg os c).level = solSocket os := rfl
  have htype : (credsMsg os c).type = scmCreds os := rfl
  rw [takeCmsg, if_neg (not_not.mpr hlevel), htype, if_neg (scmRights_ne_scmCreds os).symm,
    if_pos rfl]

theorem takeCmsg_rightsMsg (s : Gotten) (l : List Fd) :
    takeCmsg os s (rightsMsg os l) = takeFds s (rightsMsg os l) := by
  have hlevel : (rightsMsg os l).level = solSocket os := rfl
  have htype : (rightsMsg os l).type = scmRights := rfl
  rw [takeCmsg, if_neg (not_not.mpr hlevel), htype, if_pos rfl]

theorem takeCreds_credsMsg {s : Gotten} {c : List UInt8} (h : c.length ≤ s.creds.length) :
    takeCreds s (credsMsg os c) =
      .ok { s with creds := c ++ s.creds.drop c.length, gotCreds := true } := by
  have hfill : fill s.creds (credsMsg os c).data = .ok (c ++ s.creds.drop c.length) :=
    fill_of_le h
  rw [takeCreds, hfill]
  rfl

theorem takeFds_rightsMsg {s : Gotten} {a b : Fd} {l : List Fd} (hfds : s.fds = ints [a, b])
    (hnfds : s.nfds = protMaxFds) (hl : l ≠ []) (hlen : l.length ≤ protMaxFds) :
    takeFds s (rightsMsg os l) = .ok
      { s with
        fds := ints [(recvFds (a, b) l).1, (recvFds (a, b) l).2]
        nfds := l.length
        gotFds := true } := by
  have hpos := List.length_pos_iff.mpr hl
  have hlength : (rightsMsg os l).data.length = 4 * l.length := length_ints l
  have hdata : (rightsMsg os l).data = ints l := rfl
  have hfill := @fill_rights a b l hl hlen
  rw [takeFds, if_neg (by omega), hfds, hnfds, hlength, hdata,
    Nat.mul_div_cancel_left _ (by decide)]
  cases hzero : fill (ints [a, b]) (List.replicate (4 * protMaxFds) 0) with
  | error e =>
      rw [hzero] at hfill
      cases hfill
  | ok zeroed =>
      rw [hzero] at hfill
      exact congrArg (Except.map _) hfill

theorem foldlM_delivery {s : Gotten} {c : List UInt8} {l : List Fd} {a b : Fd}
    (hfds : s.fds = ints [a, b]) (hnfds : s.nfds = protMaxFds) (hc : c.length ≤ s.creds.length)
    (hl : l.length ≤ protMaxFds) :
    (delivery os c l).foldlM (takeCmsg os) s = .ok
      { s with
        fds := ints [(recvFds (a, b) l).1, (recvFds (a, b) l).2]
        nfds := if l = [] then s.nfds else l.length
        creds := c ++ s.creds.drop c.length
        gotFds := if l = [] then s.gotFds else true
        gotCreds := true } := by
  rw [delivery, List.foldlM_cons, takeCmsg_credsMsg, takeCreds_credsMsg hc]
  by_cases hnil : l = []
  · rw [if_pos hnil, if_pos hnil, if_pos hnil, hnil]
    change Except.ok _ = Except.ok _
    rw [hfds]
    rfl
  · rw [if_neg hnil, if_neg hnil, if_neg hnil]
    change [rightsMsg os l].foldlM (takeCmsg os)
      { s with creds := c ++ s.creds.drop c.length, gotCreds := true } = _
    have hrights := @takeFds_rightsMsg os
      { s with creds := c ++ s.creds.drop c.length, gotCreds := true } a b l hfds hnfds hnil hl
    rw [List.foldlM_cons, takeCmsg_rightsMsg, hrights]
    rfl

/-- What the walk makes of a datagram's control messages. -/
theorem usGetFdsAndCreds_delivery {c creds : List UInt8} {l : List Fd} {a b : Fd}
    (hcreds : creds.length = credsRoom os) (hc : c.length ≤ credsRoom os)
    (hl : l.length ≤ protMaxFds) :
    usGetFdsAndCreds os (encode (cmsgLenSize os) (delivery os c l)) (ints [a, b]) protMaxFds
        creds = .ok
      { fds := ints [(recvFds (a, b) l).1, (recvFds (a, b) l).2]
        nfds := l.length
        creds := c ++ creds.drop c.length
        gotFds := decide (l ≠ [])
        gotCreds := true } := by
  have hsmall : credsRoom os ≤ 2 ^ 16 := by cases os <;> decide
  have hl' : l.length ≤ 2 ^ 16 := hl.trans (by decide)
  have hroom : c.length ≤ creds.length := hcreds ▸ hc
  rw [usGetFdsAndCreds_encode (delivery_fits (hc.trans hsmall) hl'),
    foldlM_delivery rfl rfl hroom hl]
  by_cases hnil : l = []
  · subst hnil
    rfl
  · simp [hnil]

/-- The descriptors and the credentials of a datagram arrive as `us_recv` hands them on. -/
theorem delivery_received {c creds : List UInt8} {l : List Fd} {old : Fd × Fd}
    (hcreds : creds.length = credsRoom os) (hc : c.length ≤ credsRoom os)
    (hl : l.length ≤ protMaxFds) (hint : ∀ n ∈ l, IsInt n) (hold : IsInt old.1 ∧ IsInt old.2) :
    ∃ s, usGetFdsAndCreds os (encode (cmsgLenSize os) (delivery os c l))
        (ints [old.1, old.2]) protMaxFds creds = .ok s ∧
      s.gotCreds = true ∧ s.nfds = l.length ∧
      (intAt s.fds 0, intAt s.fds 1) = recvFds old l ∧
      s.creds.take c.length = c := by
  refine ⟨_, usGetFdsAndCreds_delivery hcreds hc hl, rfl, rfl, ?_, List.take_left⟩
  have hzero : IsInt 0 := by
    unfold IsInt
    omega
  have hboth : IsInt (recvFds old l).1 ∧ IsInt (recvFds old l).2 := by
    rcases l with _ | ⟨x, _ | ⟨y, l⟩⟩
    · exact hold
    · exact ⟨hint x List.mem_cons_self, hzero⟩
    · exact ⟨hint x List.mem_cons_self, hint y (List.mem_cons_of_mem x List.mem_cons_self)⟩
  rw [ints_cons, ints_cons]
  exact Prod.ext (@intAt_append _ hboth.1 [] _ 0 rfl)
    (intAt_append hboth.2 _ (length_intBytes _))

theorem delivery_received_of_oneDescriptor :
    ∃ s, usGetFdsAndCreds .freebsd
        (encode (cmsgLenSize .freebsd) (delivery .freebsd (List.replicate 24 7) [5]))
        (ints [3, 4]) protMaxFds (List.replicate (credsRoom .freebsd) 0) = .ok s ∧
      s.gotCreds = true ∧ s.nfds = [(5 : Fd)].length ∧
      (intAt s.fds 0, intAt s.fds 1) = recvFds (3, 4) [5] ∧
      s.creds.take (List.replicate 24 (7 : UInt8)).length = List.replicate 24 7 := by
  have hfive : ∀ n ∈ [(5 : Fd)], IsInt n := by
    intro n hn
    rw [List.mem_singleton.mp hn]
    exact ⟨by decide, by decide⟩
  exact @delivery_received .freebsd (List.replicate 24 7)
    (List.replicate (credsRoom .freebsd) 0) [5] (3, 4) List.length_replicate (by decide)
    (by decide) hfive ⟨⟨by decide, by decide⟩, by decide, by decide⟩

/-- What fits into the buffer of `us_recv` on Linux, behind a `struct ucred`. -/
theorem linux_lengths {c : List UInt8} {l : List Fd} (hc : c.length = 12)
    (hroom : (encode (cmsgLenSize .linux) (delivery .linux c l)).length ≤ recvRoom .linux) :
    l.length ≤ protMaxFds := by
  have hl := le_align (4 * l.length)
  have hfirst : (credsMsg .linux c).data.length = 12 := hc
  have hsizes : space (cmsgLenSize .linux) 12 = 32 ∧ dataOff (cmsgLenSize .linux) = 16 ∧
      recvRoom .linux = 56 := by decide
  by_cases hnil : l = []
  · rw [hnil]
    exact Nat.zero_le _
  · have hsecond : (rightsMsg .linux l).data.length = 4 * l.length := length_ints l
    rw [delivery, encode_cons, List.length_append, Message.length_bytes, hfirst, if_neg hnil,
      encode_cons, List.length_append, Message.length_bytes, hsecond] at hroom
    have hrights : space (cmsgLenSize .linux) (4 * l.length) = 16 + align (4 * l.length) := by
      rw [space, hsizes.2.1]
    unfold protMaxFds
    omega

/-- Within the buffer of `us_recv` the walk goes wrong only where the kernel passes more
descriptors, or longer credentials, than the server has room for.  On Linux the buffer leaves
no room for more. -/
theorem delivery_returns_iff {c fds creds : List UInt8} {l : List Fd}
    (hfds : fds.length = 4 * protMaxFds) (hcreds : creds.length = credsRoom os)
    (hroom : (encode (cmsgLenSize os) (delivery os c l)).length ≤ recvRoom os) :
    ((∃ s, usGetFdsAndCreds os (encode (cmsgLenSize os) (delivery os c l)) fds protMaxFds creds =
        .ok s) ↔ l.length ≤ protMaxFds ∧ c.length ≤ credsRoom os) ∧
      (os = .linux → c.length = 12 →
        l.length ≤ protMaxFds ∧ c.length ≤ credsRoom os) := by
  obtain ⟨hc, hl⟩ := lengths_of_room hroom
  refine ⟨?_, ?_⟩
  · rw [usGetFdsAndCreds_ok_iff hfds (Nat.le_refl _) hcreds (delivery_fits hc hl),
      delivery_prepared]
  · rintro rfl hucred
    exact ⟨linux_lengths hucred hroom, Nat.le_of_eq hucred⟩

theorem delivery_returns_iff_of_twoDescriptors :
    ((∃ s, usGetFdsAndCreds .linux
        (encode (cmsgLenSize .linux) (delivery .linux (List.replicate 12 7) [5, 6]))
        (List.replicate 8 0) protMaxFds (List.replicate 12 0) = .ok s) ↔
          [(5 : Fd), 6].length ≤ protMaxFds ∧
            (List.replicate 12 (7 : UInt8)).length ≤ credsRoom .linux) ∧
      (Os.linux = .linux → (List.replicate 12 (7 : UInt8)).length = 12 →
        [(5 : Fd), 6].length ≤ protMaxFds ∧
          (List.replicate 12 (7 : UInt8)).length ≤ credsRoom .linux) :=
  delivery_returns_iff List.length_replicate List.length_replicate (by decide)

/-! On FreeBSD, where credentials are as long as the list of groups, three descriptors find
room beside those of a client with one group. -/

example :
    let control := encode (cmsgLenSize .freebsd)
      (delivery .freebsd (List.replicate 24 7) [5, 6, 8])
    control.length ≤ recvRoom .freebsd ∧
      usGetFdsAndCreds .freebsd control (List.replicate 8 0) protMaxFds
        (List.replicate (credsRoom .freebsd) 0) = .error .overrun := by
  decide

end Results

end Server

section Client

/-- The control buffer of a message, `msg_controllen`, and the header last written. -/
structure Attaching where
  buf : List UInt8
  controllen : Nat
  last : Option Nat
deriving DecidableEq, Repr

variable (os : Os)

/-- One record is attached; `none` if the buffer has no room for it. -/
def attach (m : Message) (s : Attaching) : Option Attaching :=
  let controllen := s.controllen + usCmsgSpace os m.data.length
  let control := s.buf.take controllen
  (match s.last with
    | none => firsthdr (cmsgLenSize os) control
    | some off => nxthdr (cmsgLenSize os) control off).bind fun off =>
      (put (cmsgLenSize os) s.buf off m).map fun buf => ⟨buf, controllen, some off⟩

/-- `us_attach_fds_and_creds`. -/
def usAttachFdsAndCreds (buf : List UInt8) (fds : List Fd) (creds : Option (List UInt8)) :
    Option Attaching :=
  (if fds = [] then some ⟨buf, 0, none⟩
    else attach os (rightsMsg os fds) ⟨buf, 0, none⟩).bind fun s =>
      match creds with
      | none => some s
      | some c => if c = [] then some s else attach os (credsMsg os c) s

/-- The control data `us_sendv` passes to `sendmsg`; `cred` is the `struct ucred` of the
caller, which goes along on Linux only. -/
def usSendvControl (fds : List Fd) (cred : List UInt8) : Option (List UInt8) :=
  match os with
  | .linux =>
      (usAttachFdsAndCreds .linux
        (List.replicate (usCmsgSpace .linux (4 * protMaxFds) + usCmsgSpace .linux 12) 0)
        fds (some cred)).map fun s => s.buf.take s.controllen
  | .freebsd =>
      (usAttachFdsAndCreds .freebsd
        (List.replicate (usCmsgSpace .freebsd (4 * protMaxFds)) 0)
        fds none).map fun s => s.buf.take s.controllen

variable {os}

theorem attach_first {m : Message} {room : Nat}
    (hroom : space (cmsgLenSize os) m.data.length ≤ room) :
    attach os m ⟨List.replicate room 0, 0, none⟩ = some
      ⟨m.bytes (cmsgLenSize os) ++
          List.replicate (room - space (cmsgLenSize os) m.data.length) 0,
        space (cmsgLenSize os) m.data.length, some 0⟩ := by
  have hput := @put_zeros (cmsgLenSize os) [] m room hroom
  have hfirst : firsthdr (cmsgLenSize os)
      (List.replicate (space (cmsgLenSize os) m.data.length) 0) = some 0 :=
    firsthdr_room _ (Nat.le_add_right _ _)
  have hcontrol : (List.replicate room (0 : UInt8)).take (space (cmsgLenSize os) m.data.length) =
      List.replicate (space (cmsgLenSize os) m.data.length) 0 := by
    rw [List.take_replicate, Nat.min_eq_left hroom]
  rw [List.nil_append, List.nil_append, List.length_nil] at hput
  simp only [attach, Nat.zero_add, usCmsgSpace]
  rw [hcontrol, hfirst, Option.bind_some, hput, Option.map_some]

theorem attach_next {r m : Message} (hr : r.Fits (cmsgLenSize os)) {room : Nat}
    (hroom : space (cmsgLenSize os) m.data.length ≤ room) :
    attach os m ⟨r.bytes (cmsgLenSize os) ++ List.replicate room 0,
        space (cmsgLenSize os) r.data.length, some 0⟩ = some
      ⟨r.bytes (cmsgLenSize os) ++ (m.bytes (cmsgLenSize os) ++
          List.replicate (room - space (cmsgLenSize os) m.data.length) 0),
        space (cmsgLenSize os) r.data.length + space (cmsgLenSize os) m.data.length,
        some (space (cmsgLenSize os) r.data.length)⟩ := by
  have hlength := r.length_bytes (cmsgLenSize os)
  have hput := @put_zeros (cmsgLenSize os) (r.bytes (cmsgLenSize os)) m room hroom
  have hnext := @nxthdr_room (cmsgLenSize os) [] r hr (space (cmsgLenSize os) m.data.length)
    (Nat.le_add_right _ _)
  have hcontrol : (r.bytes (cmsgLenSize os) ++ List.replicate room (0 : UInt8)).take
      (space (cmsgLenSize os) r.data.length + space (cmsgLenSize os) m.data.length) =
      r.bytes (cmsgLenSize os) ++
        List.replicate (space (cmsgLenSize os) m.data.length) 0 := by
    rw [← hlength, List.take_length_add_append, List.take_replicate, Nat.min_eq_left hroom]
  rw [List.nil_append, List.nil_append, List.length_nil, hlength] at hnext
  rw [hlength] at hput
  simp only [attach, usCmsgSpace]
  rw [hcontrol, hnext, Option.bind_some, hput, Option.map_some]

/-- The control messages `us_sendv` passes on. -/
def attached (os : Os) (fds : List Fd) (cred : List UInt8) : List Message :=
  (if fds = [] then [] else [rightsMsg os fds]) ++
    match os with
    | .linux => [credsMsg .linux cred]
    | .freebsd => []

theorem take_first (m : Message) (room : Nat) :
    (m.bytes (cmsgLenSize os) ++ List.replicate room 0).take
        (space (cmsgLenSize os) m.data.length) = encode (cmsgLenSize os) [m] := by
  rw [List.take_left' (m.length_bytes _), encode_cons]
  exact (List.append_nil _).symm

theorem take_next (r m : Message) (room : Nat) :
    (r.bytes (cmsgLenSize os) ++ (m.bytes (cmsgLenSize os) ++ List.replicate room 0)).take
        (space (cmsgLenSize os) r.data.length + space (cmsgLenSize os) m.data.length) =
      encode (cmsgLenSize os) [r, m] := by
  rw [← r.length_bytes (cmsgLenSize os), List.take_length_add_append, take_first, encode_cons _ r]

/-- The buffer of `us_sendv` has room for what it attaches, and nothing else is passed on. -/
theorem usSendvControl_eq {fds : List Fd} {cred : List UInt8} (hfds : fds.length ≤ protMaxFds)
    (hcred : cred.length = 12) :
    usSendvControl os fds cred = some (encode (cmsgLenSize os) (attached os fds cred)) := by
  have hsmall : fds.length ≤ 2 ^ 16 := hfds.trans (by decide)
  have hne : cred ≠ [] := by
    rintro rfl
    cases hcred
  have hrights : (rightsMsg os fds).data.length = 4 * fds.length := length_ints fds
  have hcredsLen : (credsMsg os cred).data.length = 12 := hcred
  have hspace : space (cmsgLenSize os) (4 * fds.length) ≤
      space (cmsgLenSize os) (4 * protMaxFds) := by
    unfold space align
    omega
  cases os with
  | linux =>
      by_cases hnil : fds = []
      · have hroom : space (cmsgLenSize .linux) (credsMsg .linux cred).data.length ≤
            usCmsgSpace .linux (4 * protMaxFds) + usCmsgSpace .linux 12 := by
          rw [hcredsLen]
          exact Nat.le_add_left _ _
        simp only [usSendvControl, usAttachFdsAndCreds, if_pos hnil, if_neg hne,
          Option.bind_some, attach_first hroom, Option.map_some, attached, List.nil_append,
          take_first]
      · have hroom : space (cmsgLenSize .linux) (rightsMsg .linux fds).data.length ≤
            usCmsgSpace .linux (4 * protMaxFds) + usCmsgSpace .linux 12 := by
          rw [hrights]
          exact hspace.trans (Nat.le_add_right _ _)
        have hleft : space (cmsgLenSize .linux) (credsMsg .linux cred).data.length ≤
            usCmsgSpace .linux (4 * protMaxFds) + usCmsgSpace .linux 12 -
              space (cmsgLenSize .linux) (rightsMsg .linux fds).data.length := by
          rw [hrights, hcredsLen]
          unfold usCmsgSpace
          omega
        simp only [usSendvControl, usAttachFdsAndCreds, if_neg hnil, if_neg hne,
          attach_first hroom, Option.bind_some, attach_next (rightsMsg_fits hsmall) hleft,
          Option.map_some, attached, List.cons_append, List.nil_append, take_next]
  | freebsd =>
      by_cases hnil : fds = []
      · simp only [usSendvControl, usAttachFdsAndCreds, if_pos hnil, Option.bind_some,
          Option.map_some, List.take_zero, attached, List.append_nil]
        rfl
      · have hroom : space (cmsgLenSize .freebsd) (rightsMsg .freebsd fds).data.length ≤
            usCmsgSpace .freebsd (4 * protMaxFds) := by
          rw [hrights]
          exact hspace
        simp only [usSendvControl, usAttachFdsAndCreds, if_neg hnil, attach_first hroom,
          Option.bind_some, Option.map_some, attached, List.append_nil, take_first]

theorem usSendvControl_eq_of_twoDescriptors :
    usSendvControl .linux [5, 6] (List.replicate 12 7) =
      some (encode (cmsgLenSize .linux) (attached .linux [5, 6] (List.replicate 12 7))) :=
  usSendvControl_eq (by decide) List.length_replicate

end Client

end Sendfiled
