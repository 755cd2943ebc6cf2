/-
Control messages, as a socket passes them: records that lie one after the other in a buffer,
each with a header that starts with the length of the record, and padded to a multiple of
eight.  A loop over `CMSG_FIRSTHDR` and `CMSG_NXTHDR` visits the records that were put there.
-/
import Sendfiled.Lib.LittleEndian

namespace Cmsg

open LittleEndian

/-- A control message. -/
structure Message where
  level : Nat
  type : Nat
  data : List UInt8
deriving DecidableEq, Repr

/-- The next multiple of eight. -/
def align (n : Nat) : Nat := (n + 7) / 8 * 8

theorem le_align (n : Nat) : n ≤ align n := by
  unfold align
  omega

theorem align_add_align (n m : Nat) : align (align n + m) = align n + align m := by
  unfold align
  omega

/-! The headers of systems differ in the size of `cmsg_len`, which is `w` bytes. -/

variable (w : Nat)

/-- `sizeof(struct cmsghdr)`: the length, the level and the type. -/
def hdrSize : Nat := w + 8

/-- The offset of `CMSG_DATA`. -/
def dataOff : Nat := align (hdrSize w)

/-- `CMSG_LEN`. -/
def len (n : Nat) : Nat := dataOff w + n

/-- `CMSG_SPACE`. -/
def space (n : Nat) : Nat := dataOff w + align n

theorem hdrSize_le_dataOff : hdrSize w ≤ dataOff w := le_align _

theorem align_len (n : Nat) : align (len w n) = space w n :=
  align_add_align _ _

/-- A structure of the header, as it is assigned. -/
def hdr (m : Message) : List UInt8 :=
  toLE w (len w m.data.length) ++ (toLE 4 m.level ++ toLE 4 m.type)

theorem length_hdr (m : Message) : (hdr w m).length = hdrSize w := by
  simp [hdr, hdrSize]

/-- A record. -/
def Message.bytes (m : Message) : List UInt8 :=
  hdr w m ++ (List.replicate (dataOff w - hdrSize w) 0 ++
    (m.data ++ List.replicate (align m.data.length - m.data.length) 0))

theorem Message.length_bytes (m : Message) : (m.bytes w).length = space w m.data.length := by
  have hhdr := hdrSize_le_dataOff w
  have hdata := le_align m.data.length
  simp only [bytes, List.length_append, length_hdr, List.length_replicate, space]
  omega

/-- The records of some messages. -/
def encode (ms : List Message) : List UInt8 := ms.flatMap (Message.bytes w)

theorem encode_cons (m : Message) (ms : List Message) :
    encode w (m :: ms) = m.bytes w ++ encode w ms :=
  List.flatMap_cons

/-- The fields of the header of a message fit into it. -/
structure Message.Fits (m : Message) : Prop where
  len : Cmsg.len w m.data.length < 256 ^ w
  level : m.level < 256 ^ 4
  type : m.type < 256 ^ 4

section Access

/-- A number in a buffer. -/
def field (control : List UInt8) (off n : Nat) : Nat := ofLE ((control.drop off).take n)

def lenAt (control : List UInt8) (off : Nat) : Nat := field control off w

def levelAt (control : List UInt8) (off : Nat) : Nat := field control (off + w) 4

def typeAt (control : List UInt8) (off : Nat) : Nat := field control (off + w + 4) 4

/-- The first `n` bytes of the data. -/
def dataAt (control : List UInt8) (off n : Nat) : List UInt8 :=
  (control.drop (off + dataOff w)).take n

/-- `CMSG_FIRSTHDR`; `none` stands for the null pointer. -/
def firsthdr (control : List UInt8) : Option Nat :=
  if control.length < hdrSize w then none else some 0

/-- `CMSG_NXTHDR`. -/
def nxthdr (control : List UInt8) (off : Nat) : Option Nat :=
  if lenAt w control off < hdrSize w ∨
      control.length < off + align (lenAt w control off) + dataOff w then none
  else some (off + align (lenAt w control off))

/-- What is found behind some bytes. -/
theorem field_append {pre rest : List UInt8} {n v : Nat} (hv : v < 256 ^ n) :
    field (pre ++ (toLE n v ++ rest)) pre.length n = v := by
  rw [field, List.drop_left, List.take_left' (length_toLE n v), ofLE_toLE, Nat.mod_eq_of_lt hv]

variable {w} {m : Message} {pre post : List UInt8}

theorem lenAt_bytes (h : m.Fits w) :
    lenAt w (pre ++ (m.bytes w ++ post)) pre.length = len w m.data.length := by
  rw [lenAt, Message.bytes, hdr, List.append_assoc, List.append_assoc]
  exact field_append h.len

theorem levelAt_bytes (h : m.Fits w) :
    levelAt w (pre ++ (m.bytes w ++ post)) pre.length = m.level := by
  have hpre : pre.length + w = (pre ++ toLE w (len w m.data.length)).length := by simp
  rw [levelAt, hpre, Message.bytes, hdr]
  simp only [List.append_assoc]
  rw [← List.append_assoc pre]
  exact field_append h.level

theorem typeAt_bytes (h : m.Fits w) :
    typeAt w (pre ++ (m.bytes w ++ post)) pre.length = m.type := by
  have hpre : pre.length + w + 4 =
      (pre ++ (toLE w (len w m.data.length) ++ toLE 4 m.level)).length := by
    simp [Nat.add_assoc]
  rw [typeAt, hpre, Message.bytes, hdr]
  simp only [List.append_assoc]
  rw [← List.append_assoc (toLE w _), ← List.append_assoc pre]
  exact field_append h.type

theorem dataAt_bytes :
    dataAt w (pre ++ (m.bytes w ++ post)) pre.length m.data.length = m.data := by
  have hpre : pre.length + dataOff w =
      (pre ++ (hdr w m ++ List.replicate (dataOff w - hdrSize w) 0)).length := by
    have hle := hdrSize_le_dataOff w
    simp only [List.length_append, length_hdr, List.length_replicate]
    omega
  have hsplit : pre ++ (m.bytes w ++ post) =
      (pre ++ (hdr w m ++ List.replicate (dataOff w - hdrSize w) 0)) ++
        (m.data ++ (List.replicate (align m.data.length - m.data.length) 0 ++ post)) := by
    simp only [Message.bytes, List.append_assoc]
  rw [dataAt, hpre, hsplit, List.drop_left, List.take_left]

end Access

section Writing

/-- Bytes are copied into a buffer; `none` if it has no room for them there. -/
def store (buf : List UInt8) (off : Nat) (bytes : List UInt8) : Option (List UInt8) :=
  if off + bytes.length ≤ buf.length then
    some (buf.take off ++ (bytes ++ buf.drop (off + bytes.length)))
  else none

theorem store_append {pre old post bytes : List UInt8} (h : old.length = bytes.length) :
    store (pre ++ (old ++ post)) pre.length bytes = some (pre ++ (bytes ++ post)) := by
  have hdrop : (pre ++ (old ++ post)).drop (pre.length + bytes.length) = post := by
    rw [← h, ← List.append_assoc, ← List.length_append, List.drop_left]
  rw [store, if_pos (by simp [h]), List.take_left, hdrop]

/-- The header is assigned and the data copied behind it. -/
def put (buf : List UInt8) (off : Nat) (m : Message) : Option (List UInt8) :=
  (store buf off (hdr w m)).bind fun buf' => store buf' (off + dataOff w) m.data

/-- In a part of the buffer that is zero this makes a record. -/
theorem put_zeros {pre : List UInt8} {m : Message} {room : Nat}
    (hroom : space w m.data.length ≤ room) :
    put w (pre ++ List.replicate room 0) pre.length m =
      some (pre ++ (m.bytes w ++ List.replicate (room - space w m.data.length) 0)) := by
  have hhdr := hdrSize_le_dataOff w
  have hdata := le_align m.data.length
  -- the header, the bytes before the data, the data, and what is left
  have hzeros : List.replicate room (0 : UInt8) = List.replicate (hdrSize w) 0 ++
      (List.replicate (dataOff w - hdrSize w) 0 ++ (List.replicate m.data.length 0 ++
        (List.replicate (align m.data.length - m.data.length) 0 ++
          List.replicate (room - space w m.data.length) 0))) := by
    simp only [List.replicate_append_replicate]
    unfold space at hroom ⊢
    congr 1
    omega
  have hfirst : store (pre ++ List.replicate room 0) pre.length (hdr w m) = some (pre ++ (hdr w m ++
      (List.replicate (dataOff w - hdrSize w) 0 ++ (List.replicate m.data.length 0 ++
        (List.replicate (align m.data.length - m.data.length) 0 ++
          List.replicate (room - space w m.data.length) 0))))) := by
    rw [hzeros]
    exact store_append (by rw [List.length_replicate, length_hdr])
  have hoff : pre.length + dataOff w =
      (pre ++ (hdr w m ++ List.replicate (dataOff w - hdrSize w) 0)).length := by
    simp only [List.length_append, length_hdr, List.length_replicate]
    omega
  rw [put, hfirst, Option.bind_some, hoff]
  have hsplit : ∀ data post : List UInt8, pre ++ (hdr w m ++
      (List.replicate (dataOff w - hdrSize w) 0 ++ (data ++ post))) =
      (pre ++ (hdr w m ++ List.replicate (dataOff w - hdrSize w) 0)) ++ (data ++ post) := by
    intro data post
    simp only [List.append_assoc]
  rw [hsplit, store_append (by rw [List.length_replicate]), ← hsplit, Message.bytes]
  simp only [List.append_assoc]

/-- Behind the last record of a buffer there is room for the next. -/
theorem nxthdr_room {pre : List UInt8} {m : Message} (h : m.Fits w) {room : Nat}
    (hroom : dataOff w ≤ room) :
    nxthdr w (pre ++ (m.bytes w ++ List.replicate room 0)) pre.length =
      some (pre ++ m.bytes w).length := by
  have hhdr := hdrSize_le_dataOff w
  have hspace := m.length_bytes w
  unfold nxthdr
  rw [lenAt_bytes h, align_len, ← hspace, if_neg, List.length_append]
  simp only [len, List.length_append, List.length_replicate]
  omega

theorem firsthdr_room {room : Nat} (hroom : dataOff w ≤ room) :
    firsthdr w (List.replicate room 0) = some 0 := by
  have hhdr := hdrSize_le_dataOff w
  rw [firsthdr, List.length_replicate, if_neg (by omega)]

end Writing

section Loop

variable {ε σ : Type} (control : List UInt8) (body : Nat → σ → Except ε σ)

/-- The loop over the headers, from the one at an offset on.  A header is never behind the one
before, so the size of the buffer bounds the number of rounds. -/
def loop : Nat → Option Nat → σ → Except ε σ
  | _, none, s => .ok s
  | 0, some _, s => .ok s
  | fuel + 1, some off, s =>
      match body off s with
      | .error e => .error e
      | .ok s' => loop fuel (nxthdr w control off) s'

/-- `for (cmsg = CMSG_FIRSTHDR(msg); cmsg != NULL; cmsg = CMSG_NXTHDR(msg, cmsg))`. -/
def forEach (s : σ) : Except ε σ := loop w control body control.length (firsthdr w control) s

variable {w control body}

/-- What the body does at the record of a message. -/
def Reads (w : Nat) (body : List UInt8 → Nat → σ → Except ε σ) (step : σ → Message → Except ε σ)
    (m : Message) : Prop :=
  ∀ pre post s, body (pre ++ (m.bytes w ++ post)) pre.length s = step s m

theorem nxthdr_encode {m : Message} (h : m.Fits w) (pre : List UInt8) (ms : List Message) :
    nxthdr w (pre ++ (m.bytes w ++ encode w ms)) pre.length =
      if ms = [] then none else some (pre ++ m.bytes w).length := by
  have hlen := hdrSize_le_dataOff w
  have hspace := m.length_bytes w
  unfold nxthdr
  rw [lenAt_bytes h, align_len, ← hspace]
  have hle : ¬ len w m.data.length < hdrSize w := by
    unfold len
    omega
  cases ms with
  | nil =>
      rw [if_pos, if_pos rfl]
      right
      have hpos : 0 < hdrSize w := Nat.succ_pos _
      simp only [encode, List.flatMap_nil, List.append_nil, List.length_append]
      omega
  | cons m' ms =>
      have hmore : dataOff w ≤ (encode w (m' :: ms)).length := by
        rw [encode_cons, List.length_append, Message.length_bytes, space]
        omega
      rw [if_neg, if_neg (List.cons_ne_nil m' ms), List.length_append]
      simp only [not_or, List.length_append]
      omega

theorem loop_encode {body : List UInt8 → Nat → σ → Except ε σ}
    {step : σ → Message → Except ε σ} {ms : List Message} (hfits : ∀ m ∈ ms, m.Fits w)
    (hreads : ∀ m ∈ ms, Reads w body step m) (hne : ms ≠ []) (pre : List UInt8) {fuel : Nat}
    (hfuel : ms.length ≤ fuel) (s : σ) :
    loop w (pre ++ encode w ms) (body (pre ++ encode w ms)) fuel (some pre.length) s =
      ms.foldlM step s := by
  induction ms generalizing pre fuel s with
  | nil => exact absurd rfl hne
  | cons m ms ih =>
      cases fuel with
      | zero => simp at hfuel
      | succ fuel =>
          have hm := hfits m List.mem_cons_self
          rw [encode_cons, loop, hreads m List.mem_cons_self pre (encode w ms) s, List.foldlM_cons,
            nxthdr_encode hm]
          cases step s m with
          | error e => rfl
          | ok s' =>
              by_cases hms : ms = []
              · subst hms
                cases fuel <;> rfl
              · have hrest := ih (fun m' hm' => hfits m' (List.mem_cons_of_mem m hm'))
                  (fun m' hm' => hreads m' (List.mem_cons_of_mem m hm')) hms (pre ++ m.bytes w)
                  (Nat.le_of_succ_le_succ hfuel) s'
                rw [List.append_assoc] at hrest
                simp only [if_neg hms]
                exact hrest

theorem length_le_encode (ms : List Message) : ms.length ≤ (encode w ms).length := by
  induction ms with
  | nil => exact Nat.le_refl _
  | cons m ms ih =>
      have hpos : 0 < dataOff w :=
        Nat.lt_of_lt_of_le (show 0 < hdrSize w from Nat.succ_pos _) (hdrSize_le_dataOff w)
      rw [encode_cons, List.length_append, Message.length_bytes, space, List.length_cons]
      omega

/-- The loop over a buffer does what its body does for each of the messages that were put into
it, in their order. -/
theorem forEach_encode {body : List UInt8 → Nat → σ → Except ε σ}
    {step : σ → Message → Except ε σ} {ms : List Message} (hfits : ∀ m ∈ ms, m.Fits w)
    (hreads : ∀ m ∈ ms, Reads w body step m) (s : σ) :
    forEach w (encode w ms) (body (encode w ms)) s = ms.foldlM step s := by
  by_cases hms : ms = []
  · subst hms
    rfl
  · obtain ⟨m, rest, rfl⟩ := List.exists_cons_of_ne_nil hms
    have hfirst : firsthdr w (encode w (m :: rest)) = some 0 := by
      have hlen := hdrSize_le_dataOff w
      rw [firsthdr, encode_cons, List.length_append, Message.length_bytes, space, if_neg (by omega)]
    rw [forEach, hfirst]
    exact loop_encode hfits hreads hms [] (length_le_encode _) s

end Loop

end Cmsg
