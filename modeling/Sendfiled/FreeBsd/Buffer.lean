/-
The buffer of `file_splice` (file_io_userspace_splice.c) at the level of its memory:
`capacity` allocated bytes, two pointers into them, and the calls of `read` and `write`
that are handed parts of it.
-/
import Sendfiled.FreeBsd.Splice

namespace Sendfiled.FreeBsd

open Prog Transition

/-- `struct fio_ctx`, with the pointers as distances from `data`. -/
structure FioBuffer (β : Type) where
  data : List β
  capacity : Nat
  rp : Nat
  wp : Nat
deriving DecidableEq

namespace FioBuffer

variable {β : Type}

/-- The source's name for the room behind `wp`, as an unsigned difference. -/
def nunwritten (b : FioBuffer β) : Nat := (b.capacity + 2 ^ 64 - b.wp) % 2 ^ 64

/-- What `[rp, wp)` holds. -/
def buffered (b : FioBuffer β) : List β := (b.data.drop b.rp).take (b.wp - b.rp)

/-- Bytes stored from a place of the memory on. -/
def store (b : FioBuffer β) (p : Nat) (bytes : List β) : FioBuffer β :=
  { b with data := b.data.take p ++ bytes ++ b.data.drop (p + bytes.length) }

end FioBuffer

/-- What stops a call of `file_splice`: its first assertion, or memory outside the buffer
that is handed to the kernel. -/
inductive SpliceFault where
  | nbytes
  | outside
deriving DecidableEq, Repr

/-- The buffer, everything read into it and everything written from it. -/
structure Flow (β : Type) where
  buf : FioBuffer β
  input : List β
  output : List β
deriving DecidableEq

namespace Flow

variable {β : Type}

abbrev B (β : Type) := Program SpliceFault (Flow β)

/-- `read` into the memory at `p`: any bytes, not more than asked for. -/
def read (answer : Except Errno (List β)) (p size : Nat) : B β (Except Errno Nat) := do
  let buf ← gets Flow.buf
  check (p + size ≤ buf.data.length) .outside
  match answer with
  | .error e => pure (.error e)
  | .ok bytes =>
      modify fun s => { s with
        buf := s.buf.store p (bytes.take size)
        input := s.input ++ bytes.take size }
      pure (.ok (bytes.take size).length)

/-- `write` of the memory at `p`: any number of bytes, not more than offered. -/
def write (answer : Except Errno Nat) (p size : Nat) : B β (Except Errno Nat) := do
  let buf ← gets Flow.buf
  check (p + size ≤ buf.data.length) .outside
  match answer with
  | .error e => pure (.error e)
  | .ok n =>
      modify fun s => { s with output := s.output ++ (s.buf.data.drop p).take (min n size) }
      pure (.ok (min n size))

def onBuffer (f : FioBuffer β → FioBuffer β) : B β Unit :=
  modify fun s => { s with buf := f s.buf }

/-- `file_splice` from its second `if` on.  What `write` returns is never below -1, which
is all its assertion asks. -/
def spliceOut (written : Except Errno Nat) : B β (Except Errno Nat) := do
  let buf ← gets Flow.buf
  if buf.rp < buf.wp then
    match ← write written buf.rp (buf.wp - buf.rp) with
    | .error e => pure (.error e)
    | .ok nwritten =>
        if 0 < nwritten then
          onBuffer fun b =>
            if b.rp + nwritten = b.wp then { b with rp := 0, wp := 0 }
            else { b with rp := b.rp + nwritten }
          pure (.ok nwritten)
        else pure (.ok 0)
  else pure (.ok 0)

/-- `file_splice`, with the results of the two system calls it may make. -/
def fileSplice (nbytes : Nat) (read : Except Errno (List β)) (written : Except Errno Nat) :
    B β (Except Errno Nat) := do
  check (0 < nbytes) .nbytes
  let buf ← gets Flow.buf
  if 0 < buf.nunwritten then
    match ← Flow.read read buf.wp (min nbytes buf.nunwritten) with
    | .error e => pure (.error e)
    | .ok nread =>
        if nread = 0 then pure (.ok 0)
        else do
          onBuffer fun b => { b with wp := b.wp + nread }
          spliceOut written
  else spliceOut written

/-- The pointers are in order, inside the allocated bytes, and the buffer holds exactly
what was read and not yet written. -/
structure InOrder (s : Flow β) : Prop where
  allocated : s.buf.data.length = s.buf.capacity
  capacity_lt : s.buf.capacity < 2 ^ 64
  rp_le : s.buf.rp ≤ s.buf.wp
  wp_le : s.buf.wp ≤ s.buf.capacity
  fifo : s.output ++ s.buf.buffered = s.input

end Flow

namespace FioBuffer

variable {β : Type} {b : FioBuffer β} {bytes : List β}

/-- Storing inside the allocated bytes keeps their number. -/
theorem length_store {p : Nat} (h : p + bytes.length ≤ b.data.length) :
    (b.store p bytes).data.length = b.data.length := by
  simp only [store, List.length_append, List.length_take, List.length_drop]
  omega

theorem store_nil (b : FioBuffer β) (p : Nat) : b.store p [] = b := by
  simp [store]

/-- What is stored behind `wp` leaves everything below it as it was. -/
theorem take_store {p : Nat} (h : p ≤ b.data.length) :
    (b.store p bytes).data.take (p + bytes.length) = b.data.take p ++ bytes := by
  have hlen : (b.data.take p ++ bytes).length = p + bytes.length := by
    rw [List.length_append, List.length_take, Nat.min_eq_left h]
  rw [store, ← hlen, List.take_left']
  rfl

theorem buffered_eq (b : FioBuffer β) : b.buffered = (b.data.take b.wp).drop b.rp := by
  rw [buffered, List.drop_take]

theorem length_buffered (h : b.wp ≤ b.data.length) : b.buffered.length = b.wp - b.rp := by
  rw [buffered_eq, List.length_drop, List.length_take, Nat.min_eq_left h]

/-- Bytes read at `wp` join the queue at its end. -/
theorem buffered_store (hrp : b.rp ≤ b.wp) (hwp : b.wp ≤ b.data.length) :
    ({ b.store b.wp bytes with wp := b.wp + bytes.length } : FioBuffer β).buffered =
      b.buffered ++ bytes := by
  rw [buffered_eq, buffered_eq]
  change ((b.store b.wp bytes).data.take (b.wp + bytes.length)).drop b.rp = _
  have hle : b.rp ≤ (b.data.take b.wp).length := by
    rw [List.length_take, Nat.min_eq_left hwp]
    exact hrp
  rw [take_store hwp, List.drop_append_of_le_length hle]

/-- What is written from `rp` on leaves the queue at its front. -/
theorem take_buffered {n : Nat} (h : n ≤ b.wp - b.rp) :
    (b.data.drop b.rp).take n = b.buffered.take n := by
  rw [buffered, List.take_take, Nat.min_eq_left h]

theorem buffered_advance (n : Nat) :
    ({ b with rp := b.rp + n } : FioBuffer β).buffered = b.buffered.drop n := by
  rw [buffered_eq, buffered_eq, List.drop_drop]

end FioBuffer

namespace Flow

variable {β : Type} {s : Flow β}

/-- `read` inside the buffer. -/
theorem wp_read {answer : Except Errno (List β)} {p size : Nat}
    {Q : Except Errno Nat → Flow β → Prop} {E : SpliceFault → Flow β → Prop}
    (hinside : p + size ≤ s.buf.data.length) (herror : ∀ e, answer = .error e → Q (.error e) s)
    (hok : ∀ bytes, answer = .ok bytes → Q (.ok (bytes.take size).length)
      { s with buf := s.buf.store p (bytes.take size), input := s.input ++ bytes.take size }) :
    Prog.wp (read answer p size) Q E s := by
  unfold read
  simp only [wp_bind, wp_gets, wp_check]
  refine ⟨fun _ => ?_, fun hnot => absurd hinside hnot⟩
  cases answer with
  | error e => exact herror e rfl
  | ok bytes => exact hok bytes rfl

/-- `write` inside the buffer. -/
theorem wp_write {answer : Except Errno Nat} {p size : Nat}
    {Q : Except Errno Nat → Flow β → Prop} {E : SpliceFault → Flow β → Prop}
    (hinside : p + size ≤ s.buf.data.length) (herror : ∀ e, answer = .error e → Q (.error e) s)
    (hok : ∀ n, answer = .ok n → Q (.ok (min n size))
      { s with output := s.output ++ (s.buf.data.drop p).take (min n size) }) :
    Prog.wp (write answer p size) Q E s := by
  unfold write
  simp only [wp_bind, wp_gets, wp_check]
  refine ⟨fun _ => ?_, fun hnot => absurd hinside hnot⟩
  cases answer with
  | error e => exact herror e rfl
  | ok n => exact hok n rfl

/-- The buffer after `n` of its bytes were written. -/
def delivered (s : Flow β) (n : Nat) : Flow β where
  buf :=
    if s.buf.rp + n = s.buf.wp then { s.buf with rp := 0, wp := 0 }
    else { s.buf with rp := s.buf.rp + n }
  input := s.input
  output := s.output ++ (s.buf.data.drop s.buf.rp).take n

@[simp] theorem capacity_delivered (s : Flow β) (n : Nat) :
    (s.delivered n).buf.capacity = s.buf.capacity := by
  unfold delivered
  split <;> rfl

theorem InOrder.delivered (h : InOrder s) {n : Nat} (hle : n ≤ s.buf.wp - s.buf.rp) :
    InOrder (s.delivered n) := by
  have hwp : s.buf.wp ≤ s.buf.data.length := by
    rw [h.allocated]
    exact h.wp_le
  have hlen := FioBuffer.length_buffered hwp
  unfold Flow.delivered
  rw [FioBuffer.take_buffered hle]
  split
  · -- the pointers meet only when everything buffered was written
    rename_i hmeet
    refine ⟨h.allocated, h.capacity_lt, Nat.le_refl 0, Nat.zero_le _, ?_⟩
    have hall : s.buf.buffered.take n = s.buf.buffered := List.take_of_length_le (by omega)
    change (s.output ++ s.buf.buffered.take n) ++ [] = s.input
    rw [hall, List.append_nil, h.fifo]
  · have hrp := h.rp_le
    refine ⟨h.allocated, h.capacity_lt, ?_, h.wp_le, ?_⟩
    · change s.buf.rp + n ≤ s.buf.wp
      omega
    · rw [FioBuffer.buffered_advance]
      change (s.output ++ s.buf.buffered.take n) ++ s.buf.buffered.drop n = s.input
      rw [List.append_assoc, List.take_append_drop, h.fifo]

/-- Writing from a buffer in order leaves it in order. -/
theorem wp_spliceOut (h : InOrder s) (written : Except Errno Nat) :
    Prog.wp (spliceOut written) (fun _ s' => InOrder s' ∧ s'.buf.capacity = s.buf.capacity)
      (fun _ _ => False) s := by
  unfold spliceOut
  simp only [wp_bind, wp_gets]
  rw [wp_ite]
  refine ⟨fun hlt => ?_, fun _ => ⟨h, rfl⟩⟩
  have hinside : s.buf.rp + (s.buf.wp - s.buf.rp) ≤ s.buf.data.length := by
    have h₁ := h.allocated
    have h₂ := h.wp_le
    omega
  rw [wp_bind]
  refine wp_write hinside (fun e _ => ⟨h, rfl⟩) fun answer _ => ?_
  generalize hn : min answer (s.buf.wp - s.buf.rp) = n
  have hle : n ≤ s.buf.wp - s.buf.rp := by omega
  rw [wp_ite]
  refine ⟨fun _ => ?_, fun hnot => ?_⟩
  · simp only [onBuffer, wp_bind, wp_modify, wp_pure]
    exact ⟨h.delivered hle, capacity_delivered s n⟩
  · have hzero : n = 0 := by omega
    rw [hzero, List.take_zero, List.append_nil]
    exact ⟨h, rfl⟩

/-- Bytes read at `wp`, with `wp` moved behind them. -/
def received (s : Flow β) (bytes : List β) : Flow β where
  buf := { s.buf.store s.buf.wp bytes with wp := s.buf.wp + bytes.length }
  input := s.input ++ bytes
  output := s.output

theorem InOrder.received (h : InOrder s) {bytes : List β}
    (hroom : s.buf.wp + bytes.length ≤ s.buf.capacity) : InOrder (s.received bytes) := by
  have hwp : s.buf.wp ≤ s.buf.data.length := by
    rw [h.allocated]
    exact h.wp_le
  refine ⟨?_, h.capacity_lt, ?_, hroom, ?_⟩
  · change (s.buf.store s.buf.wp bytes).data.length = s.buf.capacity
    rw [FioBuffer.length_store (by rw [h.allocated]; exact hroom), h.allocated]
  · exact Nat.le_trans h.rp_le (Nat.le_add_right _ _)
  · change s.output ++ ({ s.buf.store s.buf.wp bytes with
      wp := s.buf.wp + bytes.length } : FioBuffer β).buffered = s.input ++ bytes
    rw [FioBuffer.buffered_store h.rp_le hwp, ← List.append_assoc, h.fifo]

theorem InOrder.nunwritten (h : InOrder s) :
    s.buf.nunwritten = s.buf.capacity - s.buf.wp := by
  unfold FioBuffer.nunwritten
  have h₁ := h.wp_le
  have h₂ := h.capacity_lt
  omega

/-- The ways through a call of `file_splice` on a buffer in order. -/
theorem wp_fileSplice (h : InOrder s) {nbytes : Nat} (hpos : 0 < nbytes)
    {rd : Except Errno (List β)} {written : Except Errno Nat}
    {Q : Except Errno Nat → Flow β → Prop} {E : SpliceFault → Flow β → Prop}
    (hfull : ¬ 0 < s.buf.nunwritten → Prog.wp (spliceOut written) Q E s)
    (herror : 0 < s.buf.nunwritten → ∀ e, rd = .error e → Q (.error e) s)
    (hnone : 0 < s.buf.nunwritten → ∀ bytes, rd = .ok bytes →
      bytes.take (min nbytes s.buf.nunwritten) = [] → Q (.ok 0) s)
    (hsome : 0 < s.buf.nunwritten → ∀ bytes, rd = .ok bytes →
      bytes.take (min nbytes s.buf.nunwritten) ≠ [] →
      Prog.wp (spliceOut written) Q E (s.received (bytes.take (min nbytes s.buf.nunwritten)))) :
    Prog.wp (fileSplice nbytes rd written) Q E s := by
  have hinside : s.buf.wp + min nbytes s.buf.nunwritten ≤ s.buf.data.length := by
    have h₁ := h.allocated
    have h₂ := h.wp_le
    have h₃ := h.nunwritten
    omega
  unfold fileSplice
  rw [wp_bind, wp_check]
  refine ⟨fun _ => ?_, fun hnot => absurd hpos hnot⟩
  rw [wp_bind, wp_gets, wp_ite]
  refine ⟨fun hroom => ?_, hfull⟩
  rw [wp_bind]
  refine wp_read hinside (herror hroom) fun bytes hbytes => ?_
  rw [wp_ite]
  refine ⟨fun hzero => ?_, fun hne => ?_⟩
  · have hnil := List.length_eq_zero_iff.mp hzero
    rw [hnil, FioBuffer.store_nil, List.append_nil]
    exact hnone hroom bytes hbytes hnil
  · simp only [onBuffer, wp_bind, wp_modify]
    exact hsome hroom bytes hbytes fun hnil => hne (by rw [hnil, List.length_nil])

/-- The room behind `wp` is enough for what a call reads. -/
theorem InOrder.room (h : InOrder s) (bytes : List β) (hlen : bytes.length ≤ s.buf.nunwritten) :
    s.buf.wp + bytes.length ≤ s.buf.capacity := by
  have h₁ := h.nunwritten
  have h₂ := h.wp_le
  omega

/-- One call of `file_splice`, whatever the two system calls return. -/
theorem InOrder.fileSplice (h : InOrder s) {nbytes : Nat} (hpos : 0 < nbytes)
    (rd : Except Errno (List β)) (written : Except Errno Nat) :
    Prog.wp (Flow.fileSplice nbytes rd written)
      (fun _ s' => InOrder s' ∧ s'.buf.capacity = s.buf.capacity) (fun _ _ => False) s := by
  refine wp_fileSplice h hpos (fun _ => wp_spliceOut h written) (fun _ e _ => ⟨h, rfl⟩)
    (fun _ bytes _ _ => ⟨h, rfl⟩) fun _ bytes _ _ => ?_
  refine wp_spliceOut (h.received (h.room _ ?_)) written
  rw [List.length_take]
  omega

/-- One call: the bytes asked for and what `read` and `write` return. -/
structure SpliceCall (β : Type) where
  nbytes : Nat
  read : Except Errno (List β)
  written : Except Errno Nat

/-- The calls of `file_splice` on a buffer made by `fio_ctx_new`, whose memory may hold
anything at first. -/
def splices (β : Type) (capacity : Nat) : System SpliceFault (Flow β) (SpliceCall β) where
  init s := s.buf.data.length = capacity ∧ s.buf.capacity = capacity ∧ s.buf.rp = 0 ∧
    s.buf.wp = 0 ∧ s.input = [] ∧ s.output = []
  next c s :=
    match fileSplice c.nbytes c.read c.written s with
    | .done _ s' => some (.ok s')
    | .fault f _ => some (.error f)

/-- The calls `transfer_file` makes. -/
def Asks : SpliceCall β → Flow β → Prop := fun c _ => 0 < c.nbytes

theorem InOrder.next (h : InOrder s) (capacity : Nat) {c : SpliceCall β} (hc : 0 < c.nbytes) :
    ∃ s', (splices β capacity).next c s = some (.ok s') ∧ InOrder s' ∧
      s'.buf.capacity = s.buf.capacity := by
  have hstep := h.fileSplice hc c.read c.written
  unfold Prog.wp at hstep
  simp only [splices]
  cases hrun : Flow.fileSplice c.nbytes c.read c.written s with
  | done r s' =>
      rw [hrun] at hstep
      exact ⟨s', rfl, hstep⟩
  | fault f s' =>
      rw [hrun] at hstep
      exact absurd hstep id

theorem reachable_inOrder {capacity : Nat} (hcap : capacity < 2 ^ 64)
    (h : (splices β capacity).Reachable Asks s) : InOrder s ∧ s.buf.capacity = capacity := by
  refine h.invariant (I := fun s => InOrder s ∧ s.buf.capacity = capacity) ?_ ?_
  · rintro s ⟨hlen, hc, hrp, hwp, hin, hout⟩
    refine ⟨⟨hlen.trans hc.symm, by omega, by omega, by omega, ?_⟩, hc⟩
    rw [hin, hout, FioBuffer.buffered, hrp, hwp]
    rfl
  · rintro c s s' ⟨horder, hc⟩ hasks hnext
    obtain ⟨s'', hs'', horder', hc'⟩ := horder.next capacity hasks
    rw [hnext] at hs''
    cases hs''
    exact ⟨horder', hc'.trans hc⟩

/-- The buffer is a queue: along any calls, whatever `read` and `write` return, the
pointers stay in order inside the buffer, no call reaches outside it, and what was
written followed by what is buffered is what was read. -/
theorem splice_fifo {capacity : Nat} (hcap : capacity < 2 ^ 64)
    (h : (splices β capacity).Reachable Asks s) :
    0 ≤ s.buf.rp ∧ s.buf.rp ≤ s.buf.wp ∧ s.buf.wp ≤ capacity ∧
      s.buf.data.length = capacity ∧
      s.output ++ (s.buf.data.drop s.buf.rp).take (s.buf.wp - s.buf.rp) = s.input ∧
      ∀ c : SpliceCall β, 0 < c.nbytes → ∃ s', (splices β capacity).next c s = some (.ok s') := by
  obtain ⟨horder, hc⟩ := reachable_inOrder hcap h
  refine ⟨Nat.zero_le _, horder.rp_le, hc ▸ horder.wp_le, horder.allocated.trans hc,
    horder.fifo, fun c hpos => ?_⟩
  obtain ⟨s', hs', -⟩ := horder.next capacity hpos
  exact ⟨s', hs'⟩

instance (c : SpliceCall β) (s : Flow β) : Decidable (Asks c s) :=
  inferInstanceAs (Decidable (0 < c.nbytes))

/-- Three bytes read and one written, then a read that only fills the buffer's last place
and a write that takes two. -/
theorem splice_fifo_four :
    ∃ s, (splices UInt8 4).Reachable Asks s ∧ s.output = [1, 2, 3] ∧
      s.output ++ (s.buf.data.drop s.buf.rp).take (s.buf.wp - s.buf.rp) = [1, 2, 3, 4] := by
  let s₀ : Flow UInt8 := ⟨⟨[0, 0, 0, 0], 4, 0, 0⟩, [], []⟩
  let calls : List (SpliceCall UInt8) :=
    [⟨3, .ok [1, 2, 3], .ok 1⟩, ⟨9, .ok [4, 5], .ok 2⟩, ⟨9, .ok [6], .error 11⟩]
  let s : Flow UInt8 := ⟨⟨[1, 2, 3, 4], 4, 3, 4⟩, [1, 2, 3, 4], [1, 2, 3]⟩
  have hrun : (splices UInt8 4).run Asks calls s₀ = some s := by decide +kernel
  have hinit : (splices UInt8 4).init s₀ := ⟨rfl, rfl, rfl, rfl, rfl, rfl⟩
  have hreach := System.reachable_of_run hinit hrun
  exact ⟨s, hreach, rfl, (splice_fifo (by decide) hreach).2.2.2.2.1⟩

/-- The memory behind the buffer of a transfer. -/
structure Shows (s : Flow FileByte) (io : Io) : Prop where
  data : s.buf.data.take s.buf.wp = io.ctx.data
  rp : s.buf.rp = io.ctx.rp
  capacity : s.buf.capacity = io.ctx.capacity
  output : s.output = io.out

namespace Shows

variable {s : Flow FileByte} {io : Io}

theorem wp_eq (h : Shows s io) (hs : InOrder s) : s.buf.wp = io.ctx.wp := by
  rw [FioCtx.wp, ← h.data, List.length_take, hs.allocated, Nat.min_eq_left hs.wp_le]

theorem nunwritten (h : Shows s io) (hs : InOrder s) :
    s.buf.nunwritten = io.ctx.nunwritten := by
  rw [hs.nunwritten, FioCtx.nunwritten, h.capacity, h.wp_eq hs]

theorem buffered (h : Shows s io) : s.buf.buffered = io.ctx.pending := by
  rw [FioBuffer.buffered_eq, h.data, h.rp, FioCtx.pending]

/-- Writing `n` bytes does the same to the memory and to the buffer it stands for. -/
theorem delivered (h : Shows s io) (hs : InOrder s) {n tick : Nat}
    (hle : n ≤ s.buf.wp - s.buf.rp) :
    Shows (s.delivered n)
      { io with
        ctx := io.ctx.advance n
        out := io.out ++ io.ctx.pending.take n
        tick := tick } := by
  have hwp := h.wp_eq hs
  have hrp := hs.rp_le
  have hout : s.output ++ (s.buf.data.drop s.buf.rp).take n =
      io.out ++ io.ctx.pending.take n := by
    rw [FioBuffer.take_buffered hle, h.output, h.buffered]
  unfold Flow.delivered FioCtx.advance
  by_cases hmeet : s.buf.rp + n = s.buf.wp
  · have hnot : ¬ io.ctx.rp + n < io.ctx.data.length := by
      rw [← h.rp, show io.ctx.data.length = s.buf.wp from hwp.symm]
      omega
    rw [if_pos hmeet, dif_neg hnot]
    exact ⟨rfl, rfl, h.capacity, hout⟩
  · have hlt : io.ctx.rp + n < io.ctx.data.length := by
      rw [← h.rp, show io.ctx.data.length = s.buf.wp from hwp.symm]
      omega
    rw [if_neg hmeet, dif_pos hlt]
    refine ⟨h.data, ?_, h.capacity, hout⟩
    change s.buf.rp + n = io.ctx.rp + n
    rw [h.rp]

/-- The result of `write` in the call made for a transfer. -/
theorem spliceOut (ans : IoAnswers) (h : Shows s io) (hs : InOrder s) :
    ∃ written, Prog.wp (Flow.spliceOut written)
      (fun r s' => r = (writeBuffered ans io).1 ∧ Shows s' (writeBuffered ans io).2)
      (fun _ _ => False) s := by
  have hwp := h.wp_eq hs
  have hinside : s.buf.rp + (s.buf.wp - s.buf.rp) ≤ s.buf.data.length := by
    have h₁ := hs.allocated
    have h₂ := hs.wp_le
    have h₃ := hs.rp_le
    omega
  by_cases hlt : s.buf.rp < s.buf.wp
  · have hlen : io.ctx.pending.length = s.buf.wp - s.buf.rp := by
      rw [FioCtx.length_pending, ← hwp, h.rp]
    have hne : io.ctx.pending ≠ [] := List.ne_nil_of_length_pos (by omega)
    rcases @writeBuffered_cases ans io hne with ⟨e, heq⟩ | ⟨n, hpos, hle, heq⟩
    · refine ⟨.error e, ?_⟩
      unfold Flow.spliceOut
      rw [wp_bind, wp_gets, wp_ite]
      refine ⟨fun _ => ?_, fun hnot => absurd hlt hnot⟩
      rw [wp_bind]
      refine wp_write hinside (fun e' he' => ?_) fun n hn => by cases hn
      cases he'
      rw [heq]
      exact ⟨rfl, h.data, h.rp, h.capacity, h.output⟩
    · refine ⟨.ok n, ?_⟩
      unfold Flow.spliceOut
      rw [wp_bind, wp_gets, wp_ite]
      refine ⟨fun _ => ?_, fun hnot => absurd hlt hnot⟩
      rw [wp_bind]
      refine wp_write hinside (fun e he => by cases he) fun n' hn' => ?_
      cases hn'
      rw [Nat.min_eq_left (by omega), wp_ite]
      refine ⟨fun _ => ?_, fun hnot => absurd hpos hnot⟩
      rw [heq]
      exact ⟨rfl, h.delivered hs (by omega)⟩
  · have hnot : ¬ io.ctx.rp < io.ctx.wp := by
      rw [← h.rp, ← hwp]
      exact hlt
    refine ⟨.ok 0, ?_⟩
    unfold Flow.spliceOut writeBuffered
    rw [wp_bind, wp_gets, wp_ite, if_neg hnot]
    exact ⟨fun h => absurd h hlt, fun _ => ⟨rfl, h⟩⟩

theorem received (h : Shows s io) (hs : InOrder s) (bytes : List FileByte) (pos tick : Nat)
    (hroom : bytes.length ≤ s.buf.nunwritten) :
    Shows (s.received bytes)
      { io with pos := pos, ctx := io.ctx.fill bytes, tick := tick } := by
  have hwp : s.buf.wp ≤ s.buf.data.length := by
    rw [hs.allocated]
    exact hs.wp_le
  refine ⟨?_, h.rp, h.capacity, h.output⟩
  change (s.buf.store s.buf.wp bytes).data.take (s.buf.wp + bytes.length) =
    io.ctx.data ++ bytes.take io.ctx.nunwritten
  rw [FioBuffer.take_store hwp, h.data, ← h.nunwritten hs, List.take_of_length_le hroom]

/-- A call of `file_splice` for a transfer is a call on the memory behind its buffer. -/
theorem fileSplice (ans : IoAnswers) (node : FileNode) (h : Shows s io) (hs : InOrder s)
    {nbytes : Nat} (hpos : 0 < nbytes) :
    ∃ rd written, Prog.wp (Flow.fileSplice nbytes rd written)
      (fun r s' => r = (FreeBsd.fileSplice ans node nbytes io).1 ∧
        Shows s' (FreeBsd.fileSplice ans node nbytes io).2) (fun _ _ => False) s := by
  unfold FreeBsd.fileSplice
  by_cases hroom : 0 < s.buf.nunwritten
  · rw [if_pos (h.nunwritten hs ▸ hroom), ← h.nunwritten hs]
    unfold Io.read
    cases ans.read io.tick with
    | error e =>
        refine ⟨.error e, .ok 0, wp_fileSplice hs hpos (fun hnot => absurd hroom hnot) ?_ ?_ ?_⟩
        · rintro - e' he'
          cases he'
          exact ⟨rfl, h.data, h.rp, h.capacity, h.output⟩
        · rintro - bytes hbytes
          cases hbytes
        · rintro - bytes hbytes
          cases hbytes
    | ok answer =>
        simp only
        generalize hm : min (max 1 answer)
          (min (min nbytes s.buf.nunwritten) (node.size - io.pos)) = m
        generalize hbytes : fileRange node io.pos m = bytes
        have hlen : bytes.length = m := by rw [← hbytes, length_fileRange]
        have htake : bytes.take (min nbytes s.buf.nunwritten) = bytes :=
          List.take_of_length_le (by omega)
        have hshows := h.received hs bytes (io.pos + m) (io.tick + 1) (by omega)
        have horder := hs.received (hs.room bytes (by omega))
        obtain ⟨written, hout⟩ := hshows.spliceOut ans horder
        refine ⟨.ok bytes, written, wp_fileSplice hs hpos (fun hnot => absurd hroom hnot)
          (fun _ e he => by cases he) ?_ ?_⟩
        · rintro - bytes' hbytes' hnil
          cases hbytes'
          rw [htake] at hnil
          rw [if_pos hnil]
          exact ⟨rfl, h.data, h.rp, h.capacity, h.output⟩
        · rintro - bytes' hbytes' hne
          cases hbytes'
          rw [htake] at hne ⊢
          rw [if_neg hne]
          exact hout
  · rw [if_neg (h.nunwritten hs ▸ hroom)]
    obtain ⟨written, hout⟩ := h.spliceOut ans hs
    exact ⟨.ok [], written, wp_fileSplice hs hpos (fun _ => hout) (fun h => absurd h hroom)
      (fun h => absurd h hroom) fun h => absurd h hroom⟩

end Shows

end Flow

end Sendfiled.FreeBsd
