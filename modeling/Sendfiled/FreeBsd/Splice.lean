/-
READ on FreeBSD.  `file_splice` reads ahead into a buffer that outlives the call, while
`transfer_file` counts the bytes written only.  A transfer delivers its range as long as
every call finds the buffer in order.
-/
import Sendfiled.FreeBsd.Streams
import Sendfiled.Range

namespace Sendfiled.FreeBsd

open Prog Transition

section Ranges

variable (node : FileNode)

@[simp] theorem length_fileRange (start count : Nat) :
    (fileRange node start count).length = count := by
  simp [fileRange]

theorem fileRange_append (start m n : Nat) :
    fileRange node start m ++ fileRange node (start + m) n = fileRange node start (m + n) := by
  rw [fileRange, fileRange, fileRange, ← List.map_append, List.range'_append_1]

theorem take_fileRange (start m n : Nat) :
    (fileRange node start n).take m = fileRange node start (min m n) := by
  by_cases hle : m ≤ n
  · rw [fileRange, ← List.map_take, List.take_range'_of_length_ge hle, Nat.min_eq_left hle,
      fileRange]
  · rw [List.take_of_length_le (by rw [length_fileRange]; omega), Nat.min_eq_right (by omega)]

theorem drop_fileRange (start m n : Nat) :
    (fileRange node start n).drop m = fileRange node (start + m) (n - m) := by
  rw [fileRange, ← List.map_drop, List.drop_range', Nat.mul_one, fileRange]

end Ranges

namespace FioCtx

variable {ctx : FioCtx} {bytes : List FileByte}

theorem length_pending (ctx : FioCtx) : ctx.pending.length = ctx.wp - ctx.rp := by
  rw [pending, List.length_drop, wp]

theorem pending_fill (h : bytes.length ≤ ctx.nunwritten) :
    (ctx.fill bytes).pending = ctx.pending ++ bytes := by
  change (ctx.data ++ bytes.take ctx.nunwritten).drop ctx.rp = _
  rw [List.take_of_length_le h, List.drop_append_of_le_length ctx.rp_le, pending]

theorem pending_advance (ctx : FioCtx) (n : Nat) :
    (ctx.advance n).pending = ctx.pending.drop n := by
  unfold advance
  split
  · rw [pending, pending, List.drop_drop]
  · rename_i hnot
    change [] = _
    rw [pending, List.drop_drop, List.drop_of_length_le (by omega)]

/-- The buffer is put back to its start whenever it runs empty. -/
def Reset (ctx : FioCtx) : Prop := ctx.pending = [] → ctx.wp = 0

theorem reset_advance (ctx : FioCtx) (n : Nat) : (ctx.advance n).Reset := by
  intro h
  unfold advance at h ⊢
  split at h
  · rename_i hlt
    have hlen := congrArg List.length h
    rw [length_pending] at hlen
    simp only [wp, List.length_nil] at hlen
    omega
  · rename_i hnot
    rw [dif_neg hnot]
    rfl

@[simp] theorem capacity_advance (ctx : FioCtx) (n : Nat) :
    (ctx.advance n).capacity = ctx.capacity := by
  unfold advance
  split <;> rfl

end FioCtx

/-- A call of `file_splice` that finds nothing left in the buffer from earlier ones, or
leaves it: the file has not ended unless the buffer is full, and what is left together with
what can be read does not exceed the bytes asked for. -/
def Clear (node : FileNode) (nbytes : Nat) (io : Io) : Prop :=
  io.ctx.pending = [] ∨
    ((0 < io.ctx.nunwritten → io.pos < node.size) ∧
      io.ctx.pending.length + min io.ctx.nunwritten (node.size - io.pos) ≤ nbytes)

/-- What `transfer_file` relies on: no more is written than was asked for, and nothing is
only written when nothing is left to write. -/
def SpliceOk (nbytes : Nat) (result : Except Errno Nat) (after : Io) : Prop :=
  ∀ n, result = .ok n → n ≤ nbytes ∧ (n = 0 → after.ctx.pending = [])

section Calls

variable {ans : IoAnswers} {node : FileNode} {io : Io}

/-- What the second half of `file_splice` does with a buffer that is not empty. -/
theorem writeBuffered_cases (hne : io.ctx.pending ≠ []) :
    (∃ e, writeBuffered ans io = (.error e, io.fail e)) ∨
      ∃ n, 0 < n ∧ n ≤ io.ctx.pending.length ∧ writeBuffered ans io = (.ok n, { io with
        ctx := io.ctx.advance n
        out := io.out ++ io.ctx.pending.take n
        tick := io.tick + 1 }) := by
  have hpos : 0 < io.ctx.pending.length := List.length_pos_iff.mpr hne
  have hlt : io.ctx.rp < io.ctx.wp := by
    rw [FioCtx.length_pending] at hpos
    omega
  unfold writeBuffered Io.write
  rw [if_pos hlt]
  cases ans.write io.tick with
  | error e => exact Or.inl ⟨e, rfl⟩
  | ok answer => exact Or.inr ⟨_, by omega, Nat.min_le_right _ _, rfl⟩

/-- The call stops at the read, or writes what is in the buffer after it. -/
theorem fileSplice_cases (nbytes : Nat) :
    (∃ e, fileSplice ans node nbytes io = (.error e, io.fail e)) ∨
    (0 < io.ctx.nunwritten ∧ min nbytes (node.size - io.pos) = 0 ∧
      fileSplice ans node nbytes io = (.ok 0, { io with tick := io.tick + 1 })) ∨
    ∃ m io', m ≤ min nbytes (min io.ctx.nunwritten (node.size - io.pos)) ∧
      (0 < io.ctx.nunwritten → 0 < m) ∧
      io'.ctx.pending = io.ctx.pending ++ fileRange node io.pos m ∧
      io'.ctx.capacity = io.ctx.capacity ∧ io'.pos = io.pos + m ∧ io'.out = io.out ∧
      (m = 0 → io'.ctx = io.ctx) ∧ fileSplice ans node nbytes io = writeBuffered ans io' := by
  unfold fileSplice Io.read
  by_cases hroom : 0 < io.ctx.nunwritten
  · rw [if_pos hroom]
    cases ans.read io.tick with
    | error e => exact Or.inl ⟨e, rfl⟩
    | ok answer =>
        refine Or.inr ?_
        generalize hm : min (max 1 answer)
          (min (min nbytes io.ctx.nunwritten) (node.size - io.pos)) = m
        simp only [hm]
        by_cases hzero : m = 0
        · refine Or.inl ⟨hroom, by omega, ?_⟩
          have hnil : fileRange node io.pos m = [] := by
            rw [hzero]
            rfl
          rw [if_pos hnil, hzero]
          rfl
        · have hbytes : fileRange node io.pos m ≠ [] := by
            intro hnil
            have hlen := congrArg List.length hnil
            rw [length_fileRange] at hlen
            exact hzero hlen
          rw [if_neg hbytes]
          refine Or.inr ⟨m, { io with
            pos := io.pos + m
            ctx := io.ctx.fill (fileRange node io.pos m)
            tick := io.tick + 1 }, by omega, fun _ => by omega, ?_, rfl, rfl, rfl,
            fun h => absurd h hzero, rfl⟩
          exact FioCtx.pending_fill (by rw [length_fileRange]; omega)
  · rw [if_neg hroom]
    refine Or.inr (Or.inr ⟨0, io, by omega, fun h => absurd h hroom, ?_, rfl, rfl, rfl,
      fun _ => rfl, rfl⟩)
    exact (List.append_nil _).symm

/-- Part of a range was written, and the part after it is in the buffer. -/
structure Flows (node : FileNode) (start written : Nat) (io : Io) : Prop where
  out : io.out = fileRange node start written
  pending : io.ctx.pending = fileRange node (start + written) io.ctx.pending.length
  pos : io.pos = start + written + io.ctx.pending.length
  reset : io.ctx.Reset
  room : 0 < io.ctx.capacity

theorem Flows.write {start written : Nat} (h : Flows node start written io)
    (hne : io.ctx.pending ≠ []) :
    (∃ e, (writeBuffered ans io).1 = .error e ∧
      Flows node start written (writeBuffered ans io).2) ∨
    ∃ n, 0 < n ∧ n ≤ io.ctx.pending.length ∧ (writeBuffered ans io).1 = .ok n ∧
      Flows node start (written + n) (writeBuffered ans io).2 := by
  rcases @writeBuffered_cases ans io hne with ⟨e, heq⟩ | ⟨n, hpos, hle, heq⟩
  · rw [heq]
    exact Or.inl ⟨e, rfl, h.out, h.pending, h.pos, h.reset, h.room⟩
  · have hpending : (io.ctx.advance n).pending =
        fileRange node (start + (written + n)) (io.ctx.pending.length - n) := by
      rw [FioCtx.pending_advance, h.pending, drop_fileRange, length_fileRange, Nat.add_assoc]
    rw [heq]
    refine Or.inr ⟨n, hpos, hle, rfl, ?_, ?_, ?_, io.ctx.reset_advance n, ?_⟩
    · change io.out ++ io.ctx.pending.take n = _
      rw [h.out, h.pending, take_fileRange, Nat.min_eq_left hle, fileRange_append]
    · change (io.ctx.advance n).pending = fileRange node _ (io.ctx.advance n).pending.length
      rw [hpending, length_fileRange]
    · change io.pos = _ + (io.ctx.advance n).pending.length
      rw [hpending, length_fileRange, h.pos]
      omega
    · change 0 < (io.ctx.advance n).capacity
      rw [FioCtx.capacity_advance]
      exact h.room

/-- A call that finds the buffer in order, and for bytes that are in the file. -/
theorem Flows.splice {start written nbytes : Nat} (h : Flows node start written io)
    (hclear : Clear node nbytes io) (hpos : 0 < nbytes)
    (hsize : start + written + nbytes ≤ node.size) :
    (∃ e, (fileSplice ans node nbytes io).1 = .error e ∧
      Flows node start written (fileSplice ans node nbytes io).2) ∨
    ∃ n, 0 < n ∧ n ≤ nbytes ∧ (fileSplice ans node nbytes io).1 = .ok n ∧
      Flows node start (written + n) (fileSplice ans node nbytes io).2 := by
  have hfull : io.ctx.pending = [] → 0 < io.ctx.nunwritten := by
    intro hnil
    have hroom := h.room
    rw [FioCtx.nunwritten, h.reset hnil]
    omega
  have hbefore : 0 < io.ctx.nunwritten → io.pos < node.size := by
    intro hroom
    rcases hclear with hnil | hclear
    · rw [h.pos, hnil, List.length_nil]
      omega
    · exact hclear.1 hroom
  rcases @fileSplice_cases ans node io nbytes with ⟨e, heq⟩ | ⟨hroom, hnone, -⟩ |
      ⟨m, io', hm, hread, hpending, hcap, hpos', hout, hctx, heq⟩
  · rw [heq]
    exact Or.inl ⟨e, rfl, h.out, h.pending, h.pos, h.reset, h.room⟩
  · have hlt := hbefore hroom
    omega
  · have hlen : io'.ctx.pending.length = io.ctx.pending.length + m := by
      rw [hpending, List.length_append, length_fileRange]
    have hne : io'.ctx.pending ≠ [] := by
      intro hnil
      rw [hpending, List.append_eq_nil_iff] at hnil
      have hlt := hread (hfull hnil.1)
      have hzero := congrArg List.length hnil.2
      rw [length_fileRange] at hzero
      exact absurd hzero (Nat.ne_of_gt hlt)
    have hle : io'.ctx.pending.length ≤ nbytes := by
      rcases hclear with hnil | hclear
      · rw [hlen, hnil, List.length_nil]
        omega
      · have := hclear.2
        omega
    have hflows : Flows node start written io' := by
      refine ⟨hout.trans h.out, ?_, ?_, fun hnil => absurd hnil hne, hcap ▸ h.room⟩
      · rw [hlen, ← fileRange_append, ← h.pending, ← h.pos, hpending]
      · rw [hpos', h.pos, hlen, Nat.add_assoc]
    rw [heq]
    refine (hflows.write hne).imp id ?_
    rintro ⟨n, hpos, hn, hres⟩
    exact ⟨n, hpos, Nat.le_trans hn hle, hres⟩

end Calls

section Exactness

variable {node : FileNode} {io : Io} {nbytes : Nat}

theorem writeBuffered_empty (ans : IoAnswers) (hnil : io.ctx.pending = []) :
    writeBuffered ans io = (.ok 0, io) := by
  have hlen := congrArg List.length hnil
  rw [FioCtx.length_pending, List.length_nil] at hlen
  unfold writeBuffered
  rw [if_neg (by omega)]

theorem Clear.spliceOk (hclear : Clear node nbytes io) (hpos : 0 < nbytes) (ans : IoAnswers) :
    SpliceOk nbytes (fileSplice ans node nbytes io).1 (fileSplice ans node nbytes io).2 := by
  rcases @fileSplice_cases ans node io nbytes with ⟨e, heq⟩ | ⟨hroom, hnone, heq⟩ |
      ⟨m, io', hm, -, hpending, -, -, -, -, heq⟩
  · rw [heq]
    nofun
  · rw [heq]
    rintro n ⟨⟩
    refine ⟨Nat.zero_le nbytes, fun _ => hclear.resolve_right ?_⟩
    rintro ⟨hbefore, -⟩
    have hlt := hbefore hroom
    omega
  · have hle : io'.ctx.pending.length ≤ nbytes := by
      rw [hpending, List.length_append, length_fileRange]
      rcases hclear with hnil | ⟨-, hfits⟩
      · rw [hnil, List.length_nil]
        omega
      · omega
    rw [heq]
    by_cases hnil : io'.ctx.pending = []
    · rw [writeBuffered_empty ans hnil]
      rintro n ⟨⟩
      exact ⟨Nat.zero_le nbytes, fun _ => hnil⟩
    · rcases @writeBuffered_cases ans io' hnil with ⟨e, hres⟩ | ⟨k, hk, hlen, hres⟩
      · rw [hres]
        nofun
      · rw [hres]
        rintro n ⟨⟩
        exact ⟨Nat.le_trans hlen hle, fun hzero => absurd hzero (Nat.ne_of_gt hk)⟩

/-- A kernel that moves `n` bytes whenever it can. -/
def generous (n : Nat) : IoAnswers where
  read := fun _ => .ok n
  write := fun _ => .ok n
  sendfile := fun _ => (n, none)
  sendStat := fun _ => none

theorem writeBuffered_generous (hne : io.ctx.pending ≠ []) {n : Nat}
    (hle : io.ctx.pending.length ≤ n) :
    (writeBuffered (generous n) io).1 = .ok io.ctx.pending.length := by
  have hpos : 0 < io.ctx.pending.length := List.length_pos_iff.mpr hne
  have hlt : io.ctx.rp < io.ctx.wp := by
    rw [FioCtx.length_pending] at hpos
    omega
  unfold writeBuffered Io.write
  rw [if_pos hlt]
  change Except.ok (min (max 1 n) io.ctx.pending.length) = _
  rw [Nat.min_eq_right (by omega)]

/-- When the buffer is not in order, a kernel that moves all it can breaks the contract. -/
theorem not_spliceOk_generous (hclear : ¬ Clear node nbytes io) (hpos : 0 < nbytes) :
    ¬ SpliceOk nbytes
      (fileSplice (generous (io.ctx.pending.length + nbytes)) node nbytes io).1
      (fileSplice (generous (io.ctx.pending.length + nbytes)) node nbytes io).2 := by
  obtain ⟨hne, hbad⟩ := not_or.mp hclear
  have hlen : 0 < io.ctx.pending.length := List.length_pos_iff.mpr hne
  unfold fileSplice
  by_cases hroom : 0 < io.ctx.nunwritten
  · rw [if_pos hroom]
    obtain ⟨m, hm⟩ : ∃ m, m = min (max 1 (io.ctx.pending.length + nbytes))
        (min (min nbytes io.ctx.nunwritten) (node.size - io.pos)) := ⟨_, rfl⟩
    have hread : io.read (generous (io.ctx.pending.length + nbytes)) node
        (min nbytes io.ctx.nunwritten) = (.ok (fileRange node io.pos m),
          { io with pos := io.pos + m, tick := io.tick + 1 }) := by
      rw [hm]
      rfl
    rw [hread]
    intro hok
    simp only at hok
    split at hok
    · exact hne ((hok 0 rfl).2 rfl)
    · rename_i hbytes
      have hpos' : 0 < m := by
        rw [← length_fileRange node io.pos m]
        exact List.length_pos_iff.mpr hbytes
      have hfill : (io.ctx.fill (fileRange node io.pos m)).pending =
          io.ctx.pending ++ fileRange node io.pos m :=
        FioCtx.pending_fill (by rw [length_fileRange]; omega)
      have hfilled : (io.ctx.fill (fileRange node io.pos m)).pending.length =
          io.ctx.pending.length + m := by
        rw [hfill, List.length_append, length_fileRange]
      have hle := (hok _ (writeBuffered_generous
        (fun hnil => by simp [hnil] at hfilled; omega) (by rw [hfilled]; omega))).1
      rw [hfilled] at hle
      exact hbad ⟨fun _ => by omega, by omega⟩
  · rw [if_neg hroom]
    intro hok
    have hle := (hok _ (writeBuffered_generous hne (Nat.le_add_right _ _))).1
    exact hbad ⟨fun h => absurd h hroom, by omega⟩

/-- The condition is exact: it is met if and only if the call keeps to its contract whatever
the kernel answers. -/
theorem clear_iff (hpos : 0 < nbytes) :
    Clear node nbytes io ↔ ∀ ans, SpliceOk nbytes (fileSplice ans node nbytes io).1
      (fileSplice ans node nbytes io).2 := by
  refine ⟨fun hclear ans => hclear.spliceOk hpos ans, fun hok => ?_⟩
  by_contra hnot
  exact not_spliceOk_generous hnot hpos (hok _)

end Exactness

section Delivery

variable {ans : IoAnswers} {node : FileNode} {pipeCapacity : Nat} {offset len : BitVec 64}

/-- A READ as `add_xfer` creates it: one descriptor for data and status. -/
def ReadCreated (node : FileNode) (offset len : BitVec 64) (s : Stream) : Prop :=
  Created node offset len s ∧ s.xfer.cmd = .read ∧ s.xfer.statFd = s.xfer.destFd

/-- Exact delivery of `total` bytes from `start` on, as far as it has come. -/
structure Delivered (node : FileNode) (start total : Nat) (s : State) : Prop where
  calls : ∀ c ∈ s.stream.calls, SpliceOk c.nbytes c.result c.after
  left : s.stream.xfer.nbytesLeft.toNat + s.stream.io.out.length = total
  out : s.stream.io.out = fileRange node start s.stream.io.out.length
  notAborted : ∀ f, s.status ≠ .aborted f
  complete : s.status = .ended →
    (∀ c ∈ s.stream.calls, ∀ e, c.result = .error e → errnoIsFatal e = false) →
    s.stream.io.out = fileRange node start total

/-- An accepted range that does not slip through the checks is a part of the file. -/
theorem accepted_range {n : BitVec 64} (hoff : 0 ≤ offset.toInt)
    (hn : rangeCheck node.size offset len = .ok n) (hslip : ¬ Slips node.size offset len) :
    0 < n.toNat ∧ offset.toNat + n.toNat ≤ node.size := by
  have hrange : InRange node.size offset len :=
    ((rangeCheck_exact_iff hoff node.size_lt).mpr hslip).mp ⟨n, hn⟩
  have hbytes := rangeCheck_ok_eq hoff node.size_lt hn hslip
  obtain ⟨hend, hpos⟩ := hrange
  have hint := (toInt_eq_toNat hoff).1
  rw [← hbytes] at hpos
  refine ⟨by omega, ?_⟩
  unfold requestedBytes at hbytes
  split at hbytes <;> omega

/-- The invariant of a READ. -/
structure Reading (node : FileNode) (start total : Nat) (s : Stream) : Prop where
  cmd : s.xfer.cmd = .read
  channel : s.xfer.statFd = s.xfer.destFd
  blksize : s.xfer.file.blksize = node.blksize
  calls : ∀ c ∈ s.calls, SpliceOk c.nbytes c.result c.after
  flows : ∃ written, Flows node start written s.io ∧ written + s.xfer.nbytesLeft.toNat = total

theorem Flows.alike {start written : Nat} {s s' : Stream} (h : Flows node start written s.io)
    (halike : s.Alike s') : Flows node start written s'.io := by
  obtain ⟨hxfer, hpos, hctx, hout, hcalls⟩ := halike
  refine ⟨?_, ?_, ?_, ?_, ?_⟩
  · rw [hout, h.out]
  · rw [hctx, ← h.pending]
  · rw [hpos, hctx, h.pos]
  · rw [hctx]
    exact h.reset
  · rw [hctx]
    exact h.room

theorem Reading.alike {start total : Nat} {s s' : Stream} (h : Reading node start total s)
    (halike : s.Alike s') : Reading node start total s' := by
  have hxfer := halike.xfer
  rw [ResrcXfer.mk.injEq] at hxfer
  obtain ⟨-, hdest, hstat, hcmd, -, hfile, hleft, -⟩ := hxfer
  obtain ⟨written, hflows, htotal⟩ := h.flows
  refine ⟨hcmd.trans h.cmd, ?_, ?_, ?_, written, hflows.alike halike, ?_⟩
  · rw [hstat, hdest, h.channel]
  · rw [hfile, h.blksize]
  · rw [halike.calls]
    exact h.calls
  · rw [hleft, htotal]

/-- Counting the bytes that were written. -/
theorem count_toNat {left : BitVec 64} {k : Nat} (hk : k ≤ left.toNat) :
    (left - BitVec.ofNat 64 k).toNat = left.toNat - k := by
  have hlt := left.isLt
  rw [BitVec.toNat_sub, BitVec.toNat_ofNat]
  omega

/-- One call of `file_splice` for a READ. -/
theorem Reading.moved {start total n : Nat} {s : Stream} (h : Reading node start total s)
    (hsize : start + total ≤ node.size) (hpos : 0 < n) (hn : n ≤ s.xfer.nbytesLeft.toNat)
    (hclear : Clear node n s.io) :
    (∃ e, (s.call ans node n).result = .error e ∧ Reading node start total (s.moved ans node n)) ∨
      ∃ k, (s.call ans node n).result = .ok k ∧ 0 < k ∧
        Reading node start total ((s.moved ans node n).count k) := by
  obtain ⟨written, hflows, htotal⟩ := h.flows
  have hcall : s.call ans node n =
      ⟨n, s.io, (fileSplice ans node n s.io).1, (fileSplice ans node n s.io).2⟩ := by
    unfold Stream.call fileTransfer
    rw [if_pos h.cmd]
  have hcalls : ∀ c ∈ s.calls ++ [s.call ans node n], SpliceOk c.nbytes c.result c.after := by
    intro c hc
    rw [List.mem_append, List.mem_singleton] at hc
    rcases hc with hc | rfl
    · exact h.calls c hc
    · rw [hcall]
      exact hclear.spliceOk hpos ans
  have hio : (s.moved ans node n).io = (fileSplice ans node n s.io).2 := by
    rw [Stream.moved, hcall]
  rcases @Flows.splice ans node s.io start written n hflows hclear hpos (by omega) with
    ⟨e, hres, hnext⟩ | ⟨k, hk, hle, hres, hnext⟩
  · refine Or.inl ⟨e, by rw [hcall, hres], h.cmd, h.channel, h.blksize, hcalls, written, ?_,
      htotal⟩
    rw [hio]
    exact hnext
  · refine Or.inr ⟨k, by rw [hcall, hres], hk, h.cmd, h.channel, h.blksize, hcalls, written + k,
      ?_, ?_⟩
    · change Flows node start (written + k) (s.moved ans node n).io
      rw [hio]
      exact hnext
    · change written + k + (s.xfer.nbytesLeft - BitVec.ofNat 64 k).toNat = total
      rw [count_toNat (Nat.le_trans hle hn)]
      omega

theorem reading_carries {start total : Nat} (hsize : start + total ≤ node.size)
    (hblk : 0 < node.blksize) :
    Carries ans node (fun c => Clear node c.nbytes c.before) (Reading node start total) where
  cmd := fun _ h => Or.inl h.cmd
  channel := fun _ h => Or.inl h.channel
  blksize := fun _ h => h.blksize.symm ▸ hblk
  alike := fun _ _ h halike => h.alike halike
  moved := fun _ _ h hpos hn hclear => h.moved hsize hpos hn hclear

theorem ReadCreated.reading {n : BitVec 64} {s : Stream} (h : ReadCreated node offset len s)
    (hn : rangeCheck node.size offset len = .ok n) (hblk : 0 < node.blksize) :
    Reading node offset.toNat n.toNat s ∧ s.xfer.nbytesLeft = n := by
  obtain ⟨hcreated, hcmd, hchannel⟩ := h
  have hleft : s.xfer.nbytesLeft = n := by
    have haccepted := hcreated.accepted
    rw [hn] at haccepted
    exact (Except.ok.inj haccepted).symm
  have hflows : Flows node offset.toNat 0 s.io := by
    refine ⟨hcreated.out, ?_, ?_, ?_, ?_⟩
    · rw [hcreated.ctx]
      rfl
    · rw [hcreated.pos, hcreated.ctx]
      rfl
    · rw [hcreated.ctx]
      exact fun _ => rfl
    · rw [hcreated.ctx]
      exact hblk
  refine ⟨⟨hcmd, hchannel, hcreated.blksize, ?_, 0, hflows, ?_⟩, hleft⟩
  · rw [hcreated.calls]
    nofun
  · rw [hleft, Nat.zero_add]

/-- A READ delivers its range if it is one and every call finds the buffer in order; and
only then does a call of `file_splice` keep to its contract whatever the kernel answers. -/
theorem splice_delivers (hcap : 0 < pipeCapacity) (hblk : 0 < node.blksize)
    {n : BitVec 64} (hoff : 0 ≤ offset.toInt) (hn : rangeCheck node.size offset len = .ok n) :
    (¬ Slips node.size offset len → ∀ s : State,
      (transfers ans node pipeCapacity (ReadCreated node offset len)).Reachable System.always s →
      (∀ c ∈ s.stream.calls, Clear node c.nbytes c.before) →
      Delivered node offset.toNat n.toNat s) ∧
    ∀ (io : Io) (nbytes : Nat), 0 < nbytes →
      (Clear node nbytes io ↔ ∀ ans, SpliceOk nbytes (fileSplice ans node nbytes io).1
        (fileSplice ans node nbytes io).2) := by
  refine ⟨fun hslip s hreach hclear => ?_, fun io nbytes hpos => clear_iff hpos⟩
  obtain ⟨hpos, hsize⟩ := accepted_range hoff hn hslip
  have hcarried := (reading_carries hsize hblk).reachable hcap (fun s₀ hs => by
    obtain ⟨hreading, hleft⟩ := ReadCreated.reading hs hn hblk
    refine ⟨hreading, ?_⟩
    rw [hleft]
    rintro rfl
    exact absurd hpos (Nat.lt_irrefl 0)) hreach
  obtain ⟨hreading, hstatus⟩ := hcarried.resolve_left fun ⟨c, hc, hnot⟩ => hnot (hclear c hc)
  obtain ⟨written, hflows, htotal⟩ := hreading.flows
  have hout : s.stream.io.out.length = written := by rw [hflows.out, length_fileRange]
  refine ⟨hreading.calls, by omega, by rw [hout]; exact hflows.out, ?_, ?_⟩
  · intro f hf
    rw [hf] at hstatus
    exact hstatus
  · intro hended hok
    rw [hended] at hstatus
    have hzero := hstatus.resolve_right fun hfailed => by
      rcases hfailed with ⟨c, hc, e, he, hfatal⟩ | ⟨hapart, -⟩
      · rw [hok c hc e he] at hfatal
        cases hfatal
      · exact hapart hreading.channel
    rw [hzero] at htotal
    rw [hflows.out, show written = n.toNat from htotal]

/-- A file of four bytes on a disk with blocks of eight. -/
def shortFile : FileNode where
  size := 4
  byte := UInt8.ofNat
  regular := true
  atime := 0
  mtime := 0
  ctime := 0
  blksize := 8
  size_lt := by decide

/-- A transfer of the whole file. -/
def shortStream (cmd : ProtCmdReq) (statFd : Fd) : Stream where
  xfer :=
    { addr := 0
      destFd := 5
      statFd := statFd
      cmd := cmd
      txnid := 0
      file := { size := 4, fd := 6, blksize := 8 }
      nbytesLeft := 4
      clientPid := 0
      defer := .none }
  io := ⟨0, FioCtx.new 8, [], 0, 0⟩
  calls := []
  told := []

theorem readCreated_shortStream : ReadCreated shortFile 0 4 (shortStream .read 5) :=
  ⟨⟨by decide, rfl, rfl, rfl, rfl, rfl, rfl⟩, rfl, rfl⟩

theorem reachable_next {init : Stream → Prop} {st : Stream} (hst : init st) :
    (transfers ans node pipeCapacity init).Reachable System.always
      (State.next ans node pipeCapacity .none ⟨st, .going⟩) := by
  exact System.Reachable.step (l := .none) ⟨⟨st, .going⟩, ⟨rfl, hst⟩, .refl⟩ trivial rfl

/-- A file of six bytes, and a transfer of all of it. -/
def longFile : FileNode := { shortFile with size := 6, size_lt := by decide }

def longStream : Stream :=
  { shortStream .read 5 with
    xfer := { (shortStream .read 5).xfer with
      file := { size := 6, fd := 6, blksize := 8 }
      nbytesLeft := 6 } }

/-- A kernel that moves four bytes, but two in the first write. -/
def hesitant : IoAnswers := { generous 4 with write := fun t => .ok (if t = 1 then 2 else 4) }

/-- The second call finds two bytes left by the first one, and writes them with the last two
of the file. -/
theorem splice_delivers_longFile :
    let s := State.next hesitant longFile 64 .none ⟨longStream, .going⟩
    s.stream.calls.map (fun c => c.before.ctx.pending.length) = [0, 2] ∧
      Delivered longFile 0 6 s := by
  have hcap : 0 < 64 := by decide
  have hslip : ¬ Slips longFile.size 0 6 := by
    rintro ⟨-, ⟨hlen, -⟩ | ⟨hwrap, -⟩⟩
    · cases hlen
    · revert hwrap
      decide
  have hcreated : ReadCreated longFile 0 6 longStream :=
    ⟨⟨by decide, rfl, rfl, rfl, rfl, rfl, rfl⟩, rfl, rfl⟩
  have hclear : ∀ c ∈ (State.next hesitant longFile 64 .none ⟨longStream, .going⟩).stream.calls,
      Clear longFile c.nbytes c.before := by
    intro c hc
    rcases List.mem_cons.mp hc with rfl | hc
    · exact Or.inl rfl
    · rw [List.mem_singleton.mp hc]
      exact Or.inr ⟨fun _ => by decide, by decide⟩
  have hn : rangeCheck longFile.size 0 6 = .ok 6 := rfl
  exact ⟨rfl, (splice_delivers hcap (by decide) (by decide) hn).1 hslip _ (reachable_next hcreated)
    hclear⟩

/-- The first write takes two bytes of the four that were read; the next call finds the file
at its end and returns before it has looked at the buffer. -/
theorem splice_stops_short :
    rangeCheck shortFile.size 0 4 = .ok 4 ∧ ∃ s,
      (transfers { generous 4 with write := fun _ => .ok 2 } shortFile 64
        (ReadCreated shortFile 0 4)).Reachable System.always s ∧
      s.status = .aborted (.assertion .nwritten) ∧ ¬ Delivered shortFile 0 4 s := by
  refine ⟨rfl, _, reachable_next readCreated_shortStream, rfl, fun h => ?_⟩
  exact h.notAborted _ rfl

end Delivery

end Sendfiled.FreeBsd
