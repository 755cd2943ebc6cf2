/-
SEND on FreeBSD.  `file_sendfile` has the kernel send from the start of the file in every
call, and does not report what was sent by a call that failed.
-/
import Sendfiled.FreeBsd.Splice

namespace Sendfiled.FreeBsd

open Prog Transition

/-- A SEND as `add_xfer` creates it, or a transfer of FILE_OPEN once it was given a
destination. -/
def SendCreated (node : FileNode) (offset len : BitVec 64) (s : Stream) : Prop :=
  Created node offset len s ∧ s.xfer.cmd = .send

/-- Exact delivery of `total` bytes from `start` on, as far as it has come: what is not
left was sent, in order and once. -/
structure Sent (node : FileNode) (start total : Nat) (s : Stream) : Prop where
  left : s.xfer.nbytesLeft.toNat + s.io.out.length = total
  out : s.io.out = fileRange node start s.io.out.length

/-- The kernel sends nothing in this call, or it does not fail and the byte that is due is
the first one of the file. -/
def Fit (ans : IoAnswers) (node : FileNode) (start : Nat) (c : Call) : Prop :=
  let (nsent, err, _) := c.before.sendfile ans node 0 c.nbytes
  nsent = 0 ∨ err = none ∧ start + c.before.out.length = 0

section Calls

variable {ans : IoAnswers} {node : FileNode}

/-- What a call sends and how much of it is reported. -/
theorem sendfile_cases (offset nbytes : Nat) (io : Io) :
    ∃ m err io', io.sendfile ans node offset nbytes = (m, err, io') ∧
      m ≤ min nbytes (node.size - offset) ∧
      (err = none → m = 0 → min nbytes (node.size - offset) = 0) ∧
      io'.out = io.out ++ fileRange node offset m := by
  unfold Io.sendfile
  split
  · exact ⟨_, _, _, rfl, Nat.min_le_right _ _, nofun, rfl⟩
  · refine ⟨_, _, _, rfl, Nat.min_le_right _ _, fun _ h => ?_, rfl⟩
    omega

/-- Adding bytes from the start of the file continues a range of it only when there are none
of them, or when the range starts there. -/
theorem fileRange_continues_iff (out : List FileByte) (start m : Nat) :
    out ++ fileRange node 0 m = fileRange node start (out ++ fileRange node 0 m).length ↔
      out = fileRange node start out.length ∧ (m = 0 ∨ start + out.length = 0) := by
  rw [List.length_append, length_fileRange, ← fileRange_append]
  constructor
  · intro heq
    obtain ⟨hout, hrest⟩ := List.append_inj heq (length_fileRange node _ _).symm
    refine ⟨hout, ?_⟩
    cases m with
    | zero => exact Or.inl rfl
    | succ m =>
        rw [fileRange, fileRange, List.range'_succ, List.range'_succ, List.map_cons,
          List.map_cons, List.cons.injEq, FileByte.mk.injEq] at hrest
        exact Or.inr hrest.1.1.symm
  · rintro ⟨hout, rfl | hzero⟩
    · rw [← hout]
      rfl
    · rw [← hout, hzero]

end Calls

section Sending

variable {ans : IoAnswers} {node : FileNode} {start total : Nat}

/-- The invariant of a SEND.  What was counted is part of what was sent, and delivery is
exact as long as the calls are fit for it. -/
structure Sending (ans : IoAnswers) (node : FileNode) (start total : Nat) (s : Stream) :
    Prop where
  cmd : s.xfer.cmd = .send
  blksize : s.xfer.file.blksize = node.blksize
  counted : total ≤ s.xfer.nbytesLeft.toNat + s.io.out.length
  left_le : s.xfer.nbytesLeft.toNat ≤ total
  exact_iff : Sent node start total s ↔ ∀ c ∈ s.calls, Fit ans node start c

theorem Sent.alike {s s' : Stream} (h : Sent node start total s) (halike : s.Alike s') :
    Sent node start total s' := by
  refine ⟨?_, ?_⟩
  · rw [halike.nbytesLeft, halike.out, h.left]
  · rw [halike.out, ← h.out]

theorem Stream.Alike.symm {s s' : Stream} (h : s.Alike s') : s'.Alike s :=
  ⟨h.xfer.symm, h.pos.symm, h.ctx.symm, h.out.symm, h.calls.symm⟩

theorem Sending.alike {s s' : Stream} (h : Sending ans node start total s)
    (halike : s.Alike s') : Sending ans node start total s' := by
  have hxfer := halike.xfer
  rw [ResrcXfer.mk.injEq] at hxfer
  obtain ⟨-, -, -, hcmd, -, hfile, hleft, -⟩ := hxfer
  refine ⟨hcmd.trans h.cmd, ?_, ?_, ?_, ?_⟩
  · rw [hfile, h.blksize]
  · rw [hleft, halike.out]
    exact h.counted
  · rw [hleft]
    exact h.left_le
  · rw [halike.calls, ← h.exact_iff]
    exact ⟨fun hsent => hsent.alike halike.symm, fun hsent => hsent.alike halike⟩

/-- Delivery after one more call, of which `k` bytes were counted and `m` sent. -/
theorem Sending.sent_iff {s s' : Stream} (h : Sending ans node start total s) {m k : Nat}
    (hk : k ≤ m) (hle : k ≤ s.xfer.nbytesLeft.toNat)
    (hleft : s'.xfer.nbytesLeft.toNat = s.xfer.nbytesLeft.toNat - k)
    (hout : s'.io.out = s.io.out ++ fileRange node 0 m) :
    Sent node start total s' ↔
      Sent node start total s ∧ (m = 0 ∨ k = m ∧ start + s.io.out.length = 0) := by
  have hcounted := h.counted
  have hcontinues := @fileRange_continues_iff node s.io.out start m
  have hlength : s'.io.out.length = s.io.out.length + m := by
    rw [hout, List.length_append, length_fileRange]
  constructor
  · rintro ⟨hsum, hrange⟩
    rw [hout] at hrange
    obtain ⟨hsent, hdue⟩ := hcontinues.mp hrange
    refine ⟨⟨by omega, hsent⟩, hdue.imp_right fun hzero => ⟨by omega, hzero⟩⟩
  · rintro ⟨hsent, hdue⟩
    refine ⟨?_, ?_⟩
    · have hsum := hsent.left
      omega
    · rw [hout]
      exact hcontinues.mpr ⟨hsent.out, hdue.imp_right And.right⟩

/-- One call of `file_sendfile` for a SEND. -/
theorem Sending.moved {n : Nat} {s : Stream} (h : Sending ans node start total s)
    (hsize : 0 < node.size) (hpos : 0 < n) (hn : n ≤ s.xfer.nbytesLeft.toNat) :
    (∃ e, (s.call ans node n).result = .error e ∧
      Sending ans node start total (s.moved ans node n)) ∨
      ∃ k, (s.call ans node n).result = .ok k ∧ 0 < k ∧
        Sending ans node start total ((s.moved ans node n).count k) := by
  obtain ⟨m, err, io', hsend, hm, hsome, hout⟩ := @sendfile_cases ans node 0 n s.io
  have hcounted := h.counted
  have hleft := h.left_le
  have hlength : io'.out.length = s.io.out.length + m := by
    rw [hout, List.length_append, length_fileRange]
  have hcmd : ¬ s.xfer.cmd = .read := by
    rw [h.cmd]
    nofun
  have hfit : ∀ r, Fit ans node start ⟨n, s.io, r, io'⟩ ↔
      (m = 0 ∨ err = none ∧ start + s.io.out.length = 0) := by
    intro r
    unfold Fit
    rw [hsend]
  have hcalls : ∀ r, (∀ c ∈ s.calls ++ [⟨n, s.io, r, io'⟩], Fit ans node start c) ↔
      Sent node start total s ∧ (m = 0 ∨ err = none ∧ start + s.io.out.length = 0) := by
    intro r
    rw [List.forall_mem_append, h.exact_iff, ← hfit r]
    simp only [List.mem_singleton, forall_eq]
  cases err with
  | some e =>
      have hcall : s.call ans node n = ⟨n, s.io, .error e, io'⟩ := by
        unfold Stream.call fileTransfer fileSendfile
        rw [if_neg hcmd, hsend]
      have hmoved : s.moved ans node n =
          { s with io := io', calls := s.calls ++ [⟨n, s.io, .error e, io'⟩] } := by
        rw [Stream.moved, hcall]
      rw [hcall, hmoved]
      refine Or.inl ⟨e, rfl, h.cmd, h.blksize, ?_, hleft, ?_⟩
      · change total ≤ s.xfer.nbytesLeft.toNat + io'.out.length
        omega
      · have hsent := @Sending.sent_iff ans node start total s
          { s with io := io', calls := s.calls ++ [⟨n, s.io, .error e, io'⟩] } h m 0
          (Nat.zero_le m) (Nat.zero_le _) rfl hout
        rw [hcalls, hsent]
        refine and_congr_right fun _ => ⟨?_, ?_⟩
        · rintro (hzero | ⟨hzero, -⟩)
          · exact Or.inl hzero
          · exact Or.inl hzero.symm
        · rintro (hzero | ⟨hnone, -⟩)
          · exact Or.inl hzero
          · cases hnone
  | none =>
      have hcall : s.call ans node n = ⟨n, s.io, .ok m, io'⟩ := by
        unfold Stream.call fileTransfer fileSendfile
        rw [if_neg hcmd, hsend]
      have hmoved : s.moved ans node n =
          { s with io := io', calls := s.calls ++ [⟨n, s.io, .ok m, io'⟩] } := by
        rw [Stream.moved, hcall]
      have hcount := @count_toNat s.xfer.nbytesLeft m (by omega)
      rw [hcall, hmoved]
      refine Or.inr ⟨m, rfl, ?_, h.cmd, h.blksize, ?_, ?_, ?_⟩
      · have := hsome rfl
        omega
      · change total ≤ (s.xfer.nbytesLeft - BitVec.ofNat 64 m).toNat + io'.out.length
        omega
      · change (s.xfer.nbytesLeft - BitVec.ofNat 64 m).toNat ≤ total
        omega
      · change _ ↔ ∀ c ∈ s.calls ++ [⟨n, s.io, .ok m, io'⟩], Fit ans node start c
        rw [hcalls, h.sent_iff (Nat.le_refl m) (by omega) hcount hout]
        simp

theorem sending_carries (hsize : 0 < node.size) (hblk : 0 < node.blksize) :
    Carries ans node (fun _ => True) (Sending ans node start total) where
  cmd := fun _ h => Or.inr h.cmd
  channel := fun _ h => Or.inr h.cmd
  blksize := fun _ h => h.blksize.symm ▸ hblk
  alike := fun _ _ h halike => h.alike halike
  moved := fun _ _ h hpos hn _ => h.moved hsize hpos hn

theorem Stream.not_strayed (s : Stream) : ¬ s.Strayed fun _ => True := by
  rintro ⟨c, -, hnot⟩
  exact hnot trivial

end Sending

section Delivery

variable {ans : IoAnswers} {node : FileNode} {pipeCapacity : Nat} {offset len : BitVec 64}

theorem SendCreated.sending {n : BitVec 64} {s : Stream} (h : SendCreated node offset len s)
    (hn : rangeCheck node.size offset len = .ok n) :
    Sending ans node offset.toNat n.toNat s ∧ s.xfer.nbytesLeft = n := by
  obtain ⟨hcreated, hcmd⟩ := h
  have hleft : s.xfer.nbytesLeft = n := by
    have haccepted := hcreated.accepted
    rw [hn] at haccepted
    exact (Except.ok.inj haccepted).symm
  have hsent : Sent node offset.toNat n.toNat s := by
    refine ⟨?_, ?_⟩
    · rw [hleft, hcreated.out]
      rfl
    · rw [hcreated.out]
      rfl
  refine ⟨⟨hcmd, hcreated.blksize, ?_, ?_, ?_⟩, hleft⟩
  · exact Nat.le_of_eq hsent.left.symm
  · rw [hleft]
  · rw [hcreated.calls]
    exact ⟨fun _ => nofun, fun _ => hsent⟩

/-- A transfer of nothing, which the checks of `add_xfer` let through, fails the first
assertion of `transfer_file`. -/
theorem next_of_empty {s : State} (hcmd : s.stream.xfer.cmd = .send)
    (hzero : s.stream.xfer.nbytesLeft = 0) (d : Deferral) :
    s.next ans node pipeCapacity d =
      ⟨{ s.stream with xfer := { s.stream.xfer with defer := d } },
        .aborted (.assertion .writeSize)⟩ := by
  generalize hst : { s.stream with xfer := { s.stream.xfer with defer := d } } = st
  have hsend : st.xfer.cmd = .send := by
    rw [← hst]
    exact hcmd
  have hnone : st.xfer.nbytesLeft = 0 := by
    rw [← hst]
    exact hzero
  have hwp : wp (transferFile ans node pipeCapacity) (fun _ _ => False)
      (fun f s' => f = .assertion .writeSize ∧ s' = st) st := by
    unfold transferFile
    rw [wp_bind, wp_gets, hsend]
    simp only [transferLoop, assert]
    rw [wp_bind, wp_gets, wp_bind, wp_check, hnone]
    refine ⟨fun hlt => ?_, fun _ => ⟨rfl, rfl⟩⟩
    simp at hlt
  unfold State.next
  rw [hst]
  cases hrun : transferFile ans node pipeCapacity st with
  | done b s' => exact absurd (wp_done hwp hrun) not_false
  | fault f s' =>
      obtain ⟨rfl, rfl⟩ := wp_fault hwp hrun
      rfl

/-- In every state of a transfer, a range of the file was sent in order and once, and
counted, if and only if all calls were fit for it. -/
theorem sendfile_exact_iff (hcap : 0 < pipeCapacity) (hblk : 0 < node.blksize) {n : BitVec 64}
    (hn : rangeCheck node.size offset len = .ok n) {s : State}
    (hreach : (transfers ans node pipeCapacity (SendCreated node offset len)).Reachable
      System.always s) :
    (Sent node offset.toNat n.toNat s.stream ↔
      ∀ c ∈ s.stream.calls, Fit ans node offset.toNat c) ∧
    (Sent node offset.toNat n.toNat s.stream → s.status = .ended → ¬ s.stream.Failed ans →
      s.stream.io.out = fileRange node offset.toNat n.toNat) := by
  have hsize : 0 < node.size := by
    unfold rangeCheck at hn
    split at hn
    · cases hn
    · omega
  by_cases hzero : n = 0
  · have hempty : Sending ans node offset.toNat n.toNat s.stream ∧ s.stream.xfer.nbytesLeft = 0 ∧
        s.status ≠ .ended := by
      refine hreach.invariant (I := fun s => Sending ans node offset.toNat n.toNat s.stream ∧
        s.stream.xfer.nbytesLeft = 0 ∧ s.status ≠ .ended) ?_ ?_
      · rintro s₀ ⟨hgoing, hcreated⟩
        obtain ⟨hsending, hleft⟩ := hcreated.sending hn
        refine ⟨hsending, hleft.trans hzero, ?_⟩
        rw [hgoing]
        simp
      · rintro d s s' ⟨hsending, hleft, -⟩ - hnext
        simp only [transfers] at hnext
        split at hnext
        · cases hnext
          rw [next_of_empty hsending.cmd hleft d]
          exact ⟨hsending.alike ⟨rfl, rfl, rfl, rfl, rfl⟩, hleft, by simp⟩
        · cases hnext
    exact ⟨hempty.1.exact_iff, fun _ hended => absurd hended hempty.2.2⟩
  · have hcarried := (sending_carries hsize hblk).reachable hcap (fun s₀ hs => by
      obtain ⟨hsending, hleft⟩ := SendCreated.sending hs hn
      exact ⟨hsending, by rw [hleft]; exact hzero⟩) hreach
    obtain ⟨hsending, hstatus⟩ := hcarried.resolve_left s.stream.not_strayed
    refine ⟨hsending.exact_iff, fun hsent hended hok => ?_⟩
    rw [hended] at hstatus
    have hnone := hstatus.resolve_right hok
    have hlength := hsent.left
    rw [hnone] at hlength
    rw [hsent.out, show s.stream.io.out.length = n.toNat by simpa using hlength]

theorem sendCreated_shortStream : SendCreated shortFile 0 4 (shortStream .send 7) :=
  ⟨⟨by decide, rfl, rfl, rfl, rfl, rfl, rfl⟩, rfl⟩

theorem sendfile_exact_shortFile :
    Sent shortFile 0 4
      (State.next (generous 4) shortFile 64 .none ⟨shortStream .send 7, .going⟩).stream := by
  have hcap : 0 < 64 := by decide
  have hiff := sendfile_exact_iff hcap (by decide) rfl
    (@reachable_next (generous 4) shortFile 64 _ _ sendCreated_shortStream)
  refine hiff.1.mpr fun c hc => ?_
  rw [List.mem_singleton.mp hc]
  exact Or.inr ⟨rfl, rfl⟩

/-- Two calls that send two bytes each send the first two bytes of the file twice. -/
theorem sendfile_repeats :
    rangeCheck shortFile.size 0 4 = .ok 4 ∧ ∃ s,
      (transfers (generous 2) shortFile 64 (SendCreated shortFile 0 4)).Reachable
        System.always s ∧
      s.status = .ended ∧ s.stream.xfer.nbytesLeft = 0 ∧
      s.stream.io.out.map FileByte.byte = [0, 1, 0, 1] ∧
      (fileRange shortFile 0 4).map FileByte.byte = [0, 1, 2, 3] ∧
      ¬ Sent shortFile 0 4 s.stream := by
  refine ⟨rfl, _, reachable_next sendCreated_shortStream, rfl, rfl, rfl, rfl, fun h => ?_⟩
  exact absurd h.out (by decide)

end Delivery

end Sendfiled.FreeBsd
