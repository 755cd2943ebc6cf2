/-
The range of a request.  The checks of `add_xfer` are made in machine words; here
they are compared with what they mean over the integers.
-/
import Mathlib.Algebra.Ring.Int.Defs
import Sendfiled.Isolation

namespace Sendfiled

open Prog Transition

/-- The number of bytes a request asks for; a length of zero means the rest of the
file. -/
def requestedBytes (fileSize : Nat) (offset len : BitVec 64) : Int :=
  if len = 0 then fileSize - offset.toInt else len.toNat

/-- The request lies within the file and asks for something. -/
def InRange (fileSize : Nat) (offset len : BitVec 64) : Prop :=
  offset.toInt + len.toNat ≤ fileSize ∧ 1 ≤ requestedBytes fileSize offset len

instance (fileSize : Nat) (offset len : BitVec 64) : Decidable (InRange fileSize offset len) :=
  inferInstanceAs (Decidable (_ ∧ _))

/-- What the checks let through although it is not in range: the empty rest of a
file, and a range whose end wraps around to a place within the file. -/
def Slips (fileSize : Nat) (offset len : BitVec 64) : Prop :=
  0 < fileSize ∧ ((len = 0 ∧ offset.toInt = fileSize) ∨
    (2 ^ 64 ≤ offset.toInt + len.toNat ∧ offset.toInt + len.toNat - 2 ^ 64 ≤ fileSize))

/-- `fcntl` refuses to lock a range that starts or ends before the file. -/
def LockSound (ans : Answers) : Prop :=
  ∀ tick start len, ans.lock tick start len = none → 0 ≤ start ∧ (0 ≤ len ∨ 0 ≤ start + len)

section Words

variable {fileSize : Nat} {offset len : BitVec 64}

theorem toInt_eq_toNat (h : 0 ≤ offset.toInt) :
    offset.toInt = offset.toNat ∧ offset.toNat < 2 ^ 63 := by
  have hlt := offset.isLt
  rw [BitVec.toInt_eq_toNat_cond] at h ⊢
  split at h <;> omega

theorem toNat_eq_zero_iff (len : BitVec 64) : len.toNat = 0 ↔ len = 0 := by
  constructor
  · intro h
    exact BitVec.eq_of_toNat_eq (by simpa using h)
  · rintro rfl
    rfl

/-- The checks over the integers. -/
theorem rangeCheck_ok_iff (hoff : 0 ≤ offset.toInt) :
    (∃ n, rangeCheck fileSize offset len = .ok n) ↔
      0 < fileSize ∧ (offset.toInt + len.toNat ≤ fileSize ∨
        2 ^ 64 ≤ offset.toInt + len.toNat ∧
          offset.toInt + len.toNat - 2 ^ 64 ≤ fileSize) := by
  obtain ⟨hint, hlt⟩ := toInt_eq_toNat hoff
  have hlen := len.isLt
  have hsum : (offset + len).toNat = (offset.toNat + len.toNat) % 2 ^ 64 :=
    BitVec.toNat_add offset len
  unfold rangeCheck
  by_cases hzero : fileSize = 0
  · simp [hzero]
  rw [if_neg hzero]
  by_cases hover : fileSize < (offset + len).toNat
  · rw [if_pos hover]
    constructor
    · rintro ⟨n, hn⟩
      cases hn
    · intro h
      omega
  · rw [if_neg hover]
    constructor
    · intro _
      omega
    · intro _
      split
      · exact ⟨_, rfl⟩
      · exact ⟨_, rfl⟩

theorem rangeCheck_ok_eq (hoff : 0 ≤ offset.toInt) (hsize : fileSize < 2 ^ 63) {n : BitVec 64}
    (hn : rangeCheck fileSize offset len = .ok n) (hslip : ¬ Slips fileSize offset len) :
    (n.toNat : Int) = requestedBytes fileSize offset len := by
  obtain ⟨hint, hlt⟩ := toInt_eq_toNat hoff
  obtain ⟨hpos, hrange⟩ := (rangeCheck_ok_iff hoff).mp ⟨n, hn⟩
  have hle : offset.toInt + len.toNat ≤ fileSize :=
    hrange.resolve_right fun hwrap => hslip ⟨hpos, Or.inr hwrap⟩
  unfold rangeCheck at hn
  rw [if_neg (by omega)] at hn
  split at hn
  · cases hn
  · unfold requestedBytes
    split at hn
    · rename_i hlen
      cases hn
      rw [if_neg fun heq => by simp [heq] at hlen]
    · rename_i hlen
      cases hn
      rw [if_pos ((toNat_eq_zero_iff len).mp (by omega)), BitVec.toNat_sub, BitVec.toNat_ofNat]
      omega

/-- The checks are exact unless the request slips through. -/
theorem rangeCheck_exact_iff (hoff : 0 ≤ offset.toInt) (hsize : fileSize < 2 ^ 63) :
    ((∃ n, rangeCheck fileSize offset len = .ok n) ↔ InRange fileSize offset len) ↔
      ¬ Slips fileSize offset len := by
  obtain ⟨hint, hlt⟩ := toInt_eq_toNat hoff
  rw [rangeCheck_ok_iff hoff]
  unfold InRange requestedBytes Slips
  have hzero := toNat_eq_zero_iff len
  by_cases hlen : len = 0
  · simp only [hlen, if_true, true_and]
    rw [hlen] at hzero
    have hnone : (0 : BitVec 64).toNat = 0 := rfl
    omega
  · simp only [hlen, if_false, false_and, false_or]
    have hne : len.toNat ≠ 0 := fun h => hlen (hzero.mp h)
    omega

end Words

/-- What the checks of `add_xfer` and the transfer it makes are meant to satisfy for
a file of the given size. -/
def RangeExact (ans : Answers) (req : ProtRequest) (clientPid : Nat) (statFd destFd : Fd)
    (fileSize : Nat) (w : World) : Prop :=
  ((∃ n, rangeCheck fileSize req.offset req.len = .ok n) ↔
    InRange fileSize req.offset req.len) ∧
  wp (addXfer ans req clientPid statFd destFd)
    (fun o w' => ∀ p info, o = some (p, info) → ∃ x, w'.srv.xferAt p = some x ∧
      x.nbytesLeft = x.file.size ∧
      (x.file.size.toNat : Int) = requestedBytes fileSize req.offset req.len)
    (fun _ _ => True) w

section AddXfer

variable {ans : Answers} {w : World}

theorem Kernel.lock_of_true {start len : Int} {k : Kernel} (h : (k.lock ans start len).1 = true) :
    ∃ tick, ans.lock tick start len = none := by
  cases hlock : ans.lock k.tick start len with
  | none => exact ⟨k.tick, hlock⟩
  | some e => simp [Kernel.lock, Kernel.attempt, hlock] at h

/-- A file that was opened has been locked, and its size is that of a file. -/
theorem wp_fileOpenRead_locked (name : List UInt8) (offset len : BitVec 64) :
    wp (fileOpenRead ans name offset len) (fun o _ => ∀ fd info, o = some (fd, info) →
      info.size < 2 ^ 63 ∧ ∃ tick, ans.lock tick offset.toInt len.toInt = none)
      (fun _ _ => False) w := by
  generalize hQ : (fun (o : Option (Fd × FioStat)) (_ : World) => ∀ fd info,
    o = some (fd, info) → info.size < 2 ^ 63 ∧
      ∃ tick, ans.lock tick offset.toInt len.toInt = none) = Q
  have hnone : ∀ w', Q none w' := by
    subst hQ
    intro w' fd info h
    cases h
  have hfail : ∀ fd w', wp (do preserveErrno (close ans fd); pure none) Q
      (fun _ _ => False) w' := by
    intro fd w'
    simp only [wp_bind, wp_preserveErrno, close, wp_sys, wp_pure]
    exact hnone _
  simp only [fileOpenRead, wp_bind, wp_sys]
  cases hopen : (w.kern.openFile ans name).1 with
  | none => exact hnone _
  | some opened =>
      simp only [wp_bind, wp_sys]
      rw [wp_ite]
      refine ⟨fun _ => ?_, fun _ => hfail _ _⟩
      rw [wp_ite]
      refine ⟨fun _ => ?_, fun _ => ?_⟩
      · simp only [wp_bind, wp_sys]
        rw [wp_ite]
        refine ⟨fun hlock => ?_, fun _ => hfail _ _⟩
        have hlocked := Kernel.lock_of_true hlock
        have hdone : ∀ w', Q (some (opened.1, ⟨opened.2.size, opened.2.atime,
            opened.2.mtime, opened.2.ctime, opened.2.blksize % 2 ^ 32⟩)) w' := by
          subst hQ
          intro w' fd info h
          cases h
          exact ⟨opened.2.size_lt, hlocked⟩
        rw [wp_ite]
        refine ⟨fun _ => ?_, fun _ => hdone _⟩
        simp only [wp_bind, wp_sys]
        rw [wp_ite]
        exact ⟨fun _ => hdone _, fun _ => hfail _ _⟩
      · simp only [wp_bind, wp_setErrno]
        exact hfail _ _

theorem wp_malloc_any {Q : Option Addr → World → Prop} {E : Fault → World → Prop}
    (hQ : ∀ o w', Q o w') : wp (malloc ans) Q E w :=
  (wp_modifyGet _).mpr (hQ _ _)

/-- The transfer that is made has the number of bytes that was worked out. -/
theorem wp_insertXfer_size (req : ProtRequest) (clientPid : Nat) (statFd destFd fd : Fd)
    (info : FioStat) (nbytes : BitVec 64) :
    wp (insertXfer ans req clientPid statFd destFd fd info nbytes)
      (fun o w' => ∀ p info', o = some (p, info') → ∃ x, w'.srv.xferAt p = some x ∧
        x.nbytesLeft = x.file.size ∧ x.file.size = nbytes) (fun _ _ => True) w := by
  simp only [insertXfer, xferNew, wp_bind, wp_gets]
  refine wp_malloc_any fun o w₁ => ?_
  cases o with
  | none =>
      simp only [wp_pure, wp_bind, wp_preserveErrno, close, wp_sys]
      intro p info' h
      cases h
  | some addr =>
      simp only [wp_bind, wp_gets, wp_onSrv, wp_pure]
      cases hins : XferTable.insert (fun _ => w.srv.nextTxnid) w₁.srv.xfers w₁.srv.nextPtr with
      | none =>
          simp only [Server.newXfer, Server.setXfer, hins, wp_bind, wp_preserveErrno]
          refine wp_deleteXferAndCloseFileFd (by simp; rfl) ?_
          intro p info' h
          cases h
      | some table =>
          simp only [Server.newXfer, Server.setXfer, hins, wp_bind, wp_onSrv, wp_pure]
          intro p info' h
          cases h
          exact ⟨_, Function.update_self _ _ _, rfl, rfl⟩

end AddXfer

/-- For every file and every request that `open`, `fstat` and `fcntl` let through, the
checks are exact exactly when the request does not slip through. -/
theorem rangeExact_iff {ans : Answers} (hans : LockSound ans) {w w' : World} {req : ProtRequest}
    {fd : Fd} {info : FioStat} (hroom : w.srv.xfers.size ≠ w.srv.xfers.capacity)
    (hopen : fileOpenRead ans req.filename req.offset req.len w = .done (some (fd, info)) w')
    (clientPid : Nat) (statFd destFd : Fd) :
    RangeExact ans req clientPid statFd destFd info.size w ↔
      ¬ Slips info.size req.offset req.len := by
  obtain ⟨hsize, tick, hlock⟩ :=
    wp_done (wp_fileOpenRead_locked req.filename req.offset req.len) hopen fd info rfl
  have hoff := (hans tick _ _ hlock).1
  refine ⟨fun h => (rangeCheck_exact_iff hoff hsize).mp h.1, fun hslip => ?_⟩
  refine ⟨(rangeCheck_exact_iff hoff hsize).mpr hslip, ?_⟩
  simp only [addXfer, wp_bind, wp_gets, if_neg hroom]
  refine wp_of_done hopen ?_
  cases hrange : rangeCheck info.size req.offset req.len with
  | error e =>
      simp only [hrange, wp_bind, close, wp_sys, wp_setErrno, wp_pure]
      intro p info' h
      cases h
  | ok n =>
      simp only [hrange]
      refine wp_mono (wp_insertXfer_size req clientPid statFd destFd fd info n) ?_ fun _ _ h => h
      intro o w'' hmade p info' heq
      obtain ⟨x, hx, hleft, hn⟩ := hmade p info' heq
      exact ⟨x, hx, hleft, hn ▸ rangeCheck_ok_eq hoff hsize hrange hslip⟩

section Runs

open Scenario

theorem answers_lockSound (node : FileNode) : LockSound (answers node) := by
  intro tick start len h
  by_contra hnot
  simp [answers, hnot] at h

/-- The file opens, and the table has room. -/
def opens (req : ProtRequest) (s : State) : Bool :=
  s.world.srv.xfers.size != s.world.srv.xfers.capacity &&
    match fileOpenRead (answers tenBytes) req.filename req.offset req.len s.world with
    | .done (some (_, info)) _ => info.size == 10
    | _ => false

theorem of_opens {req : ProtRequest} {s : State} (h : opens req s = true) :
    s.world.srv.xfers.size ≠ s.world.srv.xfers.capacity ∧ ∃ fd info w',
      fileOpenRead (answers tenBytes) req.filename req.offset req.len s.world =
        .done (some (fd, info)) w' ∧ info.size = 10 := by
  obtain ⟨hroom, hopen⟩ := Bool.and_eq_true_iff.mp h
  refine ⟨by simpa using hroom, ?_⟩
  split at hopen
  · rename_i fd info w' heq
    exact ⟨fd, info, w', heq, by simpa using hopen⟩
  · cases hopen

/-- Bytes 4 to 8 of a file of ten. -/
def middleRequest : ProtRequest := ⟨.read, 4, 5, [102], 1⟩

theorem rangeExact_iff_of_middleRequest : ∃ s fd info w', server.Reachable System.always s ∧
    fileOpenRead (answers tenBytes) [102] 4 5 s.world = .done (some (fd, info)) w' ∧
    RangeExact (answers tenBytes) middleRequest 100 6 6 info.size s.world := by
  obtain ⟨s, hr, hP⟩ := exists_reachable System.always 4 4 [] (opens middleRequest)
    (by decide +kernel)
  obtain ⟨hroom, fd, info, w', hopen, hsize⟩ := of_opens hP
  refine ⟨s, fd, info, w', hr, hopen, (rangeExact_iff (answers_lockSound tenBytes) hroom hopen
    100 6 6).mpr ?_⟩
  rw [hsize]
  unfold Slips
  decide

/-- The rest of a file of ten bytes from its end. -/
def emptyRequest : ProtRequest := ⟨.read, 10, 0, [102], 1⟩

/-- A request for nothing is accepted. -/
theorem emptyRequest_accepted : ∃ s fd info w', server.Reachable System.always s ∧
    fileOpenRead (answers tenBytes) [102] 10 0 s.world = .done (some (fd, info)) w' ∧
    ¬ RangeExact (answers tenBytes) emptyRequest 100 6 6 info.size s.world := by
  obtain ⟨s, hr, hP⟩ := exists_reachable System.always 4 4 [] (opens emptyRequest)
    (by decide +kernel)
  obtain ⟨-, fd, info, w', hopen, hsize⟩ := of_opens hP
  refine ⟨s, fd, info, w', hr, hopen, fun hexact => ?_⟩
  rw [hsize] at hexact
  have hout : ¬ InRange 10 10 0 := by decide
  exact hout (hexact.1.mp ⟨0, rfl⟩)

end Runs

end Sendfiled
