/-
One call of `transfer_file`: the rounds of its loop and the ways it ends.
-/
import Sendfiled.Responses
import Sendfiled.DeferredList
import Sendfiled.Wakeups

namespace Sendfiled

open Prog

variable {ans : Answers} {p : Ptr} {x y : ResrcXfer} {w w₁ w' : World} {total : Nat}
  {tr : List Effect} {E : Fault → World → Prop}

/-- The size that the loop asks for when it has written `total` bytes. -/
def World.writeSize (w : World) (x : ResrcXfer) (total : Nat) : Nat :=
  min x.file.blksize (min x.nbytesLeft.toNat (w.srv.pipeCapacity - total))

/-- A transfer after `n` more of its bytes were written. -/
def ResrcXfer.wrote (x : ResrcXfer) (n : Nat) : ResrcXfer :=
  { x with nbytesLeft := x.nbytesLeft - BitVec.ofNat 64 n }

/-- `splice` or `sendfile` as the loop calls it. -/
def World.transfers (w : World) (ans : Answers) (p : Ptr) (x : ResrcXfer) (total : Nat) :
    Except Errno Nat × Kernel :=
  w.kern.moveBytes ans p x.file.fd x.destFd (w.writeSize x total)

/-- A round of the loop that leads to the next one: something was written, something is left
and there is room in the pipe. -/
inductive NextRound (ans : Answers) (p : Ptr) : World × Nat → World × Nat → Prop
  | intro {w : World} {k : Kernel} {x : ResrcXfer} {total n : Nat} (hx : w.srv.xferAt p = some x)
      (hsize : 0 < w.writeSize x total) (hio : w.transfers ans p x total = (.ok n, k))
      (hpos : 0 < n) (hleft : (x.wrote n).nbytesLeft ≠ 0)
      (hroom : total + n < w.srv.pipeCapacity) :
      NextRound ans p (w, total) (⟨w.srv.setXfer p (x.wrote n), k⟩, total + n)

/-- The loop comes round to its head. -/
abbrev Rounds (ans : Answers) (p : Ptr) : World × Nat → World × Nat → Prop :=
  Relation.ReflTransGen (NextRound ans p)

/-- One round, whichever way it ends. -/
theorem wp_transferLoop_succ {fuel : Nat} {Q : Bool → World → Prop}
    (hx : w.srv.xferAt p = some x) (hsize : 0 < w.writeSize x total)
    (hfail : ∀ e k, w.transfers ans p x total = (.error e, k) →
      wp (transferError ans p total) Q E ⟨w.srv, k⟩)
    (hzero : ∀ k, w.transfers ans p x total = (.ok 0, k) → E (.assertion .nwritten) ⟨w.srv, k⟩)
    (hdone : ∀ n k, w.transfers ans p x total = (.ok n, k) → 0 < n →
      (x.wrote n).nbytesLeft = 0 →
      wp (completeXfer ans p) Q E ⟨w.srv.setXfer p (x.wrote n), k⟩)
    (hfull : ∀ n k, w.transfers ans p x total = (.ok n, k) → 0 < n →
      (x.wrote n).nbytesLeft ≠ 0 → w.srv.pipeCapacity ≤ total + n →
      wp (if x.defer = .none then do deferReady p; pure true else pure true) Q E
        ⟨w.srv.setXfer p (x.wrote n), k⟩)
    (hnext : ∀ w' total', NextRound ans p (w, total) (w', total') →
      wp (transferLoop ans p fuel total') Q E w') :
    wp (transferLoop ans p (fuel + 1) total) Q E w := by
  simp only [transferLoop, wp_bind]
  refine wp_getXfer_live hx ?_
  simp only [wp_gets, wp_assert, fileTransfer, wp_sys]
  refine ⟨fun _ => ?_, fun hnot => absurd hsize hnot⟩
  have hcall : w.kern.moveBytes ans p x.file.fd x.destFd (min x.file.blksize
      (min x.nbytesLeft.toNat (w.srv.pipeCapacity - total))) = w.transfers ans p x total := rfl
  rw [hcall]
  rcases hio : w.transfers ans p x total with ⟨e | n, k⟩
  · exact hfail e k hio
  simp only [wp_bind, wp_assert, wp_onSrv]
  refine ⟨fun hpos => ?_, fun hnot => ?_⟩
  · rw [wp_ite]
    refine ⟨fun hleft => hdone n k hio hpos hleft, fun hleft => ?_⟩
    rw [wp_ite]
    refine ⟨fun hroom => hfull n k hio hpos hleft hroom, fun hroom => ?_⟩
    exact hnext _ _ (.intro hx hsize hio hpos hleft (Nat.not_le.mp hroom))
  · have hn : n = 0 := Nat.eq_zero_of_not_pos hnot
    subst hn
    exact hzero k hio

/-- The loop goes on from the next round. -/
theorem NextRound.transferLoop_eq {c c' : World × Nat} (h : NextRound ans p c c') (fuel : Nat) :
    transferLoop ans p (fuel + 1) c.2 c.1 = transferLoop ans p fuel c'.2 c'.1 := by
  refine outcome_eq fun Q E hwp => ?_
  cases h with
  | @intro w k x total n hx hsize hio hpos hleft hroom =>
      refine wp_transferLoop_succ hx hsize ?_ ?_ ?_ ?_ ?_
      · intro e k' hio'
        rw [hio] at hio'
        cases hio'
      · intro k' hio'
        rw [hio] at hio'
        cases hio'
        exact absurd hpos (Nat.lt_irrefl 0)
      · intro m k' hio' _ hzero
        rw [hio] at hio'
        cases hio'
        exact absurd hzero hleft
      · intro m k' hio' _ _ hfull
        rw [hio] at hio'
        cases hio'
        exact absurd hfull (Nat.not_le.mpr hroom)
      · intro w' total' hnext
        cases hnext with
        | intro hx' hsize' hio' =>
            rw [hx] at hx'
            cases hx'
            rw [hio] at hio'
            cases hio'
            exact hwp

/-- Some rounds were taken: the transfer `x` has become `y`, and what was written is in `tr`. -/
structure Advanced (p : Ptr) (x : ResrcXfer) (w : World) (y : ResrcXfer) (tr : List Effect)
    (w₁ : World) : Prop where
  moves : Moves p x y tr
  srv : w₁.srv = w.srv.setXfer p y
  trace : w₁.kern.trace = w.kern.trace ++ tr

namespace Advanced

theorem refl (hx : w.srv.xferAt p = some x) : Advanced p x w x [] w :=
  ⟨Moves.refl p x, (Server.setXfer_self hx).symm, (List.append_nil _).symm⟩

theorem xfer (h : Advanced p x w y tr w₁) : w₁.srv.xferAt p = some y := by
  rw [h.srv]
  simp [Server.setXfer]

theorem pipeCapacity (h : Advanced p x w y tr w₁) : w₁.srv.pipeCapacity = w.srv.pipeCapacity := by
  rw [h.srv]
  rfl

/-- One more write. -/
theorem wrote {n : Nat} {k : Kernel} (h : Advanced p x w y tr w₁)
    (hio : w₁.transfers ans p y total = (.ok n, k)) :
    ∃ bytes, bytes.length = n ∧ n ≤ w₁.writeSize y total ∧
      Advanced p x w (y.wrote n) (tr ++ [.moved p x.destFd bytes])
        ⟨w₁.srv.setXfer p (y.wrote n), k⟩ := by
  obtain ⟨bytes, hlen, htrace⟩ := Kernel.moveBytes_trace ans _ hio
  have hle : n ≤ w₁.writeSize y total := by
    obtain ⟨e, k', heq, -⟩ | ⟨m, k', heq, hm⟩ :=
      Kernel.moveBytes_spec ans p y.file.fd y.destFd (w₁.writeSize y total) w₁.kern
    · rw [World.transfers, heq] at hio
      cases hio
    · rw [World.transfers, heq] at hio
      cases hio
      exact hm
  have hleft : (y.wrote n).nbytesLeft.toNat + bytes.length = y.nbytesLeft.toNat := by
    have hlt := y.nbytesLeft.isLt
    unfold World.writeSize at hle
    simp only [ResrcXfer.wrote, BitVec.toNat_sub, BitVec.toNat_ofNat, hlen]
    omega
  refine ⟨bytes, hlen, hle, h.moves.snoc hleft, ?_, ?_⟩
  · rw [h.srv]
    simp [Server.setXfer]
  · change k.trace = _
    rw [htrace, h.trace, List.append_assoc, h.moves.destFd]

end Advanced

/-- The loop at its head: bytes are left, and the pipe has room. -/
structure AtHead (p : Ptr) (x : ResrcXfer) (w : World) (y : ResrcXfer) (tr : List Effect)
    (w₁ : World) (total : Nat) : Prop where
  advanced : Advanced p x w y tr w₁
  left : y.nbytesLeft ≠ 0
  count : (movedBy p tr).length = total
  room : total < w.srv.pipeCapacity

theorem AtHead.start (hx : w.srv.xferAt p = some x) (hleft : x.nbytesLeft ≠ 0)
    (hcapacity : 0 < w.srv.pipeCapacity) : AtHead p x w x [] w 0 :=
  ⟨Advanced.refl hx, hleft, rfl, hcapacity⟩

/-- At every round the loop is at its head again. -/
theorem Rounds.atHead (h : Rounds ans p (w, 0) (w₁, total)) (hx : w.srv.xferAt p = some x)
    (hleft : x.nbytesLeft ≠ 0) (hcapacity : 0 < w.srv.pipeCapacity) :
    ∃ y tr, AtHead p x w y tr w₁ total := by
  generalize hc : (w₁, total) = c at h
  induction h generalizing w₁ total with
  | refl =>
      cases hc
      exact ⟨x, [], .start hx hleft hcapacity⟩
  | tail _ hround ih =>
      cases hround with
      | @intro w₂ k z total₂ n hz hsize hio hpos hmore hroom =>
          cases hc
          obtain ⟨y, tr, hhead⟩ := ih rfl
          have hsame : y = z := Option.some.inj (hhead.advanced.xfer.symm.trans hz)
          subst hsame
          obtain ⟨bytes, hlen, -, hadvanced⟩ := hhead.advanced.wrote hio
          refine ⟨y.wrote n, tr ++ [.moved p x.destFd bytes], hadvanced, hmore, ?_, ?_⟩
          · rw [movedBy_snoc, hhead.count, hlen]
          · rw [hhead.advanced.pipeCapacity] at hroom
            exact hroom

/-- At every round the call goes on as the loop does from there. -/
theorem Rounds.transferFile_eq (h : Rounds ans p (w, 0) (w₁, total))
    (hx : w.srv.xferAt p = some x) (hcmd : x.cmd = .read ∨ x.cmd = .send)
    (hleft : x.nbytesLeft ≠ 0) (hcapacity : 0 < w.srv.pipeCapacity) :
    ∃ fuel, transferFile ans p w = transferLoop ans p (fuel + 1) total w₁ := by
  have hbound : ∃ fuel, w.srv.pipeCapacity < fuel + 1 + total ∧
      transferFile ans p w = transferLoop ans p (fuel + 1) total w₁ := by
    generalize hc : (w₁, total) = c at h
    induction h generalizing w₁ total with
    | refl =>
        cases hc
        refine ⟨w.srv.pipeCapacity, by omega, outcome_eq fun Q E hwp => ?_⟩
        simp only [transferFile, wp_bind]
        refine wp_getXfer_live hx ?_
        rcases hcmd with hcmd | hcmd
        · rw [hcmd]
          exact hwp
        · rw [hcmd]
          exact hwp
    | @tail c₁ _ hrounds hround ih =>
        cases hc
        obtain ⟨w₂, total₂⟩ := c₁
        obtain ⟨fuel, hfuel, heq⟩ := ih rfl
        obtain ⟨y, tr, hhead⟩ := Rounds.atHead (hrounds.tail hround) hx hleft hcapacity
        have hless : total₂ < total := by
          cases hround with
          | intro _ _ _ hpos => omega
        have hroom := hhead.room
        cases fuel with
        | zero => omega
        | succ fuel =>
            refine ⟨fuel, by omega, heq.trans ?_⟩
            exact hround.transferLoop_eq (fuel + 1)
  obtain ⟨fuel, -, heq⟩ := hbound
  exact ⟨fuel, heq⟩

/-- Every write that the loop asks for is of at least one byte and of no more than are left. -/
theorem AtHead.writeSize_bounds (h : AtHead p x w y tr w₁ total) (hblksize : 0 < x.file.blksize) :
    1 ≤ w₁.writeSize y total ∧ w₁.writeSize y total ≤ y.nbytesLeft.toNat := by
  have hpos : 0 < y.nbytesLeft.toNat := by
    by_contra hzero
    exact h.left (BitVec.eq_of_toNat_eq (by simp; omega))
  have hfile : y.file = x.file := by rw [h.advanced.moves.record]
  have hroom := h.room
  unfold World.writeSize
  rw [h.advanced.pipeCapacity, hfile]
  omega

/-- The end of a transfer is reported on its status channel, if it has one. -/
inductive ReportEnds (ans : Answers) (p : Ptr) (x : ResrcXfer) (pdu : Pdu) (w : World) :
    World → Prop
  | silent (hshared : x.statFd = x.destFd) : ReportEnds ans p x pdu w w
  | notified {w' : World} (hchannel : x.statFd ≠ x.destFd)
      (h : NoticeEnds ans p x.statFd pdu w w') : ReportEnds ans p x pdu w w'

/-- The progress message of a call that was blocked after `total` bytes, if there is a status
channel. -/
def progressNote (p : Ptr) (x : ResrcXfer) (total : Nat) (result : Except Errno Nat) :
    List Effect :=
  if x.statFd = x.destFd then [] else [.sent (some p) x.statFd (.xferStat total) result]

/-- The ways a call of `transfer_file` ends: the pipe is full and the transfer is in the
deferred list, everything was written, a write would block, the status channel failed then,
or a write failed for good. -/
inductive CallEnds (ans : Answers) (p : Ptr) (x : ResrcXfer) (w : World) : Bool → World → Prop
  | full {y : ResrcXfer} {tr : List Effect} {w₁ : World} (h : Advanced p x w y tr w₁)
      (hleft : y.nbytesLeft ≠ 0) (hcount : (movedBy p tr).length = w.srv.pipeCapacity) :
      CallEnds ans p x w true
        ⟨{ w₁.srv.setXfer p { y with defer := .ready } with
          deferredXfers := if x.defer = .none then w.srv.deferredXfers ++ [p]
            else w.srv.deferredXfers }, w₁.kern⟩
  | completed {y : ResrcXfer} {tr : List Effect} {w₁ w' : World} (h : Advanced p x w y tr w₁)
      (hleft : y.nbytesLeft = 0) (hcount : (movedBy p tr).length ≤ w.srv.pipeCapacity)
      (hreport : ReportEnds ans p y (.xferStat protXferComplete) w₁ w') :
      CallEnds ans p x w false w'
  | blocked {y : ResrcXfer} {tr : List Effect} {w₁ : World} {k : Kernel} {e : Errno}
      {result : Except Errno Nat} (h : AtHead p x w y tr w₁ (movedBy p tr).length)
      (he : errnoIsFatal e = false)
      (htrace : k.trace = w₁.kern.trace ++ .failed p x.destFd e ::
        progressNote p x (movedBy p tr).length result)
      (hresult : ∀ e', result = .error e' → errnoIsFatal e' = false) :
      CallEnds ans p x w true ⟨w₁.srv.setXfer p { y with defer := .none }, k⟩
  | muted {y : ResrcXfer} {tr : List Effect} {w₁ : World} {k : Kernel} {e e' : Errno}
      (h : AtHead p x w y tr w₁ (movedBy p tr).length) (he : errnoIsFatal e = false)
      (hchannel : x.statFd ≠ x.destFd)
      (htrace : k.trace = w₁.kern.trace ++ [.failed p x.destFd e,
        .sent (some p) x.statFd (.xferStat (movedBy p tr).length) (.error e')])
      (he' : errnoIsFatal e' = true) : CallEnds ans p x w false ⟨w₁.srv, k⟩
  | broken {y : ResrcXfer} {tr : List Effect} {w₁ w' : World} {k : Kernel} {e : Errno}
      (h : AtHead p x w y tr w₁ (movedBy p tr).length) (he : errnoIsFatal e = true)
      (htrace : k.trace = w₁.kern.trace ++ [.failed p x.destFd e])
      (hreport : ReportEnds ans p y (.hdr .xferStat (e % 256)) ⟨w₁.srv, k⟩ w') :
      CallEnds ans p x w false w'

/-- What stops a call: a status message that is written in part or cannot be kept, or a file
that is at its end before everything was written. -/
inductive CallStops (ans : Answers) (p : Ptr) (w : World) : Fault → World → Prop
  | disrupted {e : Fault} {w' : World} {tr : List Effect} (he : ans.Disrupts w'.srv e)
      (htrace : w'.kern.trace = w.kern.trace ++ tr)
      (hcount : (movedBy p tr).length ≤ w.srv.pipeCapacity) : CallStops ans p w e w'
  | atEnd {w₁ : World} {total : Nat} {y : ResrcXfer} {k : Kernel}
      (hrounds : Rounds ans p (w, 0) (w₁, total)) (hy : w₁.srv.xferAt p = some y)
      (hio : w₁.transfers ans p y total = (.ok 0, k)) :
      CallStops ans p w (.assertion .nwritten) ⟨w₁.srv, k⟩

section Endings

/-- What a fault of a notice leaves behind. -/
def NoticeStops (ans : Answers) (p : Ptr) (w : World) (e : Fault) (w' : World) : Prop :=
  ans.Disrupts w.srv e ∧ w'.srv = w.srv ∧
    ∃ tr, w'.kern.trace = w.kern.trace ++ tr ∧ movedBy p tr = []

/-- The three endings of `send_pdu`. -/
theorem wp_sendPdu_cases {xfer : Option Ptr} {fd : Fd} {pdu : Pdu} {Q : Bool → World → Prop}
    (hsent : ∀ k, (w.kern.log (.sent xfer fd pdu (.ok pdu.size))).Quiet k → Q true ⟨w.srv, k⟩)
    (hunsent : ∀ k, (w.kern.log (.sent xfer fd pdu (.error k.errno))).Quiet k →
      Q false ⟨w.srv, k⟩)
    (hshort : ∀ k n, (w.kern.log (.sent xfer fd pdu (.ok n))).Quiet k → n ≠ pdu.size →
      ans.write w.kern.tick pdu.size = .ok n → E (.assertion .sendPduWhole) ⟨w.srv, k⟩) :
    wp (sendPdu ans xfer fd pdu) Q E w := by
  simp only [sendPdu, wp_bind, wp_sys]
  unfold Kernel.write
  cases w.kern.fds.lookup fd with
  | none => exact hunsent _ (Kernel.quiet_fail _ _)
  | some f =>
      cases hwrite : ans.write w.kern.tick pdu.size with
      | error e => exact hunsent _ (Kernel.quiet_fail _ _)
      | ok n =>
          simp only [wp_bind, wp_assert, wp_pure]
          refine ⟨fun hn => ?_, fun hn => hshort _ n (Kernel.quiet_succeed _) hn hwrite⟩
          subst hn
          exact hsent _ (Kernel.quiet_succeed _)

theorem wp_hasStatChannel_cases (hx : w.srv.xferAt p = some x)
    (hstat : x.statFd = x.destFd ∨ x.cmd = .send) {Q : Bool → World → Prop}
    (hQ : Q (decide (x.statFd ≠ x.destFd)) w) : wp (hasStatChannel p) Q E w := by
  simp only [hasStatChannel, wp_bind]
  refine wp_getXfer_live hx ?_
  simp only [wp_assert, wp_pure]
  exact ⟨fun _ => hQ, fun hnot => absurd hstat hnot⟩

/-- The last thing a call does for a transfer that is at its end. -/
theorem wp_report (hx : w.srv.xferAt p = some x) (hstat : x.statFd = x.destFd ∨ x.cmd = .send)
    (pdu : Pdu) :
    wp (do
      if ← hasStatChannel p then
        sendTerminalResp ans p pdu
        pure false
      else pure false)
      (fun b w' => b = false ∧ ReportEnds ans p x pdu w w') (NoticeStops ans p w) w := by
  rw [wp_bind]
  refine wp_hasStatChannel_cases hx hstat ?_
  by_cases hshared : x.statFd = x.destFd
  · simp only [hshared, ne_eq, not_true, decide_false, Bool.false_eq_true, if_false, wp_pure]
    exact ⟨trivial, .silent hshared⟩
  · simp only [hshared, ne_eq, not_false_eq_true, decide_true, if_true, wp_bind, wp_pure]
    exact wp_mono (wp_sendTerminalResp_ends hx) (fun _ w' h => ⟨trivial, .notified hshared h⟩)
      fun _ _ h => h.2

theorem NoticeStops.call {e : Fault} (h : Advanced p x w y tr w₁) {tr' : List Effect} {k : Kernel}
    (hk : k.trace = w₁.kern.trace ++ tr') (hmoved : movedBy p tr' = [])
    (hcount : (movedBy p tr).length ≤ w.srv.pipeCapacity)
    (hstops : NoticeStops ans p ⟨w₁.srv, k⟩ e w') : CallStops ans p w e w' := by
  obtain ⟨he, hsrv, tr'', htrace, hnone⟩ := hstops
  rw [← hsrv] at he
  refine @CallStops.disrupted _ _ _ _ _ (tr ++ tr' ++ tr'') he ?_ ?_
  · rw [htrace, hk, h.trace]
    simp only [List.append_assoc]
  · rw [movedBy_append, movedBy_append, hmoved, hnone, List.append_nil, List.append_nil]
    exact hcount

section Call

variable (hstat : x.statFd = x.destFd ∨ x.cmd = .send)

include hstat in
/-- A write that failed ends the transfer for good or until it is writable again. -/
theorem wp_transferError_call {k : Kernel} {e : Errno} (h : AtHead p x w y tr w₁ total)
    (herrno : k.errno = e) (hk : (w₁.kern.log (.failed p x.destFd e)).Quiet k) :
    wp (transferError ans p total) (CallEnds ans p x w) (CallStops ans p w) ⟨w₁.srv, k⟩ := by
  have hy : w₁.srv.xferAt p = some y := h.advanced.xfer
  have hystat : y.statFd = x.statFd := h.advanced.moves.statFd
  have hydest : y.destFd = x.destFd := h.advanced.moves.destFd
  have hstat' : y.statFd = y.destFd ∨ y.cmd = .send := by
    rw [hystat, hydest, h.advanced.moves.cmd]
    exact hstat
  have hle : (movedBy p tr).length ≤ w.srv.pipeCapacity := by
    rw [h.count]
    exact Nat.le_of_lt h.room
  have hcount := h.count
  subst hcount
  have hblocked : ∀ k' result, k'.trace = w₁.kern.trace ++ .failed p x.destFd e ::
      progressNote p x (movedBy p tr).length result → errnoIsFatal e = false →
      (∀ e', result = .error e' → errnoIsFatal e' = false) →
      wp (do setDefer p .none; pure true) (CallEnds ans p x w) (CallStops ans p w)
        ⟨w₁.srv, k'⟩ := by
    intro k' result htrace he hresult
    have hends : CallEnds ans p x w true _ := .blocked h he htrace hresult
    simp only [wp_bind, wp_pure]
    exact wp_setDefer (by exact hy) hends
  simp only [transferError, wp_bind, wp_getErrno, herrno]
  rw [wp_ite]
  refine ⟨fun hfatal => ?_, fun hfatal => ?_⟩
  · refine wp_mono (wp_report (by exact hy) hstat' _) ?_ ?_
    · rintro b w' ⟨rfl, hreport⟩
      exact .broken h hfatal hk.trace hreport
    · exact fun _ _ hstops => hstops.call h.advanced hk.trace rfl hle
  have he : errnoIsFatal e = false := Bool.eq_false_iff.mpr hfatal
  simp only [wp_bind]
  refine wp_getXfer_live (by exact hy) ?_
  rw [if_neg h.left, wp_bind]
  refine wp_hasStatChannel_cases (by exact hy) hstat' ?_
  rw [hystat, hydest]
  by_cases hshared : x.statFd = x.destFd
  · rw [decide_eq_false (not_not.mpr hshared), if_neg (by decide)]
    refine hblocked k (.ok 0) ?_ he (by simp)
    rw [progressNote, if_pos hshared]
    exact hk.trace
  rw [decide_eq_true hshared, if_pos rfl, wp_bind]
  refine wp_sendPdu_cases (fun k' hk' => ?_) (fun k' hk' => ?_) fun k' n hk' hn hwrite => ?_
  · rw [if_pos rfl]
    refine hblocked k' (.ok (Pdu.xferStat (movedBy p tr).length).size) ?_ he (by simp)
    rw [progressNote, if_neg hshared, show k'.trace = _ from hk'.trace]
    change k.trace ++ _ = _
    rw [show k.trace = _ from hk.trace]
    exact List.append_assoc ..
  · have htrace : k'.trace = w₁.kern.trace ++ [.failed p x.destFd e,
        .sent (some p) x.statFd (.xferStat (movedBy p tr).length) (.error k'.errno)] := by
      rw [show k'.trace = _ from hk'.trace]
      change k.trace ++ _ = _
      rw [show k.trace = _ from hk.trace]
      exact List.append_assoc ..
    rw [if_neg (by decide)]
    simp only [wp_bind, wp_getErrno]
    rw [wp_ite]
    refine ⟨fun hlost => .muted h he hshared htrace hlost, fun hlater => ?_⟩
    refine hblocked k' (.error k'.errno) ?_ he fun e' he' => ?_
    · rw [progressNote, if_neg hshared]
      exact htrace
    · cases he'
      exact Bool.eq_false_iff.mpr hlater
  · have hstops : NoticeStops ans p ⟨w₁.srv, k⟩ (.assertion .sendPduWhole) ⟨w₁.srv, k'⟩ :=
      ⟨Or.inl ⟨rfl, _, _, n, hwrite, hn⟩, rfl, [.sent (some p) x.statFd _ (.ok n)], hk'.trace, rfl⟩
    exact hstops.call h.advanced hk.trace rfl hle

include hstat in
/-- The rounds from one head of the loop on, by induction on the rounds that are left. -/
theorem wp_transferLoop_call (hx : w.srv.xferAt p = some x) (hdefer : x.defer ≠ .cancel)
    (hleft : x.nbytesLeft ≠ 0) (hblksize : 0 < x.file.blksize)
    (hlist : x.defer = .none → w.srv.deferredXfers.length < w.srv.xfers.size) (fuel : Nat)
    (hrounds : Rounds ans p (w, 0) (w₁, total)) (h : AtHead p x w y tr w₁ total)
    (hfuel : w.srv.pipeCapacity < total + fuel) :
    wp (transferLoop ans p fuel total) (CallEnds ans p x w) (CallStops ans p w) w₁ := by
  induction fuel generalizing w₁ total y tr with
  | zero =>
      have hroom := h.room
      omega
  | succ fuel ih =>
      have hy : w₁.srv.xferAt p = some y := h.advanced.xfer
      have hydefer : y.defer = x.defer := by rw [h.advanced.moves.record]
      have hstat' : y.statFd = y.destFd ∨ y.cmd = .send := by
        rw [h.advanced.moves.statFd, h.advanced.moves.destFd, h.advanced.moves.cmd]
        exact hstat
      -- no write exceeds the room that was left
      have hwrote : ∀ n k, w₁.transfers ans p y total = (.ok n, k) → ∃ bytes,
          (movedBy p (tr ++ [.moved p x.destFd bytes])).length = total + n ∧
          total + n ≤ w.srv.pipeCapacity ∧
          Advanced p x w (y.wrote n) (tr ++ [.moved p x.destFd bytes])
            ⟨w₁.srv.setXfer p (y.wrote n), k⟩ := by
        intro n k hio
        obtain ⟨bytes, hlen, hle, hadvanced⟩ := h.advanced.wrote hio
        have hroom := h.room
        unfold World.writeSize at hle
        rw [h.advanced.pipeCapacity] at hle
        refine ⟨bytes, ?_, by omega, hadvanced⟩
        rw [movedBy_snoc, h.count, hlen]
      refine wp_transferLoop_succ hy (h.writeSize_bounds hblksize).1 ?_ ?_ ?_ ?_ ?_
      · intro e k hio
        obtain ⟨e', k', heq, herrno, -, hk⟩ | ⟨m, k', heq, -⟩ :=
          Kernel.moveBytes_spec ans p y.file.fd y.destFd (w₁.writeSize y total) w₁.kern
        · rw [World.transfers, heq] at hio
          cases hio
          rw [h.advanced.moves.destFd] at hk
          exact wp_transferError_call hstat h herrno hk
        · rw [World.transfers, heq] at hio
          cases hio
      · intro k hio
        exact .atEnd hrounds hy hio
      · intro n k hio _ hleft
        obtain ⟨bytes, hcount, hle, hadvanced⟩ := hwrote n k hio
        refine wp_mono (wp_report hadvanced.xfer hstat' _) ?_ ?_
        · rintro b w' ⟨rfl, hreport⟩
          exact .completed hadvanced hleft (by rw [hcount]; exact hle) hreport
        · intro e w' hstops
          exact hstops.call hadvanced (List.append_nil _).symm rfl (by rw [hcount]; exact hle)
      · intro n k hio _ hleft hfull
        obtain ⟨bytes, hcount, hle, hadvanced⟩ := hwrote n k hio
        rw [h.advanced.pipeCapacity] at hfull
        have hends : CallEnds ans p x w true _ := .full hadvanced hleft (by omega)
        have hxs : w₁.srv.deferredXfers = w.srv.deferredXfers := by
          rw [h.advanced.srv]
          rfl
        rw [wp_ite]
        refine ⟨fun hnone => ?_, fun hsome => ?_⟩
        · have hxnone : x.defer = .none := hydefer ▸ hnone
          rw [if_pos hxnone] at hends
          simp only [deferReady, wp_bind]
          refine wp_getXfer_live hadvanced.xfer ?_
          simp only [wp_gets, wp_assert]
          refine ⟨fun _ => ⟨fun _ => ?_, fun hnot => absurd ?_ hnot⟩, fun hnot => absurd ?_ hnot⟩
          · simp only [pushDeferred, wp_onSrv, wp_pure]
            refine wp_setDefer (by exact hadvanced.xfer) ?_
            simp only [Server.setXfer, hxs] at hends ⊢
            exact hends
          · change w₁.srv.deferredXfers.length < w₁.srv.xfers.size
            rw [hxs, h.advanced.srv]
            exact hlist hxnone
          · change y.defer ≠ .cancel
            rw [hnone]
            decide
        · have hready : y.defer = .ready := by
            cases hd : y.defer with
            | none => exact absurd hd hsome
            | ready => rfl
            | cancel => exact absurd (hydefer ▸ hd) hdefer
          have hxready : x.defer ≠ .none := by
            rw [← hydefer, hready]
            decide
          have hsame : { y.wrote n with defer := .ready } = y.wrote n := by
            simp only [ResrcXfer.wrote, ← hready]
          rw [if_neg hxready, hsame] at hends
          simp only [wp_pure]
          have hworld : ({ (w₁.srv.setXfer p (y.wrote n)).setXfer p (y.wrote n) with
              deferredXfers := w.srv.deferredXfers } : Server) = w₁.srv.setXfer p (y.wrote n) := by
            rw [Server.setXfer_self hadvanced.xfer, ← hxs]
            rfl
          rw [hworld] at hends
          exact hends
      · intro w₂ total₂ hnext
        have hrounds₂ := Relation.ReflTransGen.tail hrounds hnext
        obtain ⟨y₂, tr₂, hhead⟩ := Rounds.atHead hrounds₂ hx hleft (Nat.zero_lt_of_lt h.room)
        refine ih hrounds₂ hhead ?_
        cases hnext with
        | intro _ _ _ hpos => omega

include hstat in
/-- How `transfer_file` ends for a transfer that can be served. -/
theorem wp_transferFile_call (hx : w.srv.xferAt p = some x) (hdefer : x.defer ≠ .cancel)
    (hcmd : x.cmd = .read ∨ x.cmd = .send) (hleft : x.nbytesLeft ≠ 0)
    (hblksize : 0 < x.file.blksize) (hcapacity : 0 < w.srv.pipeCapacity)
    (hlist : x.defer = .none → w.srv.deferredXfers.length < w.srv.xfers.size) :
    wp (transferFile ans p) (CallEnds ans p x w) (CallStops ans p w) w := by
  have hloop : wp (transferLoop ans p (w.srv.pipeCapacity + 1) 0) (CallEnds ans p x w)
      (CallStops ans p w) w :=
    wp_transferLoop_call hstat hx hdefer hleft hblksize hlist _ Relation.ReflTransGen.refl
      (.start hx hleft hcapacity) (by omega)
  simp only [transferFile, wp_bind]
  refine wp_getXfer_live hx ?_
  rcases hcmd with hcmd | hcmd
  · rw [hcmd]
    exact hloop
  · rw [hcmd]
    exact hloop

end Call

end Endings

section Contract

theorem lastIo_failed {fd : Fd} {e : Errno} {tr' : List Effect} (h : tr'.filter Effect.isIo = []) :
    lastIo p (tr ++ .failed p fd e :: tr') = some (.failed p fd e) := by
  have hnone : tr'.filter (fun e => e.isIo && e.onBehalf == some p) = [] := by
    rw [List.filter_eq_nil_iff] at h ⊢
    intro e he hio
    exact h e he (Bool.and_eq_true_iff.mp hio).1
  rw [List.append_cons, lastIo, List.filter_append, hnone, List.append_nil]
  exact lastIo_append_failed p tr fd e

/-- A report concerns the status channel only. -/
structure Aside (p : Ptr) (w w' : World) (tr : List Effect) : Prop where
  xferAt : w'.srv.xferAt = w.srv.xferAt
  xfers : w'.srv.xfers = w.srv.xfers
  deferredXfers : w'.srv.deferredXfers = w.srv.deferredXfers
  pipeCapacity : w'.srv.pipeCapacity = w.srv.pipeCapacity
  trace : w'.kern.trace = w.kern.trace ++ tr
  silent : tr.filter Effect.isIo = []

theorem NoticeEnds.aside {fd : Fd} {pdu : Pdu} (h : NoticeEnds ans p fd pdu w w') :
    ∃ tr, Aside p w w' tr ∧ ∀ e ∈ tr, ∀ fd' pdu' result,
      e = .sent (some p) fd' pdu' result → pdu' = pdu := by
  have hsame : ∀ result (e : Effect), e ∈ [Effect.sent (some p) fd pdu result] →
      ∀ fd' pdu' result', e = .sent (some p) fd' pdu' result' → pdu' = pdu := by
    intro result e he fd' pdu' result' heq
    rw [List.mem_singleton.mp he] at heq
    cases heq
    rfl
  cases h with
  | settled hk _ => exact ⟨_, ⟨rfl, rfl, rfl, rfl, hk.trace, rfl⟩, hsame _⟩
  | unduplicated _ hk _ => exact ⟨_, ⟨rfl, rfl, rfl, rfl, hk.trace, rfl⟩, hsame _⟩
  | refused _ _ _ hs _ _ htrace =>
      refine ⟨_, ⟨hs.xferAt, hs.xfers, hs.deferredXfers, hs.pipeCapacity, htrace, rfl⟩, ?_⟩
      intro e he fd' pdu' result' heq
      rcases List.mem_cons.mp he with he | he
      · exact hsame _ e (List.mem_singleton.mpr he) fd' pdu' result' heq
      · rw [List.mem_singleton.mp he] at heq
        cases heq
  | held _ _ hs hk =>
      exact ⟨_, ⟨hs.xferAt, hs.xfers, hs.deferredXfers, hs.pipeCapacity, hk.trace, rfl⟩, hsame _⟩

theorem ReportEnds.aside {pdu : Pdu} (h : ReportEnds ans p x pdu w w') :
    ∃ tr, Aside p w w' tr ∧ ∀ e ∈ tr, ∀ fd' pdu' result,
      e = .sent (some p) fd' pdu' result → pdu' = pdu := by
  cases h with
  | silent => exact ⟨[], ⟨rfl, rfl, rfl, rfl, (List.append_nil _).symm, rfl⟩, nofun⟩
  | notified _ h => exact h.aside

theorem Aside.movedBy (h : Aside p w w' tr) : movedBy p tr = [] := by
  have hnone := List.filter_eq_nil_iff.mp h.silent
  refine List.flatMap_eq_nil_iff.mpr fun e he => ?_
  cases e with
  | moved => exact absurd rfl (hnone _ he)
  | sent | failed | closed => rfl

/-- What a call of `transfer_file` promises: `y` is the transfer after the call, and `tr` the
calls it made. -/
structure Contract (p : Ptr) (x : ResrcXfer) (w : World) (b : Bool) (w' : World) (y : ResrcXfer)
    (tr : List Effect) : Prop where
  xfer : w'.srv.xferAt p = some y
  trace : w'.kern.trace = w.kern.trace ++ tr
  count : (movedBy p tr).length + y.nbytesLeft.toNat = x.nbytesLeft.toNat
  capacity : (movedBy p tr).length ≤ w.srv.pipeCapacity
  full : (b = true ∧ y.defer = .ready ∧ w'.srv.deferredXfers.count p = 1) ↔
    (movedBy p tr).length = w.srv.pipeCapacity ∧ y.nbytesLeft ≠ 0
  stays : b = true → y.defer = .ready ∨ y.defer = .none
  blocked : b = true → y.defer = .none →
    ∃ e, lastIo p tr = some (.failed p x.destFd e) ∧ errnoIsFatal e = false
  ends : b = false ↔ y.nbytesLeft = 0 ∨
    (∃ e, lastIo p tr = some (.failed p x.destFd e) ∧ errnoIsFatal e = true) ∨
    ∃ size e, .sent (some p) x.statFd (.xferStat size) (.error e) ∈ tr ∧
      size ≠ protXferComplete ∧ errnoIsFatal e = true

namespace CallEnds

variable {b : Bool}

/-- The rounds write file data and nothing else. -/
theorem not_mem_moves (h : Moves p x y tr) {e : Effect} (he : e ∈ tr)
    (hne : ∀ fd bytes, e ≠ .moved p fd bytes) : False := by
  obtain ⟨bytes, rfl⟩ := h.entries e he
  exact hne _ _ rfl

theorem lastIo_moves (h : Moves p x y tr) {fd : Fd} {e : Errno} :
    lastIo p tr ≠ some (.failed p fd e) := by
  intro hlast
  have hmem := List.mem_of_getLast? hlast
  exact not_mem_moves h (List.mem_filter.mp hmem).1 nofun

theorem count_moves (h : Moves p x y tr) {tr' : List Effect} (htr : movedBy p tr' = []) :
    (movedBy p (tr ++ tr')).length = (movedBy p tr).length ∧
      (movedBy p (tr ++ tr')).length + y.nbytesLeft.toNat = x.nbytesLeft.toNat := by
  have hcount := h.count
  rw [movedBy_append, htr, List.append_nil]
  exact ⟨rfl, by omega⟩

/-- A call for a deferred transfer leaves the list and the other transfers alone. -/
theorem frame (h : CallEnds ans p x w b w') (hdefer : x.defer ≠ .none) :
    w'.srv.deferredXfers = w.srv.deferredXfers ∧ w'.srv.pipeCapacity = w.srv.pipeCapacity ∧
      ∀ q ≠ p, w'.srv.xferAt q = w.srv.xferAt q := by
  have hset : ∀ {y : ResrcXfer} {tr : List Effect} {w₁ : World}, Advanced p x w y tr w₁ →
      w₁.srv.deferredXfers = w.srv.deferredXfers ∧ w₁.srv.pipeCapacity = w.srv.pipeCapacity ∧
        ∀ q ≠ p, w₁.srv.xferAt q = w.srv.xferAt q := by
    intro y tr w₁ hadvanced
    rw [hadvanced.srv]
    exact ⟨rfl, rfl, fun q hq => by simp [Server.setXfer, hq]⟩
  cases h with
  | full hadvanced =>
      obtain ⟨-, hcapacity, hothers⟩ := hset hadvanced
      refine ⟨if_neg hdefer, hcapacity, fun q hq => ?_⟩
      rw [← hothers q hq]
      simp [Server.setXfer, hq]
  | completed hadvanced _ _ hreport =>
      obtain ⟨tr', haside, -⟩ := hreport.aside
      rw [haside.deferredXfers, haside.pipeCapacity, haside.xferAt]
      exact hset hadvanced
  | blocked hhead =>
      obtain ⟨hlist, hcapacity, hothers⟩ := hset hhead.advanced
      refine ⟨hlist, hcapacity, fun q hq => ?_⟩
      rw [← hothers q hq]
      simp [Server.setXfer, hq]
  | muted hhead =>
      have hframe := hset hhead.advanced
      exact hframe
  | broken hhead _ _ hreport =>
      obtain ⟨tr', haside, -⟩ := hreport.aside
      have hframe := hset hhead.advanced
      rw [haside.deferredXfers, haside.pipeCapacity, haside.xferAt]
      exact hframe

/-- However a call ends, it has kept its promises. -/
theorem contract (h : CallEnds ans p x w b w') (hout : x.defer = .none → p ∉ w.srv.deferredXfers)
    (hin : x.defer ≠ .none → w.srv.deferredXfers.count p = 1) :
    ∃ y tr, Contract p x w b w' y tr := by
  cases h with
  | @full y tr w₁ hadvanced hleft hcount =>
      refine ⟨{ y with defer := .ready }, tr, ?_⟩
      have hmoves := hadvanced.moves
      obtain ⟨-, hsum⟩ := @count_moves _ _ _ _ hmoves [] rfl
      rw [List.append_nil] at hsum
      refine
        { xfer := by simp [Server.setXfer]
          trace := hadvanced.trace
          count := hsum
          capacity := Nat.le_of_eq hcount
          full := ⟨fun _ => ⟨hcount, hleft⟩, fun _ => ⟨rfl, rfl, ?_⟩⟩
          stays := fun _ => Or.inl rfl
          blocked := fun _ hnone => by cases hnone
          ends := ⟨fun hfalse => (by cases hfalse), ?_⟩ }
      · change List.count p (if _ then _ else _) = 1
        split
        · rename_i hnone
          rw [List.count_append, List.count_eq_zero.mpr (hout hnone), List.count_singleton_self]
        · rename_i hsome
          exact hin hsome
      · rintro (hzero | ⟨e, hlast, -⟩ | ⟨size, e, hmem, -⟩)
        · exact absurd hzero hleft
        · exact absurd hlast (lastIo_moves hmoves)
        · exact (not_mem_moves hmoves hmem (by simp)).elim
  | @completed y tr w₁ _ hadvanced hleft hcount hreport =>
      obtain ⟨tr', haside, -⟩ := hreport.aside
      obtain ⟨hsame, hsum⟩ := count_moves hadvanced.moves haside.movedBy
      exact ⟨y, tr ++ tr',
        { xfer := haside.xferAt ▸ hadvanced.xfer
          trace := by rw [haside.trace, hadvanced.trace, List.append_assoc]
          count := hsum
          capacity := hsame ▸ hcount
          full := ⟨fun hfull => (by cases hfull.1), fun hfull => absurd hleft hfull.2⟩
          stays := fun htrue => (by cases htrue)
          blocked := fun htrue => (by cases htrue)
          ends := ⟨fun _ => Or.inl hleft, fun _ => rfl⟩ }⟩
  | @blocked y tr w₁ k e result hhead he htrace hresult =>
      have hmoves := hhead.advanced.moves
      have hnote : ∀ n, movedBy p (.failed p x.destFd e :: progressNote p x n result) = [] := by
        intro n
        unfold progressNote
        split <;> rfl
      have hio : ∀ n, (progressNote p x n result).filter Effect.isIo = [] := by
        intro n
        unfold progressNote
        split <;> rfl
      have hlast : lastIo p (tr ++ .failed p x.destFd e ::
          progressNote p x (movedBy p tr).length result) = some (.failed p x.destFd e) :=
        lastIo_failed (hio _)
      obtain ⟨hsame, hsum⟩ := count_moves hmoves (hnote (movedBy p tr).length)
      have hroom := hhead.room
      refine ⟨{ y with defer := .none }, _,
        { xfer := by simp [Server.setXfer]
          trace := by rw [htrace, hhead.advanced.trace, List.append_assoc]
          count := hsum
          capacity := by omega
          full := ⟨fun hfull => (by cases hfull.2.1), fun hfull => by omega⟩
          stays := fun _ => Or.inr rfl
          blocked := fun _ _ => ⟨e, hlast, he⟩
          ends := ⟨fun hfalse => (by cases hfalse), ?_⟩ }⟩
      rintro (hzero | ⟨e', hlast', hfatal⟩ | ⟨size, e', hmem, -, hfatal⟩)
      · exact absurd hzero hhead.left
      · rw [hlast] at hlast'
        cases hlast'
        rw [he] at hfatal
        cases hfatal
      · rcases List.mem_append.mp hmem with hmem | hmem
        · exact (not_mem_moves hmoves hmem (by simp)).elim
        · rcases List.mem_cons.mp hmem with hmem | hmem
          · cases hmem
          · unfold progressNote at hmem
            split at hmem
            · cases hmem
            · cases List.mem_singleton.mp hmem
              rw [hresult e' rfl] at hfatal
              cases hfatal
  | @muted y tr w₁ k e e' hhead he hchannel htrace he' =>
      have hnote : movedBy p [.failed p x.destFd e,
        .sent (some p) x.statFd (.xferStat (movedBy p tr).length) (.error e')] = [] := rfl
      obtain ⟨hsame, hsum⟩ := count_moves hhead.advanced.moves hnote
      have hroom := hhead.room
      have hsize : (movedBy p tr).length ≠ protXferComplete := by
        have hcount := hhead.advanced.moves.count
        have hlt := x.nbytesLeft.isLt
        have hpos : 0 < y.nbytesLeft.toNat := by
          by_contra hzero
          exact hhead.left (BitVec.eq_of_toNat_eq (by simp; omega))
        unfold protXferComplete
        omega
      exact ⟨y, _,
        { xfer := hhead.advanced.xfer
          trace := by rw [htrace, hhead.advanced.trace, List.append_assoc]
          count := hsum
          capacity := by omega
          full := ⟨fun hfull => (by cases hfull.1), fun hfull => by omega⟩
          stays := fun htrue => (by cases htrue)
          blocked := fun htrue => (by cases htrue)
          ends := ⟨fun _ => Or.inr (Or.inr ⟨_, e', List.mem_append_right _ (List.mem_cons_of_mem _
            List.mem_cons_self), hsize, he'⟩), fun _ => rfl⟩ }⟩
  | @broken y tr w₁ _ k e hhead he htrace hreport =>
      obtain ⟨tr', haside, -⟩ := hreport.aside
      have hlast : lastIo p (tr ++ .failed p x.destFd e :: tr') = some (.failed p x.destFd e) :=
        lastIo_failed haside.silent
      have hnote : movedBy p (.failed p x.destFd e :: tr') = [] := haside.movedBy
      obtain ⟨hsame, hsum⟩ := count_moves hhead.advanced.moves hnote
      have hroom := hhead.room
      exact ⟨y, _,
        { xfer := haside.xferAt ▸ hhead.advanced.xfer
          trace := by
            rw [haside.trace, htrace, hhead.advanced.trace]
            simp only [List.append_assoc, List.singleton_append]
          count := hsum
          capacity := by omega
          full := ⟨fun hfull => (by cases hfull.1), fun hfull => by omega⟩
          stays := fun htrue => (by cases htrue)
          blocked := fun htrue => (by cases htrue)
          ends := ⟨fun _ => Or.inr (Or.inl ⟨e, hlast, he⟩), fun _ => rfl⟩ }⟩

end CallEnds

/-- `splice` and `sendfile` fail or write some of what they are asked for: the file does not
end before the transfer. -/
def Answers.Progresses (ans : Answers) : Prop := ∀ t n, 0 < n → ans.io t n ≠ .ok 0

/-- Nothing is written only where the file is at its end. -/
theorem Kernel.moveBytes_zero {k k' : Kernel} {fdIn fdOut : Fd} {n : Nat} (hn : 0 < n)
    (h : k.moveBytes ans p fdIn fdOut n = (.ok 0, k')) : ans.io k.tick n = .ok 0 := by
  unfold Kernel.moveBytes at h
  cases hio : ans.io k.tick n with
  | error e =>
      simp only [hio] at h
      split at h <;> cases h
  | ok answer =>
      have hzero : min answer n = 0 := by
        simp only [hio] at h
        repeat' split at h
        all_goals first
          | cases h
          | exact Except.ok.inj (Prod.mk.inj h).1
      have hanswer : answer = 0 := by omega
      rw [hanswer]

/-- The contract of `transfer_file`.  Every size it asks for is between one byte and what is
left, at every round of its loop; it comes to an end without failing an assertion of its own;
and what it returns says how it has ended.  What may still stop it is the status message. -/
theorem transferFile_contract (hsound : ListSound w.srv)
    (hsize : w.srv.xfers.size = w.srv.xfers.stored.length) (hlive : w.srv.Live p)
    (hx : w.srv.xferAt p = some x) (hcmd : x.cmd = .read ∨ x.cmd = .send)
    (hstat : x.statFd = x.destFd ∨ x.cmd = .send) (hleft : x.nbytesLeft ≠ 0)
    (hblksize : 0 < x.file.blksize) (hcapacity : 0 < w.srv.pipeCapacity)
    (hdefer : x.defer = .none ∨ x.defer = .ready) (hio : ans.Progresses) :
    (∀ w₁ total, Rounds ans p (w, 0) (w₁, total) → ∃ y fuel, w₁.srv.xferAt p = some y ∧
      transferFile ans p w = transferLoop ans p (fuel + 1) total w₁ ∧
      1 ≤ w₁.writeSize y total ∧ w₁.writeSize y total ≤ y.nbytesLeft.toNat) ∧
    wp (transferFile ans p) (fun b w' => ∃ y tr, Contract p x w b w' y tr)
      (fun e w' => ans.Disrupts w'.srv e ∧ ∃ tr, w'.kern.trace = w.kern.trace ++ tr ∧
        (movedBy p tr).length ≤ w.srv.pipeCapacity) w := by
  have hcancel : x.defer ≠ .cancel := by
    rcases hdefer with h | h <;> rw [h] <;> decide
  constructor
  · intro w₁ total hrounds
    obtain ⟨y, tr, hhead⟩ := hrounds.atHead hx hleft hcapacity
    obtain ⟨fuel, hfuel⟩ := hrounds.transferFile_eq hx hcmd hleft hcapacity
    exact ⟨y, fuel, hhead.advanced.xfer, hfuel, hhead.writeSize_bounds hblksize⟩
  · refine wp_mono (wp_transferFile_call hstat hx hcancel hcmd hleft hblksize hcapacity
      (hsound.room hsize hlive hx)) (fun b w' hends => ?_) fun e w' hstops => ?_
    · refine hends.contract (fun hnone hin => (hsound.listed p x hlive hx).mp hin hnone) ?_
      intro hsome
      have hin := (hsound.listed p x hlive hx).mpr hsome
      exact List.count_eq_one_of_mem hsound.distinct hin
    · cases hstops with
      | disrupted he htrace hcount => exact ⟨he, _, htrace, hcount⟩
      | atEnd hrounds hy hend =>
          obtain ⟨y', tr, hhead⟩ := hrounds.atHead hx hleft hcapacity
          rw [hhead.advanced.xfer] at hy
          cases hy
          have hpos := (hhead.writeSize_bounds hblksize).1
          exact absurd (Kernel.moveBytes_zero hpos hend) (hio _ _ hpos)

end Contract

section Runs

open Scenario

theorem answers_progresses {node : FileNode} : (answers node).Progresses := by
  intro t n hn h
  cases h
  exact absurd hn (Nat.lt_irrefl 0)

/-- A READ of ten bytes that is about to be served, with room for four in the pipe. -/
theorem transferFile_contract_of_read : ∃ s x, server.Reachable MindsList s ∧
    s.world.srv.xferAt 0 = some x ∧ x.nbytesLeft ≠ 0 ∧
    wp (transferFile (answers tenBytes) 0)
      (fun b w' => ∃ y tr, Contract 0 x s.world b w' y tr)
      (fun e w' => (answers tenBytes).Disrupts w'.srv e ∧
        ∃ tr, w'.kern.trace = s.world.kern.trace ++ tr ∧
          (movedBy 0 tr).length ≤ s.world.srv.pipeCapacity) s.world := by
  obtain ⟨s, hr, hP⟩ := exists_reachable MindsList 4 4
    (serve (answers tenBytes) [⟨fileRequest .read 0 0, [1], some client⟩])
    (fun s => s.world.srv.pipeCapacity == 4 && (s.world.srv.xferAt 0).any fun x =>
      x.cmd == .read && x.statFd == x.destFd && x.nbytesLeft != 0 &&
        x.file.blksize == 4096 && x.defer == .none) (by decide +kernel)
  rw [Bool.and_eq_true, Option.any_eq_true] at hP
  obtain ⟨hcapacity, x, hx, hfacts⟩ := hP
  simp only [Bool.and_eq_true, beq_iff_eq, bne_iff_ne] at hcapacity hfacts
  obtain ⟨⟨⟨⟨hcmd, hstat⟩, hleft⟩, hblksize⟩, hdefer⟩ := hfacts
  have hsound := listLive_preserved.reachable listLive_initial hr
  have hpos : 0 < x.file.blksize ∧ 0 < s.world.srv.pipeCapacity := by omega
  exact ⟨s, x, hr, hx, hleft, (transferFile_contract (hsound.inv.sound hsound.ledger)
    hsound.ledger.xfers.size (hsound.ledger.live_iff.mpr ⟨x, hx⟩) hx (Or.inl hcmd) (Or.inl hstat)
    hleft hpos.1 hpos.2 (Or.inl hdefer) answers_progresses).2⟩

end Runs

end Sendfiled
