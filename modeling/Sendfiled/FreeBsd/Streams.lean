/-
The invariant rule for the transfers of FreeBSD: what one call of `file_splice` or
`file_sendfile` keeps, every sequence of calls of `transfer_file` keeps.  Calls may be
required to be of a certain kind; nothing is said about a transfer after a call that is not.
-/
import Sendfiled.FreeBsd.Transfer

namespace Sendfiled.FreeBsd

open Prog Transition

/-- Two states of a transfer that differ in nothing its bytes depend on. -/
structure Stream.Alike (s s' : Stream) : Prop where
  xfer : { s'.xfer with defer := .none } = { s.xfer with defer := .none }
  pos : s'.io.pos = s.io.pos
  ctx : s'.io.ctx = s.io.ctx
  out : s'.io.out = s.io.out
  calls : s'.calls = s.calls

theorem Stream.Alike.refl (s : Stream) : s.Alike s := ⟨rfl, rfl, rfl, rfl, rfl⟩

theorem Stream.Alike.nbytesLeft {s s' : Stream} (h : s.Alike s') :
    s'.xfer.nbytesLeft = s.xfer.nbytesLeft := by
  have hxfer := congrArg ResrcXfer.nbytesLeft h.xfer
  exact hxfer

theorem Stream.Alike.statFd {s s' : Stream} (h : s.Alike s') :
    s'.xfer.statFd = s.xfer.statFd := by
  have hxfer := congrArg ResrcXfer.statFd h.xfer
  exact hxfer

theorem Stream.Alike.destFd {s s' : Stream} (h : s.Alike s') :
    s'.xfer.destFd = s.xfer.destFd := by
  have hxfer := congrArg ResrcXfer.destFd h.xfer
  exact hxfer

/-- The transfer after it has counted `n` written bytes. -/
def Stream.count (n : Nat) (s : Stream) : Stream :=
  { s with xfer := { s.xfer with nbytesLeft := s.xfer.nbytesLeft - BitVec.ofNat 64 n } }

/-- The assertion of `has_stat_channel`. -/
def Stream.Channelled (s : Stream) : Prop :=
  s.xfer.statFd = s.xfer.destFd ∨ s.xfer.cmd = .send

/-- A call that was made for the transfer has failed for good, or else the message about its
progress did. -/
def Stream.Failed (ans : IoAnswers) (s : Stream) : Prop :=
  (∃ c ∈ s.calls, ∃ e, c.result = .error e ∧ errnoIsFatal e = true) ∨
    s.xfer.statFd ≠ s.xfer.destFd ∧ ∃ t, s.io.tick = t + 1 ∧
      ans.sendStat t = some s.io.errno ∧ errnoIsFatal s.io.errno = true

section Errors

variable {ans : IoAnswers} {node : FileNode} {e : Errno}

theorem writeBuffered_errno {io : Io} (h : (writeBuffered ans io).1 = .error e) :
    (writeBuffered ans io).2.errno = e := by
  unfold writeBuffered Io.write at h ⊢
  by_cases hlt : io.ctx.rp < io.ctx.wp
  · rw [if_pos hlt] at h ⊢
    cases hwrite : ans.write io.tick with
    | error e' =>
        rw [hwrite] at h
        exact Except.error.inj h
    | ok answer =>
        rw [hwrite] at h
        cases h
  · rw [if_neg hlt] at h
    cases h

theorem fileSplice_errno {n : Nat} {io : Io} (h : (fileSplice ans node n io).1 = .error e) :
    (fileSplice ans node n io).2.errno = e := by
  unfold fileSplice at h ⊢
  by_cases hroom : 0 < io.ctx.nunwritten
  · rw [if_pos hroom] at h ⊢
    unfold Io.read at h ⊢
    cases hread : ans.read io.tick with
    | error e' =>
        rw [hread] at h
        exact Except.error.inj h
    | ok answer =>
        simp only [hread] at h ⊢
        split at h
        · cases h
        · rename_i hbytes
          rw [if_neg hbytes]
          exact writeBuffered_errno h
  · rw [if_neg hroom] at h ⊢
    exact writeBuffered_errno h

theorem fileSendfile_errno {n : Nat} {io : Io} (h : (fileSendfile ans node n io).1 = .error e) :
    (fileSendfile ans node n io).2.errno = e := by
  unfold fileSendfile Io.sendfile at h ⊢
  cases hsend : ans.sendfile io.tick with
  | mk answer err =>
      cases err with
      | none =>
          rw [hsend] at h
          cases h
      | some e' =>
          rw [hsend] at h
          exact Except.error.inj h

/-- A call that fails leaves its error in `errno`. -/
theorem Stream.errno_moved {n : Nat} {s : Stream} (h : (s.call ans node n).result = .error e) :
    (s.moved ans node n).io.errno = e := by
  unfold Stream.moved Stream.call fileTransfer at *
  by_cases hcmd : s.xfer.cmd = .read
  · rw [if_pos hcmd] at h ⊢
    exact fileSplice_errno h
  · rw [if_neg hcmd] at h ⊢
    exact fileSendfile_errno h

end Errors

section Tails

variable {ans : IoAnswers}

theorem wp_hasStatChannel (s : Stream) :
    wp hasStatChannel (fun b s' => s' = s ∧ b = decide (s.xfer.statFd ≠ s.xfer.destFd))
      (fun _ s' => s' = s ∧ ¬ s.Channelled) s := by
  unfold hasStatChannel assert
  rw [wp_bind, wp_gets, wp_bind, wp_check]
  exact ⟨fun _ => ⟨rfl, rfl⟩, fun h => ⟨rfl, h⟩⟩

theorem wp_completeXfer (s : Stream) :
    wp completeXfer (fun b s' => b = false ∧ s.Alike s')
      (fun _ s' => s' = s ∧ ¬ s.Channelled) s := by
  unfold completeXfer
  rw [wp_bind]
  refine wp_mono (wp_hasStatChannel s) ?_ fun _ _ h => h
  rintro chan s' ⟨rfl, -⟩
  cases chan with
  | true => exact ⟨rfl, rfl, rfl, rfl, rfl, rfl⟩
  | false => exact ⟨rfl, Stream.Alike.refl s'⟩

theorem wp_sendXferStat (size : Nat) (s : Stream) (E : Fault → Stream → Prop) :
    wp (sendXferStat ans size) (fun b s' => s.Alike s' ∧ (b = false →
      s'.io.tick = s.io.tick + 1 ∧ ans.sendStat s.io.tick = some s'.io.errno)) E s := by
  unfold sendXferStat
  rw [wp_bind, wp_gets]
  cases hstat : ans.sendStat s.io.tick with
  | none => exact ⟨⟨rfl, rfl, rfl, rfl, rfl⟩, nofun⟩
  | some e => exact ⟨⟨rfl, rfl, rfl, rfl, rfl⟩, fun _ => ⟨rfl, rfl⟩⟩

/-- What `transfer_file` does after a call that failed. -/
theorem wp_transferError (total : Nat) (s : Stream)
    (hcall : errnoIsFatal s.io.errno = true → s.Failed ans) :
    wp (transferError ans total)
      (fun b s' => s.Alike s' ∧ (b = true → s.xfer.nbytesLeft ≠ 0) ∧
        (b = false → s.xfer.nbytesLeft = 0 ∨ s'.Failed ans))
      (fun _ s' => s' = s ∧ ¬ s.Channelled) s := by
  unfold transferError
  rw [wp_bind, wp_gets, wp_ite]
  refine ⟨fun hfatal => ?_, fun _ => ?_⟩
  · rw [wp_bind]
    refine wp_mono (wp_hasStatChannel s) ?_ fun _ _ h => h
    rintro chan s' ⟨rfl, -⟩
    cases chan with
    | true => exact ⟨⟨rfl, rfl, rfl, rfl, rfl⟩, nofun, fun _ => Or.inr (hcall hfatal)⟩
    | false => exact ⟨Stream.Alike.refl s', nofun, fun _ => Or.inr (hcall hfatal)⟩
  · rw [wp_bind, wp_gets, wp_ite]
    refine ⟨fun hzero => ?_, fun hleft => ?_⟩
    · refine wp_mono (wp_completeXfer s) ?_ fun _ _ h => h
      rintro b s' ⟨rfl, halike⟩
      exact ⟨halike, nofun, fun _ => Or.inl hzero⟩
    · rw [wp_bind]
      refine wp_mono (wp_hasStatChannel s) ?_ fun _ _ h => h
      rintro chan s' ⟨rfl, hchan⟩
      cases chan with
      | false => exact ⟨⟨rfl, rfl, rfl, rfl, rfl⟩, fun _ => hleft, nofun⟩
      | true =>
          change wp (sendXferStat ans total >>= _) _ _ _
          rw [wp_bind]
          refine wp_mono (wp_sendXferStat total s' _) ?_ fun _ _ h => h
          rintro told s'' ⟨halike, hfailed⟩
          cases told with
          | true =>
              exact ⟨⟨halike.xfer, halike.pos, halike.ctx, halike.out, halike.calls⟩,
                fun _ => hleft, nofun⟩
          | false =>
              change wp (gets _ >>= _) _ _ _
              rw [wp_bind, wp_gets, wp_ite]
              refine ⟨fun hfatal => ?_, fun _ => ?_⟩
              · obtain ⟨htick, hstat⟩ := hfailed rfl
                have hapart : s''.xfer.statFd ≠ s''.xfer.destFd := by
                  rw [halike.statFd, halike.destFd]
                  exact of_decide_eq_true hchan.symm
                exact ⟨halike, nofun, fun _ => Or.inr (Or.inr ⟨hapart, _, htick, hstat, hfatal⟩)⟩
              · exact ⟨⟨halike.xfer, halike.pos, halike.ctx, halike.out, halike.calls⟩,
                  fun _ => hleft, nofun⟩

end Tails

/-- An invariant of the transfers all of whose calls are of a certain kind: every such call
keeps it, and moves some of the bytes it was asked for or fails. -/
structure Carries (ans : IoAnswers) (node : FileNode) (P : Call → Prop) (I : Stream → Prop) :
    Prop where
  cmd : ∀ s, I s → s.xfer.cmd = .read ∨ s.xfer.cmd = .send
  channel : ∀ s, I s → s.Channelled
  blksize : ∀ s, I s → 0 < s.xfer.file.blksize
  alike : ∀ s s', I s → s.Alike s' → I s'
  moved : ∀ s n, I s → 0 < n → n ≤ s.xfer.nbytesLeft.toNat → P (s.call ans node n) →
    (∃ e, (s.call ans node n).result = .error e ∧ I (s.moved ans node n)) ∨
      ∃ k, (s.call ans node n).result = .ok k ∧ 0 < k ∧ I ((s.moved ans node n).count k)

/-- Some call was not of the kind. -/
def Stream.Strayed (P : Call → Prop) (s : Stream) : Prop := ∃ c ∈ s.calls, ¬ P c

section Rule

variable {ans : IoAnswers} {node : FileNode} {pipeCapacity : Nat} {P : Call → Prop}
  {I : Stream → Prop}

theorem Stream.Strayed.alike {s s' : Stream} (h : s.Strayed P) (halike : s.Alike s') :
    s'.Strayed P := by
  unfold Strayed
  rw [halike.calls]
  exact h

/-- After a further call all of them are of the kind, or it is known that one is not. -/
theorem Stream.strayed_or_moved {s : Stream} (h : s.Strayed P ∨ I s) (n : Nat) :
    (s.moved ans node n).Strayed P ∨ I s ∧ P (s.call ans node n) := by
  by_cases hP : P (s.call ans node n)
  · cases h with
    | inl hstray =>
        obtain ⟨c, hc, hnot⟩ := hstray
        exact Or.inl ⟨c, List.mem_append_left _ hc, hnot⟩
    | inr hI => exact Or.inr ⟨hI, hP⟩
  · exact Or.inl ⟨_, List.mem_append_right _ List.mem_cons_self, hP⟩

/-- What is known of a transfer when `transfer_file` returns. -/
def Returned (ans : IoAnswers) (P : Call → Prop) (I : Stream → Prop) (b : Bool) (s : Stream) :
    Prop :=
  s.Strayed P ∨ I s ∧ (b = true → s.xfer.nbytesLeft ≠ 0) ∧
    (b = false → s.xfer.nbytesLeft = 0 ∨ s.Failed ans)

theorem Carries.wp_completeXfer (h : Carries ans node P I) {s : Stream}
    (hs : s.Strayed P ∨ I s) (hzero : s.xfer.nbytesLeft = 0) :
    wp completeXfer (Returned ans P I) (fun _ s' => s'.Strayed P) s := by
  refine wp_mono (FreeBsd.wp_completeXfer s) ?_ ?_
  · rintro b s' ⟨rfl, halike⟩
    cases hs with
    | inl hstray => exact Or.inl (hstray.alike halike)
    | inr hI =>
        refine Or.inr ⟨h.alike s s' hI halike, nofun, fun _ => Or.inl ?_⟩
        rw [halike.nbytesLeft, hzero]
  · rintro f s' ⟨rfl, hnot⟩
    exact hs.resolve_right fun hI => hnot (h.channel s' hI)

theorem Carries.wp_transferError (h : Carries ans node P I) {s : Stream}
    (hs : s.Strayed P ∨ I s) (hcall : errnoIsFatal s.io.errno = true → s.Failed ans)
    (total : Nat) :
    wp (transferError ans total) (Returned ans P I) (fun _ s' => s'.Strayed P) s := by
  refine wp_mono (FreeBsd.wp_transferError total s hcall) ?_ ?_
  · rintro b s' ⟨halike, hgoing, hended⟩
    cases hs with
    | inl hstray => exact Or.inl (hstray.alike halike)
    | inr hI =>
        refine Or.inr ⟨h.alike s s' hI halike, ?_, ?_⟩
        · rw [halike.nbytesLeft]
          exact hgoing
        · rw [halike.nbytesLeft]
          exact hended
  · rintro f s' ⟨rfl, hnot⟩
    exact hs.resolve_right fun hI => hnot (h.channel s' hI)

/-- The rounds of the loop.  The bound on them is enough as every round that goes on has
written something. -/
theorem Carries.wp_transferLoop (h : Carries ans node P I) (fuel total : Nat) {s : Stream}
    (hs : s.Strayed P ∨ I s ∧ s.xfer.nbytesLeft ≠ 0) (htotal : total < pipeCapacity)
    (hfuel : pipeCapacity < fuel + total) :
    wp (transferLoop ans node pipeCapacity fuel total) (Returned ans P I)
      (fun _ s' => s'.Strayed P) s := by
  induction fuel generalizing total s with
  | zero => omega
  | succ fuel ih =>
      unfold transferLoop assert
      simp only [wp_bind, wp_gets, wp_check]
      generalize hsize : min s.xfer.file.blksize
        (min s.xfer.nbytesLeft.toNat (pipeCapacity - total)) = writeSize
      refine ⟨fun hpos => ?_, fun hnot => hs.resolve_right ?_⟩
      · rw [move, wp_modifyGet]
        have hmoved : (s.moved ans node writeSize).Strayed P ∨
            (∃ e, (s.call ans node writeSize).result = .error e ∧ I (s.moved ans node writeSize)) ∨
            ∃ k, (s.call ans node writeSize).result = .ok k ∧ 0 < k ∧
              I ((s.moved ans node writeSize).count k) := by
          refine (Stream.strayed_or_moved (hs.imp_right And.left) writeSize).imp_right ?_
          rintro ⟨hI, hP⟩
          exact h.moved s writeSize hI hpos (by omega) hP
        cases hresult : (s.call ans node writeSize).result with
        | error e =>
            refine h.wp_transferError (hmoved.imp_right ?_) (fun hfatal => ?_) total
            · rintro (⟨e', -, hI⟩ | ⟨k, hk, -⟩)
              · exact hI
              · rw [hresult] at hk
                cases hk
            · rw [Stream.errno_moved hresult] at hfatal
              exact Or.inl ⟨_, List.mem_append_right _ List.mem_cons_self, e, hresult, hfatal⟩
        | ok k =>
            have hcounted : ((s.moved ans node writeSize).count k).Strayed P ∨
                0 < k ∧ I ((s.moved ans node writeSize).count k) := by
              refine hmoved.imp_right ?_
              rintro (⟨e, he, -⟩ | ⟨k', hk, hpos, hI⟩)
              · rw [hresult] at he
                cases he
              · rw [hresult] at hk
                cases hk
                exact ⟨hpos, hI⟩
            change wp (check (0 < k) _ >>= _) _ _ _
            rw [wp_bind, wp_check]
            refine ⟨fun hk => ?_, fun hk => hcounted.resolve_right fun hI => hk hI.1⟩
            change wp (if (s.xfer.nbytesLeft - BitVec.ofNat 64 k) = 0 then completeXfer
              else _) _ _ ((s.moved ans node writeSize).count k)
            rw [wp_ite]
            refine ⟨fun hzero => ?_, fun hleft => ?_⟩
            · exact h.wp_completeXfer (hcounted.imp_right And.right) hzero
            · rw [wp_ite]
              refine ⟨fun _ => ?_, fun hroom => ?_⟩
              · rw [wp_ite]
                refine ⟨fun _ => ?_, fun _ => ?_⟩
                · refine hcounted.imp id fun hI => ⟨?_, fun _ => hleft, by simp⟩
                  exact h.alike _ _ hI.2 ⟨rfl, rfl, rfl, rfl, rfl⟩
                · exact hcounted.imp id fun hI => ⟨hI.2, fun _ => hleft, by simp⟩
              · exact ih (total + k) (hcounted.imp_right fun hI => ⟨hI.2, hleft⟩) (by omega)
                  (by omega)
      · rintro ⟨hI, hleft⟩
        have hblk := h.blksize s hI
        have hne : s.xfer.nbytesLeft.toNat ≠ 0 := by
          intro hzero
          exact hleft (BitVec.eq_of_toNat_eq (by simpa using hzero))
        omega

/-- What is known of a transfer between the calls of `transfer_file`. -/
def State.Carried (ans : IoAnswers) (P : Call → Prop) (I : Stream → Prop) (s : State) : Prop :=
  s.stream.Strayed P ∨ I s.stream ∧
    match s.status with
    | .going => s.stream.xfer.nbytesLeft ≠ 0
    | .ended => s.stream.xfer.nbytesLeft = 0 ∨ s.stream.Failed ans
    | .aborted _ => False

/-- One call of `transfer_file`. -/
theorem Carries.next (h : Carries ans node P I) (hcap : 0 < pipeCapacity) {s : State}
    (hgoing : s.status = .going) (hs : s.Carried ans P I) (d : Deferral) :
    (s.next ans node pipeCapacity d).Carried ans P I := by
  generalize hst : { s.stream with xfer := { s.stream.xfer with defer := d } } = st
  have halike : s.stream.Alike st := by
    rw [← hst]
    exact ⟨rfl, rfl, rfl, rfl, rfl⟩
  have hbefore : st.Strayed P ∨ I st ∧ st.xfer.nbytesLeft ≠ 0 := by
    refine hs.imp (fun hstray => hstray.alike halike) ?_
    rintro ⟨hI, hleft⟩
    rw [hgoing] at hleft
    refine ⟨h.alike _ _ hI halike, ?_⟩
    rw [halike.nbytesLeft]
    exact hleft
  have hloop := h.wp_transferLoop (pipeCapacity + 1) 0 hbefore hcap (by omega)
  have hwp : wp (transferFile ans node pipeCapacity) (Returned ans P I)
      (fun _ s' => s'.Strayed P) st := by
    unfold transferFile
    rw [wp_bind, wp_gets]
    cases hcmd : st.xfer.cmd with
    | read => exact hloop
    | send => exact hloop
    | fileOpen | sendOpen | cancel =>
        refine hbefore.imp id fun hI => ?_
        have hone := h.cmd st hI.1
        rw [hcmd] at hone
        simp at hone
  unfold State.next State.Carried
  rw [hst]
  cases hrun : transferFile ans node pipeCapacity st with
  | fault f s' => exact Or.inl (wp_fault hwp hrun)
  | done b s' =>
      refine (wp_done hwp hrun).imp ?_ ?_
      · intro hstray
        cases b with
        | true => exact hstray
        | false => exact hstray
      · rintro ⟨hI, htrue, hfalse⟩
        cases b with
        | true => exact ⟨hI, htrue rfl⟩
        | false => exact ⟨hI, hfalse rfl⟩

/-- The rule. -/
theorem Carries.reachable (h : Carries ans node P I) (hcap : 0 < pipeCapacity)
    {init : Stream → Prop} (hinit : ∀ s, init s → I s ∧ s.xfer.nbytesLeft ≠ 0) {s : State}
    (hreach : (transfers ans node pipeCapacity init).Reachable System.always s) :
    s.Carried ans P I := by
  refine hreach.invariant ?_ ?_
  · rintro s₀ ⟨hgoing, hs⟩
    unfold State.Carried
    rw [hgoing]
    exact Or.inr (hinit s₀.stream hs)
  · intro d s s' hs _ hnext
    simp only [transfers] at hnext
    split at hnext
    · rename_i hgoing
      cases hnext
      exact h.next hcap hgoing hs d
    · cases hnext

end Rule

end Sendfiled.FreeBsd
