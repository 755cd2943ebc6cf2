/-
How an attempt to transfer file data ends, as seen from the transfer.
-/
import Sendfiled.Views

namespace Sendfiled

/-- A message shows in the view of the transfer it is written for. -/
theorem Wrote.view {p : Ptr} {fd : Fd} {pdu : Pdu} {sent : Bool} {w w' : World}
    (h : Wrote (some p) fd pdu sent w w') :
    w'.view p = (w.view p).say [.sent (some p) fd pdu (writeResult pdu w'.kern.errno sent)] := by
  obtain ⟨srv', kern'⟩ := w'
  obtain ⟨rfl, hkern, -⟩ := h
  exact World.view_log rfl hkern.trace

theorem Wrote.view_other {fd : Fd} {pdu : Pdu} {sent : Bool} {w w' : World}
    (h : Wrote none fd pdu sent w w') (p : Ptr) : w'.view p = w.view p := by
  apply World.view_congr
  · rw [h.srv]
  · rw [h.srv]
  · have hnil : historyOf p [.sent none fd pdu (writeResult pdu w'.kern.errno sent)] = [] := by
      apply historyOf_eq_nil
      intro e he
      rw [List.mem_singleton.mp he]
      exact nofun
    rw [h.trace, historyOf_append, hnil, List.append_nil]

/-- The messages after which a status channel is done. -/
def Pdu.terminal : Pdu → Bool
  | .hdr _ _ => true
  | .xferStat size => size == protXferComplete
  | .fileInfo .. => false

/-- A terminal message was written to the descriptor, or at least attempted. -/
def Attempted (p : Ptr) (fd : Fd) (trace : List Effect) : Prop :=
  ∃ pdu result, pdu.terminal = true ∧ Effect.sent (some p) fd pdu result ∈ trace

theorem Wrote.attempted {p : Ptr} {fd : Fd} {pdu : Pdu} {sent : Bool} {w w' : World}
    (h : Wrote (some p) fd pdu sent w w') (hpdu : pdu.terminal = true) :
    Attempted p fd w'.kern.trace := by
  refine ⟨pdu, writeResult pdu w'.kern.errno sent, hpdu, ?_⟩
  rw [h.trace]
  exact List.mem_append_right _ List.mem_cons_self

/-- A progress message could not be written, for good. -/
def ProgressLost (p : Ptr) (trace : List Effect) : Prop :=
  ∃ fd size e, size ≠ protXferComplete ∧ errnoIsFatal e = true ∧
    Effect.sent (some p) fd (.xferStat size) (.error e) ∈ trace

/-- What `send_terminal_resp` makes of a message: it was written, it is lost because the
channel failed or has no second descriptor, it is lost because the poller refuses the
second descriptor, or it is held back as a pending response. -/
inductive Notified (ans : Answers) (p : Ptr) (fd : Fd) (pdu : Pdu) (v : View) : View → Prop
  | sent : Notified ans p fd pdu v (v.say [.sent (some p) fd pdu (.ok pdu.size)])
  | lost {e : Errno} (hlost : errnoIsFatal e = true ∨ ∃ n, ans.dup n ≠ none) :
      Notified ans p fd pdu v (v.say [.sent (some p) fd pdu (.error e)])
  | refused {e e' : Errno} {r : Ptr} {k : Kernel} {fd' : Fd} (he : errnoIsFatal e = false)
      (hlast : k.trace.getLast? = some (.sent (some p) fd pdu (.error e)))
      (hdup : k.fds.lookup fd' = k.fds.lookup fd)
      (hrefused : k.epollAddError ans fd' = some e') :
      Notified ans p fd pdu v
        { v.say [.sent (some p) fd pdu (.error e)] with resp := Function.update v.resp r none }
  | kept {e : Errno} {r : Ptr} {resp : ResrcResp} (he : errnoIsFatal e = false)
      (hpdu : resp.pdu = pdu) :
      Notified ans p fd pdu v
        { v.say [.sent (some p) fd pdu (.error e)] with
          resp := Function.update v.resp r (some resp) }

/-- The end of a transfer is reported on its status channel, if it has one. -/
inductive Reported (ans : Answers) (p : Ptr) (x : ResrcXfer) (pdu : Pdu) (v : View) :
    View → Prop
  | silent (hshared : x.statFd = x.destFd) : Reported ans p x pdu v v
  | notified {v' : View} (hchannel : x.statFd ≠ x.destFd) (hcmd : x.cmd = .send)
      (h : Notified ans p x.statFd pdu v v') : Reported ans p x pdu v v'

/-- Some rounds of the loop of `transfer_file`: data is written and counted. -/
structure Moves (p : Ptr) (x y : ResrcXfer) (tr : List Effect) : Prop where
  record : y = { x with nbytesLeft := y.nbytesLeft }
  entries : ∀ e ∈ tr, ∃ bytes, e = .moved p x.destFd bytes
  count : y.nbytesLeft.toNat + (movedBy p tr).length = x.nbytesLeft.toNat

/-- What becomes of a transfer after a write that failed with `e`; `total` bytes were written
before it in the same call. -/
inductive Faltered (ans : Answers) (p : Ptr) (x : ResrcXfer) (e : Errno) (total : Nat)
    (v : View) : Bool → View → Prop
  | paused (he : errnoIsFatal e = false) (hleft : x.nbytesLeft ≠ 0)
      (hshared : x.statFd = x.destFd) :
      Faltered ans p x e total v true (v.set { x with defer := .none })
  | stalled {result : Except Errno Nat} (he : errnoIsFatal e = false)
      (hleft : x.nbytesLeft ≠ 0) (hchannel : x.statFd ≠ x.destFd)
      (hsize : total ≠ protXferComplete)
      (hresult : ∀ e', result = .error e' → errnoIsFatal e' = false) :
      Faltered ans p x e total v true
        ((v.say [.sent (some p) x.statFd (.xferStat total) result]).set { x with defer := .none })
  | muted {e' : Errno} (he : errnoIsFatal e = false) (hleft : x.nbytesLeft ≠ 0)
      (hcmd : x.cmd = .send) (hsize : total ≠ protXferComplete)
      (he' : errnoIsFatal e' = true) :
      Faltered ans p x e total v false
        (v.say [.sent (some p) x.statFd (.xferStat total) (.error e')])
  | completed {v' : View} (hleft : x.nbytesLeft = 0)
      (h : Reported ans p x (.xferStat protXferComplete) v v') : Faltered ans p x e total v false v'
  | broken {v' : View} (he : errnoIsFatal e = true)
      (h : Reported ans p x (.hdr .xferStat (e % 256)) v v') : Faltered ans p x e total v false v'

/-- What `transfer_file` makes of the transfer `x`: the pipe is full and the transfer
is ready for the secondary loop, everything was written, a write failed, or there is
nothing to do for a transfer of this kind. -/
inductive Transferred (ans : Answers) (p : Ptr) (x : ResrcXfer) (v : View) : Bool → View → Prop
  | full {y : ResrcXfer} {tr : List Effect} (hmoves : Moves p x y tr) (hsome : tr ≠ [])
      (hleft : y.nbytesLeft ≠ 0) :
      Transferred ans p x v true ((v.say tr).set { y with defer := .ready })
  | completed {y : ResrcXfer} {tr : List Effect} {v' : View} (hmoves : Moves p x y tr)
      (hleft : y.nbytesLeft = 0)
      (h : Reported ans p y (.xferStat protXferComplete) ((v.say tr).set y) v') :
      Transferred ans p x v false v'
  | faltered {y : ResrcXfer} {tr : List Effect} {e : Errno} {b : Bool} {v' : View}
      (hmoves : Moves p x y tr) (he : ans.Balks e)
      (h : Faltered ans p y e (movedBy p tr).length
        ((v.say (tr ++ [.failed p x.destFd e])).set y) b v') :
      Transferred ans p x v b v'
  | idle (hcmd : x.cmd ≠ .read ∧ x.cmd ≠ .send) : Transferred ans p x v false v

/-- What the server does to a transfer, as the transfer sees it.  The expiry of a timer
is not among it. -/
inductive Deed (ans : Answers) (p : Ptr) (v : View) : View → Prop
  | served {x : ResrcXfer} {v' : View} (hx : v.xfer = some x) (hdefer : x.defer ≠ .cancel)
      (h : Transferred ans p x v true v') : Deed ans p v v'
  | ended {x : ResrcXfer} {v' : View} (hx : v.xfer = some x) (hdefer : x.defer ≠ .cancel)
      (h : Transferred ans p x v false v') : Deed ans p v v'.gone
  | errored {x : ResrcXfer} (hx : v.xfer = some x) (hdefer : x.defer ≠ .cancel) :
      Deed ans p v v.gone
  | shut {x : ResrcXfer} (hx : v.xfer = some x) : Deed ans p v v.gone
  | buried {x : ResrcXfer} (hx : v.xfer = some x) (hdefer : x.defer = .cancel) :
      Deed ans p v v.gone
  | cancelled {x : ResrcXfer} (hx : v.xfer = some x) :
      Deed ans p v (v.set { x with defer := .cancel })
  | assigned {x : ResrcXfer} {fd : Fd} (hx : v.xfer = some x) (hdefer : x.defer ≠ .cancel) :
      Deed ans p v (v.set { x with cmd := .send, destFd := fd })
  | rejected {x : ResrcXfer} {stat : Nat} {result : Except Errno Nat}
      (hx : v.xfer = some x) (hdefer : x.defer ≠ .cancel) :
      Deed ans p v
        (v.say [.sent (some p) x.statFd (.hdr .xferStat stat) result]).gone
  | dropped {r : Ptr} {resp : ResrcResp} (hr : v.resp r = some resp) :
      Deed ans p v { v with resp := Function.update v.resp r none }
  | settled {r : Ptr} {resp : ResrcResp} {result : Except Errno Nat}
      (hr : v.resp r = some resp) (hresult : ∀ e, result = .error e → errnoIsFatal e = true) :
      Deed ans p v { v.say [.sent (some p) resp.statFd resp.pdu result] with
        resp := Function.update v.resp r none }
  | retried {r : Ptr} {resp : ResrcResp} {e : Errno} (hr : v.resp r = some resp)
      (he : errnoIsFatal e = false) :
      Deed ans p v (v.say [.sent (some p) resp.statFd resp.pdu (.error e)])

/-- At most one deed. -/
abbrev Touched (ans : Answers) (p : Ptr) : View → View → Prop := Relation.ReflGen (Deed ans p)

/-- Any number of deeds. -/
abbrev Deeds (ans : Answers) (p : Ptr) : View → View → Prop :=
  Relation.ReflTransGen (Deed ans p)

/-- A timer expires and takes the transfer for its own: the transfer is told and marked
CANCEL, and the timer is gone. -/
inductive Expired (p : Ptr) (w w' : World) : Prop
  | intro {x : ResrcXfer} {t : Ptr} {tm : ResrcTimer} {result : Except Errno Nat}
      (hx : w.srv.xferAt p = some x) (ht : w.srv.timerAt t = some tm)
      (hfind : w.srv.xfers.find tm.txnid = some p) (hleft : x.nbytesLeft = x.file.size)
      (hview : w'.view p = ((w.view p).say [.sent (some p) x.statFd
        (.hdr .xferStat (ETIMEDOUT % 256)) result]).set { x with defer := .cancel })
      (htimers : w'.srv.xferTimers = w.srv.xferTimers.erase tm.txnid)

theorem Notified.history {ans : Answers} {p : Ptr} {fd : Fd} {pdu : Pdu} {v v' : View}
    (h : Notified ans p fd pdu v v') :
    ∃ result, v'.history = v.history ++ [.sent (some p) fd pdu result] := by
  cases h <;> exact ⟨_, rfl⟩

theorem Notified.xfer {ans : Answers} {p : Ptr} {fd : Fd} {pdu : Pdu} {v v' : View}
    (h : Notified ans p fd pdu v v') : v'.xfer = v.xfer := by
  cases h <;> rfl

namespace Moves

variable {p : Ptr} {x y : ResrcXfer} {tr : List Effect}

theorem refl (p : Ptr) (x : ResrcXfer) : Moves p x x [] :=
  ⟨rfl, by simp, by simp [movedBy]⟩

/-- One more round. -/
theorem snoc (h : Moves p x y tr) {left : BitVec 64} {bytes : List UInt8}
    (hleft : left.toNat + bytes.length = y.nbytesLeft.toNat) :
    Moves p x { y with nbytesLeft := left } (tr ++ [.moved p x.destFd bytes]) where
  record := by
    rw [h.record]
  entries := by
    intro e he
    rcases List.mem_append.mp he with he | he
    · exact h.entries e he
    · exact ⟨bytes, List.mem_singleton.mp he⟩
  count := by
    have hcount := h.count
    simp only [movedBy_append, List.length_append]
    simp only [movedBy, List.flatMap_cons, List.flatMap_nil, Effect.bytesFor, if_true,
      List.append_nil] at hcount ⊢
    omega

theorem destFd (h : Moves p x y tr) : y.destFd = x.destFd := by
  rw [h.record]

theorem statFd (h : Moves p x y tr) : y.statFd = x.statFd := by
  rw [h.record]

theorem cmd (h : Moves p x y tr) : y.cmd = x.cmd := by
  rw [h.record]

end Moves

/-- Why `transfer_file` ends a transfer.  A READ has no status channel: everything was
written, or a write failed for good.  On a status channel the end was reported, unless
a progress message had already failed for good. -/
structure Concluded (p : Ptr) (x : ResrcXfer) (trace : List Effect) : Prop where
  read : x.cmd = .read →
    x.nbytesLeft = 0 ∨ ∃ fd e, Effect.failed p fd e ∈ trace ∧ errnoIsFatal e = true
  reported : x.cmd = .read ∨ x.cmd = .send → x.statFd ≠ x.destFd →
    Attempted p x.statFd trace ∨ ProgressLost p trace

section Concluded

variable {ans : Answers} {p : Ptr} {x y : ResrcXfer} {e : Errno} {pdu : Pdu} {v v' : View}
  {trace : List Effect}

theorem Reported.xfer (h : Reported ans p x pdu v v') : v'.xfer = v.xfer := by
  cases h with
  | silent => rfl
  | notified _ _ h => exact h.xfer

/-- Where there is a status channel, the report was attempted on it. -/
theorem Reported.attempted (h : Reported ans p x pdu v v') (hpdu : pdu.terminal = true)
    (hmem : ∀ e ∈ v'.history, e ∈ trace) (hchannel : x.statFd ≠ x.destFd) :
    Attempted p x.statFd trace := by
  cases h with
  | silent hshared => exact absurd hshared hchannel
  | notified _ _ h =>
      obtain ⟨result, hhistory⟩ := h.history
      refine ⟨pdu, result, hpdu, hmem _ ?_⟩
      rw [hhistory]
      exact List.mem_append_right _ List.mem_cons_self

theorem Reported.history_subset (h : Reported ans p x pdu v v') {e : Effect} (he : e ∈ v.history) :
    e ∈ v'.history := by
  cases h with
  | silent => exact he
  | notified _ _ h =>
      obtain ⟨result, hhistory⟩ := h.history
      rw [hhistory]
      exact List.mem_append_left _ he

theorem Faltered.concluded {total : Nat} (h : Faltered ans p x e total v false v')
    (hx : v.xfer = some x)
    (hfailed : ∃ fd, Effect.failed p fd e ∈ v.history) (hmem : ∀ e ∈ v'.history, e ∈ trace) :
    v'.xfer = some x ∧ Concluded p x trace := by
  cases h with
  | muted _ _ hcmd hsize he' =>
      refine ⟨hx, fun hread => ?_, fun _ _ => Or.inr ?_⟩
      · rw [hcmd] at hread
        cases hread
      · exact ⟨_, _, _, hsize, he', hmem _ (List.mem_append_right _ List.mem_cons_self)⟩
  | completed hleft h =>
      exact ⟨h.xfer.trans hx, fun _ => Or.inl hleft,
        fun _ hchannel => Or.inl (h.attempted (by simp [Pdu.terminal]) hmem hchannel)⟩
  | broken he h =>
      obtain ⟨fd, hfd⟩ := hfailed
      exact ⟨h.xfer.trans hx, fun _ => Or.inr ⟨fd, e, hmem _ (h.history_subset hfd), he⟩,
        fun _ hchannel => Or.inl (h.attempted rfl hmem hchannel)⟩

theorem Transferred.concluded (h : Transferred ans p x v false v') (hx : v.xfer = some x)
    (hy : v'.xfer = some y) (hmem : ∀ e ∈ v'.history, e ∈ trace) : Concluded p y trace := by
  cases h with
  | @completed z tr _ hmoves hleft h =>
      have hz : v'.xfer = some z := h.xfer
      rw [hy] at hz
      cases hz
      exact ⟨fun _ => Or.inl hleft,
        fun _ hchannel => Or.inl (h.attempted (by simp [Pdu.terminal]) hmem hchannel)⟩
  | @faltered z tr e' _ _ hmoves _ h =>
      have hfailed : ∃ fd, Effect.failed p fd e' ∈
          ((v.say (tr ++ [.failed p x.destFd e'])).set z).history :=
        ⟨x.destFd, List.mem_append_right _ (List.mem_append_right _ List.mem_cons_self)⟩
      obtain ⟨hz, hend⟩ := h.concluded rfl hfailed hmem
      rw [hy] at hz
      cases hz
      exact hend
  | idle hcmd =>
      rw [hy] at hx
      cases hx
      exact ⟨fun hread => absurd hread hcmd.1,
        fun hkind => absurd hkind (not_or.mpr hcmd)⟩

end Concluded

end Sendfiled
