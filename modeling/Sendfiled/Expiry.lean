/-
Whose transfer a timer expires.  Timers outlive their transfers, and the check that
the slot still holds the transfer a timer was created for compares addresses, which
are handed out again.
-/
import Sendfiled.Steps

namespace Sendfiled

open Prog Transition

/-- The slot of the timer's transaction holds another transaction, at the address the
timer remembers and with nothing written yet. -/
def Server.Misfires (s : Server) (tm : ResrcTimer) : Prop :=
  ∃ q y, s.xfers.find tm.txnid = some q ∧ s.xferAt q = some y ∧ y.txnid ≠ tm.txnid ∧
    y.addr = tm.xferAddr ∧ y.nbytesLeft = y.file.size

/-- Handling the expiry of the timer `t` leaves the transfers of other transactions as
they are, with nothing written on their behalf. -/
def ExpiresOwn (ans : Answers) (t : Ptr) (tm : ResrcTimer) (w : World) : Prop :=
  ∀ q y, w.srv.xferAt q = some y → y.txnid ≠ tm.txnid →
    (processTimer ans t w).state.view q = w.view q

section Timer

variable {w : World} {ans : Answers} {t : Ptr} {tm : ResrcTimer}

/-- A timer that does not misfire concerns no other transaction. -/
theorem expiresOwn_of_not_misfires (hc : Ledger w.srv) (hm : Minted w)
    (ht : w.srv.timerAt t = some tm) (hno : ¬ w.srv.Misfires tm) : ExpiresOwn ans t tm w := by
  intro q y hq hother
  have hview : ∀ L w', Acts (away q) ⟨[], w⟩ ⟨L, w'⟩ → w'.view q = w.view q :=
    fun L w' h => h.view hc hm (hc.xfer_lt q y hq)
  have hfree : Permissive (away q) := by
    intro a c ha hconc
    rw [Action.concerns_of_free ha] at hconc
    cases hconc
  have hhit : ∀ tm' p x, w.srv.timerAt t = some tm' → w.srv.xfers.find tm'.txnid = some p →
      w.srv.xferAt p = some x → x.addr = tm'.xferAddr → x.nbytesLeft = x.file.size → p ≠ q := by
    intro tm' p x ht' hfind hp haddr hleft heq
    subst heq
    rw [ht] at ht'
    cases ht'
    rw [hq] at hp
    cases hp
    exact hno ⟨p, y, hfind, hq, hother, haddr, hleft⟩
  apply wp_state (R := fun w' : World => w'.view q = w.view q)
  refine wp_mono (wp_processTimer hfree Acts.refl ?_ ?_ ?_ fun w' _ h => hview [] w' h)
    (fun _ _ h => h) fun e w' ⟨L, h, _⟩ => hview L w' h
  · intro tm' p x ht' hfind hp haddr hleft fd pdu c hconc
    exact hhit tm' p x ht' hfind hp haddr hleft (Option.some.inj hconc)
  · intro tm' p x c ht' hfind hp haddr hleft _ _ hconc
    exact hhit tm' p x ht' hfind hp haddr hleft (Option.some.inj hconc)
  · exact fun _ _ _ _ => nofun

/-- Expiring the transfer `q` is first reported on its status channel; then the transfer is
marked CANCEL, and the timer is deleted. -/
theorem wp_processTimer_hit {q : Ptr} {y : ResrcXfer} (ht : w.srv.timerAt t = some tm)
    (hfind : w.srv.xfers.find tm.txnid = some q) (hq : w.srv.xferAt q = some y)
    (hhit : y.addr = tm.xferAddr ∧ y.nbytesLeft = y.file.size)
    {Q : Unit → World → Prop} {E : Fault → World → Prop}
    (hQ : ∀ s k result,
      result = (w.kern.write ans (some q) y.statFd (.hdr .xferStat (ETIMEDOUT % 256))).1 →
      (w.kern.log (.sent (some q) y.statFd
        (.hdr .xferStat (ETIMEDOUT % 256)) result)).Quiet k →
      s.xferAt = (w.srv.cancel q y).xferAt → Q () ⟨s, (k.close ans tm.ident).2⟩)
    (hE : ∀ e k result, (w.kern.log (.sent (some q) y.statFd
        (.hdr .xferStat (ETIMEDOUT % 256)) result)).Quiet k →
      e = .assertion .sendPduWhole ∨ e = .assertion .deferCancel → E e ⟨w.srv, k⟩) :
    wp (processTimer ans t) Q E w := by
  simp only [processTimer, wp_bind]
  refine wp_getTimer_live ht ?_
  simp only [wp_gets, hfind, wp_bind]
  refine wp_getXfer_live hq ?_
  rw [if_pos hhit]
  simp only [wp_bind, sendXferErr]
  refine wp_sendPdu_result (fun b k hk => ?_) fun k hk => hE _ k _ hk (Or.inl rfl)
  simp only [deferCancel, wp_bind]
  refine wp_getXfer_live (by exact hq) ?_
  simp only [wp_gets, wp_assert]
  refine ⟨fun _ => ?_, fun _ => hE _ k _ hk (Or.inr rfl)⟩
  have hdelete : ∀ s : Server, s.timerAt t = some tm →
      s.xferAt = (w.srv.cancel q y).xferAt →
      wp (eraseTimer tm.txnid) (fun _ w' => wp (timerDelete ans t) Q E w') E ⟨s, k⟩ := by
    intro s ht' hmarked
    simp only [eraseTimer, wp_onSrv]
    exact wp_timerDelete (by exact ht') (hQ _ k _ rfl hk hmarked)
  rw [wp_ite]
  refine ⟨fun _ => ?_, fun _ => ?_⟩
  · simp only [pushDeferred, wp_bind, wp_onSrv]
    refine wp_setDefer (by exact hq) ?_
    exact hdelete _ ht rfl
  · refine wp_setDefer (by exact hq) ?_
    exact hdelete _ ht rfl

theorem not_expiresOwn_of_misfires (ht : w.srv.timerAt t = some tm) (hmis : w.srv.Misfires tm) :
    ¬ ExpiresOwn ans t tm w := by
  obtain ⟨q, y, hfind, hq, hother, haddr, hleft⟩ := hmis
  intro hown
  -- once the message is in the trace, nothing takes it out
  have hlater : ∀ k result tr, (w.kern.log (.sent (some q) y.statFd
      (.hdr .xferStat (ETIMEDOUT % 256)) result)).Quiet k → OnlyCloses tr →
      historyOf q (k.trace ++ tr) ≠ historyOf q w.kern.trace := by
    intro k result tr hk honly heq
    rw [hk.trace, historyOf_append, honly.historyOf, List.append_nil] at heq
    simp [Kernel.log, historyOf, Effect.onBehalf] at heq
  have hspoke : historyOf q (processTimer ans t w).state.kern.trace ≠ historyOf q w.kern.trace := by
    apply wp_state (R := fun w' : World => historyOf q w'.kern.trace ≠ historyOf q w.kern.trace)
    apply wp_processTimer_hit ht hfind hq ⟨haddr, hleft⟩
    · intro s k result _ hk _
      obtain ⟨closed, hclosed⟩ := Kernel.close_trace ans k tm.ident
      rw [hclosed]
      exact hlater k result _ hk (Kernel.onlyCloses_singleton _ _)
    · intro e k result hk _
      simpa using hlater k result [] hk (by intro e he; cases he)
  exact hspoke (congrArg View.history (hown q y hq hother))

end Timer

/-- In every reachable state, the expiry of a timer spares the other transactions
exactly if it does not misfire. -/
theorem expiresOwn_iff {s : State} (hr : server.Reachable System.always s) {t : Ptr}
    {tm : ResrcTimer} (ht : s.world.srv.timerAt t = some tm) (ans : Answers) :
    ExpiresOwn ans t tm s.world ↔ ¬ s.world.srv.Misfires tm := by
  constructor
  · intro hown hmis
    exact not_expiresOwn_of_misfires ht hmis hown
  · exact expiresOwn_of_not_misfires (reachable_ledger hr).1 (Minted.reachable hr) ht

section Runs

open Scenario

/-- An open file that is not used. -/
def openFileOnly : List (Answers × Label) :=
  serve (answers tenBytes) [⟨fileRequest .fileOpen 0 0, [1], some client⟩]

/-- The timer and the transfer in its slot belong to one transaction. -/
def State.guarded (t p : Ptr) (s : State) : Bool :=
  match s.world.srv.timerAt t, s.world.srv.xferAt p with
  | some tm, some x => s.world.srv.xfers.find tm.txnid == some p && x.txnid == tm.txnid
  | _, _ => false

theorem expiresOwn_iff_of_openFileOnly : ∃ s t tm, server.Reachable System.always s ∧
    s.world.srv.timerAt t = some tm ∧ ExpiresOwn (answers tenBytes) t tm s.world := by
  obtain ⟨s, hr, hP⟩ := exists_reachable System.always 4 4 openFileOnly (State.guarded 1 0)
    (by decide +kernel)
  unfold State.guarded at hP
  split at hP
  · rename_i tm x ht hx
    obtain ⟨hfind, htxnid⟩ : s.world.srv.xfers.find tm.txnid = some 0 ∧ x.txnid = tm.txnid := by
      simpa using hP
    refine ⟨s, 1, tm, hr, ht, (expiresOwn_iff hr ht _).mpr ?_⟩
    rintro ⟨q, y, hq, hy, hother, -⟩
    rw [hfind] at hq
    cases hq
    rw [hx] at hy
    cases hy
    exact hother htxnid
  · cases hP

/-- An open file that is sent, after which another transfer is allocated at the same
address and in the same slot. -/
def addressReused : List (Answers × Label) :=
  serve (answers tenBytes) [⟨fileRequest .fileOpen 0 0, [1], some client⟩,
      ⟨txnRequest .sendOpen 1, [2], some client⟩] ++
    handle (answers tenBytes) (writable 0) ++
    serve { answers tenBytes with malloc := fun _ => some 4 }
      [⟨fileRequest .send 0 0, [1, 2], some client⟩]

/-- The expiry of the timer marks the transfer of another transaction CANCEL. -/
def State.expiresAnother (ans : Answers) (t q : Ptr) (s : State) : Bool :=
  match s.world.srv.timerAt t, s.world.srv.xferAt q,
    (processTimer ans t s.world).state.srv.xferAt q with
  | some tm, some y, some y' => y.txnid != tm.txnid && y.defer == .none && y'.defer == .cancel
  | _, _, _ => false

theorem timer_expires_another : ∃ s t tm q y y', server.Reachable System.always s ∧
    s.world.srv.timerAt t = some tm ∧ s.world.srv.xferAt q = some y ∧ y.txnid ≠ tm.txnid ∧
    y.defer = .none ∧
    (processTimer (answers tenBytes) t s.world).state.srv.xferAt q = some y' ∧
    y'.defer = .cancel ∧ ¬ ExpiresOwn (answers tenBytes) t tm s.world := by
  obtain ⟨s, hr, hP⟩ := exists_reachable System.always 1 4096 addressReused
    (State.expiresAnother (answers tenBytes) 1 2) (by decide +kernel)
  unfold State.expiresAnother at hP
  split at hP
  · rename_i tm y y' ht hy hy'
    obtain ⟨⟨hother, hnone⟩, hcancel⟩ : (y.txnid ≠ tm.txnid ∧ y.defer = .none) ∧
        y'.defer = .cancel := by simpa using hP
    refine ⟨s, 1, tm, 2, y, y', hr, ht, hy, hother, hnone, hy', hcancel, fun hown => ?_⟩
    have hsame : (processTimer (answers tenBytes) 1 s.world).state.srv.xferAt 2 =
        s.world.srv.xferAt 2 := congrArg View.xfer (hown 2 y hy hother)
    rw [hy, hy'] at hsame
    cases hsame
    rw [hnone] at hcancel
    cases hcancel
  · cases hP

end Runs

end Sendfiled
