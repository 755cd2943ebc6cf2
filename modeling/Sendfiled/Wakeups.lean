/-
Edge-triggered polling.  A transfer that stopped moving data either has a place in the
deferred list or has just been told that its destination is full, so that the poller
will report it again.
-/
import Sendfiled.Life

namespace Sendfiled

open Prog Transition

/-- A call of `splice` or `sendfile`. -/
def Effect.isIo : Effect → Bool
  | .moved .. | .failed .. => true
  | .sent .. | .closed .. => false

/-- The last call that was to move data of the transfer. -/
def lastIo (p : Ptr) (trace : List Effect) : Option Effect :=
  (trace.filter fun e => e.isIo && e.onBehalf == some p).getLast?

/-- The kernel answers an I/O call that moves nothing with a fatal error or with EAGAIN,
not with one of the other errors that are taken for temporary. -/
def Answers.Plain (ans : Answers) : Prop :=
  ∀ t n e, ans.io t n = .error e → errnoIsFatal e = true ∨ e = EAGAIN

/-- Why a transfer need not be in the deferred list: its first event is still to come, or
its destination was full. -/
def Expects (p : Ptr) (trace : List Effect) : Prop :=
  lastIo p trace = none ∨ ∃ fd, lastIo p trace = some (.failed p fd EAGAIN)

/-- A transfer is deferred, or it expects an event. -/
def Awake (p : Ptr) (v : View) : Prop :=
  ∀ x, v.xfer = some x → x.defer = .none → Expects p v.history

section Deeds

variable {ans : Answers} {p : Ptr} {x : ResrcXfer} {e : Errno} {b : Bool} {v v' : View}

theorem lastIo_historyOf (p : Ptr) (trace : List Effect) :
    lastIo p (historyOf p trace) = lastIo p trace := by
  unfold lastIo historyOf
  rw [List.filter_filter]
  congr 2
  funext e
  cases e.isIo <;> simp

theorem lastIo_append_sent (p : Ptr) (tr : List Effect) (who : Option Ptr) (fd : Fd) (pdu : Pdu)
    (result : Except Errno Nat) : lastIo p (tr ++ [.sent who fd pdu result]) = lastIo p tr := by
  simp [lastIo, Effect.isIo]

theorem lastIo_append_failed (p : Ptr) (tr : List Effect) (fd : Fd) (e : Errno) :
    lastIo p (tr ++ [.failed p fd e]) = some (.failed p fd e) := by
  simp [lastIo, Effect.isIo, Effect.onBehalf]

theorem lastIo_append_moved (p : Ptr) (tr : List Effect) (fd : Fd) (bytes : List UInt8) :
    lastIo p (tr ++ [.moved p fd bytes]) = some (.moved p fd bytes) := by
  simp [lastIo, Effect.isIo, Effect.onBehalf]

/-- The only temporary error is a full destination. -/
theorem Answers.Plain.eagain (h : ans.Plain) (hbalks : ans.Balks e)
    (he : errnoIsFatal e = false) : e = EAGAIN := by
  rcases hbalks with rfl | ⟨t, n, hio⟩
  · cases he
  · rcases h t n e hio with hfatal | heq
    · rw [he] at hfatal
      cases hfatal
    · exact heq

/-- A transfer that goes on after a failed write was told that its destination is full. -/
theorem Faltered.awake {total : Nat} (h : Faltered ans p x e total v true v')
    (hfull : errnoIsFatal e = false → Expects p v.history) : Awake p v' := by
  cases h with
  | paused he => exact fun _ _ _ => hfull he
  | stalled he =>
      intro y _ _
      change Expects p (v.history ++ _)
      unfold Expects
      rw [lastIo_append_sent]
      exact hfull he

theorem Transferred.awake (h : Transferred ans p x v true v') (hans : ans.Plain) :
    Awake p v' := by
  cases h with
  | full =>
      intro y hy hnone
      cases hy
      cases hnone
  | @faltered z tr e' _ _ _ hbalks hend =>
      apply hend.awake
      intro he
      right
      refine ⟨x.destFd, ?_⟩
      change lastIo p (v.history ++ (tr ++ [.failed p x.destFd e'])) = _
      rw [← List.append_assoc, lastIo_append_failed, hans.eagain hbalks he]

theorem Awake.deed (h : Awake p v) (hans : ans.Plain) (hdeed : Deed ans p v v') :
    Awake p v' := by
  cases hdeed with
  | served _ _ htransferred => exact htransferred.awake hans
  | ended | errored | shut | buried | rejected => exact fun _ hy => by cases hy
  | cancelled =>
      intro y hy hnone
      cases hy
      cases hnone
  | assigned hx =>
      intro y hy hnone
      cases hy
      exact h _ hx hnone
  | dropped => exact h
  | settled | retried =>
      intro y hy hnone
      change Expects p (v.history ++ _)
      unfold Expects
      rw [lastIo_append_sent]
      exact h y hy hnone

theorem Awake.expired {w w' : World} (hexpired : Expired p w w') : Awake p (w'.view p) := by
  obtain ⟨-, -, -, -, hview, -⟩ := hexpired
  rw [hview]
  intro y hy hnone
  cases hy
  cases hnone

theorem Born.awake (h : Born p x v) : Awake p v := by
  obtain ⟨-, -⟩ := h
  exact fun _ _ _ => Or.inl rfl

end Deeds

/-- In every run in which the only temporary error of an I/O call is EAGAIN, at every
moment: a live transfer is in the deferred list, its first event is still to come, or its
last I/O call was answered with EAGAIN. -/
theorem no_lost_wakeup {s : State} (hr : server.Reachable (fun l _ => l.1.Plain) s) {p : Ptr}
    {x : ResrcXfer} (hx : s.world.srv.xferAt p = some x) :
    p ∈ s.world.srv.deferredXfers ∨ Expects p s.world.kern.trace := by
  have hledger := (reachable_ledger (hr.mono fun _ _ _ => trivial)).1
  have hawake : Awake p (s.world.view p) := by
    apply view_invariant (V := Awake p) _ _ _ _ hr
    · intro v hnone y hy
      rw [hnone] at hy
      cases hy
    · exact fun y v hborn => hborn.awake
    · exact fun ans l s v v' hans hdeed h => h.deed hans hdeed
    · exact fun w w' hexpired _ => Awake.expired hexpired
  by_cases hnone : x.defer = .none
  · right
    have hexpects := hawake x hx hnone
    unfold Expects at hexpects ⊢
    rwa [show (s.world.view p).history = historyOf p s.world.kern.trace from rfl,
      lastIo_historyOf] at hexpects
  · exact Or.inl ((hledger.listed p x hx).mpr hnone)

section Runs

open Scenario

/-- The destination of a SEND becomes writable once, and then the I/O call fails. -/
def stuckSend (e : Errno) : List (Answers × Label) :=
  serve { answers tenBytes with io := fun _ _ => .error e }
      [⟨fileRequest .send 0 0, [1, 2], some client⟩] ++
    handle { answers tenBytes with io := fun _ _ => .error e } (writable 0)

theorem stuckSend_plain : ∀ l ∈ stuckSend EAGAIN, ∀ s : State,
    System.always l s → l.1.Plain := by
  have hplain : Answers.Plain { answers tenBytes with io := fun _ _ => .error EAGAIN } := by
    intro t n e he
    cases he
    exact Or.inr rfl
  intro l hl _ _
  have hans : l.1 = { answers tenBytes with io := fun _ _ => .error EAGAIN } := by
    simp only [stuckSend, serve, handle, List.cons_append, List.nil_append, List.mem_cons,
      List.flatMap_cons, List.flatMap_nil, List.not_mem_nil, or_false] at hl
    rcases hl with rfl | rfl | rfl | rfl | rfl | rfl | rfl | rfl | rfl <;> rfl
  rw [hans]
  exact hplain

theorem no_lost_wakeup_of_stuckSend : ∃ s x, server.Reachable (fun l _ => l.1.Plain) s ∧
    s.phase = .waiting ∧ s.world.srv.xferAt 0 = some x ∧
    (0 ∈ s.world.srv.deferredXfers ∨ Expects 0 s.world.kern.trace) := by
  obtain ⟨s, hr, hP⟩ := exists_reachable_forall System.always 4 100 (stuckSend EAGAIN)
    (fun s => (s.phase == .waiting) && (s.world.srv.xferAt 0).isSome) stuckSend_plain
    (by decide +kernel)
  simp only [Bool.and_eq_true, beq_iff_eq, Option.isSome_iff_exists] at hP
  obtain ⟨hwait, x, hx⟩ := hP
  exact ⟨s, x, hr, hwait, hx, no_lost_wakeup hr hx⟩

/-- With a full disk, or any other error that is taken for temporary, a registered
transfer is left alone for good. -/
theorem wakeup_lost : ∃ s reg x fd, server.Reachable System.always s ∧ s.phase = .waiting ∧
    reg ∈ s.world.kern.regs ∧ reg.udata = .xfer 0 ∧ s.world.srv.xferAt 0 = some x ∧
    0 ∉ s.world.srv.deferredXfers ∧
    lastIo 0 s.world.kern.trace = some (.failed 0 fd ENOSPC) ∧
    ¬ Expects 0 s.world.kern.trace := by
  obtain ⟨s, hr, hP⟩ := exists_reachable System.always 4 100 (stuckSend ENOSPC)
    (fun s => (s.phase == .waiting) && (s.world.srv.xferAt 0).isSome &&
      s.world.kern.regs.any (fun reg => reg.udata == .xfer 0) &&
      (s.world.srv.deferredXfers == []) &&
      (lastIo 0 s.world.kern.trace == some (.failed 0 7 ENOSPC)))
    (by decide +kernel)
  simp only [Bool.and_eq_true, beq_iff_eq, Option.isSome_iff_exists, List.any_eq_true] at hP
  obtain ⟨⟨⟨⟨hwait, x, hx⟩, reg, hreg, hu⟩, hlist⟩, hlast⟩ := hP
  refine ⟨s, reg, x, 7, hr, hwait, hreg, hu, hx, by simp [hlist], hlast, ?_⟩
  rintro (hnone | ⟨fd, hfd⟩)
  · rw [hlast] at hnone
    cases hnone
  · rw [hlast] at hfd
    cases hfd

end Runs

end Sendfiled
