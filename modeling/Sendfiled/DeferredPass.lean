/-
One pass of `process_deferred` over the deferred list.  The loop removes entries while it
goes through the list, and still comes to each of them once.
-/
import Sendfiled.Rounds

namespace Sendfiled

open Prog

variable {ans : Answers} {p : Ptr} {x y : ResrcXfer} {w w₁ w₂ w' : World} {i : Nat}

section Calls

/-- The deferred list and the other transfers are as they were. -/
structure Beside (p : Ptr) (w w' : World) : Prop where
  listed : w'.srv.deferredXfers = w.srv.deferredXfers
  others : ∀ q ≠ p, w'.srv.xferAt q = w.srv.xferAt q

theorem Beside.trans (h : Beside p w w₁) (h' : Beside p w₁ w') : Beside p w w' :=
  ⟨h'.listed.trans h.listed, fun q hq => (h'.others q hq).trans (h.others q hq)⟩

theorem Beside.setXfer (p : Ptr) (y : ResrcXfer) (w : World) (k : Kernel) :
    Beside p w ⟨w.srv.setXfer p y, k⟩ :=
  ⟨rfl, fun _ hq => Function.update_of_ne hq _ _⟩

/-- What a call of `transfer_file` for a deferred transfer can come to: the pipe is full, a
write would block, or the transfer is at its end. -/
inductive Continued (p : Ptr) (w : World) : Bool → World → Prop
  | full {w' : World} {y : ResrcXfer} {tr : List Effect} {fd : Fd} {bytes : List UInt8}
      (h : Beside p w w') (hy : w'.srv.xferAt p = some y) (hready : y.defer = .ready)
      (htrace : w'.kern.trace = w.kern.trace ++ tr)
      (hlast : lastIo p tr = some (.moved p fd bytes)) : Continued p w true w'
  | blocked {w' : World} {y : ResrcXfer} {tr : List Effect} {fd : Fd} {e : Errno}
      (h : Beside p w w') (hy : w'.srv.xferAt p = some y) (hnone : y.defer = .none)
      (htrace : w'.kern.trace = w.kern.trace ++ tr)
      (hlast : lastIo p tr = some (.failed p fd e)) (he : errnoIsFatal e = false) :
      Continued p w true w'
  | ended {w' : World} {y : ResrcXfer} (h : Beside p w w') (hy : w'.srv.xferAt p = some y) :
      Continued p w false w'

/-- A last message leaves the transfer as it was. -/
theorem wp_report_continued (hbeside : Beside p w w₁) (hx : w₁.srv.xferAt p = some x) (pdu : Pdu) :
    wp (do
      if ← hasStatChannel p then
        sendTerminalResp ans p pdu
        pure false
      else pure false) (Continued p w) (fun _ _ => True) w₁ := by
  simp only [wp_bind, hasStatChannel]
  refine wp_getXfer_live hx ?_
  simp only [wp_assert, wp_pure]
  refine ⟨fun _ => ?_, fun _ => trivial⟩
  rw [wp_ite]
  refine ⟨fun _ => ?_, fun _ => .ended hbeside hx⟩
  simp only [wp_bind, wp_pure]
  refine wp_mono (wp_sendTerminalResp_ends hx) (fun _ w' hends => ?_) fun _ _ _ => trivial
  obtain ⟨tr, haside, -⟩ := hends.aside
  have hx' : w'.srv.xferAt p = some x := by rw [haside.xferAt, hx]
  exact .ended (hbeside.trans ⟨haside.deferredXfers, fun q _ => by rw [haside.xferAt]⟩) hx'

theorem wp_transferError_continued {total : Nat} {tr : List Effect} {fd : Fd} {e : Errno}
    (hbeside : Beside p w w₁) (hx : w₁.srv.xferAt p = some x) (herrno : w₁.kern.errno = e)
    (htrace : w₁.kern.trace = w.kern.trace ++ tr)
    (hlast : lastIo p tr = some (.failed p fd e)) :
    wp (transferError ans p total) (Continued p w) (fun _ _ => True) w₁ := by
  simp only [transferError, wp_bind, wp_getErrno]
  rw [herrno, wp_ite]
  refine ⟨fun _ => wp_report_continued hbeside hx _, fun hfatal => ?_⟩
  have he : errnoIsFatal e = false := Bool.eq_false_iff.mpr hfatal
  -- the transfer waits for the next event
  have hidle : ∀ k tr', k.trace = w.kern.trace ++ tr' → lastIo p tr' = some (.failed p fd e) →
      wp (do setDefer p .none; pure true) (Continued p w) (fun _ _ => True) ⟨w₁.srv, k⟩ := by
    intro k tr' htrace' hlast'
    simp only [wp_bind, wp_pure]
    refine wp_setDefer (by exact hx) ?_
    exact .blocked (hbeside.trans (.setXfer p _ w₁ k)) (Function.update_self ..) rfl htrace'
      hlast' he
  simp only [wp_bind]
  refine wp_getXfer_live hx ?_
  rw [wp_ite]
  refine ⟨fun _ => wp_report_continued hbeside hx _, fun _ => ?_⟩
  simp only [wp_bind, hasStatChannel]
  refine wp_getXfer_live hx ?_
  simp only [wp_assert, wp_pure]
  refine ⟨fun _ => ?_, fun _ => trivial⟩
  rw [wp_ite]
  refine ⟨fun _ => ?_, fun _ => hidle _ tr htrace hlast⟩
  rw [wp_bind]
  refine wp_sendPdu_logged (fun sent k result hk => ?_) fun _ _ _ => trivial
  have hsaid : k.trace =
      w.kern.trace ++ (tr ++ [.sent (some p) x.statFd (.xferStat total) result]) := by
    rw [show k.trace = _ from hk.trace]
    change w₁.kern.trace ++ _ = _
    rw [htrace, List.append_assoc]
  have hlast' : lastIo p (tr ++ [.sent (some p) x.statFd (.xferStat total) result]) =
      some (.failed p fd e) := by
    rw [lastIo_append_sent, hlast]
  rw [wp_ite]
  refine ⟨fun _ => hidle k _ hsaid hlast', fun _ => ?_⟩
  simp only [wp_bind, wp_getErrno]
  rw [wp_ite]
  exact ⟨fun _ => .ended (hbeside.trans ⟨rfl, fun _ _ => rfl⟩) hx, fun _ => hidle k _ hsaid hlast'⟩

theorem wp_transferLoop_continued (fuel : Nat) {total : Nat} {tr : List Effect}
    (hbeside : Beside p w w₁) (hx : w₁.srv.xferAt p = some x) (hready : x.defer = .ready)
    (htrace : w₁.kern.trace = w.kern.trace ++ tr) :
    wp (transferLoop ans p fuel total) (Continued p w) (fun _ _ => True) w₁ := by
  induction fuel generalizing w₁ x total tr with
  | zero => trivial
  | succ fuel ih =>
      by_cases hsize : 0 < w₁.writeSize x total
      · -- what one write leaves
        have hwrote : ∀ n k, w₁.transfers ans p x total = (.ok n, k) → ∃ bytes,
            k.trace = w.kern.trace ++ (tr ++ [.moved p x.destFd bytes]) ∧
            Beside p w ⟨w₁.srv.setXfer p (x.wrote n), k⟩ := by
          intro n k hio
          obtain ⟨bytes, -, hbytes⟩ := Kernel.moveBytes_trace ans _ hio
          refine ⟨bytes, ?_, hbeside.trans (.setXfer p _ w₁ k)⟩
          rw [hbytes, htrace, List.append_assoc]
        refine wp_transferLoop_succ hx hsize ?_ (fun _ _ => trivial) ?_ ?_ ?_
        · intro e k hio
          obtain ⟨e', k', heq, herrno, -, hk⟩ | ⟨m, k', heq, -⟩ :=
            Kernel.moveBytes_spec ans p x.file.fd x.destFd (w₁.writeSize x total) w₁.kern
          · rw [World.transfers, heq] at hio
            cases hio
            have htrace' : k.trace = w.kern.trace ++ (tr ++ [.failed p x.destFd e]) := by
              rw [show k.trace = _ from hk.trace]
              change w₁.kern.trace ++ _ = _
              rw [htrace, List.append_assoc]
            exact wp_transferError_continued (hbeside.trans ⟨rfl, fun _ _ => rfl⟩) (by exact hx)
              herrno htrace' (lastIo_append_failed ..)
          · rw [World.transfers, heq] at hio
            cases hio
        · intro n k hio _ _
          obtain ⟨bytes, -, hbeside'⟩ := hwrote n k hio
          exact wp_report_continued hbeside' (by exact Function.update_self ..) _
        · intro n k hio _ _ _
          obtain ⟨bytes, htrace', hbeside'⟩ := hwrote n k hio
          have hne : x.defer ≠ .none := by
            rw [hready]
            decide
          rw [if_neg hne]
          exact .full hbeside' (Function.update_self ..) hready htrace' (lastIo_append_moved ..)
        · intro w₂ total₂ hnext
          cases hnext with
          | @intro _ k z _ n hz _ hio =>
              rw [hx] at hz
              cases hz
              obtain ⟨bytes, htrace', hbeside'⟩ := hwrote n k hio
              exact ih hbeside' (by exact Function.update_self ..) (by exact hready) htrace'
      · simp only [transferLoop, wp_bind]
        refine wp_getXfer_live hx ?_
        simp only [wp_gets, wp_assert]
        exact ⟨fun hpos => absurd hpos hsize, fun _ => trivial⟩

theorem wp_transferFile_continued (hx : w.srv.xferAt p = some x) (hready : x.defer = .ready) :
    wp (transferFile ans p) (Continued p w) (fun _ _ => True) w := by
  have hloop : wp (transferLoop ans p (w.srv.pipeCapacity + 1) 0) (Continued p w)
      (fun _ _ => True) w :=
    wp_transferLoop_continued _ ⟨rfl, fun _ _ => rfl⟩ hx hready (List.append_nil _).symm
  simp only [transferFile, wp_bind]
  refine wp_getXfer_live hx ?_
  cases x.cmd with
  | read => exact hloop
  | send => exact hloop
  | fileOpen | sendOpen | cancel => exact .ended ⟨rfl, fun _ _ => rfl⟩ hx

end Calls

section Visits

/-- One round of the loop: the entry that it visits, and the world before and after. -/
structure Visit where
  entry : Ptr
  before : World
  after : World

/-- A transfer that is to be continued in the next pass. -/
def World.Ready (w : World) (p : Ptr) : Prop := ∃ x, w.srv.xferAt p = some x ∧ x.defer = .ready

/-- What becomes of an entry at its visit: it is deleted if it was cancelled or
`transfer_file` returns false, it is out of the list if it would block, and otherwise it is
ready as before. -/
inductive Visit.Handled (ans : Answers) (v : Visit) : Option ResrcXfer → Prop
  | cancelled {x : ResrcXfer} (hx : v.before.srv.xferAt v.entry = some x)
      (hdefer : x.defer = .cancel) : v.Handled ans none
  | ended {w₁ : World} (hready : v.before.Ready v.entry)
      (hcall : transferFile ans v.entry v.before = .done false w₁) : v.Handled ans none
  | blocked {w₁ : World} {y : ResrcXfer} {tr : List Effect} {fd : Fd} {e : Errno}
      (hready : v.before.Ready v.entry)
      (hcall : transferFile ans v.entry v.before = .done true w₁)
      (htrace : w₁.kern.trace = v.before.kern.trace ++ tr)
      (hlast : lastIo v.entry tr = some (.failed v.entry fd e)) (he : errnoIsFatal e = false)
      (hnone : y.defer = .none) : v.Handled ans (some y)
  | ready {w₁ : World} {y : ResrcXfer} {tr : List Effect} {fd : Fd} {bytes : List UInt8}
      (hready : v.before.Ready v.entry)
      (hcall : transferFile ans v.entry v.before = .done true w₁)
      (htrace : w₁.kern.trace = v.before.kern.trace ++ tr)
      (hlast : lastIo v.entry tr = some (.moved v.entry fd bytes))
      (hready' : y.defer = .ready) : v.Handled ans (some y)

/-- A visit handles its entry and leaves the other transfers alone. -/
structure Visit.Proper (ans : Answers) (v : Visit) : Prop where
  handled : v.Handled ans (v.after.srv.xferAt v.entry)
  others : ∀ q ≠ v.entry, v.after.srv.xferAt q = v.before.srv.xferAt q

/-- How a round of the loop ends: the entry stays exactly if it is ready. -/
structure VisitEnds (ans : Answers) (i : Nat) (p : Ptr) (w : World) (stays : Bool)
    (w₁ : World) : Prop where
  proper : Visit.Proper ans ⟨p, w, w₁⟩
  ready : w₁.Ready p ↔ stays = true
  list : w₁.srv.deferredXfers =
    if stays then w.srv.deferredXfers else w.srv.deferredXfers.swapRemove i

/-- Taking an entry out of the list and deleting it. -/
theorem wp_undefer_delete (hx : w₁.srv.xferAt p = some x) {Q : Bool → World → Prop}
    {E : Fault → World → Prop}
    (hQ : ∀ w', w'.srv.xferAt p = none →
      w'.srv.deferredXfers = w₁.srv.deferredXfers.swapRemove i →
      (∀ q ≠ p, w'.srv.xferAt q = w₁.srv.xferAt q) → Q false w') :
    wp (do undeferXfer i p; deleteRegisteredXfer ans p; pure false) Q E w₁ := by
  simp only [wp_bind, wp_pure]
  refine wp_undeferXfer hx ?_
  have hlive : ((w₁.srv.unlist i).setXfer p { x with defer := .none }).xferAt p =
      some { x with defer := .none } := by
    simp [Server.setXfer]
  refine wp_deleteRegisteredXfer hlive (hQ _ ?_ rfl fun q hq => ?_)
  · simp [Server.release, Server.discard, Server.dropXfer]
  · simp [Server.release, Server.discard, Server.dropXfer, Server.setXfer, Server.unlist, hq]

/-- A round ends unless a call of `transfer_file` does not return. -/
theorem wp_visitDeferred_ends (hx : w.srv.xferAt p = some x)
    (hdefer : x.defer = .cancel ∨ x.defer = .ready) :
    wp (visitDeferred ans i p) (VisitEnds ans i p w)
      (fun e w' => w.Ready p ∧ transferFile ans p w = .fault e w') w := by
  simp only [visitDeferred, wp_bind]
  refine wp_getXfer_live hx ?_
  -- a deleted entry is not ready
  have hgone : ∀ w' : World, w'.srv.xferAt p = none → (w'.Ready p ↔ false = true) := by
    intro w' hnone
    refine ⟨fun ⟨y, hy, _⟩ => ?_, fun h => (by cases h)⟩
    rw [hnone] at hy
    cases hy
  rcases hdefer with hcancel | hready
  · rw [hcancel]
    refine wp_undefer_delete hx fun w' hnone hlist hothers => ?_
    exact ⟨⟨hnone ▸ .cancelled hx hcancel, hothers⟩, hgone w' hnone, hlist⟩
  rw [hready]
  have hbefore : w.Ready p := ⟨x, hx, hready⟩
  rw [wp_bind]
  refine wp_mono (wp_outcomes (wp_transferFile_continued hx hready)) ?_
    fun e w' hfault => ⟨hbefore, hfault.1⟩
  rintro b w₁ ⟨hcall, hends⟩
  cases hends with
  | @full _ y tr fd bytes h hy hyready htrace hlast =>
      rw [if_pos rfl, wp_bind]
      refine wp_getXfer_live hy ?_
      have hne : y.defer ≠ .none := by
        rw [hyready]
        decide
      rw [if_neg hne]
      refine ⟨⟨?_, h.others⟩, ⟨fun _ => rfl, fun _ => ⟨y, hy, hyready⟩⟩, h.listed⟩
      change Visit.Handled ans ⟨p, w, w₁⟩ (w₁.srv.xferAt p)
      rw [hy]
      exact .ready hbefore hcall htrace hlast hyready
  | @blocked _ y tr fd e h hy hynone htrace hlast he =>
      rw [if_pos rfl, wp_bind]
      refine wp_getXfer_live hy ?_
      rw [if_pos hynone]
      simp only [wp_bind, wp_pure]
      refine wp_undeferXfer hy ?_
      have hown : ((w₁.srv.unlist i).setXfer p { y with defer := .none }).xferAt p =
          some { y with defer := .none } := Function.update_self ..
      refine ⟨⟨?_, fun q hq => ?_⟩, ⟨?_, fun h => (by cases h)⟩, ?_⟩
      · change Visit.Handled ans ⟨p, w, _⟩ (Server.xferAt _ p)
        rw [hown]
        exact .blocked hbefore hcall htrace hlast he rfl
      · rw [← h.others q hq]
        exact Function.update_of_ne hq _ _
      · rintro ⟨z, hz, hzready⟩
        change Server.xferAt _ p = _ at hz
        rw [hown] at hz
        cases hz
        cases hzready
      · rw [if_neg (by decide), ← h.listed]
        rfl
  | @ended _ y h hy =>
      rw [if_neg (by decide)]
      refine wp_undefer_delete hy fun w' hnone hlist hothers => ?_
      refine ⟨⟨hnone ▸ .ended hbefore hcall, fun q hq => ?_⟩, hgone w' hnone, ?_⟩
      · rw [← h.others q hq]
        exact hothers q hq
      · rw [if_neg (by decide), hlist, h.listed]

end Visits

section Passes

variable {vs : List Visit}

/-- The rounds the loop has taken since it was entered, and where it stands. -/
inductive Begun (ans : Answers) (w : World) : List Visit → Nat → World → Prop
  | start : Begun ans w [] 0 w
  | round {vs : List Visit} {i : Nat} {w₁ w₂ : World} {p : Ptr} {stays : Bool}
      (h : Begun ans w vs i w₁) (hi : w₁.srv.deferredXfers[i]? = some p)
      (hvisit : visitDeferred ans i p w₁ = .done stays w₂) :
      Begun ans w (vs ++ [⟨p, w₁, w₂⟩]) (if stays then i + 1 else i) w₂

/-- The worlds in which a step turns to a transfer: the one its event is handled in, and the
one in which its round of the pass starts. -/
inductive State.TurnsTo (ans : Answers) (p : Ptr) : Label → State → World → Prop
  | event {garbage : Fd × Fd} {w : World} {ev : PollEvent} {rest : List PollEvent}
      (hu : ev.udata = .xfer p) :
      State.TurnsTo ans p (.event garbage) ⟨w, .events (ev :: rest)⟩ w
  | round {w w₁ : World} {vs : List Visit} {i : Nat} (h : Begun ans w vs i w₁)
      (hi : w₁.srv.deferredXfers[i]? = some p) :
      State.TurnsTo ans p .deferred ⟨w, .events []⟩ w₁

/-- The entries are different live transfers that are cancelled or ready. -/
structure Deferrable (w : World) : Prop where
  distinct : w.srv.deferredXfers.Nodup
  live : ∀ q ∈ w.srv.deferredXfers, ∃ x, w.srv.xferAt q = some x ∧
    (x.defer = .cancel ∨ x.defer = .ready)

/-- The loop between two rounds: each entry of the list on entry was visited or is still to
come, and what was passed are the visited ones that are ready. -/
structure Midway (ans : Answers) (w : World) (vs : List Visit) (i : Nat) (w₁ : World) : Prop where
  once : (vs.map Visit.entry ++ w₁.srv.deferredXfers.drop i).Perm w.srv.deferredXfers
  passed : ∀ q, q ∈ w₁.srv.deferredXfers.take i ↔ q ∈ vs.map Visit.entry ∧ w₁.Ready q
  distinct : w₁.srv.deferredXfers.Nodup
  proper : ∀ v ∈ vs, v.Proper ans
  before : ∀ v ∈ vs, v.before.srv.xferAt v.entry = w.srv.xferAt v.entry
  after : ∀ v ∈ vs, w₁.srv.xferAt v.entry = v.after.srv.xferAt v.entry
  waiting : ∀ q ∉ vs.map Visit.entry, w₁.srv.xferAt q = w.srv.xferAt q

theorem Deferrable.midway (h : Deferrable w) : Midway ans w [] 0 w where
  once := List.Perm.refl _
  passed := fun q => by simp
  distinct := h.distinct
  proper := nofun
  before := nofun
  after := nofun
  waiting := fun _ _ => rfl

namespace Midway

/-- The next entry is among those to come. -/
theorem mem_drop {l : List Ptr} (hi : l[i]? = some p) : p ∈ l.drop i := by
  obtain ⟨hlt, rfl⟩ := List.getElem?_eq_some_iff.mp hi
  exact List.mem_drop_iff_getElem.mpr ⟨0, by omega, by simp⟩

/-- The next entry was not visited yet. -/
theorem notMem (hw : Deferrable w) (h : Midway ans w vs i w₁)
    (hi : w₁.srv.deferredXfers[i]? = some p) : p ∉ vs.map Visit.entry := by
  have hnodup := h.once.nodup_iff.mpr hw.distinct
  exact fun hin => List.disjoint_of_nodup_append hnodup hin (mem_drop hi)

/-- The next entry is as it was when the loop was entered. -/
theorem next (hw : Deferrable w) (h : Midway ans w vs i w₁)
    (hi : w₁.srv.deferredXfers[i]? = some p) :
    ∃ x, w₁.srv.xferAt p = some x ∧ (x.defer = .cancel ∨ x.defer = .ready) := by
  rw [h.waiting p (h.notMem hw hi)]
  exact hw.live p (h.once.mem_iff.mp (List.mem_append_right _ (mem_drop hi)))

/-- What a round does to the list: the entry is passed if it stays, and is removed
otherwise. -/
theorem list_round {stays : Bool} (hi : w₁.srv.deferredXfers[i]? = some p)
    (hends : VisitEnds ans i p w₁ stays w₂) :
    (w₁.srv.deferredXfers.drop i).Perm
      (p :: w₂.srv.deferredXfers.drop (if stays then i + 1 else i)) ∧
    w₂.srv.deferredXfers.take (if stays then i + 1 else i) =
      w₁.srv.deferredXfers.take i ++ (if stays then [p] else []) := by
  obtain ⟨hlt, hget⟩ := List.getElem?_eq_some_iff.mp hi
  rw [hends.list]
  cases stays with
  | true =>
      simp only [if_true]
      refine ⟨?_, ?_⟩
      · rw [← hget, List.getElem_cons_drop]
      · rw [← hget, List.take_append_getElem]
  | false =>
      simp only [Bool.false_eq_true, if_false, List.append_nil]
      exact ⟨List.drop_swapRemove_perm hi, List.take_swapRemove hlt⟩

/-- Another round. -/
theorem round {stays : Bool} (hw : Deferrable w) (h : Midway ans w vs i w₁)
    (hi : w₁.srv.deferredXfers[i]? = some p) (hends : VisitEnds ans i p w₁ stays w₂) :
    Midway ans w (vs ++ [⟨p, w₁, w₂⟩]) (if stays then i + 1 else i) w₂ := by
  have hnew := h.notMem hw hi
  have hothers : ∀ q ≠ p, w₂.srv.xferAt q = w₁.srv.xferAt q := hends.proper.others
  have hready : ∀ q ≠ p, (w₂.Ready q ↔ w₁.Ready q) := by
    intro q hq
    rw [World.Ready, World.Ready, hothers q hq]
  have hvisited : ∀ v ∈ vs, v.entry ≠ p := by
    rintro v hv rfl
    exact hnew (List.mem_map_of_mem hv)
  have hlist := list_round hi hends
  constructor
  · refine List.Perm.trans ?_ h.once
    rw [List.map_append, List.append_assoc]
    exact hlist.1.symm.append_left _
  · intro q
    rw [hlist.2, List.map_append, List.mem_append, List.mem_append, h.passed]
    by_cases hq : q = p
    · subst hq
      have hpassed : ¬ (q ∈ vs.map Visit.entry ∧ w₁.Ready q) := fun hin => hnew hin.1
      rw [hends.ready]
      cases stays <;> simp [hpassed, -List.mem_map]
    · have hnot : q ∉ (if stays then [p] else []) := by
        cases stays <;> simp [hq]
      rw [hready q hq]
      simp [hnot, hq]
  · rw [hends.list]
    cases stays with
    | true => exact h.distinct
    | false => exact List.nodup_swapRemove h.distinct hi
  · intro v hv
    rcases List.mem_append.mp hv with hv | hv
    · exact h.proper v hv
    · cases List.mem_singleton.mp hv
      exact hends.proper
  · intro v hv
    rcases List.mem_append.mp hv with hv | hv
    · exact h.before v hv
    · cases List.mem_singleton.mp hv
      exact h.waiting p hnew
  · intro v hv
    rcases List.mem_append.mp hv with hv | hv
    · rw [hothers _ (hvisited v hv)]
      exact h.after v hv
    · cases List.mem_singleton.mp hv
      rfl
  · intro q hq
    rw [List.map_append, List.mem_append, not_or] at hq
    have hne : q ≠ p := fun heq => hq.2 (List.mem_singleton.mpr heq)
    rw [hothers q hne]
    exact h.waiting q hq.1

/-- The rounds that are left are as many as the entries to come. -/
theorem length_eq (h : Midway ans w vs i w₁) :
    vs.length + (w₁.srv.deferredXfers.drop i).length = w.srv.deferredXfers.length := by
  have hlen := h.once.length_eq
  rwa [List.length_append, List.length_map] at hlen

end Midway

/-- Between any two rounds of the loop. -/
theorem Begun.midway (hw : Deferrable w) (h : Begun ans w vs i w₁) : Midway ans w vs i w₁ := by
  induction h with
  | start => exact hw.midway
  | round _ hi hvisit ih =>
      obtain ⟨x, hx, hdefer⟩ := ih.next hw hi
      exact ih.round hw hi (wp_done (wp_visitDeferred_ends hx hdefer) hvisit)

/-- At every round the pass goes on as the loop does from there, and the bound of the loop
is not the reason for it to stop. -/
theorem Begun.processDeferred_eq (hw : Deferrable w) (h : Begun ans w vs i w₁) :
    ∃ fuel, fuel + vs.length = w.srv.deferredXfers.length ∧
      processDeferred ans w = deferredLoop ans (fuel + 1) i w₁ := by
  induction h with
  | start =>
      refine ⟨w.srv.deferredXfers.length, rfl, outcome_eq fun Q E hwp => ?_⟩
      simp only [processDeferred, wp_bind, wp_gets]
      exact hwp
  | @round vs i w₁ w₂ p stays h hi hvisit ih =>
      obtain ⟨fuel, hfuel, heq⟩ := ih
      have hlen := (h.midway hw).length_eq
      have hpos : 0 < (w₁.srv.deferredXfers.drop i).length :=
        List.length_pos_of_mem (Midway.mem_drop hi)
      cases fuel with
      | zero => omega
      | succ fuel =>
          refine ⟨fuel, ?_, heq.trans (outcome_eq fun Q E hwp => ?_)⟩
          · rw [List.length_append, List.length_singleton]
            omega
          · rw [wp_deferredLoop_succ, hi]
            exact wp_of_done hvisit hwp

/-- Every call of `transfer_file` that the pass comes to returns. -/
def CallsReturn (ans : Answers) (w : World) : Prop :=
  ∀ vs i w₁ p, Begun ans w vs i w₁ → w₁.srv.deferredXfers[i]? = some p → w₁.Ready p →
    ∃ b w₂, transferFile ans p w₁ = .done b w₂

/-- The loop comes to the end of the list, by induction on the entries to come. -/
theorem Begun.exists_last (hw : Deferrable w) (hcalls : CallsReturn ans w)
    (h : Begun ans w vs i w₁) :
    ∃ vs' i' w', Begun ans w vs' i' w' ∧ w'.srv.deferredXfers[i']? = none := by
  generalize hn : (w₁.srv.deferredXfers.drop i).length = n
  induction n generalizing vs i w₁ with
  | zero =>
      refine ⟨vs, i, w₁, h, List.getElem?_eq_none_iff.mpr ?_⟩
      rw [List.length_drop] at hn
      omega
  | succ n ih =>
      rw [List.length_drop] at hn
      have hlt : i < w₁.srv.deferredXfers.length := by omega
      have hi : w₁.srv.deferredXfers[i]? = some w₁.srv.deferredXfers[i] :=
        List.getElem?_eq_getElem hlt
      obtain ⟨x, hx, hdefer⟩ := (h.midway hw).next hw hi
      have hends : wp (visitDeferred ans i w₁.srv.deferredXfers[i]) (VisitEnds ans i _ w₁)
          _ w₁ := wp_visitDeferred_ends hx hdefer
      cases hvisit : visitDeferred ans i w₁.srv.deferredXfers[i] w₁ with
      | done stays w₂ =>
          have h₂ := h.round hi hvisit
          refine ih h₂ ?_
          have hlen := (h.midway hw).length_eq
          have hlen₂ := (h₂.midway hw).length_eq
          rw [List.length_append, List.length_singleton] at hlen₂
          rw [List.length_drop] at hlen
          omega
      | fault e w₂ =>
          obtain ⟨hready, hfault⟩ := wp_fault hends hvisit
          obtain ⟨b, w₃, hcall⟩ := hcalls _ _ _ _ h hi hready
          rw [hfault] at hcall
          cases hcall

/-- A call that does not return takes the pass with it. -/
theorem Begun.processDeferred_fault {e : Fault} (hw : Deferrable w) (h : Begun ans w vs i w₁)
    (hi : w₁.srv.deferredXfers[i]? = some p) (hready : w₁.Ready p)
    (hfault : transferFile ans p w₁ = .fault e w₂) : processDeferred ans w = .fault e w₂ := by
  obtain ⟨fuel, -, heq⟩ := h.processDeferred_eq hw
  obtain ⟨x, hx, hxready⟩ := hready
  rw [heq]
  change _ = (halt e : M Unit) w₂
  refine outcome_eq fun Q E hE => ?_
  rw [wp_deferredLoop_succ, hi]
  simp only [visitDeferred, wp_bind]
  refine wp_getXfer_live hx ?_
  rw [hxready, wp_bind]
  exact wp_of_fault hfault hE

/-- A pass that did what it is for: each entry was handled once, nothing else was touched,
and the list holds those that are still ready. -/
structure Passed (ans : Answers) (w : World) (vs : List Visit) (w' : World) : Prop where
  once : (vs.map Visit.entry).Perm w.srv.deferredXfers
  proper : ∀ v ∈ vs, v.Proper ans
  before : ∀ v ∈ vs, v.before.srv.xferAt v.entry = w.srv.xferAt v.entry
  after : ∀ v ∈ vs, w'.srv.xferAt v.entry = v.after.srv.xferAt v.entry
  others : ∀ q ∉ w.srv.deferredXfers, w'.srv.xferAt q = w.srv.xferAt q
  left : ∀ q, q ∈ w'.srv.deferredXfers ↔ q ∈ w.srv.deferredXfers ∧ w'.Ready q
  distinct : w'.srv.deferredXfers.Nodup

/-- The loop is at the end of the list. -/
theorem Midway.passed_all (h : Midway ans w vs i w₁) (hi : w₁.srv.deferredXfers[i]? = none) :
    Passed ans w vs w₁ := by
  have hle : w₁.srv.deferredXfers.length ≤ i := List.getElem?_eq_none_iff.mp hi
  have honce : (vs.map Visit.entry).Perm w.srv.deferredXfers := by
    have hperm := h.once
    rwa [List.drop_eq_nil_of_le hle, List.append_nil] at hperm
  refine ⟨honce, h.proper, h.before, h.after, fun q hq => ?_, fun q => ?_, h.distinct⟩
  · exact h.waiting q fun hin => hq (honce.mem_iff.mp hin)
  · rw [← honce.mem_iff, ← h.passed, List.take_of_length_le hle]

/-- `transfer_file` can serve the transfer. -/
structure Servable (w : World) (x : ResrcXfer) : Prop where
  cmd : x.cmd = .read ∨ x.cmd = .send
  stat : x.statFd = x.destFd ∨ x.cmd = .send
  left : x.nbytesLeft ≠ 0
  blksize : 0 < x.file.blksize
  capacity : 0 < w.srv.pipeCapacity

/-- A pass does what it is for exactly if every call of `transfer_file` that it comes to
returns.  A call that does not was stopped by a file that is at its end too early, or by a
status message that is written in part or cannot be kept. -/
theorem processDeferred_passes_iff (hw : Deferrable w) :
    ((∃ vs i w', Begun ans w vs i w' ∧ processDeferred ans w = .done () w' ∧
      Passed ans w vs w') ↔ CallsReturn ans w) ∧
    ∀ vs i w₁ p x e w₂, Begun ans w vs i w₁ → w₁.srv.deferredXfers[i]? = some p →
      w₁.srv.xferAt p = some x → x.defer = .ready → Servable w₁ x →
      transferFile ans p w₁ = .fault e w₂ → CallStops ans p w₁ e w₂ := by
  refine ⟨⟨?_, fun hcalls => ?_⟩, ?_⟩
  · rintro ⟨_, _, w', -, hdone, -⟩ vs i w₁ p h hi hready
    cases hcall : transferFile ans p w₁ with
    | done b w₂ => exact ⟨b, w₂, rfl⟩
    | fault e w₂ =>
        rw [h.processDeferred_fault hw hi hready hcall] at hdone
        cases hdone
  · obtain ⟨vs, i, w', h, hi⟩ := Begun.start.exists_last hw hcalls
    obtain ⟨fuel, -, heq⟩ := h.processDeferred_eq hw
    refine ⟨vs, i, w', h, heq.trans ?_, (h.midway hw).passed_all hi⟩
    change _ = (pure () : M Unit) w'
    refine outcome_eq fun Q E hQ => ?_
    rw [wp_deferredLoop_succ, hi]
    exact hQ
  · intro vs i w₁ p x e w₂ _ _ hx hready hserve hfault
    have hne : x.defer ≠ .none ∧ x.defer ≠ .cancel := by
      rw [hready]
      decide
    exact wp_fault (wp_transferFile_call hserve.stat hx hne.2 hserve.cmd hserve.left
      hserve.blksize hserve.capacity fun hnone => absurd hnone hne.1) hfault

end Passes

section Runs

open Scenario

/-- The file is at its end before the transfer. -/
def truncated (node : FileNode) : Answers := { answers node with io := fun _ _ => .ok 0 }

/-- All entries of the deferred list are ready and have bytes left. -/
def State.allReady (s : State) : Bool :=
  decide s.world.srv.deferredXfers.Nodup && s.world.srv.deferredXfers.all fun q =>
    (s.world.srv.xferAt q).any fun x => x.defer == .ready && x.nbytesLeft != 0

theorem State.deferrable_of_allReady {s : State} (h : s.allReady = true) :
    Deferrable s.world ∧ ∀ q ∈ s.world.srv.deferredXfers, ∃ x, s.world.srv.xferAt q = some x ∧
      x.defer = .ready ∧ x.nbytesLeft ≠ 0 := by
  unfold State.allReady at h
  rw [Bool.and_eq_true, decide_eq_true_eq, List.all_eq_true] at h
  obtain ⟨hnodup, hentries⟩ := h
  have hall : ∀ q ∈ s.world.srv.deferredXfers, ∃ x, s.world.srv.xferAt q = some x ∧
      x.defer = .ready ∧ x.nbytesLeft ≠ 0 := by
    intro q hq
    obtain ⟨x, hx, hfacts⟩ := (Option.any_eq_true ..).mp (hentries q hq)
    simp only [Bool.and_eq_true, beq_iff_eq, bne_iff_ne] at hfacts
    exact ⟨x, hx, hfacts⟩
  refine ⟨⟨hnodup, fun q hq => ?_⟩, hall⟩
  obtain ⟨y, hy, hready, -⟩ := hall q hq
  exact ⟨y, hy, Or.inr hready⟩

/-- A READ of five bytes and two of ten, in the list because each pipe has room for four. -/
def deferredReads : List (Answers × Label) :=
  serve (answers tenBytes) [⟨fileRequest .read 0 5, [1], some client⟩,
      ⟨fileRequest .read 0 0, [2], some client⟩, ⟨fileRequest .read 0 0, [3], some client⟩] ++
    [(answers tenBytes, .wait [writable 0, writable 1, writable 2]),
      (answers tenBytes, .event (-1, -1)), (answers tenBytes, .event (-1, -1)),
      (answers tenBytes, .event (-1, -1))]

/-- The first entry completes, and the last one takes its place. -/
theorem processDeferred_passes_of_deferredReads : ∃ s, server.Reachable MindsList s ∧
    s.world.srv.deferredXfers = [0, 1, 2] ∧
    (processDeferred (answers tenBytes) s.world).state.srv.deferredXfers = [2, 1] ∧
    ((∃ vs i w', Begun (answers tenBytes) s.world vs i w' ∧
      processDeferred (answers tenBytes) s.world = .done () w' ∧
      Passed (answers tenBytes) s.world vs w') ↔ CallsReturn (answers tenBytes) s.world) := by
  obtain ⟨s, hr, hP⟩ := exists_reachable MindsList 4 4 deferredReads
    (fun s => s.allReady && s.world.srv.deferredXfers == [0, 1, 2] &&
      (processDeferred (answers tenBytes) s.world).state.srv.deferredXfers == [2, 1])
    (by decide +kernel)
  simp only [Bool.and_eq_true, beq_iff_eq] at hP
  obtain ⟨⟨hready, hlist⟩, hswapped⟩ := hP
  exact ⟨s, hr, hlist, hswapped,
    (processDeferred_passes_iff (State.deferrable_of_allReady hready).1).1⟩

/-- A pass over entries that are ready and have bytes left stops the server if the file of
one of them has become shorter. -/
theorem processDeferred_stops_at_end : ∃ s, server.Reachable MindsList s ∧ Deferrable s.world ∧
    (∀ q ∈ s.world.srv.deferredXfers, ∃ x, s.world.srv.xferAt q = some x ∧
      x.defer = .ready ∧ x.nbytesLeft ≠ 0) ∧
    ¬ ∃ vs i w', Begun (truncated tenBytes) s.world vs i w' ∧
      processDeferred (truncated tenBytes) s.world = .done () w' ∧
      Passed (truncated tenBytes) s.world vs w' := by
  obtain ⟨s, hr, hP⟩ := exists_reachable MindsList 4 4 deferredRead
    (fun s => s.allReady &&
      (processDeferred (truncated tenBytes) s.world).fault? == some (.assertion .nwritten))
    (by decide +kernel)
  rw [Bool.and_eq_true] at hP
  obtain ⟨hw, hready⟩ := State.deferrable_of_allReady hP.1
  refine ⟨s, hr, hw, hready, ?_⟩
  rintro ⟨vs, i, w', -, hdone, -⟩
  have hfault := hP.2
  rw [hdone] at hfault
  cases hfault

end Runs

end Sendfiled
