/-
Files that become shorter while they are transferred.  The range was checked against the size
at the time of opening; `splice` and `sendfile` return zero at the new end.
-/
import Sendfiled.DeferredPass

namespace Sendfiled

open Prog

variable {ans : Answers} {p : Ptr} {x y z : ResrcXfer} {w w₁ w₂ w' : World}

/-- A transfer that `transfer_file` may be called for. -/
structure Running (p : Ptr) (x : ResrcXfer) (w : World) : Prop extends Servable w x where
  xfer : w.srv.xferAt p = some x
  defer : x.defer ≠ .cancel
  room : x.defer = .none → w.srv.deferredXfers.length < w.srv.xfers.size

theorem Running.wp_transferFile (h : Running p x w) :
    wp (transferFile ans p) (CallEnds ans p x w) (CallStops ans p w) w :=
  wp_transferFile_call h.stat h.xfer h.defer h.cmd h.left h.blksize h.capacity h.room

/-- What the server leaves alone between two calls: the file, the bytes that are left and the
command.  The deferral and the descriptors may change. -/
structure Resting (y : ResrcXfer) (w : World) (z : ResrcXfer) (w' : World) : Prop where
  file : z.file = y.file
  left : z.nbytesLeft = y.nbytesLeft
  cmd : z.cmd = y.cmd
  capacity : w'.srv.pipeCapacity = w.srv.pipeCapacity

/-- A sequence of calls for one transfer, each with its own answers, that have all returned
true, and what the server does between them. -/
inductive Calls (p : Ptr) (x : ResrcXfer) (w : World) : ResrcXfer → World → Prop
  | start : Calls p x w x w
  | call {ans : Answers} {w₁ w₂ w₃ : World} {y y' z : ResrcXfer} (h : Calls p x w y w₁)
      (hcall : transferFile ans p w₁ = .done true w₂) (hy : w₂.srv.xferAt p = some y')
      (hkept : Resting y' w₂ z w₃) (hz : w₃.srv.xferAt p = some z)
      (hstat : z.statFd = z.destFd ∨ z.cmd = .send) (hdefer : z.defer ≠ .cancel)
      (hroom : z.defer = .none → w₃.srv.deferredXfers.length < w₃.srv.xfers.size) :
      Calls p x w z w₃

/-- A call that returns true leaves a transfer that can be continued. -/
theorem CallEnds.kept (h : CallEnds ans p x w true w') :
    ∃ y, w'.srv.xferAt p = some y ∧ y.file = x.file ∧ y.cmd = x.cmd ∧ y.nbytesLeft ≠ 0 ∧
      w'.srv.pipeCapacity = w.srv.pipeCapacity := by
  cases h with
  | @full y tr w₁ hadvanced hleft _ =>
      have hrecord := hadvanced.moves.record
      refine ⟨{ y with defer := .ready }, Function.update_self .., ?_, ?_, hleft,
        hadvanced.pipeCapacity⟩
      · rw [hrecord]
      · rw [hrecord]
  | @blocked y tr w₁ k e result hhead _ _ _ =>
      have hrecord := hhead.advanced.moves.record
      refine ⟨{ y with defer := .none }, Function.update_self .., ?_, ?_, hhead.left,
        hhead.advanced.pipeCapacity⟩
      · rw [hrecord]
      · rw [hrecord]

/-- However many calls there were, the transfer is one that can be served. -/
theorem Calls.running (h : Calls p x w y w₁) (hx : Running p x w) : Running p y w₁ := by
  induction h with
  | start => exact hx
  | call _ hcall hy hkept hz hstat hdefer hroom ih =>
      obtain ⟨y'', hy'', hfile, hcmd, hleft, hcapacity⟩ :=
        (wp_done ih.wp_transferFile hcall).kept
      rw [hy] at hy''
      cases hy''
      refine ⟨⟨?_, hstat, ?_, ?_, ?_⟩, hz, hdefer, hroom⟩
      · rw [hkept.cmd, hcmd]
        exact ih.cmd
      · rw [hkept.left]
        exact hleft
      · rw [hkept.file, hfile]
        exact ih.blksize
      · rw [hkept.capacity, hcapacity]
        exact ih.capacity

/-- A round of the call finds the file at its end. -/
def MeetsEnd (ans : Answers) (p : Ptr) (w : World) : Prop :=
  ∃ w₁ total y k, Rounds ans p (w, 0) (w₁, total) ∧ w₁.srv.xferAt p = some y ∧
    w₁.transfers ans p y total = (.ok 0, k)

/-- The loop stops at its assertion there. -/
theorem MeetsEnd.transferFile_eq (h : MeetsEnd ans p w) (hx : Running p x w) :
    ∃ w', transferFile ans p w = .fault (.assertion .nwritten) w' := by
  obtain ⟨w₁, total, y, k, hrounds, hy, hio⟩ := h
  obtain ⟨fuel, heq⟩ := hrounds.transferFile_eq hx.xfer hx.cmd hx.left hx.capacity
  obtain ⟨y', tr, hhead⟩ := hrounds.atHead hx.xfer hx.left hx.capacity
  have hsame : y' = y := Option.some.inj (hhead.advanced.xfer.symm.trans hy)
  subst hsame
  refine ⟨⟨w₁.srv, k⟩, heq.trans ?_⟩
  change _ = (halt (.assertion .nwritten) : M Bool) ⟨w₁.srv, k⟩
  refine outcome_eq fun Q E hE => ?_
  refine wp_transferLoop_succ hy (hhead.writeSize_bounds hx.blksize).1 ?_ ?_ ?_ ?_ ?_
  · intro e k' hio'
    rw [hio] at hio'
    cases hio'
  · intro k' hio'
    rw [hio] at hio'
    cases hio'
    exact hE
  · intro n k' hio' hpos
    rw [hio] at hio'
    cases hio'
    exact absurd hpos (Nat.lt_irrefl 0)
  · intro n k' hio' hpos
    rw [hio] at hio'
    cases hio'
    exact absurd hpos (Nat.lt_irrefl 0)
  · intro w₂ total₂ hnext
    cases hnext with
    | intro hz _ hio' hpos =>
        rw [hy] at hz
        cases hz
        rw [hio] at hio'
        cases hio'
        exact absurd hpos (Nat.lt_irrefl 0)

/-- A call leaves the other transfers alone. -/
theorem CallEnds.others {b : Bool} (h : CallEnds ans p x w b w') :
    ∀ q ≠ p, w'.srv.xferAt q = w.srv.xferAt q := by
  intro q hq
  have hadvanced : ∀ {y tr w₁}, Advanced p x w y tr w₁ → w₁.srv.xferAt q = w.srv.xferAt q := by
    intro y tr w₁ h
    rw [h.srv]
    exact Function.update_of_ne hq _ _
  cases h with
  | full h => exact (Function.update_of_ne hq _ _).trans (hadvanced h)
  | blocked h => exact (Function.update_of_ne hq _ _).trans (hadvanced h.advanced)
  | muted h =>
      have hsame := hadvanced h.advanced
      exact hsame
  | completed h _ _ hreport =>
      obtain ⟨tr, haside, -⟩ := hreport.aside
      rw [haside.xferAt]
      exact hadvanced h
  | broken h _ _ hreport =>
      obtain ⟨tr, haside, -⟩ := hreport.aside
      have hsame := hadvanced h.advanced
      rw [haside.xferAt]
      exact hsame

/-- A status message is written whole or not at all: it is no longer than PIPE_BUF. -/
def Answers.WritesWhole (ans : Answers) : Prop :=
  ∀ t size n, ans.write t size = .ok n → n = size

/-- The transfer is told that it has failed. -/
def ToldError (p : Ptr) (x : ResrcXfer) (w w' : World) : Prop :=
  ∃ tr e result, w'.kern.trace = w.kern.trace ++ tr ∧
    .sent (some p) x.statFd (.hdr .xferStat e) result ∈ tr ∧ e ≠ 0

/-- What a call should do even if the file has become shorter: it returns, the other transfers
are left alone, and at the end of the file the transfer ends with an error message on its
status channel if it has one.  Only a message that is to be kept and for which there is no
memory may stop it. -/
def EndsAlone (ans : Answers) (p : Ptr) (x : ResrcXfer) (w : World) : Prop :=
  wp (transferFile ans p) (fun b w' => (∀ q ≠ p, w'.srv.xferAt q = w.srv.xferAt q) ∧
      (MeetsEnd ans p w → b = false ∧ (x.statFd ≠ x.destFd → ToldError p x w w')))
    (fun e w' => e = .nullDeref ∧ ans.Starves w'.srv) w

/-- After any sequence of calls, the next call does what it should exactly if it does not come
to the end of the file. -/
theorem transferFile_endsAlone_iff (hx : Running p x w) (hcalls : Calls p x w y w₁)
    (hwhole : ans.WritesWhole) : EndsAlone ans p y w₁ ↔ ¬ MeetsEnd ans p w₁ := by
  have hy := hcalls.running hx
  constructor
  · intro h hend
    obtain ⟨w', hfault⟩ := hend.transferFile_eq hy
    obtain ⟨hnull, -⟩ := wp_fault h hfault
    cases hnull
  · intro hend
    refine wp_mono hy.wp_transferFile (fun b w' hends => ?_) fun e w' hstops => ?_
    · exact ⟨hends.others, fun h => absurd h hend⟩
    · cases hstops with
      | disrupted he _ _ =>
          rcases he with ⟨-, t, size, n, hwrite, hshort⟩ | hstarves
          · exact absurd (hwhole t size n hwrite) hshort
          · exact hstarves
      | atEnd hrounds hy' hio => exact absurd ⟨_, _, _, _, hrounds, hy', hio⟩ hend

section Runs

open Scenario

theorem answers_writesWhole (node : FileNode) : (answers node).WritesWhole := by
  intro t size n h
  cases h
  rfl

/-- Transfer 0 is a READ that waits in the list with bytes left. -/
def State.readRunning (s : State) : Bool :=
  s.world.srv.pipeCapacity == 4 && (s.world.srv.xferAt 0).any fun x =>
    x.cmd == .read && x.statFd == x.destFd && x.nbytesLeft != 0 && x.file.blksize == 4096 &&
      x.defer == .ready

theorem State.running_of_readRunning {s : State} (h : s.readRunning = true) :
    ∃ x, Running 0 x s.world := by
  unfold State.readRunning at h
  rw [Bool.and_eq_true, Option.any_eq_true] at h
  obtain ⟨hcapacity, x, hx, hfacts⟩ := h
  simp only [Bool.and_eq_true, beq_iff_eq, bne_iff_ne] at hcapacity hfacts
  obtain ⟨⟨⟨⟨hcmd, hstat⟩, hleft⟩, hblksize⟩, hdefer⟩ := hfacts
  have hpos : 0 < x.file.blksize ∧ 0 < s.world.srv.pipeCapacity := by omega
  have hready : x.defer ≠ .none ∧ x.defer ≠ .cancel := by
    rw [hdefer]
    decide
  exact ⟨x, ⟨Or.inl hcmd, Or.inl hstat, hleft, hpos.1, hpos.2⟩, hx, hready.2,
    fun hnone => absurd hnone hready.1⟩

/-- A READ of ten bytes after two calls that filled its pipe. -/
theorem transferFile_endsAlone_of_deferredRead : ∃ s x, server.Reachable MindsList s ∧
    Running 0 x s.world ∧
    (EndsAlone (answers tenBytes) 0 x s.world ↔ ¬ MeetsEnd (answers tenBytes) 0 s.world) := by
  obtain ⟨s, hr, hP⟩ := exists_reachable MindsList 4 4 deferredRead State.readRunning
    (by decide +kernel)
  obtain ⟨x, hx⟩ := State.running_of_readRunning hP
  exact ⟨s, x, hr, hx, transferFile_endsAlone_iff hx .start (answers_writesWhole _)⟩

/-- The same READ when its file has become shorter: the call stops the server. -/
theorem transferFile_stops_at_end : ∃ s x, server.Reachable MindsList s ∧
    Running 0 x s.world ∧ (truncated tenBytes).WritesWhole ∧
    ¬ EndsAlone (truncated tenBytes) 0 x s.world := by
  obtain ⟨s, hr, hP⟩ := exists_reachable MindsList 4 4 deferredRead
    (fun s => s.readRunning &&
      (transferFile (truncated tenBytes) 0 s.world).fault? == some (.assertion .nwritten))
    (by decide +kernel)
  rw [Bool.and_eq_true] at hP
  obtain ⟨x, hx⟩ := State.running_of_readRunning hP.1
  refine ⟨s, x, hr, hx, answers_writesWhole tenBytes, fun h => ?_⟩
  have hfault := hP.2
  cases hcall : transferFile (truncated tenBytes) 0 s.world with
  | done b w' =>
      rw [hcall] at hfault
      cases hfault
  | fault e w' =>
      rw [hcall] at hfault
      obtain ⟨rfl, -⟩ := wp_fault h hcall
      cases hfault

end Runs

end Sendfiled
