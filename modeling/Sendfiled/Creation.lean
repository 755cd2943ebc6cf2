/-
Creating transfers, step by step.  Each step of `add_xfer` and `add_open_file` can fail;
then the error of the step is in `errno` and everything that was done before is undone.
-/
import Sendfiled.Records

namespace Sendfiled

open Prog Transition

section Undoing

/-- The number of a file or timer that the server opened is below `n`. -/
def OpenFile.Below (n : Nat) : OpenFile → Prop
  | .file m | .timerfd m => m < n
  | .client _ | .inherited _ => True

theorem OpenFile.Below.mono {n m : Nat} {f : OpenFile} (h : f.Below n) (hle : n ≤ m) :
    f.Below m := by
  cases f with
  | file k | timerfd k => exact Nat.lt_of_lt_of_le h hle
  | client | inherited => trivial

/-- Open files are numbered as they are opened, and descriptors are not negative. -/
structure Kernel.Numbered (k : Kernel) : Prop where
  fds : ∀ fd f, k.fds.lookup fd = some f → f.Below k.nextFile
  nonneg : ∀ fd f, k.fds.lookup fd = some f → 0 ≤ fd
  regs : ∀ reg ∈ k.regs, reg.file.Below k.nextFile

namespace Kernel

variable {k k' : Kernel} {fd : Fd} {f : OpenFile}

/-- Descriptors and registrations only go away. -/
theorem Numbered.lose (h : k.Numbered)
    (hfds : ∀ fd f, k'.fds.lookup fd = some f → k.fds.lookup fd = some f)
    (hregs : ∀ reg ∈ k'.regs, reg ∈ k.regs) (hnext : k'.nextFile = k.nextFile) :
    k'.Numbered where
  fds := fun fd f hf => hnext ▸ h.fds fd f (hfds fd f hf)
  nonneg := fun fd f hf => h.nonneg fd f (hfds fd f hf)
  regs := fun reg hreg => hnext ▸ h.regs reg (hregs reg hreg)

theorem close_nextFile (ans : Answers) (fd : Fd) (k : Kernel) :
    (k.close ans fd).2.nextFile = k.nextFile := by
  unfold close
  split <;> rfl

theorem Numbered.close (h : k.Numbered) (ans : Answers) (fd : Fd) :
    (k.close ans fd).2.Numbered := by
  refine h.lose (fun fd' f hf => ?_) (fun reg hreg => (close_regs_sublist ans fd k).subset hreg)
    (close_nextFile ans fd k)
  by_cases heq : fd' = fd
  · rw [close_fds, heq, AList.lookup_erase] at hf
    cases hf
  · rwa [close_lookup ans k heq] at hf

theorem Numbered.closeAll (h : k.Numbered) (ans : Answers) (x : ResrcXfer) :
    (k.closeAll ans x).Numbered := by
  unfold Kernel.closeAll closeDest
  split
  · exact ((h.close ans _).close ans _).close ans _
  · exact (h.close ans _).close ans _

theorem Numbered.epollDel (h : k.Numbered) (fd : Fd) : (k.epollDel fd).2.Numbered := by
  refine h.lose (fun fd' f hf => ?_) (fun reg hreg => (epollDel_regs k fd).subset hreg) ?_
  · rwa [epollDel_fds] at hf
  · unfold Kernel.epollDel
    repeat' split
    all_goals rfl

/-- A descriptor for an open file with a number that was given out. -/
theorem Numbered.install (h : k.Numbered) (hf : f.Below k.nextFile) : (k.install f).2.Numbered where
  fds := by
    intro fd g hg
    by_cases heq : fd = lowestFree k.fds.keys
    · subst heq
      rw [show (k.install f).2.fds.lookup (lowestFree k.fds.keys) = some f from
        AList.lookup_insert k.fds] at hg
      cases hg
      exact hf
    · rw [show (k.install f).2.fds.lookup fd = k.fds.lookup fd from
        AList.lookup_insert_ne heq] at hg
      exact h.fds fd g hg
  nonneg := by
    intro fd g hg
    by_cases heq : fd = lowestFree k.fds.keys
    · rw [heq]
      exact lowestFree_nonneg k.fds.keys
    · rw [show (k.install f).2.fds.lookup fd = k.fds.lookup fd from
        AList.lookup_insert_ne heq] at hg
      exact h.nonneg fd g hg
  regs := h.regs

/-- A new number is given out. -/
theorem Numbered.more (h : k.Numbered) (hfds : k'.fds = k.fds) (hregs : k'.regs = k.regs)
    (hnext : k.nextFile ≤ k'.nextFile) : k'.Numbered where
  fds := fun fd f hf => (h.fds fd f (hfds ▸ hf)).mono hnext
  nonneg := fun fd f hf => h.nonneg fd f (hfds ▸ hf)
  regs := fun reg hreg => (h.regs reg (hregs ▸ hreg)).mono hnext

theorem Numbered.counted (h : k.Numbered) (files : Nat → Nat → Option FileState) :
    Numbered { k with files := files k.nextFile, nextFile := k.nextFile + 1 } :=
  h.more rfl rfl (Nat.le_succ _)

theorem Numbered.quiet (h : k.Numbered) (hk : k.Quiet k') : k'.Numbered :=
  h.more hk.fds hk.regs (Nat.le_of_eq hk.nextFile.symm)

end Kernel

theorem Kernel.moveBytes_nextFile (ans : Answers) {p : Ptr} {fdIn fdOut : Fd} {n m : Nat}
    {k k' : Kernel} (h : k.moveBytes ans p fdIn fdOut n = (.ok m, k')) :
    k'.nextFile = k.nextFile := by
  unfold Kernel.moveBytes at h
  repeat' split at h
  all_goals cases h
  all_goals rfl

theorem Kernel.Numbered.performs {a : Action} {c c' : Config} (h : c.world.kern.Numbered)
    (hp : Performs a c c') : c'.world.kern.Numbered := by
  cases hp with
  | quiet _ _ hk => exact h.quiet hk
  | say | balk | seek | enroll | skip | cancel | ready | release | assign | addTimer | skipTimer
  | arm | skipResp => exact h.more rfl rfl (Nat.le_refl _)
  | @openFile L s k node =>
      exact (h.counted (fun m => Function.update k.files m (some ⟨node, 0, 0⟩))).install
        (f := .file k.nextFile) (Nat.lt_succ_self _)
  | @openTimer L s k =>
      exact (h.counted fun _ => k.files).install (f := .timerfd k.nextFile) (Nat.lt_succ_self _)
  | arrive => exact h.install trivial
  | dup _ hf => exact h.install (h.fds _ _ hf)
  | shut ans | reshut ans | retire ans | expire ans | botch ans | dropResp ans =>
      exact h.close ans _
  | discard ans | bury ans => exact (h.epollDel _).closeAll ans _
  | register _ hf =>
      refine ⟨h.fds, h.nonneg, fun reg hreg => ?_⟩
      rcases List.mem_append.mp hreg with hold | hin
      · exact h.regs reg hold
      · rw [List.mem_singleton.mp hin]
        exact h.fds _ _ hf
  | addResp _ hf =>
      refine ⟨h.fds, h.nonneg, fun reg hreg => ?_⟩
      rcases List.mem_append.mp hreg with hold | hin
      · exact h.regs reg hold
      · rw [List.mem_singleton.mp hin]
        exact h.fds _ _ hf
  | forget =>
      exact h.lose (fun _ _ hf => hf) (fun reg hreg => List.mem_of_mem_filter hreg) rfl
  | move ans _ _ _ _ hm =>
      obtain ⟨hfds, hregs⟩ := Kernel.moveBytes_fds ans _ hm
      exact h.more hfds hregs (Nat.le_of_eq (Kernel.moveBytes_nextFile ans hm).symm)

theorem numbered_kept : Kept anything System.always (fun c => c.world.kern.Numbered) where
  grants := fun _ _ _ _ _ _ _ _ _ _ => trivial
  acts := fun _ _ _ _ _ hp h => h.performs hp

theorem numbered_initial (s : State) (h : Initial s) : s.config.world.kern.Numbered := by
  obtain ⟨-, reqfd, -, -, -, -, -, -, hkern⟩ := h
  have hfds : ∀ fd f, s.world.kern.fds.lookup fd = some f → f.Below s.world.kern.nextFile := by
    intro fd f hf
    obtain ⟨-, n, rfl⟩ := hkern.inherited fd f hf
    trivial
  exact ⟨hfds, fun fd f hf => (hkern.inherited fd f hf).1,
    fun reg hreg => hfds _ _ (hkern.registered reg hreg)⟩

/-- A negative number is no descriptor. -/
theorem Kernel.Numbered.notMem_neg {k : Kernel} (h : k.Numbered) : (-1 : Fd) ∉ k.fds := by
  intro hmem
  obtain ⟨f, hf⟩ := Option.isSome_iff_exists.mp (AList.lookup_isSome.mpr hmem)
  exact absurd (h.nonneg _ f hf) (by decide)

/-- While the server runs, open files have the numbers they were given. -/
theorem reachable_numbered {s : State} (hr : server.Reachable System.always s)
    (hrun : s.phase ≠ .stopped) : s.world.kern.Numbered := by
  rcases numbered_kept.reachable numbered_initial hr with hs | hs
  · exact hs.inv
  · exact absurd hs.1 hrun

/-- The kernel has one more descriptor than before, for an open file that nothing else
refers to. -/
structure Kernel.Holds (fd : Fd) (f : OpenFile) (k : Kernel) (tr : List Effect) (k' : Kernel) :
    Prop where
  isNew : fd ∉ k.fds
  lookup : k'.fds.lookup fd = some f
  others : ∀ fd', fd' ≠ fd → k'.fds.lookup fd' = k.fds.lookup fd'
  regs : k'.regs = k.regs
  unwatched : ∀ reg ∈ k.regs, reg.file ≠ f
  trace : k'.trace = k.trace ++ tr
  intact : k.Intact k'

/-- Descriptors and registrations are as before. -/
structure Kernel.Restored (k : Kernel) (tr : List Effect) (k' : Kernel) : Prop where
  lookup : ∀ fd, k'.fds.lookup fd = k.fds.lookup fd
  regs : k'.regs = k.regs
  trace : k'.trace = k.trace ++ tr
  intact : k.Intact k'

namespace Kernel

variable {ans : Answers} {k k₁ k₂ : Kernel} {fd : Fd} {f : OpenFile} {tr tr' : List Effect}

theorem Restored.refl (k : Kernel) : k.Restored [] k :=
  ⟨fun _ => rfl, rfl, (List.append_nil _).symm, .of_eq rfl rfl⟩

theorem Restored.trans (h : k.Restored tr k₁) (h' : k₁.Restored tr' k₂) :
    k.Restored (tr ++ tr') k₂ where
  lookup := fun fd => (h'.lookup fd).trans (h.lookup fd)
  regs := h'.regs.trans h.regs
  trace := by rw [h'.trace, h.trace, List.append_assoc]
  intact := h.intact.trans h'.intact fun fd f hf => (h.lookup fd).trans hf

theorem Restored.of_quiet (h : k.Quiet k₁) : k.Restored [] k₁ :=
  ⟨fun _ => by rw [h.fds], h.regs, by rw [h.trace, List.append_nil], .of_quiet h⟩

theorem Restored.quiet (h : k.Restored tr k₁) (hk : k₁.Quiet k₂) : k.Restored tr k₂ := by
  have hboth := h.trans (.of_quiet hk)
  rwa [List.append_nil] at hboth

/-- What was open before is still open. -/
theorem Holds.extends (h : k.Holds fd f tr k₁) {fd' : Fd} {g : OpenFile}
    (hg : k.fds.lookup fd' = some g) : k₁.fds.lookup fd' = some g := by
  refine (h.others fd' ?_).trans hg
  rintro rfl
  exact h.isNew (mem_of_lookup hg)

theorem Holds.quiet (h : k.Holds fd f tr k₁) (hk : k₁.Quiet k₂) : k.Holds fd f tr k₂ where
  isNew := h.isNew
  lookup := hk.fds ▸ h.lookup
  others := hk.fds ▸ h.others
  regs := hk.regs.trans h.regs
  unwatched := h.unwatched
  trace := hk.trace.trans h.trace
  intact := h.intact.trans (.of_quiet hk) fun _ _ => h.extends

/-- What is restored on the way does not matter. -/
theorem Holds.restored (h : k.Holds fd f tr k₁) (hk : k₁.Restored tr' k₂) :
    k.Holds fd f (tr ++ tr') k₂ where
  isNew := h.isNew
  lookup := (hk.lookup fd).trans h.lookup
  others := fun fd' hne => (hk.lookup fd').trans (h.others fd' hne)
  regs := hk.regs.trans h.regs
  unwatched := h.unwatched
  trace := by rw [hk.trace, h.trace, List.append_assoc]
  intact := h.intact.trans hk.intact fun _ _ => h.extends

/-- Closing the descriptor restores what there was before. -/
theorem Holds.close (h : k.Holds fd f tr k₁) (ans : Answers) :
    k.Restored (tr ++ [.closed fd true]) (k₁.close ans fd).2 where
  lookup := by
    intro fd'
    by_cases heq : fd' = fd
    · subst heq
      rw [close_fds, AList.lookup_erase, AList.lookup_eq_none.mpr h.isNew]
    · rw [close_lookup ans k₁ heq, h.others fd' heq]
  regs := by
    have hall : k₁.regs.filter (fun r => r.file ≠ f) = k₁.regs := by
      apply List.filter_eq_self.mpr
      intro reg hreg
      simpa using h.unwatched reg (h.regs ▸ hreg)
    unfold Kernel.close
    simp only [h.lookup, succeed, log]
    rw [hall, ite_self, h.regs]
  trace := by
    unfold Kernel.close
    simp only [h.lookup, succeed, log, h.trace, List.append_assoc]
  intact := h.intact.close h.isNew ans

/-- Closing a descriptor that is not open does nothing. -/
theorem Restored.close_again (h : fd ∉ k.fds) (ans : Answers) :
    k.Restored [.closed fd false] (k.close ans fd).2 := by
  have hnone : k.fds.lookup fd = none := AList.lookup_eq_none.mpr h
  unfold Kernel.close
  have hintact : k.Intact (k.close ans fd).2 := Intact.close (.of_eq rfl rfl) h ans
  unfold Kernel.close at hintact
  simp only [hnone] at hintact ⊢
  exact ⟨fun _ => rfl, rfl, rfl, hintact⟩

/-- A new file. -/
theorem Numbered.holds_opened (h : k.Numbered) (node : FileNode) :
    k.Holds (lowestFree k.fds.keys) (.file k.nextFile) [] (k.opened node).2 where
  isNew := lowestFree_notMem k.fds.keys
  lookup := AList.lookup_insert k.fds
  others := fun _ hne => AList.lookup_insert_ne hne
  regs := rfl
  unwatched := by
    intro reg hreg heq
    have hbelow := h.regs reg hreg
    rw [heq] at hbelow
    exact Nat.lt_irrefl _ hbelow
  trace := (List.append_nil _).symm
  intact := .of_eq rfl rfl

/-- A new timer. -/
theorem Numbered.holds_openedTimer (h : k.Numbered) :
    k.Holds k.openedTimer.1 (.timerfd k.nextFile) [] k.openedTimer.2 where
  isNew := lowestFree_notMem k.fds.keys
  lookup := AList.lookup_insert k.fds
  others := fun _ hne => AList.lookup_insert_ne hne
  regs := rfl
  unwatched := by
    intro reg hreg heq
    have hbelow := h.regs reg hreg
    rw [heq] at hbelow
    exact Nat.lt_irrefl _ hbelow
  trace := (List.append_nil _).symm
  intact := .of_eq rfl rfl

theorem Numbered.openedTimer (h : k.Numbered) : k.openedTimer.2.Numbered :=
  (h.counted fun _ => k.files).install (f := .timerfd k.nextFile) (Nat.lt_succ_self _)

end Kernel

end Undoing

section Steps

variable {ans : Answers} {req : ProtRequest} {w : World}

/-- The step at which `file_open_read` fails, and the error it fails with. -/
inductive FileFails (ans : Answers) (req : ProtRequest) (k : Kernel) : Errno → Prop
  | opening {e : Errno} (h : ans.openFile k.tick req.filename = .error e) : FileFails ans req k e
  | stat {node : FileNode} {e : Errno} (hopen : ans.openFile k.tick req.filename = .ok node)
      (h : ans.fstat (k.tick + 1) = some e) : FileFails ans req k e
  | kind {node : FileNode} (hopen : ans.openFile k.tick req.filename = .ok node)
      (hstat : ans.fstat (k.tick + 1) = none) (h : node.regular = false) :
      FileFails ans req k EINVAL
  | lock {node : FileNode} {e : Errno} (hopen : ans.openFile k.tick req.filename = .ok node)
      (hstat : ans.fstat (k.tick + 1) = none) (hkind : node.regular = true)
      (h : ans.lock (k.tick + 2) req.offset.toInt req.len.toInt = some e) : FileFails ans req k e
  | seek {node : FileNode} {e : Errno} (hopen : ans.openFile k.tick req.filename = .ok node)
      (hstat : ans.fstat (k.tick + 1) = none) (hkind : node.regular = true)
      (hlock : ans.lock (k.tick + 2) req.offset.toInt req.len.toInt = none)
      (hoff : 0 < req.offset.toInt) (h : ans.lseek (k.tick + 3) = some e) : FileFails ans req k e

/-- The file of the request is opened. -/
def Answers.Opens (ans : Answers) (req : ProtRequest) (k : Kernel) : Prop :=
  ∃ node, ans.openFile k.tick req.filename = .ok node

/-- The descriptor the file of a request gets. -/
def Kernel.fileFd (k : Kernel) : Fd := lowestFree k.fds.keys

theorem Kernel.neg_ne_fileFd (k : Kernel) : (-1 : Fd) ≠ k.fileFd := by
  intro heq
  have hnonneg : (0 : Int) ≤ k.fileFd := lowestFree_nonneg k.fds.keys
  rw [← heq] at hnonneg
  exact absurd hnonneg (by decide)

/-- The file is open and locked, and nothing else has changed. -/
structure FileOpened (ans : Answers) (req : ProtRequest) (w : World) (fd : Fd) (w' : World) :
    Prop where
  srv : w'.srv = w.srv
  eq : fd = w.kern.fileFd
  opens : ans.Opens req w.kern
  holds : w.kern.Holds fd (.file w.kern.nextFile) [] w'.kern
  numbered : w'.kern.Numbered

/-- The file could not be used; if it was opened, it has been closed. -/
structure FileFailed (ans : Answers) (req : ProtRequest) (w w' : World) : Prop where
  srv : w'.srv = w.srv
  fails : FileFails ans req w.kern w'.kern.errno
  restored : ∃ tr, w.kern.Restored tr w'.kern ∧ OnlyCloses tr ∧
    (ans.Opens req w.kern → tr = [.closed w.kern.fileFd true])

/-- A call that succeeds or fails as the answer says. -/
theorem wp_attempt (answer : Option Errno) {f : Kernel → Bool × Kernel}
    (hf : f w.kern = w.kern.attempt answer) {Q : Bool → World → Prop} {E : Fault → World → Prop}
    (hfail : ∀ e, answer = some e → Q false { w with kern := w.kern.fail e })
    (hok : answer = none → Q true { w with kern := w.kern.succeed }) : wp (sys f) Q E w := by
  rw [wp_sys, hf]
  cases answer with
  | none => exact hok rfl
  | some e => exact hfail e rfl

theorem wp_lseek {fd : Fd} {n offset : Nat} (hfd : w.kern.fds.lookup fd = some (.file n))
    {Q : Bool → World → Prop} {E : Fault → World → Prop}
    (hfail : ∀ e, ans.lseek w.kern.tick = some e → Q false { w with kern := w.kern.fail e })
    (hok : ans.lseek w.kern.tick = none →
      Q true { w with kern := (w.kern.sought n offset).succeed }) :
    wp (sys (Kernel.lseek ans fd offset)) Q E w := by
  rw [wp_sys]
  unfold Kernel.lseek
  cases hanswer : ans.lseek w.kern.tick with
  | some e => exact hfail e hanswer
  | none =>
      rw [hfd]
      exact hok hanswer

/-- The two endings of a registration. -/
theorem wp_syspollRegister_cases {fd : Fd} {u : Udata} {Q : Bool → World → Prop}
    {E : Fault → World → Prop}
    (hfail : ∀ e, w.kern.epollAddError ans fd = some e →
      Q false { w with kern := w.kern.fail e })
    (hok : ∀ f, w.kern.epollAddError ans fd = none → w.kern.fds.lookup fd = some f →
      Q true { w with kern := Kernel.succeed { w.kern with
        regs := w.kern.regs ++ [⟨fd, f, u⟩] } }) :
    wp (syspollRegister ans fd u) Q E w := by
  rw [syspollRegister, wp_sys]
  unfold Kernel.epollAdd
  cases herr : w.kern.epollAddError ans fd with
  | some e => exact hfail e herr
  | none =>
      obtain ⟨f, hf, -⟩ := Kernel.epollAddError_none herr
      rw [hf]
      exact hok f herr hf

/-- Why `file_open_read` fails, and what it leaves behind. -/
theorem wp_fileOpenRead_steps (hnum : w.kern.Numbered) :
    wp (fileOpenRead ans req.filename req.offset req.len) (fun o w' => match o with
      | none => FileFailed ans req w w'
      | some (fd, _) => FileOpened ans req w fd w') (fun _ _ => False) w := by
  simp only [fileOpenRead, wp_bind, wp_sys, Kernel.openFile]
  cases hopen : ans.openFile w.kern.tick req.filename with
  | error e =>
      simp only [wp_pure]
      refine ⟨rfl, .opening hopen, [], .of_quiet (Kernel.quiet_fail e w.kern), by simp [OnlyCloses],
        ?_⟩
      rintro ⟨node, hnode⟩
      rw [hopen] at hnode
      cases hnode
  | ok node =>
      have hholds := hnum.holds_opened node
      have hnum' : (w.kern.opened node).2.Numbered :=
        (hnum.counted fun m => Function.update w.kern.files m (some ⟨node, 0, 0⟩)).install
          (f := .file w.kern.nextFile) (Nat.lt_succ_self _)
      -- closing the file takes it back
      have hback : ∀ w', w'.srv = w.srv → FileFails ans req w.kern w'.kern.errno →
          w.kern.Holds w.kern.fileFd (.file w.kern.nextFile) [] w'.kern →
          wp (do preserveErrno (close ans w.kern.fileFd); pure none)
            (fun (o : Option (Fd × FioStat)) w' => match o with
              | none => FileFailed ans req w w'
              | some (fd, _) => FileOpened ans req w fd w') (fun _ _ => False) w' := by
        intro w' hsrv hfails hheld
        simp only [wp_bind, wp_preserveErrno, close, wp_sys, wp_pure]
        exact ⟨hsrv, hfails, _, (hheld.close ans).quiet (Kernel.quiet_errno _ _),
          Kernel.onlyCloses_singleton _ _, fun _ => rfl⟩
      simp only [wp_bind]
      change w.kern.Holds w.kern.fileFd _ _ _ at hholds
      have hfd : (Kernel.install (.file w.kern.nextFile) { w.kern with
          files := Function.update w.kern.files w.kern.nextFile (some ⟨node, 0, 0⟩)
          nextFile := w.kern.nextFile + 1 }).1 = w.kern.fileFd := rfl
      have hkern : (Kernel.install (.file w.kern.nextFile) { w.kern with
          files := Function.update w.kern.files w.kern.nextFile (some ⟨node, 0, 0⟩)
          nextFile := w.kern.nextFile + 1 }).2 = (w.kern.opened node).2 := rfl
      have htick : (w.kern.opened node).2.tick = w.kern.tick := rfl
      simp only [hfd, hkern]
      generalize (w.kern.opened node).2 = k₁ at *
      refine wp_attempt (ans.fstat (w.kern.tick + 1)) (by rw [← htick]; rfl)
        (fun e hstat => ?_) fun hstat => ?_
      · simp only [Bool.false_eq_true, if_false]
        exact hback _ rfl (.stat hopen hstat) (hholds.quiet rfl)
      simp only [if_true]
      rw [wp_ite]
      refine ⟨fun hkind => ?_, fun hkind => ?_⟩
      · simp only [wp_bind]
        refine wp_attempt (ans.lock (w.kern.tick + 2) req.offset.toInt req.len.toInt)
          (by rw [← htick]; rfl) (fun e hlock => ?_) fun hlock => ?_
        · simp only [Bool.false_eq_true, if_false]
          exact hback _ rfl (.lock hopen hstat hkind hlock) (hholds.quiet rfl)
        simp only [if_true]
        rw [wp_ite]
        refine ⟨fun hoff => ?_, fun _ => ?_⟩
        · simp only [wp_bind]
          have hseektick : k₁.succeed.succeed.succeed.tick = w.kern.tick + 3 := by
            rw [← htick]
            rfl
          refine wp_lseek hholds.lookup (fun e hseek => ?_) fun _ => ?_
          · simp only [Bool.false_eq_true, if_false]
            rw [show k₁.succeed.succeed.succeed.tick = w.kern.tick + 3 from hseektick] at hseek
            exact hback _ rfl (.seek hopen hstat hkind hlock hoff hseek) (hholds.quiet rfl)
          · simp only [if_true, wp_pure]
            refine ⟨rfl, rfl, ⟨node, hopen⟩, ?_, hnum'.more rfl rfl (Nat.le_refl _)⟩
            exact ⟨hholds.isNew, hholds.lookup, hholds.others, hholds.regs,
              hholds.unwatched, hholds.trace, hholds.intact.trans (.of_eq rfl rfl) fun _ _ hf =>
              hholds.extends hf⟩
        · simp only [wp_pure]
          exact ⟨rfl, rfl, ⟨node, hopen⟩, hholds.quiet rfl, hnum'.quiet rfl⟩
      · simp only [wp_bind, wp_setErrno]
        exact hback _ rfl (.kind hopen hstat (by simpa using hkind)) (hholds.quiet rfl)

end Steps

end Sendfiled
