/-
`sfd_spawn` (sendfiled.c): a child process that becomes the daemon, and a parent that waits
for the status the daemon writes to a pipe once it serves, or the error it ends with.
-/
import Sendfiled.Startup.Main

namespace Sendfiled.Startup

open Prog

section Printing

/-- The digits of a positive number. -/
def printNat (n : Nat) : List UInt8 :=
  if n = 0 then [48] else (Nat.digits 10 n).reverse.map fun d => UInt8.ofNat (48 + d)

/-- `"%d"`. -/
def printInt (n : Int) : List UInt8 :=
  if n < 0 then 45 :: printNat n.natAbs else printNat n.natAbs

theorem isdigit_printNat (n : Nat) : ∀ b ∈ printNat n, isdigit b = true := by
  intro b hb
  unfold printNat at hb
  split at hb
  · rw [List.mem_singleton.mp hb]
    decide
  · obtain ⟨d, hd, rfl⟩ := List.mem_map.mp hb
    have hlt : d < 10 := Nat.digits_lt_base (by decide) (List.mem_reverse.mp hd)
    interval_cases d <;> decide

theorem printNat_ne_nil (n : Nat) : printNat n ≠ [] := by
  unfold printNat
  split
  · nofun
  · rename_i hne
    simpa using Nat.digits_ne_nil_iff_ne_zero.mpr hne

/-- Reading the digits of a number gives the number. -/
theorem decimalValue_printNat (n : Nat) : decimalValue (printNat n) = n := by
  unfold printNat
  split
  · rename_i hzero
    rw [hzero]
    rfl
  · have hfold : ∀ l : List Nat, (∀ d ∈ l, d < 10) →
        decimalValue (l.reverse.map fun d => UInt8.ofNat (48 + d)) = Nat.ofDigits 10 l := by
      intro l hl
      induction l with
      | nil => rfl
      | cons d l ih =>
          have hd : d < 10 := hl d List.mem_cons_self
          have hdigit : (UInt8.ofNat (48 + d)).toNat - 48 = d := by
            rw [UInt8.toNat_ofNat']
            omega
          rw [List.reverse_cons, List.map_append, decimalValue, List.foldl_append]
          change decimalValue (l.reverse.map fun d => UInt8.ofNat (48 + d)) * 10 +
            ((UInt8.ofNat (48 + d)).toNat - 48) = _
          rw [ih fun x hx => hl x (List.mem_cons_of_mem d hx), hdigit, Nat.ofDigits_cons]
          omega
    rw [hfold _ fun d hd => Nat.digits_lt_base (by decide) hd, Nat.ofDigits_digits]

theorem notMem_printInt (n : Int) : (0 : UInt8) ∉ printInt n := by
  have hnat : (0 : UInt8) ∉ printNat n.natAbs := by
    intro h
    exact absurd (isdigit_printNat _ 0 h) (by decide)
  unfold printInt
  split
  · rw [List.mem_cons, not_or]
    exact ⟨by decide, hnat⟩
  · exact hnat

/-- The string `snprintf` writes when it fits. -/
def CString.printed (n : Int) : CString := ⟨printInt n, notMem_printInt n⟩

/-- A printed number is read back whole. -/
theorem readNumeral_printed (n : Int) :
    readNumeral (CString.printed n).chars = ⟨decide (n < 0), printNat n.natAbs, []⟩ := by
  have hall := isdigit_printNat n.natAbs
  have htake : (printNat n.natAbs).takeWhile isdigit = printNat n.natAbs :=
    List.takeWhile_eq_self_iff.mpr hall
  have hdrop : (printNat n.natAbs).dropWhile isdigit = [] :=
    List.dropWhile_eq_nil_iff.mpr hall
  change readNumeral (printInt n) = _
  unfold readNumeral printInt
  by_cases hneg : n < 0
  · rw [if_pos hneg, List.dropWhile_cons_of_neg (by decide)]
    simp only [readSigned, htake, hdrop, hneg, decide_true]
  · rw [if_neg hneg]
    obtain ⟨b, tail, hcons⟩ := List.exists_cons_of_ne_nil (printNat_ne_nil n.natAbs)
    have hb : isdigit b = true := hall b (by rw [hcons]; exact List.mem_cons_self)
    have hspace : ¬ isspace b = true := by
      intro h
      simp only [isdigit, isspace, Bool.and_eq_true, Bool.or_eq_true, beq_iff_eq,
        decide_eq_true_eq] at hb h
      rcases h with rfl | h
      · exact absurd hb.1 (by decide)
      · exact absurd (UInt8.le_trans hb.1 h.2) (by decide)
    rw [hcons, List.dropWhile_cons_of_neg hspace]
    unfold readSigned
    split
    · rename_i heq
      cases heq
      exact absurd hb (by decide)
    · rename_i heq
      cases heq
      exact absurd hb (by decide)
    · rw [← hcons, htake, hdrop, decide_eq_false hneg]

theorem value_printed (n : Int) : (readNumeral (CString.printed n).chars).value = n := by
  rw [readNumeral_printed, Numeral.value]
  simp only [decimalValue_printNat, decide_eq_true_eq]
  split <;> omega

/-- The numbers that fit the buffers of `exec_server`, whose size is ten. -/
theorem length_printInt_lt {n : Int} :
    (printInt n).length < 10 ↔ -10 ^ 8 < n ∧ n < 10 ^ 9 := by
  have hnat : ∀ m k : Nat, 0 < k → ((printNat m).length ≤ k ↔ m < 10 ^ k) := by
    intro m k hk
    unfold printNat
    split
    · rename_i hzero
      rw [hzero]
      exact ⟨fun _ => Nat.pow_pos (by decide), fun _ => hk⟩
    · rw [List.length_map, List.length_reverse]
      exact Nat.digits_length_le_iff (by decide) m
  unfold printInt
  split
  · have h := hnat n.natAbs 8 (by decide)
    rw [List.length_cons]
    omega
  · have h := hnat n.natAbs 9 (by decide)
    omega

section Ints

variable {n : Int} (hmin : -2 ^ 31 ≤ n) (hmax : n < 2 ^ 31)

include hmin hmax in
/-- Of the numbers of an `int`, `opt_strtol` refuses zero only. -/
theorem refused_printed : Refused (.printed n) ↔ n = 0 := by
  have hdigits : (readNumeral (CString.printed n).chars).digits ≠ [] := by
    rw [readNumeral_printed]
    exact printNat_ne_nil _
  unfold Refused longMin longMax
  rw [value_printed]
  constructor
  · rintro (h | h | h | h)
    · exact absurd h hdigits
    · exact h
    · omega
    · omega
  · exact fun h => Or.inr (Or.inl h)

include hmin hmax in
theorem optValue_printed : optValue (.printed n) = if n = 0 then -1 else n := by
  unfold optValue
  rw [value_printed]
  simp only [refused_printed hmin hmax]

include hmin hmax in
/-- Not even zero is an error to `strtol`. -/
theorem optErrno_printed (os : Os) : optErrno os (.printed n) = 0 := by
  have hdigits : (readNumeral (CString.printed n).chars).digits ≠ [] := by
    rw [readNumeral_printed]
    exact printNat_ne_nil _
  unfold optErrno strtol longMin longMax
  simp only [if_neg hdigits, value_printed]
  rw [if_neg (by omega), if_neg (by omega)]
  rfl

end Ints

end Printing

/-- The arguments of `sfd_spawn`. -/
structure SpawnArgs where
  srvname : CString
  rootDir : CString
  sockdir : CString
  maxfiles : BitVec 32
  openFdTimeoutMs : BitVec 32

/-- The options of the daemon that `exec_server` runs. -/
def SpawnArgs.options (args : SpawnArgs) : List Opt :=
  [.sockdir args.sockdir, .srvname args.srvname, .rootDir args.rootDir,
    .maxfiles (.printed args.maxfiles.toInt), .timeout (.printed args.openFdTimeoutMs.toInt), .sync]

/-- `exec_server`; the options the process goes on with unless it failed.  Numbers that do
not fit their buffer are a failure that sets no error. -/
def execServer (ans : Answers) (os : Os) (args : SpawnArgs) : P (Option (List Opt)) := do
  check (0 < ans.lineMax) .lineMax
  if strnlen args.srvname.mem (ans.lineMax.toNat + 1) = ans.lineMax.toNat + 1 then
    setErrno os.enametoolong
    pure none
  else if 10 ≤ (printInt args.maxfiles.toInt).length then pure none
  else if 10 ≤ (printInt args.openFdTimeoutMs.toInt).length then pure none
  else if ← call ans .execvp then pure (some args.options)
  else pure none

/-- `fail`: the error is written to the pipe at once or not at all. -/
def childFail (ans : Answers) : P (Option (List Opt)) := do
  let errno ← gets Process.errno
  if ← call ans .write then
    note (.told errno)
    pure none
  else pure none

/-- The end of the child, if `exec_server` returns. -/
def execOrFail (ans : Answers) (os : Os) (args : SpawnArgs) : P (Option (List Opt)) := do
  match ← execServer ans os args with
  | some opts => pure (some opts)
  | none => childFail ans

/-- The child after the pipe is where the daemon expects it. -/
def initAndExec (ans : Answers) (os : Os) (args : SpawnArgs) : P (Option (List Opt)) := do
  if ← procInitChild ans [procSyncFd] then execOrFail ans os args else childFail ans

/-- The child process of `sfd_spawn`. -/
def childProcess (ans : Answers) (os : Os) (args : SpawnArgs) (pfd : Nat × Nat) :
    P (Option (List Opt)) := do
  let _ ← closeFd ans pfd.1
  if pfd.2 ≠ procSyncFd then
    if ← dup2 ans pfd.2 procSyncFd then
      modify fun s => { s with piped := true }
      let _ ← closeFd ans pfd.2
      initAndExec ans os args
    else childFail ans
  else initAndExec ans os args

/-- Everything `sfd_spawn` depends on but its arguments: the state of the caller, and what
the system answers to it, to the child and to the daemon.  New descriptors are below the
limit, if there is one. -/
structure SpawnEnv where
  os : Os
  errno : Errno
  fds : List Nat
  pipe : Except Errno (Nat × Nat)
  fork : Except Errno Nat
  readFails : Bool
  child : Answers
  daemon : Answers
  srvSockdir : CString
  pipe_fresh : ∀ p, pipe = .ok p → p.1 ∉ fds ∧ p.2 ∉ fds ∧ p.1 ≠ p.2
  pipe_lt : ∀ p m, pipe = .ok p → child.rlimMax = some m → p.1 < m ∧ p.2 < m
  fork_pos : ∀ pid, fork = .ok pid → 0 < pid

/-- The daemon after `execvp`.  The write end of the pipe is closed then, unless it is a
copy made by `dup2`. -/
def execed (pfd : Nat × Nat) (s : Process) : Process where
  errno := 0
  fds := if pfd.2 = procSyncFd then s.fds.filter (· ≠ procSyncFd) else s.fds
  piped := s.piped && decide (pfd.2 ≠ procSyncFd)
  tick := 0
  acts := s.acts

/-- What the child does, up to the end of the daemon it may become. -/
def childActs (env : SpawnEnv) (args : SpawnArgs) (pfd : Nat × Nat) : List Act :=
  match childProcess env.child env.os args pfd
      ⟨env.errno, pfd.1 :: pfd.2 :: env.fds, false, 0, []⟩ with
  | .done (some opts) s => (main env.daemon env.os env.srvSockdir opts (execed pfd s)).state.acts
  | .done none s => s.acts
  | .fault _ s => s.acts

/-- The status that is first in the pipe. -/
def firstTold : List Act → Option Errno
  | [] => none
  | .told e :: _ => some e
  | _ :: acts => firstTold acts

/-- What `sfd_spawn` returns, and what the child did. -/
structure Spawned where
  result : Int
  acts : List Act

/-- `sfd_spawn`.  A child that ends without a status leaves the parent at the end of the
pipe, which is a failed read to it. -/
def sfdSpawn (env : SpawnEnv) (args : SpawnArgs) : Spawned :=
  match env.pipe with
  | .error _ => ⟨-1, []⟩
  | .ok pfd =>
      match env.fork with
      | .error _ => ⟨-1, []⟩
      | .ok pid =>
          let acts := childActs env args pfd
          if env.readFails then ⟨-1, acts⟩
          else
            match firstTold acts with
            | none => ⟨-1, acts⟩
            | some childErr =>
                if childErr ≠ 0 then
                  if childErr = env.os.eaddrinuse then ⟨0, acts⟩ else ⟨-1, acts⟩
                else ⟨pid, acts⟩

/-- The server runs, or has run, in the process or in the daemon it became. -/
def Serving (acts : List Act) : Prop := ∃ a ∈ acts, a.Runs

/-- Whatever keeps the daemon from serving, the caller is not given a process. -/
def ReportsServing (args : SpawnArgs) : Prop :=
  ∀ env, ¬ Serving (sfdSpawn env args).acts → (sfdSpawn env args).result ≤ 0

/-- The numbers that are passed to the daemon and accepted by it. -/
def Presentable (maxfiles timeout : Int) : Prop :=
  (-10 ^ 8 < maxfiles ∧ maxfiles < 10 ^ 9 ∧ maxfiles ≠ 0 ∧ maxfiles ≠ -1) ∧
    -10 ^ 8 < timeout ∧ timeout ≤ openFdTimeoutMsMax ∧ timeout ≠ 0 ∧ timeout ≠ -1

theorem Presentable.length_lt {maxfiles timeout : Int} (h : Presentable maxfiles timeout) :
    (printInt maxfiles).length < 10 ∧ (printInt timeout).length < 10 := by
  unfold Presentable openFdTimeoutMsMax at h
  rw [length_printInt_lt, length_printInt_lt]
  omega

/-- Numbers that are accepted, and a limit that the server can run with unless the request
socket has no address to be bound to. -/
def Servable (args : SpawnArgs) : Prop :=
  Presentable args.maxfiles.toInt args.openFdTimeoutMs.toInt ∧
    (args.maxfiles.toInt < 0 → Os.linux.sunPathSize ≤ (sockpathOf args.sockdir args.srvname).length)

/-- Acts that do not tell the parent of success. -/
def Act.Honest (a : Act) : Prop := ∀ e, a = .told e → e ≠ 0

theorem Act.Quiet.honest {a : Act} (h : a.Quiet) : a.Honest := by
  rintro e rfl
  cases h

section Failures

variable {ans : Answers} {os : Os} {args : SpawnArgs} {s : Process}

theorem int_range (n : BitVec 32) : -2 ^ 31 ≤ n.toInt ∧ n.toInt < 2 ^ 31 := by
  have h₁ := BitVec.le_toInt n
  have h₂ := BitVec.toInt_lt (x := n)
  norm_num at h₁ h₂ ⊢
  omega

/-- An error of the child is passed on as it is. -/
theorem wp_childFail (h : s.errno ≠ 0) :
    wp (childFail ans) (fun r s' => r = none ∧ Added Act.Honest s s')
      (fun _ s' => Added Act.Honest s s') s := by
  unfold childFail
  rw [wp_bind, wp_gets, wp_bind, call, wp_modifyGet]
  cases ans.fails .write s.tick with
  | some e => exact ⟨rfl, Added.of_eq rfl⟩
  | none =>
      refine ⟨rfl, [.told s.errno], rfl, ?_⟩
      intro a ha e he
      rw [List.mem_singleton.mp ha] at he
      cases he
      exact h

/-- `exec_server` fails with an error unless a number is too long for its buffer. -/
theorem wp_execServer (hn : (printInt args.maxfiles.toInt).length < 10)
    (ht : (printInt args.openFdTimeoutMs.toInt).length < 10) :
    wp (execServer ans os args)
      (fun r s' => Added Act.Honest s s' ∧ (r = none → s'.errno ≠ 0) ∧
        ∀ opts, r = some opts → opts = args.options)
      (fun _ s' => Added Act.Honest s s') s := by
  have hlong : os.enametoolong ≠ 0 := by cases os <;> decide
  unfold execServer
  rw [wp_bind, wp_check]
  refine ⟨fun _ => ?_, fun _ => Added.refl s⟩
  rw [wp_ite]
  refine ⟨fun _ => ?_, fun _ => ?_⟩
  · exact ⟨Added.of_eq rfl, fun _ => hlong, fun _ h => by cases h⟩
  rw [if_neg (Nat.not_le.mpr hn), if_neg (Nat.not_le.mpr ht), wp_bind, call, wp_modifyGet]
  cases hfails : ans.fails .execvp s.tick with
  | some e =>
      exact ⟨Added.of_eq rfl, fun _ => ans.fails_ne_zero _ _ e hfails, fun _ h => by cases h⟩
  | none =>
      refine ⟨Added.of_eq rfl, fun h => (by cases h), fun opts h => ?_⟩
      cases h
      rfl

theorem wp_initAndExec (hn : (printInt args.maxfiles.toInt).length < 10)
    (ht : (printInt args.openFdTimeoutMs.toInt).length < 10) :
    wp (initAndExec ans os args)
      (fun r s' => Added Act.Honest s s' ∧ ∀ opts, r = some opts → opts = args.options)
      (fun _ s' => Added Act.Honest s s') s := by
  have hfail : ∀ s₁, Added Act.Honest s s₁ → s₁.errno ≠ 0 →
      wp (childFail ans)
        (fun r s' => Added Act.Honest s s' ∧ ∀ opts, r = some opts → opts = args.options)
        (fun _ s' => Added Act.Honest s s') s₁ := by
    intro s₁ hadded herrno
    refine wp_mono (wp_childFail herrno) ?_ fun _ _ h => hadded.trans h
    rintro r s₂ ⟨rfl, hadded₂⟩
    exact ⟨hadded.trans hadded₂, fun _ h => by cases h⟩
  unfold initAndExec
  rw [wp_bind]
  refine wp_mono (Attempt.procInitChild _ s) ?_ fun _ _ h => h.mono fun _ => Act.Quiet.honest
  rintro ok s₁ ⟨hquiet, herrno⟩
  have hadded : Added Act.Honest s s₁ := hquiet.mono fun _ => Act.Quiet.honest
  cases ok with
  | false => exact hfail s₁ hadded (herrno rfl)
  | true =>
      rw [if_pos rfl, execOrFail, wp_bind]
      refine wp_mono (wp_execServer hn ht) ?_ fun _ _ h => hadded.trans h
      rintro r s₂ ⟨hadded₂, herrno₂, hopts⟩
      cases r with
      | none => exact hfail s₂ (hadded.trans hadded₂) (herrno₂ rfl)
      | some opts => exact ⟨hadded.trans hadded₂, hopts⟩

theorem wp_childProcess (hn : (printInt args.maxfiles.toInt).length < 10)
    (ht : (printInt args.openFdTimeoutMs.toInt).length < 10) (pfd : Nat × Nat) :
    wp (childProcess ans os args pfd)
      (fun r s' => Added Act.Honest s s' ∧ ∀ opts, r = some opts → opts = args.options)
      (fun _ s' => Added Act.Honest s s') s := by
  have hexec : ∀ s₁, Added Act.Honest s s₁ → wp (initAndExec ans os args)
      (fun r s' => Added Act.Honest s s' ∧ ∀ opts, r = some opts → opts = args.options)
      (fun _ s' => Added Act.Honest s s') s₁ := by
    intro s₁ hadded
    refine wp_mono (wp_initAndExec hn ht) ?_ fun _ _ h => hadded.trans h
    exact fun _ _ h => ⟨hadded.trans h.1, h.2⟩
  unfold childProcess
  rw [wp_bind]
  refine wp_mono (Adds.closeFd pfd.1 s) (fun _ s₁ h₁ => ?_) fun _ _ h => h
  rw [wp_ite]
  refine ⟨fun _ => ?_, fun _ => hexec s₁ h₁⟩
  rw [wp_bind]
  refine wp_mono (Attempt.dup2 _ _ s₁) ?_
    fun _ _ h => h₁.trans (h.mono fun _ => Act.Quiet.honest)
  rintro ok s₂ ⟨hquiet, herrno⟩
  have h₂ : Added Act.Honest s s₂ := h₁.trans (hquiet.mono fun _ => Act.Quiet.honest)
  cases ok with
  | false =>
      refine wp_mono (wp_childFail (herrno rfl)) ?_ fun _ _ h => h₂.trans h
      rintro r s₃ ⟨rfl, h₃⟩
      exact ⟨h₂.trans h₃, fun _ h => by cases h⟩
  | true =>
      rw [if_pos rfl, wp_bind, wp_modify, wp_bind]
      have hpiped : Added Act.Honest s { s₂ with piped := true } := h₂.trans (Added.of_eq rfl)
      refine wp_mono (Adds.closeFd pfd.2 _) (fun _ s₃ h₃ => ?_) fun _ _ h => hpiped.trans h
      exact hexec s₃ (hpiped.trans h₃)

theorem wp_fail1_honest {o : Settings} (h : s.errno ≠ 0) :
    wp (fail1 ans o) (fun _ s' => Added Act.Honest s s') (fun _ s' => Added Act.Honest s s') s := by
  unfold fail1
  rw [wp_ite]
  refine ⟨fun _ => ?_, fun _ => Added.refl s⟩
  rw [wp_bind, wp_gets, wp_bind]
  have hhonest : (Act.told s.errno).Honest := by
    intro e he
    cases he
    exact h
  exact wp_mono (Adds.syncParent hhonest s) (fun _ _ h => h) fun _ _ h => h

/-- From the bound request socket on, the server runs or the error is reported. -/
theorem wp_runServer_honest {o : Settings} {srvname : CString}
    (hmaxfiles : 0 < Int.bmod o.maxfiles (2 ^ 32)) :
    wp (runServer ans os o srvname) (fun _ s' => Serving s'.acts ∨ Added Act.Honest s s')
      (fun _ s' => Serving s'.acts ∨ Added Act.Honest s s') s := by
  have hstart : ∀ s₁, wp (do
      note (.ran (Int.bmod o.maxfiles (2 ^ 32)) o.fdTimeoutMs)
      usStopServing ans os o.sockdir srvname
      pure ans.srvRun)
      (fun _ s' => Serving s'.acts ∨ Added Act.Honest s s')
      (fun _ s' => Serving s'.acts ∨ Added Act.Honest s s') s₁ := by
    intro s₁
    have hrest : Adds (fun _ => True) (do
        usStopServing ans os o.sockdir srvname
        pure ans.srvRun) := Adds.usStopServing.bind fun _ => Adds.pure _
    have hran : ∀ s' : Process, Added (fun _ => True) { s₁ with acts := s₁.acts ++ [_] } s' →
        Serving s'.acts := fun s' h =>
      ⟨.ran (Int.bmod o.maxfiles (2 ^ 32)) o.fdTimeoutMs,
        h.subset (List.mem_append_right _ List.mem_cons_self), hmaxfiles⟩
    rw [wp_bind, note, wp_modify]
    exact wp_mono (hrest _) (fun _ s' h => Or.inl (hran s' h)) fun _ s' h => Or.inl (hran s' h)
  unfold runServer
  rw [wp_ite]
  refine ⟨fun _ => ?_, fun _ => hstart s⟩
  rw [wp_bind]
  refine wp_mono wp_syncParent ?_ fun _ _ h => absurd h id
  rintro ok s₁ hfailed
  cases ok with
  | true =>
      rw [if_pos rfl, wp_bind]
      exact wp_mono (NoFault.closeFd procSyncFd s₁) (fun _ s₂ _ => hstart s₂)
        fun _ _ h => absurd h id
  | false =>
      obtain ⟨herrno, hacts⟩ := hfailed rfl
      have hadded : Added Act.Honest s s₁ := Added.of_eq hacts
      rw [if_neg (by decide), wp_bind]
      refine wp_mono (Troubled.usStopServing s₁ herrno) ?_ ?_
      · rintro - s₂ ⟨hquiet, herrno₂⟩
        have hstopped := hadded.trans (hquiet.mono fun _ => Act.Quiet.honest)
        refine wp_mono (wp_fail1_honest herrno₂) ?_ ?_
        · exact fun _ _ h => Or.inr (hstopped.trans h)
        · exact fun _ _ h => Or.inr (hstopped.trans h)
      · exact fun _ _ h => Or.inr (hadded.trans (h.mono fun _ => Act.Quiet.honest))

/-- What `main` does after the checks ends in serving or in an error that is reported. -/
theorem wp_prepare_honest {o : Settings} {rootDir srvname : CString} (huname : o.uname = none)
    (hgname : o.gname = none) (hmaxfiles : (sockpathOf o.sockdir srvname).length < os.sunPathSize →
      0 < Int.bmod o.maxfiles (2 ^ 32)) :
    wp (prepare ans os o rootDir srvname)
      (fun _ s' => Serving s'.acts ∨ Added Act.Honest s s')
      (fun _ s' => Serving s'.acts ∨ Added Act.Honest s s') s := by
  have hattempt : Attempt (andThen (call ans .sigprocmask)
      (andThen (if o.daemonise then procDaemonise ans else pure true)
        (andThen (chrootAndDropPrivs ans rootDir ans.uid ans.gid)
          (usServe ans os o.sockdir srvname)))) :=
    (Attempt.call _).andThen ((Attempt.split Attempt.procDaemonise Attempt.success).andThen
      ((Attempt.chrootAndDropPrivs _ _ _).andThen Attempt.usServe))
  have hfits := fun s => wp_andThen_right (a := call ans .sigprocmask) (s := s)
    (fun s => wp_andThen_right (a := if o.daemonise then procDaemonise ans else pure true)
      (fun s => wp_andThen_right (a := chrootAndDropPrivs ans rootDir ans.uid ans.gid)
        (fun s => @wp_usServe_fits ans os o.sockdir srvname s)))
  unfold prepare
  rw [huname, hgname]
  simp only [lookup, wp_bind, wp_pure]
  refine wp_mono (wp_and (hattempt s) (hfits s)) ?_ ?_
  · rintro ok s₁ ⟨⟨hquiet, herrno⟩, hfits⟩
    have hadded : Added Act.Honest s s₁ := hquiet.mono fun _ => Act.Quiet.honest
    cases ok with
    | true =>
        rw [if_pos rfl]
        refine wp_mono (wp_runServer_honest (hmaxfiles (hfits rfl))) ?_ ?_
        · exact fun _ _ h => h.imp id hadded.trans
        · exact fun _ _ h => h.imp id hadded.trans
    | false =>
        refine wp_mono (wp_fail1_honest (herrno rfl)) ?_ ?_
        · exact fun _ _ h => Or.inr (hadded.trans h)
        · exact fun _ _ h => Or.inr (hadded.trans h)
  · exact fun _ _ h => Or.inr (h.1.mono fun _ => Act.Quiet.honest)

/-- The settings of the daemon. -/
def SpawnArgs.settings (args : SpawnArgs) : Settings where
  srvname := some args.srvname
  rootDir := some args.rootDir
  sockdir := args.sockdir
  uname := none
  gname := none
  maxfiles := optValue (.printed args.maxfiles.toInt)
  fdTimeoutMs := optValue (.printed args.openFdTimeoutMs.toInt)
  doSync := true
  daemonise := false

theorem settingsOf_options (srvSockdir : CString) :
    settingsOf args.options (.initial srvSockdir) = some args.settings := rfl

section Accepted

variable (hgood : Presentable args.maxfiles.toInt args.openFdTimeoutMs.toInt)

include hgood in
theorem settings_maxfiles : args.settings.maxfiles = args.maxfiles.toInt := by
  obtain ⟨hmin, hmax⟩ := int_range args.maxfiles
  exact (optValue_printed hmin hmax).trans (if_neg hgood.1.2.2.1)

include hgood in
theorem settings_fdTimeoutMs : args.settings.fdTimeoutMs = args.openFdTimeoutMs.toInt := by
  obtain ⟨hmin, hmax⟩ := int_range args.openFdTimeoutMs
  exact (optValue_printed hmin hmax).trans (if_neg hgood.2.2.2.1)

include hgood in
/-- The limit is passed to the server as it is. -/
theorem bmod_settings_maxfiles :
    Int.bmod args.settings.maxfiles (2 ^ 32) = args.maxfiles.toInt := by
  obtain ⟨hmin, hmax⟩ := int_range args.maxfiles
  rw [settings_maxfiles hgood]
  exact Int.bmod_eq_of_le (by omega) (by omega)

include hgood in
/-- Numbers that are accepted get `main` past its checks. -/
theorem wp_main_accepted {Q : Bool → Process → Prop} {E : StartFault → Process → Prop}
    {srvSockdir : CString}
    (h : ∀ e, wp (prepare ans os args.settings args.rootDir args.srvname) Q E
      { s with errno := e }) :
    wp (main ans os srvSockdir args.options) Q E s := by
  have hcheck : checkOptions args.settings = pure true := by
    have ⟨⟨_, _, hn₀, hn₁⟩, _, hmax, ht₀, ht₁⟩ := hgood
    unfold checkOptions
    rw [settings_maxfiles hgood, settings_fdTimeoutMs hgood,
      if_neg (by simp [SpawnArgs.settings, hn₀]), if_neg hn₁, if_neg ht₁, if_neg (by omega)]
  unfold main
  rw [wp_bind]
  refine wp_parseOptions _ _ fun e => ?_
  rw [settingsOf_options]
  simp only [hcheck]
  rw [wp_bind, wp_pure, if_pos rfl]
  exact h e

end Accepted

/-- The daemon ends up serving, or tells its parent of an error. -/
theorem wp_main_honest (hgood : Servable args) (srvSockdir : CString) :
    wp (main ans os srvSockdir args.options)
      (fun _ s' => Serving s'.acts ∨ Added Act.Honest s s')
      (fun _ s' => Serving s'.acts ∨ Added Act.Honest s s') s := by
  obtain ⟨hgood, hnegative⟩ := hgood
  have hmaxfiles : (sockpathOf args.sockdir args.srvname).length < os.sunPathSize →
      0 < Int.bmod args.settings.maxfiles (2 ^ 32) := by
    intro hfits
    have hsize : os.sunPathSize ≤ Os.linux.sunPathSize := by cases os <;> decide
    have hzero := hgood.1.2.2.1
    rw [bmod_settings_maxfiles hgood]
    omega
  refine wp_main_accepted hgood fun e => ?_
  have hstart : Added Act.Honest s { s with errno := e } := Added.of_eq rfl
  refine wp_mono (wp_prepare_honest rfl rfl hmaxfiles) ?_ ?_
  · exact fun _ _ h => h.imp id hstart.trans
  · exact fun _ _ h => h.imp id hstart.trans

end Failures

section Crowded

/-! A caller that has every descriptor up to the limit open, on a system where nothing
fails: the child closes them all and leaves `errno` alone. -/

variable {ans : Answers} {s : Process} {E : StartFault → Process → Prop}

theorem lowestUnused_notMem (fds : List Nat) : lowestUnused fds ∉ fds := by
  intro h
  have hmem : Int.ofNat (lowestUnused fds) ∈ fds.map Int.ofNat := List.mem_map_of_mem h
  unfold lowestUnused at hmem
  rw [Int.ofNat_eq_natCast, Int.toNat_of_nonneg (lowestFree_nonneg _)] at hmem
  exact lowestFree_notMem _ hmem

section Reliable

variable (hans : ∀ c n, ans.fails c n = none)

include hans in
theorem wp_call_of_reliable {c : Syscall} {Q : Bool → Process → Prop}
    (hQ : ∀ tick, Q true { s with tick := tick }) : wp (call ans c) Q E s := by
  unfold call
  rw [wp_modifyGet, hans]
  exact hQ _

include hans in
theorem wp_closeFd_open {fd : Nat} {Q : Bool → Process → Prop} (hfd : fd ∈ s.fds)
    (hne : fd ≠ procSyncFd)
    (hQ : ∀ tick, Q true { s with fds := s.fds.filter (· ≠ fd), tick := tick }) :
    wp (closeFd ans fd) Q E s := by
  unfold closeFd
  rw [wp_bind, wp_gets, if_pos hfd, wp_bind, wp_modify, decide_eq_true hne, Bool.and_true]
  exact wp_call_of_reliable hans hQ

include hans in
/-- Redirecting an open descriptor keeps every descriptor open. -/
theorem wp_dupToOpenFd_open {oldfd newfd : Nat} {Q : Bool → Process → Prop}
    (hold : oldfd ∈ s.fds) (hnew : newfd ∈ s.fds) (hne : oldfd ≠ newfd)
    (hsync : newfd ≠ procSyncFd)
    (hQ : ∀ fds tick, (∀ fd ∈ s.fds, fd ∈ fds) → Q true { s with fds := fds, tick := tick }) :
    wp (dupToOpenFd ans oldfd newfd) Q E s := by
  have hkept : oldfd ∈ s.fds.filter (· ≠ newfd) :=
    List.mem_filter.mpr ⟨hold, decide_eq_true hne⟩
  unfold dupToOpenFd
  rw [wp_bind]
  refine wp_closeFd_open hans hnew hsync fun tick => ?_
  unfold dup2
  rw [if_pos rfl, wp_bind, wp_gets, if_pos hkept, wp_bind]
  refine wp_call_of_reliable hans fun tick => ?_
  rw [if_pos rfl, wp_bind, wp_modify, wp_pure]
  refine hQ _ _ fun fd hfd => ?_
  by_cases heq : fd = newfd
  · rw [heq]
    exact List.mem_cons_self
  · refine List.mem_cons_of_mem newfd (List.mem_filter.mpr ⟨?_, decide_eq_true heq⟩)
    exact List.mem_filter.mpr ⟨hfd, decide_eq_true heq⟩

include hans in
theorem wp_closeAll_open {fds : List Nat} {Q : Unit → Process → Prop} (hnodup : fds.Nodup)
    (hopen : ∀ fd ∈ fds, fd ∈ s.fds) (hsync : procSyncFd ∉ fds)
    (hQ : ∀ left tick, Q () { s with fds := left, tick := tick }) :
    wp (closeAll ans fds) Q E s := by
  induction fds generalizing s with
  | nil => exact hQ s.fds s.tick
  | cons fd fds ih =>
      obtain ⟨hfresh, hnodup⟩ := List.nodup_cons.mp hnodup
      rw [List.mem_cons, not_or] at hsync
      unfold closeAll
      rw [forEach, wp_bind, wp_bind]
      refine wp_closeFd_open hans (hopen fd List.mem_cons_self) (Ne.symm hsync.1) fun tick => ?_
      refine ih hnodup (fun x hx => ?_) hsync.2 fun left tick => hQ left tick
      have hne : x ≠ fd := fun heq => hfresh (heq ▸ hx)
      exact List.mem_filter.mpr ⟨hopen x (List.mem_cons_of_mem fd hx), decide_eq_true hne⟩

include hans in
/-- `proc_init_child` with the standard descriptors and all others up to the limit open. -/
theorem wp_procInitChild_open {Q : Bool → Process → Prop} (hstd : ∀ fd < 4, fd ∈ s.fds)
    (hopen : ∀ fd ∈ closable ans [procSyncFd], fd ∈ s.fds)
    (hQ : ∀ fds tick, Q true { s with fds := fds, tick := tick }) :
    wp (procInitChild ans [procSyncFd]) Q E s := by
  have hnodup : (closable ans [procSyncFd]).Nodup := List.Nodup.filter _ List.nodup_range'
  have hsync : procSyncFd ∉ closable ans [procSyncFd] := by
    unfold closable
    simp
  generalize hnull : lowestUnused s.fds = nullfd
  have hfresh : nullfd ∉ s.fds := hnull ▸ lowestUnused_notMem s.fds
  have hne : ∀ fd ∈ s.fds, nullfd ≠ fd := fun fd hfd heq => hfresh (heq ▸ hfd)
  unfold procInitChild openNull
  rw [wp_bind, wp_bind]
  refine wp_call_of_reliable hans fun tick => ?_
  rw [if_pos rfl, wp_bind, wp_gets, wp_bind, wp_modify, wp_pure, hnull, wp_bind]
  unfold andThen
  rw [wp_bind]
  refine wp_dupToOpenFd_open hans List.mem_cons_self
    (List.mem_cons_of_mem _ (hstd 0 (by decide))) (hne 0 (hstd 0 (by decide))) (by decide)
    fun fds₀ tick₀ h₀ => ?_
  rw [if_pos rfl, wp_bind]
  refine wp_dupToOpenFd_open hans (h₀ _ List.mem_cons_self)
    (h₀ _ (List.mem_cons_of_mem _ (hstd 1 (by decide)))) (hne 1 (hstd 1 (by decide))) (by decide)
    fun fds₁ tick₁ h₁ => ?_
  rw [if_pos rfl]
  refine wp_dupToOpenFd_open hans (h₁ _ (h₀ _ List.mem_cons_self))
    (h₁ _ (h₀ _ (List.mem_cons_of_mem _ (hstd 2 (by decide))))) (hne 2 (hstd 2 (by decide)))
    (by decide) fun fds₂ tick₂ h₂ => ?_
  have hall : ∀ fd ∈ nullfd :: s.fds, fd ∈ fds₂ := fun fd hfd => h₂ fd (h₁ fd (h₀ fd hfd))
  rw [if_pos rfl, wp_bind]
  refine wp_closeFd_open hans (hall _ List.mem_cons_self) (hne 3 (hstd 3 (by decide)))
    fun tick₃ => ?_
  rw [wp_bind]
  refine wp_call_of_reliable hans fun tick₄ => ?_
  rw [if_pos rfl, wp_bind]
  refine wp_closeAll_open hans hnodup (fun fd hfd => ?_) hsync fun left tick₅ => hQ left tick₅
  have hfd' := hopen fd hfd
  exact List.mem_filter.mpr ⟨hall fd (List.mem_cons_of_mem _ hfd'),
    decide_eq_true (Ne.symm (hne fd hfd'))⟩

end Reliable

/-- The answers to a child with no limit on its descriptors. -/
def Answers.unlimited (lineMax : Nat) : Answers :=
  { Answers.reliable with rlimMax := none, lineMax := lineMax }

/-- A caller with the descriptors up to 1023 open. -/
def SpawnEnv.crowded (args : SpawnArgs) : SpawnEnv where
  os := .linux
  errno := 0
  fds := List.range 1024
  pipe := .ok (1024, 1025)
  fork := .ok 1
  readFails := false
  child := Answers.unlimited (args.srvname.chars.length + 1)
  daemon := Answers.reliable
  srvSockdir := .root
  pipe_fresh := by
    rintro p hp
    cases hp
    simp
  pipe_lt := by
    rintro p m - hm
    cases hm
  fork_pos := by
    rintro pid hpid
    cases hpid
    decide

variable {args : SpawnArgs} {Q : Option (List Opt) → Process → Prop}

/-- Such a caller's child comes to `exec_server` with `errno` untouched. -/
theorem wp_childProcess_crowded
    {range : List Nat} (hmem : ∀ fd < 1024, fd ∈ range)
    (hexec : ∀ fds tick, wp (execOrFail (Answers.unlimited (args.srvname.chars.length + 1)) .linux
      args) Q E ⟨0, fds, true, tick, []⟩) :
    wp (childProcess (Answers.unlimited (args.srvname.chars.length + 1)) .linux args (1024, 1025))
      Q E ⟨0, 1024 :: 1025 :: range, false, 0, []⟩ := by
  have hans : ∀ c n, (Answers.unlimited (args.srvname.chars.length + 1)).fails c n = none :=
    fun _ _ => rfl
  have hclosable : ∀ fd ∈ closable (Answers.unlimited (args.srvname.chars.length + 1)) [procSyncFd],
      fd < 1024 := by
    intro fd hfd
    have hrange := List.mem_range'_1.mp (List.mem_filter.mp hfd).1
    have hlimit : closeLimit (Answers.unlimited (args.srvname.chars.length + 1)) = 1024 := rfl
    omega
  have hkept : ∀ fd < 1024, fd ∈
      (procSyncFd :: ((1024 :: 1025 :: range).filter (· ≠ 1024)).filter (· ≠ procSyncFd)).filter
        (· ≠ 1025) := by
    intro fd hfd
    by_cases hsync : fd = procSyncFd
    · rw [hsync]
      exact List.mem_filter.mpr ⟨List.mem_cons_self, by decide⟩
    · have hne : fd ≠ 1024 ∧ fd ≠ 1025 := by omega
      simp [hmem fd hfd, hsync, hne]
  unfold childProcess
  rw [wp_bind]
  refine wp_closeFd_open hans List.mem_cons_self (by decide) fun tick₀ => ?_
  rw [if_pos (by decide), wp_bind]
  have hwrite : 1025 ∈ (1024 :: 1025 :: range).filter (· ≠ 1024) :=
    List.mem_filter.mpr ⟨List.mem_cons_of_mem _ List.mem_cons_self, by decide⟩
  unfold dup2
  rw [wp_bind, wp_gets, if_pos hwrite, wp_bind]
  refine wp_call_of_reliable hans fun tick₁ => ?_
  rw [if_pos rfl, wp_bind, wp_modify, wp_pure, if_pos rfl, wp_bind, wp_modify, wp_bind]
  have hpiped : 1025 ∈ procSyncFd ::
      ((1024 :: 1025 :: range).filter (· ≠ 1024)).filter (· ≠ procSyncFd) :=
    List.mem_cons_of_mem _ (List.mem_filter.mpr ⟨hwrite, by decide⟩)
  refine wp_closeFd_open hans hpiped (by decide) fun tick₂ => ?_
  unfold initAndExec
  rw [wp_bind]
  refine wp_procInitChild_open hans (fun fd hfd => hkept fd (by omega))
    (fun fd hfd => hkept fd (hclosable fd hfd)) fun fds tick₃ => ?_
  rw [if_pos rfl]
  exact hexec fds tick₃

/-- The name is within the limit that the system gives. -/
theorem strnlen_srvname_ne (args : SpawnArgs) :
    ¬ strnlen args.srvname.mem
      ((Answers.unlimited (args.srvname.chars.length + 1)).lineMax.toNat + 1) =
      (Answers.unlimited (args.srvname.chars.length + 1)).lineMax.toNat + 1 := by
  have hmax : (Answers.unlimited (args.srvname.chars.length + 1)).lineMax.toNat =
      args.srvname.chars.length + 1 := rfl
  rw [strnlen_mem, hmax]
  omega

/-- A number that does not fit its buffer ends the child with no error to tell. -/
theorem wp_execServer_long {fds : List Nat} {tick : Nat}
    (hlong : 10 ≤ (printInt args.maxfiles.toInt).length ∨
      10 ≤ (printInt args.openFdTimeoutMs.toInt).length) :
    wp (execOrFail (Answers.unlimited (args.srvname.chars.length + 1)) .linux args)
      (fun r s' => r = none ∧ s'.acts = [.told 0]) (fun _ _ => False)
      ⟨0, fds, true, tick, []⟩ := by
  unfold execOrFail execServer
  rw [wp_bind, wp_bind, wp_check]
  refine ⟨fun _ => ?_, fun hnot => hnot (Int.natCast_pos.mpr (Nat.succ_pos _))⟩
  rw [if_neg (strnlen_srvname_ne args)]
  by_cases hn : 10 ≤ (printInt args.maxfiles.toInt).length
  · rw [if_pos hn]
    exact ⟨rfl, rfl⟩
  · rw [if_neg hn, if_pos (hlong.resolve_left hn)]
    exact ⟨rfl, rfl⟩

/-- Otherwise the child becomes the daemon. -/
theorem wp_execServer_short {fds : List Nat} {tick : Nat}
    (hn : (printInt args.maxfiles.toInt).length < 10)
    (ht : (printInt args.openFdTimeoutMs.toInt).length < 10) :
    wp (execOrFail (Answers.unlimited (args.srvname.chars.length + 1)) .linux args)
      (fun r s' => r = some args.options ∧ s'.piped = true ∧ s'.acts = []) (fun _ _ => False)
      ⟨0, fds, true, tick, []⟩ := by
  unfold execOrFail execServer
  rw [wp_bind, wp_bind, wp_check]
  refine ⟨fun _ => ?_, fun hnot => hnot (Int.natCast_pos.mpr (Nat.succ_pos _))⟩
  rw [if_neg (strnlen_srvname_ne args), if_neg (Nat.not_le.mpr hn), if_neg (Nat.not_le.mpr ht)]
  exact ⟨rfl, rfl, rfl⟩

/-- Numbers that the daemon turns away leave it with no error to tell either. -/
theorem wp_main_refused
    (hbad : args.maxfiles.toInt = 0 ∨ args.maxfiles.toInt = -1 ∨ args.openFdTimeoutMs.toInt = 0 ∨
      args.openFdTimeoutMs.toInt = -1 ∨ openFdTimeoutMsMax < args.openFdTimeoutMs.toInt)
    (hpiped : s.piped = true) :
    wp (main Answers.reliable .linux .root args.options)
      (fun _ s' => s'.acts = s.acts ++ [.told 0]) (fun _ _ => False) s := by
  obtain ⟨hnmin, hnmax⟩ := int_range args.maxfiles
  obtain ⟨htmin, htmax⟩ := int_range args.openFdTimeoutMs
  have hmaxfiles : args.settings.maxfiles =
      if args.maxfiles.toInt = 0 then -1 else args.maxfiles.toInt := optValue_printed hnmin hnmax
  have htimeout : args.settings.fdTimeoutMs =
      if args.openFdTimeoutMs.toInt = 0 then -1 else args.openFdTimeoutMs.toInt :=
    optValue_printed htmin htmax
  have hcheck : checkOptions args.settings = pure false := by
    have hgiven : ¬ (args.settings.rootDir.isNone ∨ args.settings.srvname.isNone ∨
        args.settings.maxfiles = 0) := by
      simp only [SpawnArgs.settings] at hmaxfiles ⊢
      simp only [hmaxfiles, Option.isNone_some, Bool.false_eq_true, false_or]
      omega
    unfold checkOptions
    rw [if_neg hgiven]
    split_ifs with h₁ h₂ h₃
    · rfl
    · rfl
    · rfl
    · omega
  unfold main
  rw [wp_bind]
  simp only [SpawnArgs.options, parseOptions, wp_bind, wp_optStrtol, wp_pure,
    optErrno_printed htmin htmax]
  change wp (checkOptions args.settings) _ _ _
  rw [hcheck, wp_pure, if_neg (by decide)]
  unfold fail1 syncParent
  change s.piped = true at hpiped
  simp only [wp_bind, wp_gets, wp_call_reliable, hpiped, if_true]
  rfl

/-- What is done by a child that becomes the daemon. -/
theorem childActs_of_exec {env : SpawnEnv} {pfd : Nat × Nat} {opts : List Opt}
    (h : childProcess env.child env.os args pfd
      ⟨env.errno, pfd.1 :: pfd.2 :: env.fds, false, 0, []⟩ = .done (some opts) s) :
    childActs env args pfd =
      (main env.daemon env.os env.srvSockdir opts (execed pfd s)).state.acts := by
  unfold childActs
  rw [h]

theorem childActs_of_fail {env : SpawnEnv} {pfd : Nat × Nat}
    (h : childProcess env.child env.os args pfd
      ⟨env.errno, pfd.1 :: pfd.2 :: env.fds, false, 0, []⟩ = .done none s) :
    childActs env args pfd = s.acts := by
  unfold childActs
  rw [h]

/-- The status zero gives the caller the process. -/
theorem sfdSpawn_of_told {env : SpawnEnv} {pfd : Nat × Nat} {pid : Nat}
    (hpipe : env.pipe = .ok pfd) (hfork : env.fork = .ok pid) (hread : env.readFails = false)
    (htold : firstTold (childActs env args pfd) = some 0) :
    sfdSpawn env args = ⟨pid, childActs env args pfd⟩ := by
  unfold sfdSpawn
  rw [hpipe, hfork]
  simp only [hread, htold]
  rfl

/-- Where nothing fails, the parent is told and the server is run. -/
theorem wp_runServer_reliable {o : Settings} {srvname : CString} (hsync : o.doSync = true)
    (hpiped : s.piped = true) :
    let acts := s.acts ++ [.told 0, .ran (Int.bmod o.maxfiles (2 ^ 32)) o.fdTimeoutMs]
    wp (runServer Answers.reliable .linux o srvname) (fun _ s' => s'.acts = acts)
      (fun _ s' => s'.acts = acts) s := by
  intro acts
  have hclose : ∀ s₁, wp (closeFd Answers.reliable procSyncFd) (fun _ s₂ => s₂.acts = s₁.acts)
      (fun _ _ => False) s₁ := fun s₁ =>
    wp_mono (wp_and (Adds.closeFd procSyncFd s₁) (NoFault.closeFd procSyncFd s₁))
      (fun _ _ h => h.1.acts_eq) fun _ _ h => h.2
  have hstop : Adds (fun _ => False) (usStopServing Answers.reliable .linux o.sockdir srvname) :=
    Adds.usStopServing
  unfold runServer syncParent
  rw [hsync, if_pos rfl, wp_bind, wp_bind, wp_call_reliable, if_pos rfl, wp_bind, wp_gets, hpiped]
  simp only [if_true, wp_bind, note, wp_modify, wp_pure]
  refine wp_mono (hclose _) (fun _ s₁ hclosed => ?_) fun _ _ h => absurd h id
  have hacts : s₁.acts ++ [.ran (Int.bmod o.maxfiles (2 ^ 32)) o.fdTimeoutMs] = acts := by
    rw [hclosed, List.append_assoc]
    rfl
  refine wp_mono (hstop _) (fun _ s₂ h => ?_) fun _ s₂ h => ?_
  · exact h.acts_eq.trans hacts
  · exact h.acts_eq.trans hacts

/-- A server that is run with a limit it does not accept, after its parent was told. -/
theorem wp_main_negative (hgood : Presentable args.maxfiles.toInt args.openFdTimeoutMs.toInt)
    (hfits : (sockpathOf args.sockdir args.srvname).length < Os.linux.sunPathSize)
    (hpiped : s.piped = true) :
    let ended := fun s' : Process => s'.acts = s.acts ++
      [.bound (sockpathOf args.sockdir args.srvname ++ [0]), .serving, .told 0,
        .ran args.maxfiles.toInt args.openFdTimeoutMs.toInt]
    wp (main Answers.reliable .linux .root args.options) (fun _ s' => ended s')
      (fun _ s' => ended s') s := by
  intro ended
  have hlen := length_sockpathOf args.sockdir args.srvname
  have hallowed : Allowed .linux args.sockdir args.srvname := by
    unfold Allowed
    split at hlen <;> omega
  have hover : ¬ Overruns .linux args.sockdir args.srvname := by
    rintro ⟨hslash, hfull⟩
    rw [if_pos hslash] at hlen
    omega
  refine wp_main_accepted hgood fun e => wp_prepare_reliable rfl rfl rfl fun tick => ?_
  refine wp_usServe_reliable hallowed hover fun tick => ?_
  rw [if_pos rfl]
  have hran := @wp_runServer_reliable
    ⟨e, s.fds, s.piped, tick, s.acts ++ [.bound (sockpathOf args.sockdir args.srvname ++ [0]),
      .serving]⟩ args.settings args.srvname rfl hpiped
  rw [bmod_settings_maxfiles hgood, settings_fdTimeoutMs hgood] at hran
  refine wp_mono hran (fun _ s' h => ?_) fun _ s' h => ?_
  · exact h.trans (List.append_assoc _ _ _)
  · exact h.trans (List.append_assoc _ _ _)

/-- The child of such a caller becomes the daemon if the numbers fit their buffers. -/
theorem childActs_crowded_exec {env : SpawnEnv} (hos : env.os = .linux) (herrno : env.errno = 0)
    (hfds : ∀ fd < 1024, fd ∈ env.fds)
    (hchild : env.child = Answers.unlimited (args.srvname.chars.length + 1))
    (hn : (printInt args.maxfiles.toInt).length < 10)
    (ht : (printInt args.openFdTimeoutMs.toInt).length < 10) :
    ∃ s : Process, s.piped = true ∧ s.acts = [] ∧ childActs env args (1024, 1025) =
      (main env.daemon env.os env.srvSockdir args.options s).state.acts := by
  have hrun := wp_childProcess_crowded hfds fun fds tick =>
    @wp_execServer_short args fds tick hn ht
  rw [← hchild, ← hos] at hrun
  obtain ⟨r, s', hdone, rfl, hpiped, hacts⟩ := exists_done_of_wp hrun
  refine ⟨execed (1024, 1025) s', ?_, hacts, childActs_of_exec (by rw [herrno]; exact hdone)⟩
  change (s'.piped && _) = true
  rw [hpiped]
  rfl

/-- The child of such a caller ends with the status zero if a number does not fit its buffer,
and so does the daemon if it turns a number away. -/
theorem childActs_crowded {env : SpawnEnv} (hos : env.os = .linux) (herrno : env.errno = 0)
    (hfds : ∀ fd < 1024, fd ∈ env.fds)
    (hchild : env.child = Answers.unlimited (args.srvname.chars.length + 1))
    (hdaemon : env.daemon = Answers.reliable) (hdir : env.srvSockdir = .root)
    (h : ¬ Presentable args.maxfiles.toInt args.openFdTimeoutMs.toInt) :
    childActs env args (1024, 1025) = [.told 0] := by
  by_cases hshort : (printInt args.maxfiles.toInt).length < 10 ∧
      (printInt args.openFdTimeoutMs.toInt).length < 10
  · obtain ⟨s, hpiped, hacts, hdone⟩ :=
      childActs_crowded_exec hos herrno hfds hchild hshort.1 hshort.2
    have hbad : args.maxfiles.toInt = 0 ∨ args.maxfiles.toInt = -1 ∨
        args.openFdTimeoutMs.toInt = 0 ∨ args.openFdTimeoutMs.toInt = -1 ∨
        openFdTimeoutMsMax < args.openFdTimeoutMs.toInt := by
      unfold Presentable at h
      have hn := length_printInt_lt.mp hshort.1
      have ht := length_printInt_lt.mp hshort.2
      omega
    have hmain := wp_state (R := fun s₂ : Process => s₂.acts = _)
      (wp_mono (wp_main_refused hbad hpiped) (fun _ _ hs => hs) fun _ _ hs => absurd hs id)
    rw [hdone, hdaemon, hos, hdir]
    refine hmain.trans ?_
    rw [hacts]
    rfl
  · have hlong : 10 ≤ (printInt args.maxfiles.toInt).length ∨
        10 ≤ (printInt args.openFdTimeoutMs.toInt).length := by omega
    have hrun := wp_childProcess_crowded hfds fun fds tick =>
      @wp_execServer_long args fds tick hlong
    rw [← hchild, ← hos] at hrun
    obtain ⟨r, s', hdone, rfl, hacts⟩ := exists_done_of_wp hrun
    rw [childActs_of_fail (by rw [herrno]; exact hdone), hacts]

/-- The process is reported although no server ran. -/
theorem not_reportsServing (h : ¬ Servable args) : ¬ ReportsServing args := by
  intro hreports
  have hopen : ∀ fd < 1024, fd ∈ (SpawnEnv.crowded args).fds := by
    intro fd hfd
    simp only [SpawnEnv.crowded]
    exact List.mem_range.mpr hfd
  have hfailed : ∀ acts, childActs (.crowded args) args (1024, 1025) = acts →
      firstTold acts = some 0 → Serving acts := by
    intro acts hacts htold
    have hspawned : sfdSpawn (.crowded args) args = ⟨1, acts⟩ := by
      rw [sfdSpawn_of_told rfl rfl rfl (by rw [hacts]; exact htold), hacts]
      rfl
    by_contra hnot
    have hpos := hreports (.crowded args) (by rw [hspawned]; exact hnot)
    rw [hspawned] at hpos
    exact absurd hpos (by decide : ¬ (1 : Int) ≤ 0)
  by_cases hgood : Presentable args.maxfiles.toInt args.openFdTimeoutMs.toInt
  · have hnegative : args.maxfiles.toInt < 0 ∧
        (sockpathOf args.sockdir args.srvname).length < Os.linux.sunPathSize := by
      by_contra hnot
      exact h ⟨hgood, fun hneg => by omega⟩
    obtain ⟨s, hpiped, hacts, hdone⟩ := @childActs_crowded_exec args (.crowded args) rfl rfl hopen
      rfl hgood.length_lt.1 hgood.length_lt.2
    have hmain := wp_state (wp_main_negative hgood hnegative.2 hpiped)
    rw [hacts] at hmain
    obtain ⟨a, ha, hruns⟩ := hfailed _ (hdone.trans hmain) rfl
    simp only [List.nil_append, List.mem_cons, List.not_mem_nil, or_false] at ha
    rcases ha with rfl | rfl | rfl | rfl
    · exact hruns
    · exact hruns
    · exact hruns
    · exact absurd hruns (Int.not_lt.mpr (Int.le_of_lt hnegative.1))
  · have htold := @childActs_crowded args (.crowded args) rfl rfl hopen rfl rfl rfl hgood
    obtain ⟨a, ha, hruns⟩ := hfailed _ htold rfl
    rw [List.mem_singleton.mp ha] at hruns
    exact hruns

end Crowded

/-- The first status is one of those written. -/
theorem mem_of_firstTold {acts : List Act} {e : Errno} (h : firstTold acts = some e) :
    .told e ∈ acts := by
  induction acts with
  | nil => cases h
  | cons a acts ih =>
      cases a with
      | told e' =>
          cases h
          exact List.mem_cons_self
      | bound path | serving | ran maxfds timeout => exact List.mem_cons_of_mem _ (ih h)

/-- A process is given to the caller only if the first status is zero. -/
theorem told_of_pos {env : SpawnEnv} {args : SpawnArgs} (h : 0 < (sfdSpawn env args).result) :
    ∃ pfd, (sfdSpawn env args).acts = childActs env args pfd ∧
      firstTold (childActs env args pfd) = some 0 := by
  have hfailed : ∀ acts, ¬ 0 < (Spawned.mk (-1) acts).result := fun _ h =>
    absurd h (by decide : ¬ (0 : Int) < -1)
  unfold sfdSpawn at h ⊢
  cases hpipe : env.pipe with
  | error e => exact absurd (by rwa [hpipe] at h) (hfailed [])
  | ok pfd =>
      cases hfork : env.fork with
      | error e => exact absurd (by rwa [hpipe, hfork] at h) (hfailed [])
      | ok pid =>
          simp only [hpipe, hfork] at h ⊢
          split at h
          · exact absurd h (hfailed _)
          · rename_i hread
            rw [if_neg hread]
            refine ⟨pfd, ?_⟩
            cases htold : firstTold (childActs env args pfd) with
            | none =>
                rw [htold] at h
                exact absurd h (hfailed _)
            | some e =>
                simp only [htold] at h ⊢
                split at h
                · split at h
                  · exact absurd h (Int.lt_irrefl 0)
                  · exact absurd h (hfailed _)
                · rename_i hzero
                  rw [if_neg hzero]
                  exact ⟨rfl, congrArg some (not_not.mp hzero)⟩

/-- What the child does with numbers it can serve with, if it does not. -/
theorem childActs_honest {env : SpawnEnv} {args : SpawnArgs} {pfd : Nat × Nat}
    (hgood : Servable args) (hserving : ¬ Serving (childActs env args pfd)) :
    ∀ a ∈ childActs env args pfd, a.Honest := by
  obtain ⟨hn, ht⟩ := hgood.1.length_lt
  have hchild := @wp_childProcess env.child env.os args
    ⟨env.errno, pfd.1 :: pfd.2 :: env.fds, false, 0, []⟩ hn ht pfd
  have hnew : ∀ {s : Process}, Added Act.Honest
      ⟨env.errno, pfd.1 :: pfd.2 :: env.fds, false, 0, []⟩ s → ∀ a ∈ s.acts, a.Honest :=
    fun hadded a ha => (hadded.mem ha).resolve_left List.not_mem_nil
  unfold childActs at hserving ⊢
  unfold wp at hchild
  split
  · rename_i opts s heq
    rw [heq] at hchild hserving
    obtain ⟨hadded, hopts⟩ := hchild
    rw [hopts opts rfl] at hserving ⊢
    have hmain := wp_state (R := fun s' : Process => Serving s'.acts ∨ Added Act.Honest _ s')
      (@wp_main_honest env.daemon env.os args (execed pfd s) hgood env.srvSockdir)
    have hkept : Added Act.Honest s (execed pfd s) := Added.of_eq rfl
    exact hnew ((hadded.trans hkept).trans (hmain.resolve_left hserving))
  · rename_i s heq
    rw [heq] at hchild
    exact hnew hchild.1
  · rename_i e s heq
    rw [heq] at hchild
    exact hnew hchild

/-- `sfd_spawn` reports only daemons that serve, provided that its numbers are accepted and
the limit is positive.  Other numbers are turned away by the child or by the daemon with
`errno` zero, which means success to the caller; a negative limit is accepted and stops the
server once the caller has been told. -/
theorem reportsServing_iff (args : SpawnArgs) : ReportsServing args ↔ Servable args := by
  constructor
  · intro h
    by_contra hbad
    exact not_reportsServing hbad h
  · intro hgood env hserving
    by_contra hpos
    obtain ⟨pfd, hacts, htold⟩ := told_of_pos (Int.not_le.mp hpos)
    rw [hacts] at hserving
    exact childActs_honest hgood hserving _ (mem_of_firstTold htold) 0 rfl rfl

/-- `sfd_spawn(name, "/", dir, 0, 1000)` reports a process that has already ended. -/
theorem zero_maxfiles_reported : ¬ ∀ args, ReportsServing args := by
  intro h
  refine not_reportsServing ?_ (h ⟨.repeated 1, .root, .root, 0, 1000⟩)
  rintro ⟨⟨⟨-, -, hzero, -⟩, -⟩, -⟩
  exact hzero rfl

end Sendfiled.Startup
