/-
`main` (main.c) and what it calls before the server runs: the user and group to run as, the
signal mask, daemon mode (process.c), the new root, and the request socket.  All of it
reports to a parent process that waits for it, if there is one.
-/
import Sendfiled.Startup.Sockets
import Sendfiled.Startup.Options
import Sendfiled.Kernel

namespace Sendfiled.Startup

open Prog

/-- `PROC_SYNCFD`. -/
def procSyncFd : Nat := 3

variable (ans : Answers)

section Descriptors

/-- `close`: a descriptor that is not open is `EBADF`. -/
def closeFd (fd : Nat) : P Bool := do
  let fds ← gets Process.fds
  if fd ∈ fds then
    modify fun s => { s with
      fds := s.fds.filter (· ≠ fd)
      piped := s.piped && decide (fd ≠ procSyncFd) }
    call ans .close
  else
    setErrno EBADF
    pure false

def dup2 (oldfd newfd : Nat) : P Bool := do
  let fds ← gets Process.fds
  if oldfd ∈ fds then
    if ← call ans .dup2 then
      modify fun s => { s with fds := newfd :: s.fds.filter (· ≠ newfd) }
      pure true
    else pure false
  else
    setErrno EBADF
    pure false

/-- `dup_to_open_fd`. -/
def dupToOpenFd (oldfd newfd : Nat) : P Bool := do
  if ← closeFd ans newfd then dup2 ans oldfd newfd else pure false

/-- The lowest number that is not in use. -/
def lowestUnused (fds : List Nat) : Nat := (lowestFree (fds.map Int.ofNat)).toNat

/-- The descriptor of `/dev/null`. -/
def openNull : P (Option Nat) := do
  if ← call ans .open then
    let fd ← gets fun s => lowestUnused s.fds
    modify fun s => { s with fds := fd :: s.fds }
    pure (some fd)
  else pure none

/-- The descriptor below which `proc_init_child` closes, as an `int`. -/
def closeLimit : Nat :=
  let rlimMax := ans.rlimMax.getD 1024 % 2 ^ 32
  if rlimMax < 2 ^ 31 then rlimMax else 0

/-- The descriptors it closes. -/
def closable (excluded : List Nat) : List Nat :=
  (List.range' 3 (closeLimit ans - 3)).filter (· ∉ excluded)

/-- The loop that closes descriptors. -/
def closeAll (fds : List Nat) : P Unit :=
  forEach (fun fd => do
    let _ ← closeFd ans fd
    pure ()) fds

/-- `proc_init_child`. -/
def procInitChild (excluded : List Nat) : P Bool := do
  match ← openNull ans with
  | none => pure false
  | some nullfd =>
      if ← andThen (dupToOpenFd ans nullfd 0)
          (andThen (dupToOpenFd ans nullfd 1) (dupToOpenFd ans nullfd 2)) then
        let _ ← closeFd ans nullfd
        if ← call ans .getrlimit then
          closeAll ans (closable ans excluded)
          pure true
        else pure false
      else
        preserveErrno (closeFd ans nullfd)
        pure false

end Descriptors

/-- `proc_daemonise(NULL, 0)`, in the process that goes on. -/
def procDaemonise : P Bool :=
  andThen (call ans .getrlimit) (andThen (call ans .fork) (andThen (call ans .sigaction)
    (andThen (call ans .fork) (andThen (call ans .chdir) (procInitChild ans [])))))

/-- `getpwnam` or `getgrnam` for an option that may be missing.  A name that is not found
need not set `errno`. -/
def lookup (find : CString → Except (Option Errno) Nat) (default : Nat) :
    Option CString → P (Option Nat)
  | none => pure (some default)
  | some name =>
      match find name with
      | .ok id => pure (some id)
      | .error none => pure none
      | .error (some e) => do
          setErrno e
          pure none

/-- `chroot_and_drop_privs`. -/
def chrootAndDropPrivs (rootDir : CString) (newUid newGid : Nat) : P Bool :=
  let dropPrivs : P Bool := do
    if newGid ≠ ans.gid then
      andThen (call ans .setgid) (call ans .setuid)
    else call ans .setuid
  if newUid = 0 then do
    setErrno EPERM
    pure false
  else if newGid = 0 then do
    setErrno EPERM
    pure false
  else if rootDir.chars ≠ [slash] then
    if ans.euid ≠ 0 then do
      setErrno EACCES
      pure false
    else andThen (call ans .chroot) (andThen (call ans .chdir) dropPrivs)
  else dropPrivs

/-- `sync_parent`: a status of four bytes is written to the pipe at once or not at all. -/
def syncParent (status : Errno) : P Bool := do
  if ← call ans .write then
    let piped ← gets Process.piped
    if piped then note (.told status)
    pure true
  else pure false

/-- `fail1`. -/
def fail1 (o : Settings) : P Bool := do
  if o.doSync then
    let errno ← gets Process.errno
    let _ ← syncParent ans errno
    pure false
  else pure false

variable (os : Os)

/-- `main` from the bound request socket on. -/
def runServer (o : Settings) (srvname : CString) : P Bool := do
  let start : P Bool := do
    note (.ran (Int.bmod o.maxfiles (2 ^ 32)) o.fdTimeoutMs)
    usStopServing ans os o.sockdir srvname
    pure ans.srvRun
  if o.doSync then
    if ← syncParent ans 0 then
      let _ ← closeFd ans procSyncFd
      start
    else
      usStopServing ans os o.sockdir srvname
      fail1 ans o
  else start

/-- `main` between the checks of the options and the request socket. -/
def prepare (o : Settings) (rootDir srvname : CString) : P Bool := do
  match ← lookup ans.user ans.uid o.uname with
  | none => fail1 ans o
  | some newUid =>
      match ← lookup ans.group ans.gid o.gname with
      | none => fail1 ans o
      | some newGid =>
          if ← andThen (call ans .sigprocmask)
              (andThen (if o.daemonise then procDaemonise ans else pure true)
                (andThen (chrootAndDropPrivs ans rootDir newUid newGid)
                  (usServe ans os o.sockdir srvname))) then
            runServer ans os o srvname
          else fail1 ans o

/-- `main`; whether it returns `EXIT_SUCCESS`.  The last case does not occur after the
checks. -/
def main (srvSockdir : CString) (opts : List Opt) : P Bool := do
  match ← parseOptions os opts (.initial srvSockdir) with
  | none => pure false
  | some o =>
      if ← checkOptions o then
        match o.rootDir, o.srvname with
        | some rootDir, some srvname => prepare ans os o rootDir srvname
        | _, _ => pure false
      else fail1 ans o

section Acts

variable {ans os} {good : Act → Prop} {o : Settings}

theorem Adds.closeFd (fd : Nat) : Adds good (closeFd ans fd) := by
  refine (Adds.gets _).bind fun _ => Adds.ite ?_ ?_
  · exact Adds.bind (Adds.modify fun _ => rfl) fun _ => Adds.call _
  · exact (Adds.setErrno _).bind fun _ => Adds.pure _

theorem Adds.dupToOpenFd (oldfd newfd : Nat) : Adds good (dupToOpenFd ans oldfd newfd) := by
  refine (Adds.closeFd _).bind fun _ => Adds.ite ?_ (Adds.pure _)
  refine (Adds.gets _).bind fun _ => Adds.ite ?_ ?_
  · refine (Adds.call _).bind fun _ => Adds.ite ?_ (Adds.pure _)
    exact Adds.bind (Adds.modify fun _ => rfl) fun _ => Adds.pure _
  · exact (Adds.setErrno _).bind fun _ => Adds.pure _

theorem Adds.closeAll (fds : List Nat) : Adds good (closeAll ans fds) :=
  Adds.forEach (fun fd => (Adds.closeFd fd).bind fun _ => Adds.pure _) fds

theorem Adds.procInitChild (excluded : List Nat) : Adds good (procInitChild ans excluded) := by
  have hopen : Adds good (openNull ans) :=
    (Adds.call _).bind fun _ => Adds.ite ((Adds.gets _).bind fun _ =>
      Adds.bind (Adds.modify fun _ => rfl) fun _ => Adds.pure _) (Adds.pure _)
  refine hopen.bind fun nullfd => ?_
  cases nullfd with
  | none => exact Adds.pure _
  | some nullfd =>
      refine ((Adds.dupToOpenFd _ _).andThen ((Adds.dupToOpenFd _ _).andThen
        (Adds.dupToOpenFd _ _))).bind fun _ => Adds.ite ?_ ?_
      · refine (Adds.closeFd _).bind fun _ => (Adds.call _).bind fun _ => Adds.ite ?_ (Adds.pure _)
        exact Adds.bind (Adds.closeAll (closable ans excluded)) fun _ => Adds.pure true
      · exact (Adds.preserveErrno (Adds.closeFd _)).bind fun _ => Adds.pure _

theorem Adds.procDaemonise : Adds good (procDaemonise ans) :=
  (Adds.call _).andThen ((Adds.call _).andThen ((Adds.call _).andThen ((Adds.call _).andThen
    ((Adds.call _).andThen (Adds.procInitChild _)))))

theorem Adds.lookup (find : CString → Except (Option Errno) Nat) (default : Nat)
    (name : Option CString) : Adds good (lookup find default name) := by
  unfold Startup.lookup
  split
  · exact Adds.pure _
  · split
    · exact Adds.pure _
    · exact Adds.pure _
    · exact (Adds.setErrno _).bind fun _ => Adds.pure _

theorem Adds.chrootAndDropPrivs (rootDir : CString) (newUid newGid : Nat) :
    Adds good (chrootAndDropPrivs ans rootDir newUid newGid) := by
  have hfail : ∀ e, Adds good (do Startup.setErrno e; Pure.pure false) :=
    fun e => (Adds.setErrno e).bind fun _ => Adds.pure _
  have hdrop : Adds good (if newGid ≠ ans.gid then
      Startup.andThen (Startup.call ans .setgid) (Startup.call ans .setuid)
      else Startup.call ans .setuid) :=
    Adds.ite ((Adds.call _).andThen (Adds.call _)) (Adds.call _)
  refine Adds.ite (hfail _) (Adds.ite (hfail _) (Adds.ite (Adds.ite (hfail _) ?_) hdrop))
  exact (Adds.call _).andThen ((Adds.call _).andThen hdrop)

theorem Adds.syncParent {status : Errno} (htold : good (.told status)) :
    Adds good (syncParent ans status) := by
  refine (Adds.call _).bind fun _ => Adds.ite ?_ (Adds.pure _)
  refine (Adds.gets _).bind fun piped => ?_
  cases piped with
  | true => exact (Adds.note htold).bind fun _ => Adds.pure _
  | false => exact Adds.pure _

theorem Adds.fail1 (htold : ∀ e, good (.told e)) : Adds good (fail1 ans o) :=
  Adds.ite ((Adds.gets _).bind fun e => (Adds.syncParent (htold e)).bind fun _ => Adds.pure _)
    (Adds.pure _)

theorem Adds.runServer {srvname : CString} (htold : ∀ e, good (.told e))
    (hran : good (.ran (Int.bmod o.maxfiles (2 ^ 32)) o.fdTimeoutMs)) :
    Adds good (runServer ans os o srvname) := by
  have hstart : Adds good (do
      Startup.note (.ran (Int.bmod o.maxfiles (2 ^ 32)) o.fdTimeoutMs)
      Startup.usStopServing ans os o.sockdir srvname
      Pure.pure ans.srvRun) :=
    (Adds.note hran).bind fun _ => Adds.usStopServing.bind fun _ => Adds.pure _
  refine Adds.ite ?_ hstart
  refine (Adds.syncParent (htold 0)).bind fun _ => Adds.ite ?_ ?_
  · exact (Adds.closeFd _).bind fun _ => hstart
  · exact Adds.usStopServing.bind fun _ => Adds.fail1 htold

theorem Adds.prepare {rootDir srvname : CString} (htold : ∀ e, good (.told e))
    (hbound : ∀ path, good (.bound path)) (hserving : good .serving)
    (hran : good (.ran (Int.bmod o.maxfiles (2 ^ 32)) o.fdTimeoutMs)) :
    Adds good (prepare ans os o rootDir srvname) := by
  refine (Adds.lookup _ _ _).bind fun newUid => ?_
  cases newUid with
  | none => exact Adds.fail1 htold
  | some newUid =>
      refine (Adds.lookup _ _ _).bind fun newGid => ?_
      cases newGid with
      | none => exact Adds.fail1 htold
      | some newGid =>
          refine ((Adds.call _).andThen ((Adds.ite Adds.procDaemonise (Adds.pure _)).andThen
            ((Adds.chrootAndDropPrivs _ _ _).andThen (Adds.usServe hbound hserving)))).bind
            fun _ => Adds.ite ?_ (Adds.fail1 htold)
          exact Adds.runServer htold hran

theorem NoFault.closeFd (fd : Nat) : NoFault (closeFd ans fd) := by
  refine NoFault.bind (fun _ => trivial) fun fds => NoFault.ite ?_ ?_
  · exact NoFault.bind (fun _ => trivial) fun _ => NoFault.call _
  · exact (NoFault.setErrno _).bind fun _ => NoFault.pure _

/-- A status that could not be written leaves the reason in `errno`. -/
theorem wp_syncParent {status : Errno} {s : Process} :
    wp (syncParent ans status) (fun ok s' => ok = false → s'.errno ≠ 0 ∧ s'.acts = s.acts)
      (fun _ _ => False) s := by
  unfold syncParent
  rw [wp_bind, call, wp_modifyGet]
  cases hfails : ans.fails .write s.tick with
  | some e => exact fun _ => ⟨ans.fails_ne_zero _ _ e hfails, rfl⟩
  | none =>
      rw [if_pos rfl, wp_bind, wp_gets]
      cases s.piped with
      | true => exact fun h => Bool.noConfusion h
      | false => exact fun h => Bool.noConfusion h

theorem Attempt.closeFd (fd : Nat) : Attempt (closeFd ans fd) := by
  refine Attempt.after (Adds.gets _) fun _ => Attempt.split ?_ (Attempt.failure (by decide))
  exact Attempt.after (Adds.modify fun _ => rfl) fun _ => Attempt.call _

theorem Attempt.dup2 (oldfd newfd : Nat) : Attempt (dup2 ans oldfd newfd) := by
  refine Attempt.after (Adds.gets _) fun _ => Attempt.split ?_ (Attempt.failure (by decide))
  refine (Attempt.call _).ite ?_ Cleanup.fail
  exact Attempt.after (Adds.modify fun _ => rfl) fun _ => Attempt.success

theorem Attempt.dupToOpenFd (oldfd newfd : Nat) : Attempt (dupToOpenFd ans oldfd newfd) :=
  (Attempt.closeFd _).ite (Attempt.dup2 _ _) Cleanup.fail

/-- Every failure of `proc_init_child` sets `errno`. -/
theorem Attempt.procInitChild (excluded : List Nat) : Attempt (procInitChild ans excluded) := by
  have hrest : ∀ nullfd, Attempt (do
      if ← Startup.andThen (Startup.dupToOpenFd ans nullfd 0)
          (Startup.andThen (Startup.dupToOpenFd ans nullfd 1)
            (Startup.dupToOpenFd ans nullfd 2)) then
        let _ ← Startup.closeFd ans nullfd
        if ← Startup.call ans .getrlimit then
          Startup.closeAll ans (closable ans excluded)
          Pure.pure true
        else Pure.pure false
      else
        Startup.preserveErrno (Startup.closeFd ans nullfd)
        Pure.pure false) := by
    intro nullfd
    refine ((Attempt.dupToOpenFd _ _).andThen ((Attempt.dupToOpenFd _ _).andThen
      (Attempt.dupToOpenFd _ _))).ite ?_ (Cleanup.preserve (Adds.closeFd _) Cleanup.fail)
    refine Attempt.after (Adds.closeFd _) fun _ => (Attempt.call _).ite ?_ Cleanup.fail
    exact Attempt.after (Adds.closeAll _) fun _ => Attempt.success
  intro s
  unfold Startup.procInitChild openNull
  rw [wp_bind, wp_bind]
  refine wp_mono (Attempt.call _ s) ?_ fun _ _ h => h
  rintro ok s₁ ⟨hadded, herrno⟩
  cases ok with
  | false => exact ⟨hadded, fun _ => herrno rfl⟩
  | true =>
      rw [if_pos rfl, wp_bind, wp_gets, wp_bind, wp_modify, wp_pure]
      have hopened : Added Act.Quiet s { s₁ with fds := lowestUnused s₁.fds :: s₁.fds } :=
        hadded.trans (Added.of_eq rfl)
      refine wp_mono (hrest _ _) ?_ fun _ _ h => hopened.trans h
      exact fun _ _ h => ⟨hopened.trans h.1, h.2⟩

theorem Attempt.procDaemonise : Attempt (procDaemonise ans) :=
  (Attempt.call _).andThen ((Attempt.call _).andThen ((Attempt.call _).andThen
    ((Attempt.call _).andThen ((Attempt.call _).andThen (Attempt.procInitChild _)))))

theorem Attempt.chrootAndDropPrivs (rootDir : CString) (newUid newGid : Nat) :
    Attempt (chrootAndDropPrivs ans rootDir newUid newGid) := by
  have hdrop : Attempt (if newGid ≠ ans.gid then
      Startup.andThen (Startup.call ans .setgid) (Startup.call ans .setuid)
      else Startup.call ans .setuid) :=
    Attempt.split ((Attempt.call _).andThen (Attempt.call _)) (Attempt.call _)
  refine Attempt.split (Attempt.failure (by decide)) (Attempt.split (Attempt.failure (by decide))
    (Attempt.split (Attempt.split (Attempt.failure (by decide)) ?_) hdrop))
  exact (Attempt.call _).andThen ((Attempt.call _).andThen hdrop)

end Acts

section Numbers

/-- What a pair of numeric options is to be: numbers in their ranges. -/
def ValidNumbers (maxfiles timeout : CString) : Prop :=
  (∃ m, Denotes maxfiles m ∧ 1 ≤ m ∧ m ≤ intMax) ∧
    ∃ t, Denotes timeout t ∧ 1 ≤ t ∧ t ≤ openFdTimeoutMsMax

/-- Whatever else is on the command line and happens at start-up, the server runs only with
the numbers the two options denote, in their ranges, and other strings are refused before
the request socket is bound. -/
def NumbersValidated (maxfiles timeout : CString) : Prop :=
  ∀ ans os srvSockdir opts s, s.acts = [] →
    lastArg Opt.maxfilesArg opts = some maxfiles → lastArg Opt.timeoutArg opts = some timeout →
    (∀ m t, .ran m t ∈ (main ans os srvSockdir opts s).state.acts →
      (Denotes maxfiles m ∧ 1 ≤ m ∧ m ≤ intMax) ∧
        Denotes timeout t ∧ 1 ≤ t ∧ t ≤ openFdTimeoutMsMax) ∧
    (¬ ValidNumbers maxfiles timeout →
      ∀ path, .bound path ∉ (main ans os srvSockdir opts s).state.acts)

/-- The strings that the checks of `main` turn away. -/
def TurnedAway (maxfiles timeout : CString) : Prop :=
  Refused maxfiles ∨ (readNumeral maxfiles.chars).value = -1 ∨ Refused timeout ∨
    (readNumeral timeout.chars).value = -1 ∨
    openFdTimeoutMsMax < (readNumeral timeout.chars).value

variable {ans : Answers} {os : Os} {maxfiles timeout : CString} {o : Settings}

theorem optValue_of_not_refused {s : CString} (h : ¬ Refused s) :
    optValue s = (readNumeral s.chars).value := if_neg h

/-- Settings with such strings fail the checks. -/
theorem TurnedAway.check_fails (h : TurnedAway maxfiles timeout)
    (hn : o.maxfiles = optValue maxfiles) (ht : o.fdTimeoutMs = optValue timeout) :
    checkOptions o = (do setErrno EINVAL; pure false) ∨ checkOptions o = pure false := by
  unfold checkOptions
  split_ifs with hmissing hmax hneg hlarge
  · exact Or.inl rfl
  · exact Or.inr rfl
  · exact Or.inr rfl
  · exact Or.inr rfl
  · rw [hn] at hmax
    rw [ht] at hneg hlarge
    unfold optValue at hmax hneg hlarge
    rcases h with h | h | h | h | h
    · exact absurd (if_pos h) hmax
    · by_cases hr : Refused maxfiles
      · exact absurd (if_pos hr) hmax
      · exact absurd (by rw [if_neg hr, h]) hmax
    · exact absurd (if_pos h) hneg
    · by_cases hr : Refused timeout
      · exact absurd (if_pos hr) hneg
      · exact absurd (by rw [if_neg hr, h]) hneg
    · by_cases hr : Refused timeout
      · exact absurd (if_pos hr) hneg
      · exact absurd (by rw [if_neg hr]; exact h) hlarge

/-- Acts other than telling the parent. -/
def Act.IsTold : Act → Prop
  | .told _ => True
  | _ => False

/-- A command line that is turned away is reported, and that is all. -/
theorem TurnedAway.adds (h : TurnedAway maxfiles timeout) {opts : List Opt} {srvSockdir : CString}
    (hn : lastArg Opt.maxfilesArg opts = some maxfiles)
    (ht : lastArg Opt.timeoutArg opts = some timeout) :
    Adds Act.IsTold (main ans os srvSockdir opts) := by
  intro s
  unfold main
  rw [wp_bind]
  refine wp_parseOptions opts _ fun e => ?_
  have hstart : Added Act.IsTold s { s with errno := e } := Added.of_eq rfl
  cases hset : settingsOf opts (.initial srvSockdir) with
  | none => exact hstart
  | some o =>
      obtain ⟨hmax, htime⟩ := settingsOf_numbers hset
      rw [hn] at hmax
      rw [ht] at htime
      have hfail : Adds Act.IsTold (fail1 ans o) := Adds.fail1 fun _ => trivial
      have hrest : ∀ m : P Bool, m = (do setErrno EINVAL; pure false) ∨ m = pure false →
          Adds Act.IsTold (do if ← m then
            (match o.rootDir, o.srvname with
              | some rootDir, some srvname => prepare ans os o rootDir srvname
              | _, _ => pure false) else fail1 ans o) := by
        rintro m (rfl | rfl)
        · exact (Adds.setErrno _).bind fun _ => hfail
        · exact hfail
      refine wp_mono (hrest _ (h.check_fails hmax htime) _) ?_ ?_
      · exact fun _ _ hadded => hstart.trans hadded
      · exact fun _ _ hadded => hstart.trans hadded

/-- The server is run with the numbers of the last options only. -/
theorem adds_ran {opts : List Opt} {srvSockdir : CString}
    (hn : lastArg Opt.maxfilesArg opts = some maxfiles)
    (ht : lastArg Opt.timeoutArg opts = some timeout) :
    Adds (fun a => ∀ m t, a = .ran m t →
      m = Int.bmod (optValue maxfiles) (2 ^ 32) ∧ t = optValue timeout)
      (main ans os srvSockdir opts) := by
  intro s
  unfold main
  rw [wp_bind]
  refine wp_parseOptions opts _ fun e => ?_
  cases hset : settingsOf opts (.initial srvSockdir) with
  | none => exact Added.of_eq rfl
  | some o =>
      obtain ⟨hmax, htime⟩ := settingsOf_numbers hset
      rw [hn] at hmax
      rw [ht] at htime
      have hcheck : ∀ good : Act → Prop, Adds good (checkOptions o) := by
        intro good
        unfold checkOptions
        exact Adds.ite ((Adds.setErrno _).bind fun _ => Adds.pure _) (Adds.ite (Adds.pure _)
          (Adds.ite (Adds.pure _) (Adds.ite (Adds.pure _) (Adds.pure _))))
      refine Adds.bind (hcheck _) (fun _ => Adds.ite ?_ (Adds.fail1 ?_)) _
      · split
        · refine Adds.prepare ?_ ?_ ?_ ?_
          · exact fun e m t h => by cases h
          · exact fun path m t h => by cases h
          · exact fun m t h => by cases h
          · intro m t h
            cases h
            rw [hmax, htime]
            exact ⟨rfl, rfl⟩
        · exact Adds.pure _
      · exact fun e m t h => by cases h

/-- The root directory, and a server name of one letter. -/
def CString.root : CString := ⟨[slash], by decide⟩

/-- A command line with the two options and the two that must be there. -/
def plainOptions (maxfiles timeout : CString) : List Opt :=
  [.rootDir .root, .srvname (.repeated 1), .maxfiles maxfiles, .timeout timeout]

theorem wp_call_reliable {c : Syscall} {s : Process} {Q : Bool → Process → Prop}
    {E : StartFault → Process → Prop} :
    wp (call Answers.reliable c) Q E s ↔ Q true { s with tick := s.tick + 1 } := Iff.rfl

/-- Where nothing fails, the request socket is bound. -/
theorem wp_usServe_reliable {dir srvname : CString} {s : Process} {Q : Bool → Process → Prop}
    {E : StartFault → Process → Prop} (hallowed : Allowed .linux dir srvname)
    (hover : ¬ Overruns .linux dir srvname)
    (hQ : ∀ tick, Q true { s with
      tick := tick, acts := s.acts ++ [.bound (sockpathOf dir srvname ++ [0]), .serving] }) :
    wp (usServe Answers.reliable .linux dir srvname) Q E s := by
  have hlen := length_le_of_allowed hallowed hover
  rw [List.length_append, List.length_singleton] at hlen
  unfold usServe usSocket
  rw [wp_bind, wp_call_reliable, if_pos rfl, wp_bind, wp_call_reliable, if_pos rfl, wp_bind]
  refine wp_usMakeSockpath (fun hlong => absurd hallowed hlong) (fun e he => by cases he) ?_
  intro _ _
  unfold copyToSunPath
  rw [wp_bind, wp_check, strlen_sockpathOf]
  refine ⟨fun _ => ?_, fun hnot => absurd hlen hnot⟩
  rw [wp_bind, wp_call_reliable, if_pos rfl]
  have hfinal := hQ (s.tick + 1 + 1 + 1 + 1 + 1 + 1)
  rw [List.append_cons] at hfinal
  exact hfinal

/-- Where nothing fails, any root will do. -/
theorem wp_chrootAndDropPrivs_reliable {rootDir : CString} {s : Process}
    {Q : Bool → Process → Prop} {E : StartFault → Process → Prop}
    (hQ : ∀ tick, Q true { s with tick := tick }) :
    wp (chrootAndDropPrivs Answers.reliable rootDir 1000 1000) Q E s := by
  unfold chrootAndDropPrivs
  rw [if_neg (by decide), if_neg (by decide)]
  by_cases hroot : rootDir.chars = [slash]
  · rw [if_neg (not_not.mpr hroot)]
    exact hQ (s.tick + 1)
  · rw [if_pos hroot, if_neg (by decide)]
    exact hQ (s.tick + 1 + 1 + 1)

/-- Where nothing fails, a daemon that keeps its user and stays in the foreground gets to the
request socket. -/
theorem wp_prepare_reliable {rootDir srvname : CString} {s : Process}
    {Q : Bool → Process → Prop} {E : StartFault → Process → Prop} (huname : o.uname = none)
    (hgname : o.gname = none) (hdaemon : o.daemonise = false)
    (h : ∀ tick, wp (usServe Answers.reliable .linux o.sockdir srvname) (fun ok s' =>
      wp (if ok then runServer Answers.reliable .linux o srvname else fail1 Answers.reliable o)
        Q E s') E { s with tick := tick }) :
    wp (prepare Answers.reliable .linux o rootDir srvname) Q E s := by
  unfold prepare
  rw [huname, hgname, hdaemon]
  simp only [lookup, wp_bind, wp_pure, andThen]
  rw [wp_call_reliable, if_pos rfl, if_neg (by decide), wp_bind, wp_pure, if_pos rfl, wp_bind]
  refine wp_chrootAndDropPrivs_reliable fun tick => ?_
  rw [if_pos rfl]
  exact h tick

/-- The settings of such a command line. -/
def plainSettings (maxfiles timeout : Int) : Settings :=
  { Settings.initial .root with
    rootDir := some .root
    srvname := some (.repeated 1)
    maxfiles := maxfiles
    fdTimeoutMs := timeout }

/-- Options that pass the checks are served with, where nothing fails. -/
theorem plainOptions_bound (h : ¬ TurnedAway maxfiles timeout) :
    ∃ path, .bound path ∈ (main Answers.reliable .linux .root (plainOptions maxfiles timeout)
      Process.fresh).state.acts := by
  unfold TurnedAway at h
  simp only [not_or] at h
  obtain ⟨hn, hn₁, ht, ht₁, hlarge⟩ := h
  have hzero : (readNumeral maxfiles.chars).value ≠ 0 := fun hz => hn (Or.inr (Or.inl hz))
  generalize hm : (readNumeral maxfiles.chars).value = m at hn₁ hzero
  generalize htv : (readNumeral timeout.chars).value = t at ht₁ hlarge
  have hset : settingsOf (plainOptions maxfiles timeout) (.initial .root) =
      some (plainSettings m t) := by
    simp only [plainOptions, settingsOf, optValue_of_not_refused hn, optValue_of_not_refused ht,
      hm, htv]
    rfl
  have hcheck : checkOptions (plainSettings m t) = pure true := by
    unfold checkOptions
    rw [if_neg (by simp [plainSettings, hzero])]
    change (if m = -1 then _ else if t = -1 then _ else if openFdTimeoutMsMax < t then _ else _) = _
    rw [if_neg hn₁, if_neg ht₁, if_neg hlarge]
  have hallowed : Allowed .linux .root (.repeated 1) := by
    unfold Allowed
    decide
  have hover : ¬ Overruns .linux .root (.repeated 1) := by
    unfold Overruns
    decide
  have hkept : Adds (fun _ => True)
      (runServer Answers.reliable .linux (plainSettings m t) (.repeated 1)) :=
    Adds.runServer (fun _ => trivial) trivial
  refine ⟨sockpathOf .root (.repeated 1) ++ [0],
    wp_state (R := fun s' : Process => _ ∈ s'.acts) ?_⟩
  unfold main
  rw [wp_bind]
  refine wp_parseOptions _ _ fun e => ?_
  rw [hset]
  simp only [hcheck]
  rw [wp_bind, wp_pure, if_pos rfl]
  refine wp_prepare_reliable rfl rfl rfl fun tick => ?_
  refine wp_usServe_reliable hallowed hover fun tick => ?_
  rw [if_pos rfl]
  refine wp_mono (hkept _) (fun _ s' h => h.subset ?_) fun _ s' h => h.subset ?_
  · exact List.mem_append_right _ List.mem_cons_self
  · exact List.mem_append_right _ List.mem_cons_self

/-- The numeric options are validated, except for strings that pass the checks of `main`
although they are not numbers of their ranges. -/
theorem numbersValidated_iff (maxfiles timeout : CString) :
    NumbersValidated maxfiles timeout ↔
      TurnedAway maxfiles timeout ∨ ValidNumbers maxfiles timeout := by
  constructor
  · intro h
    by_contra hbad
    rw [not_or] at hbad
    obtain ⟨path, hpath⟩ := plainOptions_bound hbad.1
    exact (h _ _ _ _ _ rfl rfl rfl).2 hbad.2 path hpath
  · rintro hcond ans os srvSockdir opts s hacts hn ht
    have hmem : ∀ {good : Act → Prop} {a : Act}, Adds good (main ans os srvSockdir opts) →
        a ∈ (main ans os srvSockdir opts s).state.acts → good a := by
      intro good a hadds ha
      have hadded := wp_state (R := fun s' => Added good s s') (hadds s)
      exact (hadded.mem ha).resolve_left (by rw [hacts]; exact List.not_mem_nil)
    by_cases haway : TurnedAway maxfiles timeout
    · have htold := @TurnedAway.adds ans os maxfiles timeout haway opts srvSockdir hn ht
      exact ⟨fun m t hran => absurd (hmem htold hran) id,
        fun _ path hbound => absurd (hmem htold hbound) id⟩
    · obtain ⟨⟨m, hm, hm₁, hm₂⟩, t, ht₀, ht₁, ht₂⟩ := hcond.resolve_left haway
      have hvalid : ValidNumbers maxfiles timeout := ⟨⟨m, hm, hm₁, hm₂⟩, t, ht₀, ht₁, ht₂⟩
      refine ⟨fun m' t' hran => ?_, fun hnot => absurd hvalid hnot⟩
      obtain ⟨hm', ht'⟩ := hmem (adds_ran hn ht) hran m' t' rfl
      unfold TurnedAway at haway
      simp only [not_or] at haway
      rw [optValue_of_not_refused haway.1, hm.2.2] at hm'
      rw [optValue_of_not_refused haway.2.2.1, ht₀.2.2] at ht'
      have hsame : Int.bmod m (2 ^ 32) = m := by
        unfold intMax at hm₂
        exact Int.bmod_eq_of_le (by omega) (by omega)
      rw [hm', hsame, ht']
      exact ⟨⟨hm, hm₁, hm₂⟩, ht₀, ht₁, ht₂⟩

instance (maxfiles timeout : CString) : Decidable (TurnedAway maxfiles timeout) :=
  inferInstanceAs (Decidable (_ ∨ _))

/-- With `-n -5 -t 1000` the request socket is bound and the server is run. -/
theorem negative_maxfiles_accepted :
    ¬ ∀ maxfiles timeout, NumbersValidated maxfiles timeout := by
  intro h
  let maxfiles : CString := ⟨[45, 53], by decide⟩
  let timeout : CString := ⟨[49, 48, 48, 48], by decide⟩
  have haccepted : ¬ TurnedAway maxfiles timeout := by decide
  obtain ⟨path, hpath⟩ := plainOptions_bound haccepted
  refine (h maxfiles timeout _ _ _ _ _ rfl rfl rfl).2 ?_ path hpath
  rintro ⟨⟨m, hm, hpos, -⟩, -⟩
  have hvalue : (readNumeral maxfiles.chars).value = -5 := by decide
  have hdenoted := hm.2.2
  omega

end Numbers

end Sendfiled.Startup
