/-
The names of UNIX socket files (unix_sockets.c) and the calls that copy them into an
address: `us_serve` (unix_socket_server.c) and `us_connect` (unix_socket_client.c).
-/
import Sendfiled.Startup.Process

namespace Sendfiled.Startup

open Prog

/-- `SFD_PREFIX`. -/
def sfdPrefix : List UInt8 :=
  ['s', 'e', 'n', 'd', 'f', 'i', 'l', 'e', 'd', '.'].map Char.toUInt8

/-- `SOCKEXT`. -/
def sockExt : List UInt8 := ['.', 's', 'o', 'c', 'k', 'e', 't'].map Char.toUInt8

def slash : UInt8 := '/'.toUInt8

variable (ans : Answers) (os : Os)

/-- `us_make_sockpath`: the allocated memory, up to and including the terminating NUL. -/
def usMakeSockpath (dir srvname : CString) : P (Option (List UInt8)) := do
  let nonnameLen := (sfdPrefix ++ sockExt).length
  let pathlenMax := os.sunPathSize - nonnameLen
  let dirlen := strnlen dir.mem pathlenMax
  if dirlen = pathlenMax then
    setErrno os.enametoolong
    pure none
  else
    let pathlenMax := pathlenMax - dirlen
    let dirNeedsSlash : Bool := decide (0 < dirlen ∧ dir.mem.getD (dirlen - 1) 0 ≠ slash)
    let namelen := strnlen srvname.mem pathlenMax
    if namelen = pathlenMax then
      setErrno os.enametoolong
      pure none
    else if ← call ans .malloc then
      pure (some (dir.mem.take dirlen ++ (if dirNeedsSlash then [slash] else []) ++ sfdPrefix ++
        srvname.mem.take namelen ++ sockExt ++ [0]))
    else pure none

/-- `memcpy` of a path and its terminating NUL into `sun_path`. -/
def copyToSunPath (sockpath : List UInt8) : P Unit :=
  check (strlen sockpath + 1 ≤ os.sunPathSize) .sunPath

/-- `set_nonblock` and `set_cloexec`: the flags are read and written back. -/
def setFlag : P Bool := andThen (call ans .fcntl) (call ans .fcntl)

/-- `us_socket`. -/
def usSocket : P Bool :=
  match os with
  | .linux => call ans .socket
  | .freebsd => do
      if ← call ans .socket then
        if ← andThen (setFlag ans) (setFlag ans) then pure true
        else
          preserveErrno (call ans .close)
          pure false
      else pure false

/-- `us_serve`. -/
def usServe (sockdir srvname : CString) : P Bool := do
  if ← usSocket ans os then
    if ← call ans .setsockopt then
      match ← usMakeSockpath ans os sockdir srvname with
      | none =>
          preserveErrno (call ans .close)
          pure false
      | some sockpath =>
          copyToSunPath os sockpath
          if ← call ans .bind then
            note (.bound sockpath)
            if ← andThen (call ans .chown) (call ans .chmod) then
              note .serving
              pure true
            else
              preserveErrno (call ans .close)
              pure false
          else
            preserveErrno (call ans .close)
            pure false
    else
      preserveErrno (call ans .close)
      pure false
  else pure false

/-- `us_stop_serving`. -/
def usStopServing (sockdir srvname : CString) : P Unit := do
  let _ ← call ans .close
  match ← usMakeSockpath ans os sockdir srvname with
  | none => pure ()
  | some _ =>
      let _ ← call ans .unlink
      pure ()

/-- `us_connect`. -/
def usConnect (sockdir srvname : CString) : P Bool := do
  if ← usSocket ans os then
    match ← usMakeSockpath ans os sockdir srvname with
    | none =>
        preserveErrno (call ans .close)
        pure false
    | some sockpath =>
        copyToSunPath os sockpath
        if ← call ans .connect then pure true
        else
          preserveErrno (call ans .close)
          pure false
  else pure false

/-- A directory whose name has to be separated from the file's. -/
def CString.NeedsSlash (dir : CString) : Prop := dir.chars ≠ [] ∧ dir.chars.getLast? ≠ some slash

instance (dir : CString) : Decidable dir.NeedsSlash := inferInstanceAs (Decidable (_ ∧ _))

/-- The path of a server's socket. -/
def sockpathOf (dir srvname : CString) : List UInt8 :=
  dir.chars ++ (if dir.NeedsSlash then [slash] else []) ++ sfdPrefix ++ srvname.chars ++ sockExt

/-- What `us_make_sockpath` is to do, and the copies of its result that are to stay inside
the address. -/
structure SockpathFits (dir srvname : CString) : Prop where
  made : ∀ ans s, wp (usMakeSockpath ans os dir srvname) (fun result s' =>
    match result with
    | none => s'.errno = os.enametoolong ∨ ans.fails .malloc s.tick = some s'.errno
    | some mem => mem = sockpathOf dir srvname ++ [0] ∧ mem.length ≤ os.sunPathSize)
    (fun _ _ => False) s
  serves : ∀ ans s, wp (usServe ans os dir srvname) (fun _ _ => True) (fun _ _ => False) s
  connects : ∀ ans s, wp (usConnect ans os dir srvname) (fun _ _ => True) (fun _ _ => False) s

/-- The one combination of lengths that the two budgets of `us_make_sockpath` let through
although the separator takes the place of the terminating NUL. -/
def Overruns (dir srvname : CString) : Prop :=
  dir.NeedsSlash ∧ dir.chars.length + srvname.chars.length + 18 = os.sunPathSize

theorem length_sockpathOf (dir srvname : CString) :
    (sockpathOf dir srvname).length =
      dir.chars.length + (if dir.NeedsSlash then 1 else 0) + srvname.chars.length + 17 := by
  have hprefix : sfdPrefix.length = 10 := rfl
  have hext : sockExt.length = 7 := rfl
  unfold sockpathOf
  split <;> simp only [List.length_append, List.length_singleton, List.length_nil] <;> omega

/-- The names that fit by the reckoning of `us_make_sockpath`. -/
def Allowed (dir srvname : CString) : Prop :=
  dir.chars.length + srvname.chars.length + 17 < os.sunPathSize

variable {ans os} {dir srvname : CString} {s : Process}

theorem mem_take (str : CString) {n : Nat} (h : n = str.chars.length) :
    str.mem.take n = str.chars := by
  rw [h, CString.mem, List.take_left]

/-- The last character of a directory, where the code looks for it. -/
theorem needsSlash_iff (dir : CString) :
    (0 < dir.chars.length ∧ dir.mem.getD (dir.chars.length - 1) 0 ≠ slash) ↔ dir.NeedsSlash := by
  unfold CString.NeedsSlash
  rw [← List.length_pos_iff]
  refine and_congr_right fun hpos => not_congr ?_
  have hlt : dir.chars.length - 1 < dir.chars.length := by omega
  have hget : dir.mem.getD (dir.chars.length - 1) 0 = dir.chars[dir.chars.length - 1] := by
    rw [CString.mem, List.getD_eq_getElem?_getD, List.getElem?_append_left hlt,
      List.getElem?_eq_getElem hlt, Option.getD_some]
  rw [hget, List.getLast?_eq_getElem?, List.getElem?_eq_getElem hlt, Option.some.injEq]

/-- What `us_make_sockpath` does. -/
theorem wp_usMakeSockpath {Q : Option (List UInt8) → Process → Prop}
    {E : StartFault → Process → Prop}
    (hlong : ¬ Allowed os dir srvname → Q none { s with errno := os.enametoolong })
    (hnone : ∀ e, ans.fails .malloc s.tick = some e →
      Q none { s with errno := e, tick := s.tick + 1 })
    (hsome : Allowed os dir srvname → ans.fails .malloc s.tick = none →
      Q (some (sockpathOf dir srvname ++ [0])) { s with tick := s.tick + 1 }) :
    wp (usMakeSockpath ans os dir srvname) Q E s := by
  have hsize : 17 < os.sunPathSize := by cases os <;> decide
  have hnonname : (sfdPrefix ++ sockExt).length = 17 := rfl
  unfold usMakeSockpath
  simp only [hnonname, strnlen_mem]
  unfold Allowed at hlong hsome
  rw [wp_ite]
  refine ⟨fun hdir => ?_, fun hdir => ?_⟩
  · rw [wp_bind, setErrno, wp_modify]
    exact hlong (by omega)
  have hdirlen : min dir.chars.length (os.sunPathSize - 17) = dir.chars.length := by omega
  rw [hdirlen, wp_ite]
  refine ⟨fun hname => ?_, fun hname => ?_⟩
  · rw [wp_bind, setErrno, wp_modify]
    exact hlong (by omega)
  have hnamelen : min srvname.chars.length (os.sunPathSize - 17 - dir.chars.length) =
      srvname.chars.length := by omega
  rw [hnamelen, wp_bind, call, wp_modifyGet]
  cases hfails : ans.fails .malloc s.tick with
  | some e => exact hnone e hfails
  | none =>
      have hpath := hsome (by omega) hfails
      simp only [needsSlash_iff, mem_take dir rfl, mem_take srvname rfl]
      simpa [sockpathOf] using hpath

/-- A path is the string up to its terminating NUL. -/
theorem strlen_sockpathOf (dir srvname : CString) :
    strlen (sockpathOf dir srvname ++ [0]) = (sockpathOf dir srvname).length := by
  have hnul : (0 : UInt8) ∉ sockpathOf dir srvname := by
    unfold sockpathOf
    simp only [List.mem_append, not_or]
    refine ⟨⟨⟨⟨dir.nonzero, ?_⟩, by decide⟩, srvname.nonzero⟩, by decide⟩
    split <;> decide
  rw [strlen, takeWhile_name hnul]

theorem length_le_of_allowed (h : Allowed os dir srvname) (hover : ¬ Overruns os dir srvname) :
    (sockpathOf dir srvname ++ [0]).length ≤ os.sunPathSize := by
  unfold Allowed at h
  rw [List.length_append, length_sockpathOf, List.length_singleton]
  by_cases hslash : dir.NeedsSlash
  · have hne : dir.chars.length + srvname.chars.length + 18 ≠ os.sunPathSize :=
      fun heq => hover ⟨hslash, heq⟩
    rw [if_pos hslash]
    omega
  · rw [if_neg hslash]
    omega

/-- What follows `us_make_sockpath` is only given paths that fit. -/
theorem NoFault.sockpath {α : Type} {f : Option (List UInt8) → P α}
    (hover : ¬ Overruns os dir srvname) (hnone : NoFault (f none))
    (hsome : ∀ mem, strlen mem + 1 ≤ os.sunPathSize → NoFault (f (some mem))) :
    NoFault (usMakeSockpath ans os dir srvname >>= f) := by
  intro s
  rw [wp_bind]
  refine wp_usMakeSockpath (fun _ => hnone _) (fun _ _ => hnone _) fun hallowed _ => hsome _ ?_ _
  have hlen := length_le_of_allowed hallowed hover
  rw [List.length_append, List.length_singleton] at hlen
  rw [strlen_sockpathOf]
  exact hlen

theorem NoFault.usSocket : NoFault (usSocket ans os) := by
  cases os with
  | linux => exact NoFault.call _
  | freebsd =>
      have hflag : NoFault (setFlag ans) := (NoFault.call _).andThen (NoFault.call _)
      refine (NoFault.call _).bind fun _ => NoFault.ite ?_ (NoFault.pure _)
      refine (hflag.andThen hflag).bind fun _ => NoFault.ite (NoFault.pure _) ?_
      exact (NoFault.preserveErrno (NoFault.call _)).bind fun _ => NoFault.pure _

/-- Closing the socket after a failure. -/
theorem closing_noFault : NoFault (do preserveErrno (call ans .close); pure false) :=
  (NoFault.preserveErrno (NoFault.call _)).bind fun _ => NoFault.pure _

theorem NoFault.copyToSunPath {mem : List UInt8} (h : strlen mem + 1 ≤ os.sunPathSize) :
    NoFault (copyToSunPath os mem) := by
  intro s
  unfold Startup.copyToSunPath
  rw [wp_check]
  exact ⟨fun _ => trivial, fun hnot => absurd h hnot⟩

theorem usServe_noFault (hover : ¬ Overruns os dir srvname) :
    NoFault (usServe ans os dir srvname) := by
  refine NoFault.usSocket.bind fun _ => NoFault.ite ?_ (NoFault.pure _)
  refine (NoFault.call _).bind fun _ => NoFault.ite ?_ closing_noFault
  refine NoFault.sockpath hover closing_noFault fun mem hmem => ?_
  refine (NoFault.copyToSunPath hmem).bind fun _ => (NoFault.call _).bind fun _ =>
    NoFault.ite ?_ closing_noFault
  refine (NoFault.note _).bind fun _ =>
    ((NoFault.call _).andThen (NoFault.call _)).bind fun _ => NoFault.ite ?_ closing_noFault
  exact (NoFault.note _).bind fun _ => NoFault.pure _

theorem usConnect_noFault (hover : ¬ Overruns os dir srvname) :
    NoFault (usConnect ans os dir srvname) := by
  refine NoFault.usSocket.bind fun _ => NoFault.ite ?_ (NoFault.pure _)
  refine NoFault.sockpath hover closing_noFault fun mem hmem => ?_
  refine (NoFault.copyToSunPath hmem).bind fun _ => (NoFault.call _).bind fun _ =>
    NoFault.ite (NoFault.pure _) closing_noFault

section Acts

variable {good : Act → Prop}

theorem Adds.usSocket : Adds good (usSocket ans os) := by
  cases os with
  | linux => exact Adds.call _
  | freebsd =>
      have hflag : Adds good (setFlag ans) := (Adds.call _).andThen (Adds.call _)
      refine (Adds.call _).bind fun _ => Adds.ite ?_ (Adds.pure _)
      refine (hflag.andThen hflag).bind fun _ => Adds.ite (Adds.pure _) ?_
      exact (Adds.preserveErrno (Adds.call _)).bind fun _ => Adds.pure _

theorem Adds.usMakeSockpath : Adds good (usMakeSockpath ans os dir srvname) :=
  fun _ => wp_usMakeSockpath (fun _ => Added.of_eq rfl) (fun _ _ => Added.of_eq rfl)
    fun _ _ => Added.of_eq rfl

theorem Adds.usStopServing : Adds good (usStopServing ans os dir srvname) := by
  refine (Adds.call _).bind fun _ => Adds.usMakeSockpath.bind fun path => ?_
  cases path with
  | none => exact Adds.pure _
  | some path => exact (Adds.call _).bind fun _ => Adds.pure _

/-- Closing the socket after a failure. -/
theorem adds_closing : Adds good (do preserveErrno (call ans .close); pure false) :=
  (Adds.preserveErrno (Adds.call _)).bind fun _ => Adds.pure _

theorem Adds.usServe (hbound : ∀ path, good (.bound path)) (hserving : good .serving) :
    Adds good (usServe ans os dir srvname) := by
  refine Adds.usSocket.bind fun _ => Adds.ite ?_ (Adds.pure _)
  refine (Adds.call _).bind fun _ => Adds.ite ?_ adds_closing
  refine Adds.usMakeSockpath.bind fun path => ?_
  cases path with
  | none => exact adds_closing
  | some path =>
      refine (Adds.check _ _).bind fun _ => (Adds.call _).bind fun _ => Adds.ite ?_ adds_closing
      refine (Adds.note (hbound path)).bind fun _ =>
        ((Adds.call _).andThen (Adds.call _)).bind fun _ => Adds.ite ?_ adds_closing
      exact (Adds.note hserving).bind fun _ => Adds.pure _

theorem Cleanup.closing : Cleanup (do preserveErrno (call ans .close); pure false) :=
  Cleanup.preserve (Adds.call _) Cleanup.fail

theorem Attempt.usSocket : Attempt (usSocket ans os) := by
  cases os with
  | linux => exact Attempt.call _
  | freebsd =>
      have hflag : Attempt (setFlag ans) := (Attempt.call _).andThen (Attempt.call _)
      exact (Attempt.call _).ite ((hflag.andThen hflag).ite Attempt.success Cleanup.closing)
        Cleanup.fail

theorem os_enametoolong_ne (os : Os) : os.enametoolong ≠ 0 := by cases os <;> decide

/-- Every failure of `us_serve` sets `errno`. -/
theorem Attempt.usServe : Attempt (usServe ans os dir srvname) := by
  refine Attempt.usSocket.ite ?_ Cleanup.fail
  refine (Attempt.call _).ite ?_ Cleanup.closing
  intro s
  have hfailed : ∀ s₁, Added Act.Quiet s s₁ → s₁.errno ≠ 0 →
      wp (do Startup.preserveErrno (Startup.call ans .close); Pure.pure false)
        (fun ok s' => Added Act.Quiet s s' ∧ (ok = false → s'.errno ≠ 0))
        (fun _ s' => Added Act.Quiet s s') s₁ := by
    intro s₁ hadded herrno
    refine wp_mono (Cleanup.closing s₁ herrno) ?_ fun _ _ h => hadded.trans h
    exact fun _ _ h => ⟨hadded.trans h.2.1, fun _ => h.2.2⟩
  rw [wp_bind]
  refine wp_usMakeSockpath (fun _ => hfailed _ (Added.of_eq rfl) (os_enametoolong_ne os))
    (fun e he => hfailed _ (Added.of_eq rfl) (ans.fails_ne_zero _ _ e he)) fun _ _ => ?_
  -- from here on the code is the same for every path
  have hbind : Attempt (do
      Startup.copyToSunPath os (sockpathOf dir srvname ++ [0])
      if ← Startup.call ans .bind then
        Startup.note (.bound (sockpathOf dir srvname ++ [0]))
        if ← Startup.andThen (Startup.call ans .chown) (Startup.call ans .chmod) then
          Startup.note .serving
          Pure.pure true
        else
          Startup.preserveErrno (Startup.call ans .close)
          Pure.pure false
      else
        Startup.preserveErrno (Startup.call ans .close)
        Pure.pure false) := by
    refine Attempt.after (Adds.check _ _) fun _ => (Attempt.call _).ite ?_ Cleanup.closing
    refine Attempt.after (Adds.note trivial) fun _ => ?_
    refine ((Attempt.call _).andThen (Attempt.call _)).ite ?_ Cleanup.closing
    exact Attempt.after (Adds.note trivial) fun _ => Attempt.success
  have hquiet : Added Act.Quiet s { s with tick := s.tick + 1 } := Added.of_eq rfl
  refine wp_mono (hbind _) ?_ fun _ _ h => hquiet.trans h
  exact fun _ _ h => ⟨hquiet.trans h.1, h.2⟩

/-- Only a path that fits into the address is served on. -/
theorem wp_usServe_fits {s : Process} : wp (usServe ans os dir srvname)
    (fun ok _ => ok = true → (sockpathOf dir srvname).length < os.sunPathSize)
    (fun _ _ => True) s := by
  have hfailed : ∀ s₁, wp (do preserveErrno (call ans .close); pure false)
      (fun ok _ => ok = true → (sockpathOf dir srvname).length < os.sunPathSize)
      (fun _ _ => True) s₁ := by
    intro s₁
    rw [wp_bind]
    exact wp_of_forall (fun _ _ h => Bool.noConfusion h) fun _ _ => trivial
  unfold usServe
  rw [wp_bind]
  refine wp_of_forall (fun socket s₁ => ?_) fun _ _ => trivial
  rw [wp_ite]
  refine ⟨fun _ => ?_, fun _ h => Bool.noConfusion h⟩
  rw [wp_bind]
  refine wp_of_forall (fun reuse s₂ => ?_) fun _ _ => trivial
  rw [wp_ite]
  refine ⟨fun _ => ?_, fun _ => hfailed s₂⟩
  rw [wp_bind]
  refine wp_usMakeSockpath (fun _ => hfailed _) (fun _ _ => hfailed _) fun _ _ => ?_
  unfold copyToSunPath
  rw [wp_bind, wp_check, strlen_sockpathOf]
  exact ⟨fun hfits => wp_of_forall (fun _ _ _ => hfits) fun _ _ => trivial, fun _ => trivial⟩

theorem Troubled.usStopServing : Troubled (usStopServing ans os dir srvname) := by
  refine (Troubled.call _).bind fun _ => Troubled.bind (fun s herrno => ?_) fun path => ?_
  · exact wp_usMakeSockpath (fun _ => ⟨Added.of_eq rfl, os_enametoolong_ne os⟩)
      (fun e he => ⟨Added.of_eq rfl, ans.fails_ne_zero _ _ e he⟩)
      fun _ _ => ⟨Added.of_eq rfl, herrno⟩
  · cases path with
    | none => exact Troubled.pure _
    | some path => exact (Troubled.call _).bind fun _ => Troubled.pure _

end Acts

/-- A system on which nothing fails, for a daemon that may change its root. -/
def Answers.reliable : Answers where
  fails := fun _ _ => none
  fails_ne_zero := fun _ _ _ h => by cases h
  user := fun _ => .ok 1000
  group := fun _ => .ok 1000
  uid := 1000
  gid := 1000
  euid := 0
  rlimMax := some 1024
  lineMax := 2048
  srvRun := true

def Process.fresh : Process := ⟨0, [0, 1, 2], false, 0, []⟩

/-- Socket paths fit the address, except where the separator takes the last place. -/
theorem sockpathFits_iff (os : Os) (dir srvname : CString) :
    SockpathFits os dir srvname ↔
      ¬ (dir.NeedsSlash ∧ dir.chars.length + srvname.chars.length + 18 = os.sunPathSize) := by
  constructor
  · rintro h ⟨hslash, hlen⟩
    have hmade := h.made Answers.reliable Process.fresh
    refine absurd hmade (wp_not ?_)
    refine wp_usMakeSockpath (fun hlong => ?_) (fun e he => by cases he) fun _ _ => ?_
    · refine absurd ?_ hlong
      unfold Allowed
      omega
    · rintro ⟨-, hle⟩
      rw [List.length_append, length_sockpathOf, if_pos hslash, List.length_singleton] at hle
      omega
  · intro hover
    refine ⟨fun ans s => ?_, fun ans => usServe_noFault hover, fun ans => usConnect_noFault hover⟩
    refine wp_usMakeSockpath (fun _ => Or.inl rfl) (fun e he => Or.inr he) fun hallowed _ => ?_
    exact ⟨rfl, length_le_of_allowed hallowed hover⟩

/-- A string of one repeated letter. -/
def CString.repeated (n : Nat) : CString :=
  ⟨List.replicate n 97, fun h => by cases List.eq_of_mem_replicate h⟩

/-- On Linux a directory of 89 letters and a server name of one give a path of 108 bytes. -/
theorem sockpath_overruns :
    ¬ ∀ os dir srvname, SockpathFits os dir srvname := by
  intro h
  have hfits := h .linux (.repeated 89) (.repeated 1)
  refine absurd (hfits.made Answers.reliable Process.fresh) (wp_not ?_)
  have hallowed : Allowed .linux (.repeated 89) (.repeated 1) := by
    unfold Allowed
    decide
  refine wp_usMakeSockpath (fun hlong => absurd hallowed hlong) (fun e he => by cases he) ?_
  rintro - - ⟨-, hle⟩
  exact absurd hle (by decide)

end Sendfiled.Startup
