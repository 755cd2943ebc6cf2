/-
A process that starts up: its `errno`, its descriptors and what others see of it, with the
system calls it makes.  Which calls fail, and with which error, is up to the system.
-/
import Sendfiled.Messages
import Sendfiled.Lib.Prog
import Mathlib.Data.List.TakeWhile

namespace Sendfiled.Startup

open Prog

/-- The systems the daemon is built for. -/
inductive Os where
  | linux
  | freebsd
deriving DecidableEq, Repr

/-- `sizeof` the `sun_path` of a UNIX socket address. -/
def Os.sunPathSize : Os → Nat
  | .linux => 108
  | .freebsd => 104

def Os.enametoolong : Os → Errno
  | .linux => ENAMETOOLONG
  | .freebsd => 63

def Os.eaddrinuse : Os → Errno
  | .linux => 98
  | .freebsd => 48

def EPERM : Errno := 1

/-- A string of C: its characters, none of which is the terminating NUL. -/
structure CString where
  chars : List UInt8
  nonzero : (0 : UInt8) ∉ chars

/-- The bytes at the address of a string. -/
def CString.mem (s : CString) : List UInt8 := s.chars ++ [0]

/-- `strlen`, on the bytes from an address on. -/
def strlen (mem : List UInt8) : Nat := (mem.takeWhile (· ≠ 0)).length

theorem strnlen_mem (s : CString) (max : Nat) : strnlen s.mem max = min s.chars.length max := by
  by_cases hlt : s.chars.length < max
  · rw [CString.mem, strnlen_name s.nonzero hlt, Nat.min_eq_left (Nat.le_of_lt hlt)]
  · have htake : s.mem.take max = s.chars.take max := by
      rw [CString.mem, List.take_append_of_le_length (Nat.not_lt.mp hlt)]
    have hall : (s.chars.take max).takeWhile (· ≠ 0) = s.chars.take max := by
      refine List.takeWhile_eq_self_iff.mpr fun b hb => ?_
      have hne : b ≠ 0 := fun heq => s.nonzero (heq ▸ List.mem_of_mem_take hb)
      simpa using hne
    rw [strnlen, htake, hall, List.length_take, Nat.min_comm]

/-- The calls that can fail. -/
inductive Syscall where
  | socket
  | fcntl
  | setsockopt
  | malloc
  | bind
  | chown
  | chmod
  | connect
  | unlink
  | sigprocmask
  | sigaction
  | getrlimit
  | fork
  | chdir
  | chroot
  | setgid
  | setuid
  | open
  | close
  | dup2
  | execvp
  | write
deriving DecidableEq, Repr

/-- What a start-up shows to others: the address bound, the socket served on it, the status
that reached the parent process, and the start of the server. -/
inductive Act where
  | bound (path : List UInt8)
  | serving
  | told (status : Errno)
  | ran (maxfds timeout : Int)
deriving DecidableEq, Repr

/-- Acts that tell the parent nothing and do not start the server. -/
def Act.Quiet : Act → Prop
  | .bound _ | .serving => True
  | _ => False

/-- The server runs: `srv_run` has been called, and `srv_new` does not stop it at the
assertion on its limit. -/
def Act.Runs : Act → Prop
  | .ran maxfds _ => 0 < maxfds
  | _ => False

/-- What the system answers.  A call that fails sets `errno`, and no call sets it to zero. -/
structure Answers where
  fails : Syscall → Nat → Option Errno
  fails_ne_zero : ∀ c n e, fails c n = some e → e ≠ 0
  user : CString → Except (Option Errno) Nat
  group : CString → Except (Option Errno) Nat
  uid : Nat
  gid : Nat
  euid : Nat
  rlimMax : Option Nat
  lineMax : Int
  srvRun : Bool

/-- The state of a process.  `piped` means that the descriptor `PROC_SYNCFD` is the write
end of the pipe to the parent. -/
structure Process where
  errno : Errno
  fds : List Nat
  piped : Bool
  tick : Nat
  acts : List Act

/-- What stops a process: memory written outside the address, or a failed assertion. -/
inductive StartFault where
  | sunPath
  | lineMax
deriving DecidableEq, Repr

abbrev P := Program StartFault Process

def setErrno (e : Errno) : P Unit := modify fun s => { s with errno := e }

def note (a : Act) : P Unit := modify fun s => { s with acts := s.acts ++ [a] }

/-- `PRESERVE_ERRNO`. -/
def preserveErrno {α : Type} (statement : P α) : P Unit := do
  let saved ← gets Process.errno
  let _ ← statement
  setErrno saved

/-- The short-circuit conjunction of C. -/
def andThen (a b : P Bool) : P Bool := do
  if ← a then b else pure false

/-- Whether a system call succeeds. -/
def call (ans : Answers) (c : Syscall) : P Bool := modifyGet fun s =>
  match ans.fails c s.tick with
  | some e => (false, { s with errno := e, tick := s.tick + 1 })
  | none => (true, { s with tick := s.tick + 1 })

/-- Code that no fault stops. -/
def NoFault {α : Type} (m : P α) : Prop := ∀ s, wp m (fun _ _ => True) (fun _ _ => False) s

namespace NoFault

variable {α β : Type} {m : P α} {f : α → P β}

theorem pure (a : α) : NoFault (Pure.pure a : P α) := fun _ => trivial

theorem bind (hm : NoFault m) (hf : ∀ a, NoFault (f a)) : NoFault (m >>= f) := by
  intro s
  rw [wp_bind]
  exact wp_mono (hm s) (fun a s' _ => hf a s') fun _ _ h => h

theorem setErrno (e : Errno) : NoFault (Startup.setErrno e) := fun _ => trivial

theorem note (a : Act) : NoFault (Startup.note a) := fun _ => trivial

theorem call {ans : Answers} (c : Syscall) : NoFault (Startup.call ans c) := fun _ => trivial

theorem preserveErrno (hm : NoFault m) : NoFault (Startup.preserveErrno m) :=
  bind (fun _ => trivial) fun _ => bind hm fun _ => setErrno _

theorem ite {c : Prop} [Decidable c] {f g : P α} (hf : NoFault f) (hg : NoFault g) :
    NoFault (if c then f else g) := by
  split
  · exact hf
  · exact hg

theorem andThen {a b : P Bool} (ha : NoFault a) (hb : NoFault b) :
    NoFault (Startup.andThen a b) :=
  bind ha fun _ => ite hb (pure false)

end NoFault

/-- Only acts of some kind were added. -/
def Added (good : Act → Prop) (s s' : Process) : Prop :=
  ∃ new, s'.acts = s.acts ++ new ∧ ∀ a ∈ new, good a

namespace Added

variable {good good' : Act → Prop} {s s₁ s₂ : Process}

theorem of_eq (hacts : s₁.acts = s.acts) : Added good s s₁ :=
  ⟨[], by rw [hacts, List.append_nil], fun _ h => by cases h⟩

theorem refl (s : Process) : Added good s s := of_eq rfl

theorem trans (h : Added good s s₁) (h' : Added good s₁ s₂) : Added good s s₂ := by
  obtain ⟨new, hacts, hgood⟩ := h
  obtain ⟨new', hacts', hgood'⟩ := h'
  refine ⟨new ++ new', by rw [hacts', hacts, List.append_assoc], ?_⟩
  intro a ha
  exact (List.mem_append.mp ha).elim (hgood a) (hgood' a)

theorem mono (h : Added good s s₁) (hgood : ∀ a, good a → good' a) : Added good' s s₁ := by
  obtain ⟨new, hacts, hnew⟩ := h
  exact ⟨new, hacts, fun a ha => hgood a (hnew a ha)⟩

/-- An act seen afterwards was there before or is of the kind added. -/
theorem mem (h : Added good s s₁) {a : Act} (ha : a ∈ s₁.acts) : a ∈ s.acts ∨ good a := by
  obtain ⟨new, hacts, hnew⟩ := h
  rw [hacts] at ha
  exact (List.mem_append.mp ha).imp id (hnew a)

theorem acts_eq (h : Added (fun _ => False) s s₁) : s₁.acts = s.acts := by
  obtain ⟨new, hacts, hnew⟩ := h
  rw [hacts, List.eq_nil_iff_forall_not_mem.mpr hnew, List.append_nil]

theorem subset (h : Added good s s₁) {a : Act} (ha : a ∈ s.acts) : a ∈ s₁.acts := by
  obtain ⟨new, hacts, -⟩ := h
  rw [hacts]
  exact List.mem_append_left new ha

end Added

/-- Code that adds acts of one kind only, however it ends. -/
def Adds {α : Type} (good : Act → Prop) (m : P α) : Prop :=
  ∀ s, wp m (fun _ s' => Added good s s') (fun _ s' => Added good s s') s

namespace Adds

variable {α β : Type} {good : Act → Prop} {m : P α} {f : α → P β} {ans : Answers}

theorem pure (a : α) : Adds good (Pure.pure a : P α) := fun s => Added.refl s

theorem bind (hm : Adds good m) (hf : ∀ a, Adds good (f a)) : Adds good (m >>= f) := by
  intro s
  rw [wp_bind]
  refine wp_mono (hm s) (fun a s₁ h => ?_) fun _ _ h => h
  exact wp_mono (hf a s₁) (fun _ _ h' => h.trans h') fun _ _ h' => h.trans h'

theorem gets (g : Process → α) : Adds good (Prog.gets g : P α) := fun s => Added.refl s

/-- A change to anything but the acts. -/
theorem modify {g : Process → Process} (hg : ∀ s, (g s).acts = s.acts) :
    Adds good (Prog.modify g : P Unit) := fun s => Added.of_eq (hg s)

theorem setErrno (e : Errno) : Adds good (Startup.setErrno e) := modify fun _ => rfl

theorem note {a : Act} (ha : good a) : Adds good (Startup.note a) :=
  fun _ => ⟨[a], rfl, fun _ hb => List.mem_singleton.mp hb ▸ ha⟩

theorem check (c : Prop) [Decidable c] (e : StartFault) : Adds good (Prog.check c e : P Unit) := by
  intro s
  rw [wp_check]
  exact ⟨fun _ => Added.refl s, fun _ => Added.refl s⟩

theorem call (c : Syscall) : Adds good (Startup.call ans c) := by
  intro s
  unfold Startup.call
  rw [wp_modifyGet]
  cases ans.fails c s.tick <;> exact Added.of_eq rfl

theorem preserveErrno (hm : Adds good m) : Adds good (Startup.preserveErrno m) :=
  (gets _).bind fun _ => hm.bind fun _ => setErrno _

theorem ite {c : Prop} [Decidable c] {f g : P α} (hf : Adds good f) (hg : Adds good g) :
    Adds good (if c then f else g) := by
  split
  · exact hf
  · exact hg

theorem andThen {a b : P Bool} (ha : Adds good a) (hb : Adds good b) :
    Adds good (Startup.andThen a b) :=
  ha.bind fun _ => ite hb (pure false)

theorem forEach {g : β → P Unit} (hg : ∀ b, Adds good (g b)) (l : List β) :
    Adds good (Prog.forEach g l) := by
  induction l with
  | nil => exact pure ()
  | cons b l ih => exact (hg b).bind fun _ => ih

end Adds

/-- Code that the parent sees nothing of, and that either succeeds or leaves the reason in
`errno`. -/
def Attempt (m : P Bool) : Prop :=
  ∀ s, wp m (fun ok s' => Added Act.Quiet s s' ∧ (ok = false → s'.errno ≠ 0))
    (fun _ s' => Added Act.Quiet s s') s

/-- Code after a failure, which is still to be reported when it is done. -/
def Cleanup (m : P Bool) : Prop :=
  ∀ s, s.errno ≠ 0 → wp m (fun ok s' => ok = false ∧ Added Act.Quiet s s' ∧ s'.errno ≠ 0)
    (fun _ s' => Added Act.Quiet s s') s

/-- Code that shows nothing after a failure, and leaves a reason in `errno`. -/
def Troubled {α : Type} (m : P α) : Prop :=
  ∀ s, s.errno ≠ 0 → wp m (fun _ s' => Added Act.Quiet s s' ∧ s'.errno ≠ 0)
    (fun _ s' => Added Act.Quiet s s') s

namespace Attempt

variable {a b : P Bool} {ans : Answers}

theorem call (c : Syscall) : Attempt (Startup.call ans c) := by
  intro s
  unfold Startup.call
  rw [wp_modifyGet]
  cases hfails : ans.fails c s.tick with
  | none => exact ⟨Added.of_eq rfl, fun h => by cases h⟩
  | some e => exact ⟨Added.of_eq rfl, fun _ => ans.fails_ne_zero c _ e hfails⟩

theorem success : Attempt (pure true) := fun s => ⟨Added.refl s, fun h => by cases h⟩

/-- A failure with an error of its own. -/
theorem failure {e : Errno} (he : e ≠ 0) : Attempt (do setErrno e; pure false) :=
  fun _ => ⟨Added.of_eq rfl, fun _ => he⟩

/-- Code that shows nothing, then an attempt. -/
theorem after {α : Type} {m : P α} {f : α → P Bool} (hm : Adds Act.Quiet m)
    (hf : ∀ x, Attempt (f x)) : Attempt (m >>= f) := by
  intro s
  rw [wp_bind]
  refine wp_mono (hm s) (fun x s₁ h => ?_) fun _ _ h => h
  exact wp_mono (hf x s₁) (fun _ _ h' => ⟨h.trans h'.1, h'.2⟩) fun _ _ h' => h.trans h'

/-- An attempt, then the next one if it succeeded and the cleaning up otherwise. -/
theorem ite {f g : P Bool} (ha : Attempt a) (hf : Attempt f) (hg : Cleanup g) :
    Attempt (do if ← a then f else g) := by
  intro s
  rw [wp_bind]
  refine wp_mono (ha s) ?_ fun _ _ h => h
  rintro ok s₁ ⟨hquiet, herrno⟩
  cases ok with
  | true => exact wp_mono (hf s₁) (fun _ _ h => ⟨hquiet.trans h.1, h.2⟩) fun _ _ h => hquiet.trans h
  | false =>
      refine wp_mono (hg s₁ (herrno rfl)) ?_ fun _ _ h => hquiet.trans h
      exact fun _ s₂ h => ⟨hquiet.trans h.2.1, fun _ => h.2.2⟩

/-- A test of the data, not of a call. -/
theorem split {c : Prop} [Decidable c] (ha : Attempt a) (hb : Attempt b) :
    Attempt (if c then a else b) := by
  by_cases hc : c
  · rw [if_pos hc]
    exact ha
  · rw [if_neg hc]
    exact hb

end Attempt

namespace Cleanup

variable {α : Type} {m : P α}

theorem fail : Cleanup (pure false) := fun s h => ⟨rfl, Added.refl s, h⟩

/-- What is done under `PRESERVE_ERRNO` does not matter. -/
theorem preserve {g : P Bool} (hm : Adds Act.Quiet m) (hg : Cleanup g) :
    Cleanup (do preserveErrno m; g) := by
  intro s hs
  unfold preserveErrno
  rw [wp_bind, wp_bind, wp_gets, wp_bind]
  refine wp_mono (hm s) (fun _ s₁ h => ?_) fun _ _ h => h
  have hafter : Added Act.Quiet s { s₁ with errno := s.errno } := h.trans (Added.of_eq rfl)
  rw [setErrno, wp_modify]
  refine wp_mono (hg _ hs) ?_ fun _ _ h => hafter.trans h
  exact fun _ s₂ h => ⟨h.1, hafter.trans h.2.1, h.2.2⟩

end Cleanup

namespace Troubled

variable {α β : Type} {m : P α} {f : α → P β} {ans : Answers}

theorem pure (a : α) : Troubled (Pure.pure a : P α) := fun s h => ⟨Added.refl s, h⟩

theorem bind (hm : Troubled m) (hf : ∀ a, Troubled (f a)) : Troubled (m >>= f) := by
  intro s hs
  rw [wp_bind]
  refine wp_mono (hm s hs) ?_ fun _ _ h => h
  rintro a s₁ ⟨hquiet, herrno⟩
  refine wp_mono (hf a s₁ herrno) ?_ fun _ _ h => hquiet.trans h
  exact fun _ _ h => ⟨hquiet.trans h.1, h.2⟩

theorem call (c : Syscall) : Troubled (Startup.call ans c) := by
  intro s hs
  unfold Startup.call
  rw [wp_modifyGet]
  cases hfails : ans.fails c s.tick with
  | none => exact ⟨Added.of_eq rfl, hs⟩
  | some e => exact ⟨Added.of_eq rfl, ans.fails_ne_zero c _ e hfails⟩

end Troubled

/-- A conjunction that holds is one whose second call succeeded. -/
theorem wp_andThen_right {a b : P Bool} {s : Process} {φ : Prop}
    (hb : ∀ s', wp b (fun ok _ => ok = true → φ) (fun _ _ => True) s') :
    wp (andThen a b) (fun ok _ => ok = true → φ) (fun _ _ => True) s := by
  unfold andThen
  rw [wp_bind]
  refine wp_of_forall (fun ok s' => ?_) fun _ _ => trivial
  cases ok with
  | true => exact hb s'
  | false => exact fun h => Bool.noConfusion h

theorem Attempt.andThen {a b : P Bool} (ha : Attempt a) (hb : Attempt b) :
    Attempt (Startup.andThen a b) :=
  ha.ite hb Cleanup.fail

end Sendfiled.Startup
