/-
A process that uses the client library: its descriptors with their flags, what it has sent,
and the system calls the library makes.  Which calls fail is up to the system.
-/
import Sendfiled.Kernel
import Sendfiled.Startup.Process

namespace Sendfiled.Client

open Prog
open Startup (Os CString)

/-- What a descriptor of the client refers to: an end of a pipe the library made, or
something the process has from elsewhere. -/
inductive File where
  | readEnd (pipe : Nat)
  | writeEnd (pipe : Nat)
  | held (n : Nat)
deriving DecidableEq, Repr

/-- A descriptor: what it refers to, and `FD_CLOEXEC`. -/
structure Descriptor where
  file : File
  cloexec : Bool
deriving DecidableEq, Repr

/-- A datagram on its way to the server: the socket it was sent on, the bytes, and what the
descriptors in its ancillary data refer to. -/
structure Message where
  sock : File
  data : List UInt8
  rights : List File
deriving DecidableEq, Repr

inductive Syscall where
  | pipe
  | getfl
  | setfl
  | getfd
  | setfd
  | calloc
  | sendmsg
  | close
deriving DecidableEq, Repr

/-- The error the system answers the `n`-th call with, if it fails. -/
structure Answers where
  fails : Syscall → Nat → Option Errno

/-- The state of the process; `flags` are the status flags of open files. -/
structure Process where
  errno : Errno
  fds : AList (fun _ : Fd => Descriptor)
  flags : File → BitVec 32
  nextPipe : Nat
  sent : List Message
  calls : List (Syscall × Option Errno)

/-- The client's code fails no assertions. -/
abbrev C := Program Empty Process

def EFAULT : Errno := 14

/-- The systems number it differently. -/
def enotsock : Os → Errno
  | .linux => 88
  | .freebsd => 38

def oNonblock : Os → BitVec 32
  | .linux => 0x800
  | .freebsd => 0x4

def oWronly : BitVec 32 := 1

def setErrno (e : Errno) : C Unit := modify fun s => { s with errno := e }

/-- `PRESERVE_ERRNO`. -/
def preserveErrno (statement : C Unit) : C Unit := do
  let saved ← gets Process.errno
  statement
  setErrno saved

/-- The call is made and comes to this. -/
def Process.called (c : Syscall) (e : Option Errno) (s : Process) : Process :=
  { s with calls := s.calls ++ [(c, e)] }

variable (os : Os) (ans : Answers)

/-- A system call that is refused, fails, or has an effect. -/
def syscall {α : Type} (c : Syscall) (refused : Process → Option Errno)
    (effect : Process → α × Process) : C (Option α) := modifyGet fun s =>
  match (refused s).or (ans.fails c s.calls.length) with
  | some e => (none, { s.called c (some e) with errno := e })
  | none => (some (effect s).1, (effect s).2.called c none)

/-- The calls on a descriptor that is not open. -/
def badFd (fd : Fd) (s : Process) : Option Errno := if fd ∈ s.fds then none else some EBADF

/-- The status flags of what a descriptor refers to. -/
def Process.flagsOf (fd : Fd) (s : Process) : BitVec 32 :=
  ((s.fds.lookup fd).map fun d => s.flags d.file).getD 0

def Process.setFlags (fd : Fd) (fl : BitVec 32) (s : Process) : Process :=
  match s.fds.lookup fd with
  | some d => { s with flags := Function.update s.flags d.file fl }
  | none => s

def Process.setCloexec (fd : Fd) (cloexec : Bool) (s : Process) : Process :=
  match s.fds.lookup fd with
  | some d => { s with fds := s.fds.insert fd { d with cloexec := cloexec } }
  | none => s

/-- `close`.  The descriptor is gone even if an error is reported. -/
def close (fd : Fd) : C Unit := modify fun s =>
  if fd ∈ s.fds then
    match ans.fails .close s.calls.length with
    | some e => { s.called .close (some e) with errno := e, fds := s.fds.erase fd }
    | none => { s.called .close none with fds := s.fds.erase fd }
  else { s.called .close (some EBADF) with errno := EBADF }

/-- A new pipe, at the two lowest free descriptors. -/
def Process.openPipe (fl : BitVec 32) (cloexec : Bool) (s : Process) : (Fd × Fd) × Process :=
  let r := lowestFree s.fds.keys
  let fds := s.fds.insert r ⟨.readEnd s.nextPipe, cloexec⟩
  let w := lowestFree fds.keys
  ((r, w), { s with
    fds := fds.insert w ⟨.writeEnd s.nextPipe, cloexec⟩
    flags := Function.update (Function.update s.flags (.readEnd s.nextPipe) fl)
      (.writeEnd s.nextPipe) (oWronly ||| fl)
    nextPipe := s.nextPipe + 1 })

/-- A part of what `sendmsg` is to send; `none` is a null pointer. -/
abbrev Iov := Option (List UInt8)

/-- Why `sendmsg` refuses a message: a bad socket, descriptor or address. -/
def sendmsgError (sock : Fd) (iovs : List Iov) (rights : List Fd) (s : Process) :
    Option Errno :=
  match s.fds.lookup sock with
  | none => some EBADF
  | some ⟨.held _, _⟩ =>
      if iovs.all Option.isSome then
        if rights.all fun fd => decide (fd ∈ s.fds) then none else some EBADF
      else some EFAULT
  | some _ => some (enotsock os)

/-- `sendmsg` on a datagram socket: the whole message is sent. -/
def Process.send (sock : Fd) (iovs : List Iov) (rights : List Fd) (s : Process) :
    Unit × Process :=
  match s.fds.lookup sock with
  | some d => ((), { s with sent := s.sent ++ [
      { sock := d.file
        data := (iovs.filterMap id).flatten
        rights := rights.filterMap fun fd => (s.fds.lookup fd).map Descriptor.file }] })
  | none => ((), s)

def fcntlGetfl (fd : Fd) : C (Option (BitVec 32)) :=
  syscall ans .getfl (badFd fd) fun s => (s.flagsOf fd, s)

def fcntlSetfl (fd : Fd) (fl : BitVec 32) : C (Option Unit) :=
  syscall ans .setfl (badFd fd) fun s => ((), s.setFlags fd fl)

/-- `F_GETFD`; the one descriptor flag there is. -/
def fcntlGetfd (fd : Fd) : C (Option Bool) :=
  syscall ans .getfd (badFd fd) fun s => (((s.fds.lookup fd).map Descriptor.cloexec).getD false, s)

def fcntlSetfd (fd : Fd) (cloexec : Bool) : C (Option Unit) :=
  syscall ans .setfd (badFd fd) fun s => ((), s.setCloexec fd cloexec)

def sendmsg (sock : Fd) (iovs : List Iov) (rights : List Fd) : C (Option Unit) :=
  syscall ans .sendmsg (sendmsgError os sock iovs rights) (Process.send sock iovs rights)

/-- `set_nonblock`. -/
def setNonblock (fd : Fd) (enabled : Bool) : C Bool := do
  match ← fcntlGetfl ans fd with
  | none => pure false
  | some fl =>
      let fl := if enabled then fl ||| oNonblock os else fl &&& ~~~ oNonblock os
      pure (← fcntlSetfl ans fd fl).isSome

/-- `set_cloexec`. -/
def setCloexec (fd : Fd) (enabled : Bool) : C Bool := do
  match ← fcntlGetfd ans fd with
  | none => pure false
  | some _ => pure (← fcntlSetfd ans fd enabled).isSome

/-- The short-circuit conjunction of C. -/
def andThen (a b : C Bool) : C Bool := do
  if ← a then b else pure false

/-- `fail` of the functions that make a pipe. -/
def closeBoth {α : Type} (fds : Fd × Fd) : C (Option α) := do
  preserveErrno (close ans fds.1)
  preserveErrno (close ans fds.2)
  pure none

/-- `sfd_pipe`: `pipe2` on Linux, and elsewhere `pipe` and the flags one by one. -/
def sfdPipe (nonblock cloexec : Bool) : C (Option (Fd × Fd)) :=
  match os with
  | .linux =>
      syscall ans .pipe (fun _ => none)
        (Process.openPipe (if nonblock then oNonblock .linux else 0) cloexec)
  | .freebsd => do
      match ← syscall ans .pipe (fun _ => none) (Process.openPipe 0 false) with
      | none => pure none
      | some fds =>
          let flagged ← andThen
            (if nonblock then
              andThen (setNonblock .freebsd ans fds.1 true) (setNonblock .freebsd ans fds.2 true)
            else pure true)
            (if cloexec then andThen (setCloexec ans fds.1 true) (setCloexec ans fds.2 true)
            else pure true)
          if flagged then pure (some fds) else closeBoth ans fds

/-- `us_sendv`.  On FreeBSD the control buffer is allocated. -/
def usSendv (sock : Fd) (iovs : List Iov) (rights : List Fd) : C Bool :=
  match os with
  | .linux => do pure (← sendmsg .linux ans sock iovs rights).isSome
  | .freebsd => do
      match ← syscall ans .calloc (fun _ => none) (fun s => ((), s)) with
      | none => pure false
      | some () => pure (← sendmsg .freebsd ans sock iovs rights).isSome

section Calls

/-- The first error among some calls, those that close descriptors aside. -/
def firstError (calls : List (Syscall × Option Errno)) : Option Errno :=
  calls.findSome? fun c => if c.1 = .close then none else c.2

theorem firstError_append (l l' : List (Syscall × Option Errno)) :
    firstError (l ++ l') = (firstError l).or (firstError l') := by
  unfold firstError
  rw [List.findSome?_append]

theorem firstError_ok (c : Syscall) : firstError [(c, none)] = none := by
  simp [firstError]

theorem firstError_close (e : Option Errno) : firstError [(.close, e)] = none := by
  simp [firstError]

theorem firstError_error {c : Syscall} (hc : c ≠ .close) (e : Errno) :
    firstError [(c, some e)] = some e := by
  simp [firstError, hc]

/-- Calls that were made and changed nothing but `errno`. -/
def Process.after (s : Process) (calls : List (Syscall × Option Errno)) (e : Errno) : Process :=
  { s with calls := s.calls ++ calls, errno := e }

variable {os : Os} {ans : Answers} {s : Process}

theorem wp_syscall {α : Type} {c : Syscall} (hc : c ≠ .close) {refused : Process → Option Errno}
    {effect : Process → α × Process} {Q : Option α → Process → Prop}
    {E : Empty → Process → Prop}
    (hfail : ∀ calls e, firstError calls = some e → Q none (s.after calls e))
    (hdone : refused s = none → Q (some (effect s).1) ((effect s).2.called c none)) :
    wp (syscall ans c refused effect) Q E s := by
  unfold syscall
  rw [wp_modifyGet]
  cases hanswer : (refused s).or (ans.fails c s.calls.length) with
  | some e => exact hfail [(c, some e)] e (firstError_error hc e)
  | none => exact hdone (Option.or_eq_none_iff.mp hanswer).1

/-- What `set_nonblock` makes of the flags. -/
def withNonblock (os : Os) (enabled : Bool) (fl : BitVec 32) : BitVec 32 :=
  if enabled then fl ||| oNonblock os else fl &&& ~~~ oNonblock os

theorem wp_setNonblock {fd : Fd} {d : Descriptor} (h : s.fds.lookup fd = some d)
    {enabled : Bool} {Q : Bool → Process → Prop} {E : Empty → Process → Prop}
    (hfail : ∀ calls e, firstError calls = some e → Q false (s.after calls e))
    (hdone : ∀ calls, firstError calls = none → Q true { s with
      flags := Function.update s.flags d.file (withNonblock os enabled (s.flags d.file))
      calls := s.calls ++ calls }) :
    wp (setNonblock os ans fd enabled) Q E s := by
  simp only [setNonblock, wp_bind, fcntlGetfl]
  refine wp_syscall (by decide) hfail fun _ => ?_
  have hfl : s.flagsOf fd = s.flags d.file := by
    rw [Process.flagsOf, h]
    rfl
  simp only [hfl, wp_bind, fcntlSetfl]
  refine wp_syscall (by decide) (fun calls e he => ?_) fun _ => ?_
  · have hcalls : firstError ([(.getfl, none)] ++ calls) = some e := by
      rw [firstError_append, firstError_ok, he]
      rfl
    have hfailed := hfail _ e hcalls
    rw [Process.after, ← List.append_assoc] at hfailed
    exact hfailed
  · have hcalls : firstError ([(.getfl, none)] ++ [(.setfl, none)]) = none := rfl
    have hset : ∀ fl, (s.called .getfl none).setFlags fd fl =
        { s.called .getfl none with flags := Function.update s.flags d.file fl } := by
      intro fl
      rw [Process.setFlags, show (s.called .getfl none).fds.lookup fd = some d from h]
      rfl
    have hsucceeded := hdone _ hcalls
    rw [← List.append_assoc] at hsucceeded
    rw [hset]
    exact hsucceeded

theorem wp_setCloexec {fd : Fd} {d : Descriptor} (h : s.fds.lookup fd = some d)
    {enabled : Bool} {Q : Bool → Process → Prop} {E : Empty → Process → Prop}
    (hfail : ∀ calls e, firstError calls = some e → Q false (s.after calls e))
    (hdone : ∀ calls, firstError calls = none → Q true { s with
      fds := s.fds.insert fd { d with cloexec := enabled }
      calls := s.calls ++ calls }) :
    wp (setCloexec ans fd enabled) Q E s := by
  simp only [setCloexec, wp_bind, fcntlGetfd]
  refine wp_syscall (by decide) hfail fun _ => ?_
  simp only [wp_bind, fcntlSetfd]
  refine wp_syscall (by decide) (fun calls e he => ?_) fun _ => ?_
  · have hcalls : firstError ([(.getfd, none)] ++ calls) = some e := by
      rw [firstError_append, firstError_ok, he]
      rfl
    have hfailed := hfail _ e hcalls
    rw [Process.after, ← List.append_assoc] at hfailed
    exact hfailed
  · have hcalls : firstError ([(.getfd, none)] ++ [(.setfd, none)]) = none := rfl
    have hset : (s.called .getfd none).setCloexec fd enabled =
        { s.called .getfd none with fds := s.fds.insert fd { d with cloexec := enabled } } := by
      rw [Process.setCloexec, show (s.called .getfd none).fds.lookup fd = some d from h]
      rfl
    have hsucceeded := hdone _ hcalls
    rw [← List.append_assoc] at hsucceeded
    rw [hset]
    exact hsucceeded

/-- Closing an open descriptor on the way out. -/
theorem wp_preserveErrno_close {fd : Fd} (h : fd ∈ s.fds) {Q : Unit → Process → Prop}
    {E : Empty → Process → Prop}
    (hQ : ∀ e, Q () { s with fds := s.fds.erase fd, calls := s.calls ++ [(.close, e)] }) :
    wp (preserveErrno (close ans fd)) Q E s := by
  simp only [preserveErrno, close, setErrno, wp_bind, wp_gets, wp_modify, if_pos h]
  cases hfails : ans.fails .close s.calls.length <;> exact hQ _

end Calls

end Sendfiled.Client
