/-
The kernel's side of the server process: descriptors and the open files behind
them, poller registrations, file positions and `errno`, with the system calls
the server makes.  Everything the kernel is free to choose is an answer looked
up at the time of the call.
-/
import Sendfiled.Codec
import Mathlib.Data.List.AList
import Mathlib.Data.List.Perm.Subperm

namespace Sendfiled

/-- What a descriptor refers to.  Open files sent by a client may have further
copies in other processes; the files and timers opened by the server do not. -/
inductive OpenFile where
  | client (n : Nat)
  | file (n : Nat)
  | timerfd (n : Nat)
  | inherited (n : Nat)
deriving DecidableEq, Repr

/-- A file on disk, as `open`, `fstat` and reads of it show it. -/
structure FileNode where
  size : Nat
  byte : Nat → UInt8
  regular : Bool
  atime : Nat
  mtime : Nat
  ctime : Nat
  blksize : Nat
  size_lt : size < 2 ^ 63

/-- A file opened by the server: the position reads continue from, and the
position the transfer started at. -/
structure FileState where
  node : FileNode
  start : Nat
  pos : Nat

/-- `EPOLL_CTL_ADD` keys a registration by descriptor and open file. -/
structure Reg where
  fd : Fd
  file : OpenFile
  udata : Udata
deriving DecidableEq, Repr

/-- The calls that write or close descriptors.  Messages, which come with what `write`
returned, file data and failures to write file data carry the transfer on whose behalf
they are written. -/
inductive Effect where
  | sent (xfer : Option Ptr) (fd : Fd) (pdu : Pdu) (result : Except Errno Nat)
  | moved (xfer : Ptr) (fd : Fd) (bytes : List UInt8)
  | failed (xfer : Ptr) (fd : Fd) (err : Errno)
  | closed (fd : Fd) (wasOpen : Bool)
deriving DecidableEq, Repr

/-- The descriptor a call was made on. -/
def Effect.fd : Effect → Fd
  | .sent _ fd _ _ => fd
  | .moved _ fd _ => fd
  | .failed _ fd _ => fd
  | .closed fd _ => fd

/-- `struct ucred`. -/
structure Ucred where
  pid : Nat
  uid : Nat
  gid : Nat
deriving DecidableEq, Repr

/-- A datagram queued on the request socket, with the open files its ancillary
data refers to. -/
structure Datagram where
  data : List UInt8
  files : List Nat
  creds : Option Ucred
deriving DecidableEq, Repr

/-- What the kernel and the allocator answer to the call made at a given tick.
An `Option Errno` is the error a call fails with, if it fails; the number in
`rights` is how many descriptors of a message can be installed. -/
structure Answers where
  openFile : Nat → List UInt8 → Except Errno FileNode
  fstat : Nat → Option Errno
  lock : Nat → Int → Int → Option Errno
  lseek : Nat → Option Errno
  io : Nat → Nat → Except Errno Nat
  stray : Nat → Nat → UInt8
  write : Nat → Nat → Except Errno Nat
  dup : Nat → Option Errno
  malloc : Nat → Option Addr
  epollAdd : Nat → Option Errno
  timerfdCreate : Nat → Option Errno
  timerfdSettime : Nat → Option Errno
  rights : Nat → Nat
  clientKeeps : Nat → Nat → Bool
  termSignal : Nat → Bool

/-- The descriptor table of the process. -/
abbrev FdTable := AList (fun _ : Fd => OpenFile)

/-- A call together with the open file that its descriptor referred to when it was made. -/
abbrev Entry := Effect × Option OpenFile

/-- The observable calls are in `trace`; `record` has them with the open files. -/
structure Kernel where
  fds : FdTable
  regs : List Reg
  files : Nat → Option FileState
  nextFile : Nat
  errno : Errno
  trace : List Effect
  record : List Entry
  tick : Nat

/-- Descriptors are given out lowest first. -/
def lowestFree (used : List Fd) : Fd :=
  (((List.range (used.length + 1)).map Int.ofNat).find? fun fd => fd ∉ used).getD 0

theorem lowestFree_nonneg (used : List Fd) : 0 ≤ lowestFree used := by
  unfold lowestFree
  cases hfind : ((List.range (used.length + 1)).map Int.ofNat).find?
      fun fd => decide (fd ∉ used) with
  | none => exact Int.le_refl 0
  | some fd =>
      obtain ⟨n, -, rfl⟩ := List.mem_map.mp (List.mem_of_find?_eq_some hfind)
      exact Int.natCast_nonneg n

/-- Some number up to the length of a list is not in it. -/
theorem lowestFree_notMem (used : List Fd) : lowestFree used ∉ used := by
  unfold lowestFree
  cases hfind : ((List.range (used.length + 1)).map Int.ofNat).find?
      fun fd => decide (fd ∉ used) with
  | some fd => simpa using List.find?_some hfind
  | none =>
      exfalso
      have hall : (List.range (used.length + 1)).map Int.ofNat ⊆ used := by
        intro fd hfd
        simpa using List.find?_eq_none.mp hfind fd hfd
      have hnodup : ((List.range (used.length + 1)).map Int.ofNat).Nodup :=
        List.nodup_range.map fun a b hab => Int.ofNat.inj hab
      have hlen := (hnodup.subperm hall).length_le
      simp only [List.length_map, List.length_range] at hlen
      omega

theorem lowestFree_eq_zero {used : List Fd} (h : (0 : Fd) ∉ used) : lowestFree used = 0 := by
  simp [lowestFree, List.range_succ_eq_map, h]

namespace Kernel

variable (ans : Answers)

def log (e : Effect) (k : Kernel) : Kernel :=
  { k with
    trace := k.trace ++ [e]
    record := k.record ++ [(e, k.fds.lookup e.fd)] }

def fail (e : Errno) (k : Kernel) : Kernel :=
  { k with errno := e, tick := k.tick + 1 }

def succeed (k : Kernel) : Kernel := { k with tick := k.tick + 1 }

/-- A call that either fails with the given error or does nothing the model
keeps track of. -/
def attempt (answer : Option Errno) (k : Kernel) : Bool × Kernel :=
  match answer with
  | some e => (false, k.fail e)
  | none => (true, k.succeed)

/-- Install an open file at the lowest free descriptor. -/
def install (f : OpenFile) (k : Kernel) : Fd × Kernel :=
  let fd := lowestFree k.fds.keys
  (fd, { k with fds := k.fds.insert fd f })

/-- Whether an open file still has a copy after one of the process's
descriptors for it went away. -/
def hasCopy (fds : FdTable) (f : OpenFile) (k : Kernel) : Bool :=
  fds.entries.any (fun entry => entry.2 == f) ||
    match f with
    | .client n => ans.clientKeeps k.tick n
    | _ => false

/-- `close`.  Registrations go away with the last copy of the open file. -/
def close (fd : Fd) (k : Kernel) : Bool × Kernel :=
  match k.fds.lookup fd with
  | none => (false, (k.log (.closed fd false)).fail EBADF)
  | some f =>
      let fds := k.fds.erase fd
      let regs := if k.hasCopy ans fds f then k.regs
        else k.regs.filter (fun r => r.file ≠ f)
      (true, succeed { k.log (.closed fd true) with fds := fds, regs := regs })

/-- `write` of one message. -/
def write (xfer : Option Ptr) (fd : Fd) (pdu : Pdu) (k : Kernel) :
    Except Errno Nat × Kernel :=
  match k.fds.lookup fd with
  | none => (.error EBADF, (k.log (.sent xfer fd pdu (.error EBADF))).fail EBADF)
  | some _ =>
      match ans.write k.tick pdu.size with
      | .error e => (.error e, (k.log (.sent xfer fd pdu (.error e))).fail e)
      | .ok n => (.ok n, (k.log (.sent xfer fd pdu (.ok n))).succeed)

/-- `open` for reading. -/
def openFile (name : List UInt8) (k : Kernel) : Option (Fd × FileNode) × Kernel :=
  match ans.openFile k.tick name with
  | .error e => (none, k.fail e)
  | .ok node =>
      let n := k.nextFile
      let (fd, k') := install (.file n) { k with
        files := Function.update k.files n (some ⟨node, 0, 0⟩)
        nextFile := n + 1 }
      (some (fd, node), k'.succeed)

def fstat (k : Kernel) : Bool × Kernel := k.attempt (ans.fstat k.tick)

/-- `fcntl` with `F_SETLK` and a read lock from `start` for `len` bytes. -/
def lock (start len : Int) (k : Kernel) : Bool × Kernel :=
  k.attempt (ans.lock k.tick start len)

/-- `lseek` with `SEEK_SET` on a file just opened. -/
def lseek (fd : Fd) (offset : Nat) (k : Kernel) : Bool × Kernel :=
  match ans.lseek k.tick with
  | some e => (false, k.fail e)
  | none =>
      match k.fds.lookup fd with
      | some (.file n) =>
          (true, { k with
            files := Function.update k.files n
              ((k.files n).map fun st => { st with start := offset, pos := offset })
            tick := k.tick + 1 })
      | _ => (false, k.fail EBADF)

/-- `splice` and `sendfile` from the position of `fdIn`, of at most `nbytes` bytes.
A descriptor that is not one of the server's files yields bytes the model says
nothing about. -/
def moveBytes (xfer : Ptr) (fdIn fdOut : Fd) (nbytes : Nat) (k : Kernel) :
    Except Errno Nat × Kernel :=
  match k.fds.lookup fdIn, k.fds.lookup fdOut with
  | some src, some _ =>
      match ans.io k.tick nbytes with
      | .error e => (.error e, (k.log (.failed xfer fdOut e)).fail e)
      | .ok answer =>
          let m := min answer nbytes
          match src with
          | .file n =>
              match k.files n with
              | none => (.error EBADF, (k.log (.failed xfer fdOut EBADF)).fail EBADF)
              | some st =>
                  let bytes := (List.range m).map fun i => st.node.byte (st.pos + i)
                  (.ok m, succeed (log (.moved xfer fdOut bytes) { k with
                    files := Function.update k.files n
                      (some { st with pos := st.pos + m }) }))
          | _ =>
              let bytes := (List.range m).map (ans.stray k.tick)
              (.ok m, (k.log (.moved xfer fdOut bytes)).succeed)
  | _, _ => (.error EBADF, (k.log (.failed xfer fdOut EBADF)).fail EBADF)

/-- `dup`. -/
def dup (fd : Fd) (k : Kernel) : Option Fd × Kernel :=
  match k.fds.lookup fd with
  | none => (none, k.fail EBADF)
  | some f =>
      match ans.dup k.tick with
      | some e => (none, k.fail e)
      | none =>
          let (fd', k') := k.install f
          (some fd', k'.succeed)

def timerfdCreate (k : Kernel) : Option Fd × Kernel :=
  match ans.timerfdCreate k.tick with
  | some e => (none, k.fail e)
  | none =>
      let (fd, k') := install (.timerfd k.nextFile) { k with nextFile := k.nextFile + 1 }
      (some fd, k'.succeed)

def timerfdSettime (k : Kernel) : Bool × Kernel :=
  k.attempt (ans.timerfdSettime k.tick)

/-- Why `EPOLL_CTL_ADD` of a descriptor is refused, if it is. -/
def epollAddError (fd : Fd) (k : Kernel) : Option Errno :=
  match k.fds.lookup fd with
  | none => some EBADF
  | some f =>
      if k.regs.any (fun r => r.fd == fd && r.file == f) then some EEXIST
      else ans.epollAdd k.tick

/-- `EPOLL_CTL_ADD`. -/
def epollAdd (fd : Fd) (udata : Udata) (k : Kernel) : Bool × Kernel :=
  match k.epollAddError ans fd, k.fds.lookup fd with
  | none, some f => (true, succeed { k with regs := k.regs ++ [⟨fd, f, udata⟩] })
  | some e, _ => (false, k.fail e)
  | none, none => (false, k.fail EBADF)

/-- `EPOLL_CTL_DEL`. -/
def epollDel (fd : Fd) (k : Kernel) : Bool × Kernel :=
  match k.fds.lookup fd with
  | none => (false, k.fail EBADF)
  | some f =>
      if k.regs.any (fun r => r.fd == fd && r.file == f) then
        (true, succeed { k with
          regs := k.regs.filter fun r => ¬ (r.fd = fd ∧ r.file = f) })
      else (false, k.fail ENOENT)

/-- Install the open files of a message one after the other. -/
def installAll : List Nat → Kernel → List Fd × Kernel
  | [], k => ([], k)
  | n :: rest, k =>
      let (fd, k₁) := k.install (.client n)
      let (fds, k₂) := installAll rest k₁
      (fd :: fds, k₂)

/-- What `recvmsg` fills in: the flags, and the descriptors and credentials of
the ancillary data, which has room for `PROT_MAXFDS` descriptors. -/
structure Msg where
  trunc : Bool
  ctrunc : Bool
  rights : List Fd
  creds : Option Ucred
deriving DecidableEq, Repr

/-- The open files of a datagram that find room and a free descriptor. -/
def arriving (d : Datagram) (k : Kernel) : List Nat :=
  (d.files.take protMaxFds).take (ans.rights k.tick)

def recvmsg (d : Datagram) (k : Kernel) : Msg × Kernel :=
  let (fds, k') := installAll (k.arriving ans d) k
  ({ trunc := decide (protReqMaxSize < d.data.length)
     ctrunc := decide ((k.arriving ans d).length < d.files.length)
     rights := fds
     creds := d.creds }, k'.succeed)

end Kernel

end Sendfiled
