/-
What the server's code can do to the world, one action at a time.  An action is
the smallest change after which the tables, the descriptors and the messages
agree again; everything the event loop does is a sequence of them.
-/
import Sendfiled.EventLoop
import Mathlib.Logic.Relation

namespace Sendfiled

/-- The world together with the descriptors that a piece of code has in hand and
that no resource owns. -/
structure Config where
  loose : List Fd
  world : World

inductive Action where
  | quiet
  | say (xfer : Option Ptr) (fd : Fd) (pdu : Pdu)
  | openFile
  | seek
  | openTimer
  | arrive
  | dup
  | shut (fd : Fd)
  | reshut (fd : Fd)
  | register (u : Udata)
  | forget (n : Nat)
  | enroll (x : ResrcXfer)
  | skip
  | retire (p : Ptr)
  | discard (p : Ptr)
  | bury (p : Ptr)
  | cancel (p : Ptr)
  | ready (p : Ptr)
  | release (p : Ptr)
  | assign (p : Ptr) (fd : Fd)
  | move (p : Ptr)
  | balk (p : Ptr)
  | addTimer
  | skipTimer
  | arm (t : Ptr)
  | expire (t : Ptr)
  | botch (t : Ptr)
  | addResp (r : ResrcResp)
  | skipResp
  | dropResp (r xfer : Ptr)
deriving DecidableEq

/-- The actions that change or remove a transfer, or its place in the deferred
list. -/
def Action.subject : Action → Option Ptr
  | .retire p | .discard p | .bury p | .cancel p | .ready p | .release p
  | .assign p _ | .move p => some p
  | _ => none

/-- The transfer on whose behalf an action is performed: besides its subject, the one
a message, a failure or a pending response belongs to. -/
def Action.concerns : Action → Option Ptr
  | .say xfer _ _ => xfer
  | .balk p | .dropResp _ p => some p
  | .addResp r => some r.xfer
  | a => a.subject

/-- The actions that are possible everywhere in the code: they write nothing, concern no
transfer, create none, and leave the timers alone. -/
def Action.free : Action → Bool
  | .quiet | .openFile | .seek | .openTimer | .arrive | .dup | .shut _
  | .register _ | .forget _ | .skip | .addTimer | .skipTimer | .arm _ | .skipResp => true
  | _ => false

theorem Action.concerns_of_free {a : Action} (h : a.free = true) : a.concerns = none := by
  cases a <;> first | rfl | cases h

theorem Action.subject_of_free {a : Action} (h : a.free = true) : a.subject = none := by
  cases a <;> first | rfl | cases h

namespace Kernel

/-- Nothing changed but `errno` and the clock. -/
def Quiet (k k' : Kernel) : Prop :=
  k' = { k with errno := k'.errno, tick := k'.tick }

/-- The kernel after `open` of a file. -/
def opened (node : FileNode) (k : Kernel) : Fd × Kernel :=
  install (.file k.nextFile) { k with
    files := Function.update k.files k.nextFile (some ⟨node, 0, 0⟩)
    nextFile := k.nextFile + 1 }

/-- The kernel after `timerfd_create`. -/
def openedTimer (k : Kernel) : Fd × Kernel :=
  install (.timerfd k.nextFile) { k with nextFile := k.nextFile + 1 }

/-- The kernel after a file was positioned. -/
def sought (n offset : Nat) (k : Kernel) : Kernel :=
  { k with
    files := Function.update k.files n
      ((k.files n).map fun st => { st with start := offset, pos := offset }) }

/-- The kernel after the destination of a transfer was closed, if it has one of
its own. -/
def closeDest (ans : Answers) (x : ResrcXfer) (k : Kernel) : Kernel :=
  if x.destFd ≠ x.statFd ∧ 0 ≤ x.destFd then (k.close ans x.destFd).2 else k

/-- The kernel after the descriptors of a transfer were closed. -/
def closeAll (ans : Answers) (x : ResrcXfer) (k : Kernel) : Kernel :=
  (((k.close ans x.statFd).2.closeDest ans x).close ans x.file.fd).2

/-- The kernel after a registered transfer was deleted. -/
def dismantle (ans : Answers) (x : ResrcXfer) (k : Kernel) : Kernel :=
  (k.epollDel x.destFd).2.closeAll ans x

/-- The descriptor is an open file that has not been read from. -/
def Positioned (k : Kernel) (fd : Fd) (node : FileNode) (start : Nat) : Prop :=
  ∃ n, k.fds.lookup fd = some (.file n) ∧ k.files n = some ⟨node, start, start⟩

end Kernel

namespace Server

/-- Nothing changed but the allocator's state and the receive buffer. -/
def Quiet (s s' : Server) : Prop :=
  s' = { s with allocated := s'.allocated, recvbuf := s'.recvbuf }

def enroll (x : ResrcXfer) (s : Server) : Server :=
  { s.newXfer x with
    nextTxnid := (s.nextTxnid + 1) % 2 ^ 64
    xfers := s.xfers.put (s.xfers.indexof x.txnid) (some s.nextPtr)
      ((s.xfers.size + 1) % 2 ^ 64) }

/-- A transfer was allocated, could not be inserted and was freed. -/
def skip (s : Server) : Server :=
  { s with
    xferAt := Function.update s.xferAt s.nextPtr none
    nextPtr := s.nextPtr + 1
    nextTxnid := (s.nextTxnid + 1) % 2 ^ 64 }

def discard (p : Ptr) (txnid : Nat) (s : Server) : Server :=
  { s.dropXfer p with xfers := s.xfers.erase txnid }

def cancel (p : Ptr) (x : ResrcXfer) (s : Server) : Server :=
  { s.setXfer p { x with defer := .cancel } with
    deferredXfers := if x.defer = .none then s.deferredXfers ++ [p] else s.deferredXfers }

def ready (p : Ptr) (x : ResrcXfer) (s : Server) : Server :=
  { s.setXfer p { x with defer := .ready } with deferredXfers := s.deferredXfers ++ [p] }

/-- Remove an entry from the deferred list. -/
def unlist (i : Nat) (s : Server) : Server :=
  { s with deferredXfers := s.deferredXfers.swapRemove i }

def addTimer (t : ResrcTimer) (s : Server) : Server :=
  { s.newTimer t with
    xferTimers := s.xferTimers.put (s.xferTimers.indexof t.txnid) (some s.nextPtr)
      ((s.xferTimers.size + 1) % 2 ^ 64) }

/-- A timer was allocated, could not be inserted and was freed. -/
def skipTimer (s : Server) : Server :=
  { s with
    timerAt := Function.update s.timerAt s.nextPtr none
    nextPtr := s.nextPtr + 1 }

/-- A response was allocated, could not be registered and was freed. -/
def skipResp (s : Server) : Server :=
  { s with
    respAt := Function.update s.respAt s.nextPtr none
    nextPtr := s.nextPtr + 1 }

def expire (t : Ptr) (txnid : Nat) (s : Server) : Server :=
  { s.dropTimer t with xferTimers := s.xferTimers.erase txnid }

/-- The descriptor a resource is registered with. -/
def Ident (s : Server) : Udata → Fd → Prop
  | .xfer p, fd => ∃ x, s.xferAt p = some x ∧ x.destFd = fd ∧ x.cmd ≠ .fileOpen
  | .timer t, fd => ∃ tm, s.timerAt t = some tm ∧ tm.ident = fd
  | .resp r, fd => ∃ rs, s.respAt r = some rs ∧ rs.statFd = fd
  | .sigfd, _ | .reqfd, _ => False

/-- A transfer all of whose bytes were written. -/
def Finished (s : Server) (p : Ptr) : Prop :=
  ∃ x, s.xferAt p = some x ∧ x.nbytesLeft = 0

/-- The messages the server makes up, on behalf of a live transfer or of none. -/
def Composes (s : Server) : Option Ptr → Pdu → Prop
  | none, .hdr _ _ => True
  | some p, .hdr _ _ => ∃ x, s.xferAt p = some x
  | some p, .fileInfo size _ _ _ txnid =>
      ∃ x, s.xferAt p = some x ∧ size = x.file.size.toNat ∧ txnid = x.txnid
  | some p, .xferStat size =>
      ∃ x, s.xferAt p = some x ∧ (size ≠ protXferComplete ∨ x.nbytesLeft = 0)
  | none, _ => False

/-- What the server may write on behalf of a transfer: a new message, or one
that is held back as a pending response. -/
def MaySay (s : Server) (xfer : Option Ptr) (pdu : Pdu) : Prop :=
  s.Composes xfer pdu ∨
    ∃ r resp, s.respAt r = some resp ∧ xfer = some resp.xfer ∧ pdu = resp.pdu

/-- What a message on behalf of a transfer is written through: its status channel, or the
duplicate that a pending response has kept of it. -/
def Through (s : Server) (p : Ptr) (fd : Fd) : Prop :=
  (∃ x, s.xferAt p = some x ∧ fd = x.statFd) ∨
    ∃ r resp, s.respAt r = some resp ∧ resp.xfer = p ∧ fd = resp.statFd

end Server

/-- The channel descriptors of a transfer. -/
def ResrcXfer.channels (x : ResrcXfer) : List Fd :=
  if x.destFd = x.statFd then [x.statFd] else [x.statFd, x.destFd]

/-- How an action changes the world and the descriptors in hand. -/
inductive Performs : Action → Config → Config → Prop
  | quiet {L L' : List Fd} {s s' : Server} {k k' : Kernel} (hL : L'.Sublist L)
      (hs : s.Quiet s') (hk : k.Quiet k') : Performs .quiet ⟨L, ⟨s, k⟩⟩ ⟨L', ⟨s', k'⟩⟩
  | say {L : List Fd} {s : Server} {k : Kernel} {xfer : Option Ptr} {fd : Fd} {pdu : Pdu}
      {result : Except Errno Nat} (hsay : s.MaySay xfer pdu)
      (hfd : ∀ p, xfer = some p → s.Through p fd) :
      Performs (.say xfer fd pdu) ⟨L, ⟨s, k⟩⟩ ⟨L, ⟨s, k.log (.sent xfer fd pdu result)⟩⟩
  | openFile {L : List Fd} {s : Server} {k : Kernel} {node : FileNode}
      (h0 : (0 : Fd) ∈ k.fds) :
      Performs .openFile ⟨L, ⟨s, k⟩⟩ ⟨(k.opened node).1 :: L, ⟨s, (k.opened node).2⟩⟩
  | seek {L : List Fd} {s : Server} {k : Kernel} {fd : Fd} {n offset : Nat}
      (hfd : fd ∈ L) (hn : k.fds.lookup fd = some (.file n)) :
      Performs .seek ⟨L, ⟨s, k⟩⟩ ⟨L, ⟨s, k.sought n offset⟩⟩
  | openTimer {L : List Fd} {s : Server} {k : Kernel} :
      Performs .openTimer ⟨L, ⟨s, k⟩⟩ ⟨k.openedTimer.1 :: L, ⟨s, k.openedTimer.2⟩⟩
  | arrive {L : List Fd} {s : Server} {k : Kernel} {n : Nat} :
      Performs .arrive ⟨L, ⟨s, k⟩⟩
        ⟨(k.install (.client n)).1 :: L, ⟨s, (k.install (.client n)).2⟩⟩
  | dup {L : List Fd} {s : Server} {k : Kernel} {p : Ptr} {x : ResrcXfer} {f : OpenFile}
      (hp : s.xferAt p = some x) (hf : k.fds.lookup x.statFd = some f) :
      Performs .dup ⟨L, ⟨s, k⟩⟩ ⟨(k.install f).1 :: L, ⟨s, (k.install f).2⟩⟩
  | shut {L : List Fd} {s : Server} {k : Kernel} {fd : Fd} (ans : Answers)
      (hfd : fd ∈ L ∨ fd < 0) :
      Performs (.shut fd) ⟨L, ⟨s, k⟩⟩ ⟨L.erase fd, ⟨s, (k.close ans fd).2⟩⟩
  | reshut {L : List Fd} {s : Server} {k : Kernel} {fd : Fd} (ans : Answers)
      (hfd : fd ∉ k.fds) :
      Performs (.reshut fd) ⟨L, ⟨s, k⟩⟩ ⟨L, ⟨s, (k.close ans fd).2⟩⟩
  | register {L : List Fd} {s : Server} {k : Kernel} {u : Udata} {fd : Fd} {f : OpenFile}
      (hu : s.Ident u fd) (hf : k.fds.lookup fd = some f)
      (hnew : ∀ r ∈ k.regs, ¬ (r.fd = fd ∧ r.file = f)) :
      Performs (.register u) ⟨L, ⟨s, k⟩⟩
        ⟨L, ⟨s, { k with regs := k.regs ++ [⟨fd, f, u⟩] }⟩⟩
  | forget {L : List Fd} {s : Server} {k : Kernel} {n : Nat}
      (hn : ∀ entry ∈ k.fds.entries, entry.2 ≠ .client n) :
      Performs (.forget n) ⟨L, ⟨s, k⟩⟩
        ⟨L, ⟨s, { k with regs := k.regs.filter fun r => r.file ≠ .client n }⟩⟩
  | enroll {L : List Fd} {s : Server} {k : Kernel} {x : ResrcXfer} {node : FileNode}
      {start : Nat} (hroom : s.xfers.size ≠ s.xfers.capacity)
      (hfree : s.xfers.find x.txnid = none) (htxnid : x.txnid = s.nextTxnid)
      (hdefer : x.defer = .none) (hleft : x.nbytesLeft = x.file.size)
      (hstat : x.statFd ∈ L) (hdest : x.destFd ∈ L ∨ x.destFd = -1 ∨ x.destFd = 0)
      (hcmd : x.cmd = .fileOpen → x.destFd = -1)
      (hkind : ∀ n, k.fds.lookup x.statFd ≠ some (.file n))
      (hpos : k.Positioned x.file.fd node start) :
      Performs (.enroll x) ⟨x.file.fd :: L, ⟨s, k⟩⟩
        ⟨(L.erase x.statFd).erase x.destFd, ⟨s.enroll x, k⟩⟩
  | skip {L : List Fd} {s : Server} {k : Kernel} :
      Performs .skip ⟨L, ⟨s, k⟩⟩ ⟨L, ⟨s.skip, k⟩⟩
  | retire {L : List Fd} {s : Server} {k : Kernel} {p : Ptr} {x : ResrcXfer} (ans : Answers)
      (hp : s.xferAt p = some x) (hdefer : x.defer ≠ .cancel) :
      Performs (.retire p) ⟨L, ⟨s, k⟩⟩
        ⟨x.channels ++ L, ⟨s.discard p x.txnid, (k.close ans x.file.fd).2⟩⟩
  | discard {L : List Fd} {s : Server} {k : Kernel} {p : Ptr} {x : ResrcXfer} (ans : Answers)
      (hp : s.xferAt p = some x) :
      Performs (.discard p) ⟨L, ⟨s, k⟩⟩ ⟨L, ⟨s.discard p x.txnid, k.dismantle ans x⟩⟩
  | bury {L : List Fd} {s : Server} {k : Kernel} {i : Nat} {p : Ptr} {x : ResrcXfer}
      (ans : Answers) (hi : s.deferredXfers[i]? = some p) (hp : s.xferAt p = some x) :
      Performs (.bury p) ⟨L, ⟨s, k⟩⟩
        ⟨L, ⟨(s.unlist i).discard p x.txnid, k.dismantle ans x⟩⟩
  | cancel {L : List Fd} {s : Server} {k : Kernel} {p : Ptr} {x : ResrcXfer}
      (hp : s.xferAt p = some x)
      (hroom : x.defer = .ready ∨ s.deferredXfers.length < s.xfers.size) :
      Performs (.cancel p) ⟨L, ⟨s, k⟩⟩ ⟨L, ⟨s.cancel p x, k⟩⟩
  | ready {L : List Fd} {s : Server} {k : Kernel} {p : Ptr} {x : ResrcXfer}
      (hp : s.xferAt p = some x) (hdefer : x.defer = .none)
      (hcmd : x.cmd = .read ∨ x.cmd = .send)
      (hroom : s.deferredXfers.length < s.xfers.size) :
      Performs (.ready p) ⟨L, ⟨s, k⟩⟩ ⟨L, ⟨s.ready p x, k⟩⟩
  | release {L : List Fd} {s : Server} {k : Kernel} {i : Nat} {p : Ptr} {x : ResrcXfer}
      (hi : s.deferredXfers[i]? = some p) (hp : s.xferAt p = some x)
      (hdefer : x.defer = .ready) :
      Performs (.release p) ⟨L, ⟨s, k⟩⟩
        ⟨L, ⟨(s.unlist i).setXfer p { x with defer := .none }, k⟩⟩
  | assign {L : List Fd} {s : Server} {k : Kernel} {p : Ptr} {x : ResrcXfer} {fd : Fd}
      (hp : s.xferAt p = some x) (hdefer : x.defer ≠ .cancel) (hfd : fd ∈ L) :
      Performs (.assign p fd) ⟨L, ⟨s, k⟩⟩ ⟨L.erase fd,
        ⟨s.setXfer p { x with cmd := .send, destFd := fd }, k⟩⟩
  | move {L : List Fd} {s : Server} {k k' : Kernel} {p : Ptr} {x : ResrcXfer} {n m : Nat}
      (ans : Answers) (hp : s.xferAt p = some x) (hdefer : x.defer ≠ .cancel)
      (hcmd : x.cmd = .read ∨ x.cmd = .send)
      (hn : n ≤ x.nbytesLeft.toNat)
      (hm : k.moveBytes ans p x.file.fd x.destFd n = (.ok m, k')) :
      Performs (.move p) ⟨L, ⟨s, k⟩⟩ ⟨L,
        ⟨s.setXfer p { x with nbytesLeft := x.nbytesLeft - BitVec.ofNat 64 m }, k'⟩⟩
  | balk {L : List Fd} {s : Server} {k : Kernel} {p : Ptr} {x : ResrcXfer} {e : Errno}
      (hp : s.xferAt p = some x) :
      Performs (.balk p) ⟨L, ⟨s, k⟩⟩ ⟨L, ⟨s, k.log (.failed p x.destFd e)⟩⟩
  | addTimer {L : List Fd} {s : Server} {k : Kernel} {t : ResrcTimer}
      (hident : t.ident = -1) (hfree : s.xferTimers.find t.txnid = none)
      (hxfer : ∃ p x, s.xferAt p = some x ∧ x.defer = .none ∧ t.txnid = x.txnid ∧
        t.xferAddr = x.addr) :
      Performs .addTimer ⟨L, ⟨s, k⟩⟩ ⟨L, ⟨s.addTimer t, k⟩⟩
  | skipTimer {L : List Fd} {s : Server} {k : Kernel} :
      Performs .skipTimer ⟨L, ⟨s, k⟩⟩ ⟨L, ⟨s.skipTimer, k⟩⟩
  | arm {L : List Fd} {s : Server} {k : Kernel} {t : Ptr} {tm : ResrcTimer} {fd : Fd}
      (ht : s.timerAt t = some tm) (hident : tm.ident = -1) (hpos : 0 < fd) (hfd : fd ∈ L) :
      Performs (.arm t) ⟨L, ⟨s, k⟩⟩
        ⟨L.erase fd, ⟨s.setTimer t { tm with ident := fd }, k⟩⟩
  | expire {L : List Fd} {s : Server} {k : Kernel} {t : Ptr} {tm : ResrcTimer}
      (ans : Answers) (ht : s.timerAt t = some tm) :
      Performs (.expire t) ⟨L, ⟨s, k⟩⟩
        ⟨L, ⟨s.expire t tm.txnid, (k.close ans tm.ident).2⟩⟩
  | botch {L : List Fd} {s : Server} {k : Kernel} {t : Ptr} {tm : ResrcTimer} {fd : Fd}
      (ans : Answers) (ht : s.timerAt t = some tm) (hfd : fd ∉ k.fds) :
      Performs (.botch t) ⟨L, ⟨s, k⟩⟩ ⟨L, ⟨s.expire t tm.txnid, (k.close ans fd).2⟩⟩
  | addResp {L : List Fd} {s : Server} {k : Kernel} {r : ResrcResp} {f : OpenFile}
      (hfd : r.statFd ∈ L) (hf : k.fds.lookup r.statFd = some f)
      (hnew : ∀ reg ∈ k.regs, ¬ (reg.fd = r.statFd ∧ reg.file = f))
      (hxfer : ∃ x, s.xferAt r.xfer = some x ∧ k.fds.lookup x.statFd = some f)
      (hpdu : r.pdu.xferComplete = true → s.Finished r.xfer)
      (hkind : ∀ size atime mtime ctime txnid,
        r.pdu ≠ .fileInfo size atime mtime ctime txnid)
      (htried : ∃ x e, s.xferAt r.xfer = some x ∧
        k.record.getLast? = some (.sent (some r.xfer) x.statFd r.pdu (.error e), some f)) :
      Performs (.addResp r) ⟨L, ⟨s, k⟩⟩ ⟨L.erase r.statFd,
        ⟨s.newResp r, { k with regs := k.regs ++ [⟨r.statFd, f, .resp s.nextPtr⟩] }⟩⟩
  | skipResp {L : List Fd} {s : Server} {k : Kernel} :
      Performs .skipResp ⟨L, ⟨s, k⟩⟩ ⟨L, ⟨s.skipResp, k⟩⟩
  | dropResp {L : List Fd} {s : Server} {k : Kernel} {r : Ptr} {resp : ResrcResp}
      (ans : Answers) (hr : s.respAt r = some resp) :
      Performs (.dropResp r resp.xfer) ⟨L, ⟨s, k⟩⟩
        ⟨L, ⟨s.dropResp r, (k.close ans resp.statFd).2⟩⟩

/-- A sequence of actions, each of which `A` permits where it is performed. -/
def Acts (A : Action → Config → Prop) : Config → Config → Prop :=
  Relation.ReflTransGen fun c c' => ∃ a, A a c ∧ Performs a c c'

namespace Acts

variable {A B : Action → Config → Prop} {c₀ c c' : Config}

theorem refl : Acts A c c := Relation.ReflTransGen.refl

theorem trans (h : Acts A c₀ c) (h' : Acts A c c') : Acts A c₀ c' :=
  Relation.ReflTransGen.trans h h'

theorem snoc (h : Acts A c₀ c) {a : Action} (ha : A a c) (hp : Performs a c c') :
    Acts A c₀ c' :=
  Relation.ReflTransGen.tail h ⟨a, ha, hp⟩

theorem mono (hAB : ∀ a c, A a c → B a c) (h : Acts A c₀ c) : Acts B c₀ c := by
  induction h with
  | refl => exact Relation.ReflTransGen.refl
  | tail _ hstep ih =>
      obtain ⟨a, ha, hp⟩ := hstep
      exact ih.snoc (hAB a _ ha) hp

/-- What every permitted action keeps, a sequence of them keeps. -/
theorem keeps {I : Config → Prop}
    (hI : ∀ a c c', A a c → Performs a c c' → I c → I c') (h : Acts A c₀ c)
    (h₀ : I c₀) : I c := by
  induction h with
  | refl => exact h₀
  | tail _ hstep ih =>
      obtain ⟨a, ha, hp⟩ := hstep
      exact hI a _ _ ha hp ih

end Acts

/-- An action leaves every transfer alone that existed before and is not its
subject. -/
theorem Performs.frame {a : Action} {c c' : Config} (h : Performs a c c') {p : Ptr}
    (hp : p < c.world.srv.nextPtr) (hne : a.subject ≠ some p) :
    c'.world.srv.xferAt p = c.world.srv.xferAt p := by
  have hset : ∀ (f : Ptr → Option ResrcXfer) (q : Ptr) v, some q ≠ some p →
      Function.update f q v p = f p := by
    intro f q v hqp
    exact Function.update_of_ne (fun heq => hqp (by rw [heq])) _ _
  cases h with
  | quiet _ hs _ => rw [show _ = _ from hs]
  | say | openFile | seek | openTimer | arrive | dup | shut | reshut | register | forget | balk
  | addTimer | skipTimer | arm | expire | botch | addResp | skipResp | dropResp => rfl
  | enroll | skip => exact Function.update_of_ne (Nat.ne_of_lt hp) _ _
  | retire | discard | bury | cancel | ready | release | assign | move => exact hset _ _ _ hne

theorem Performs.nextPtr_le {a : Action} {c c' : Config} (h : Performs a c c') :
    c.world.srv.nextPtr ≤ c'.world.srv.nextPtr := by
  cases h with
  | quiet _ hs _ => rw [show _ = _ from hs]
  | enroll | skip | addTimer | skipTimer | addResp | skipResp => exact Nat.le_succ _
  | say | openFile | seek | openTimer | arrive | dup | shut | reshut | register | forget
  | retire | discard | bury | cancel | ready | release | assign | move | balk | arm | expire
  | botch | dropResp => exact Nat.le_refl _

end Sendfiled
