/-
The server as a transition system.  A step is one call of the modelled code
between two points at which the environment may intervene: waiting, taking one
event of the batch, receiving one datagram, handling it, or one pass over the
deferred transfers.
-/
import Sendfiled.EventLoop
import Sendfiled.Lib.Transition

namespace Sendfiled

open Prog Transition

/-- Where `srv_run` stands.  `events rest` is the loop of `process_events` with
`rest` still to come, `receiving` the loop of `handle_reqfd` with its descriptor
array, `requested` the same loop with a datagram received. -/
inductive Phase where
  | waiting
  | events (rest : List PollEvent)
  | receiving (fds : Fd × Fd) (rest : List PollEvent)
  | requested (r : Received) (rest : List PollEvent)
  | stopped
deriving DecidableEq, Repr

structure State where
  world : World
  phase : Phase

/-- What happens next, as far as the environment chooses it. -/
inductive Label where
  | wait (evs : List PollEvent)
  | waitFailed (e : Errno)
  | event (garbage : Fd × Fd)
  | receive (d : Datagram)
  | receiveFailed (e : Errno)
  | request
  | deferred
  | clientCloses (n : Nat)
deriving DecidableEq, Repr

/-- Besides errors the poller reports only what was asked for. -/
def PollEvent.expected (ev : PollEvent) : Bool :=
  match ev.udata with
  | .xfer _ | .resp _ => !ev.inp
  | .timer _ | .reqfd | .sigfd => !ev.out

/-- A batch holds at most one event for each registration. -/
def ValidBatch (regs : List Reg) (evs : List PollEvent) : Prop :=
  (evs.map PollEvent.udata).Subperm (regs.map Reg.udata) ∧
    ∀ ev ∈ evs, ev.expected = true

instance (regs : List Reg) (evs : List PollEvent) : Decidable (ValidBatch regs evs) :=
  inferInstanceAs (Decidable (_ ∧ _))

/-- The state after a piece of code, or its fault. -/
def settle {α : Type} (o : Outcome Fault World α) (f : α → World → Except Fault State) :
    Except Fault State :=
  match o with
  | .done a w => f a w
  | .fault e _ => .error e

/-- Leave the loop of `srv_run`. -/
def shutdown (ans : Answers) (w : World) : Except Fault State :=
  settle (srvDelete ans w) fun _ w' => .ok ⟨w', .stopped⟩

def withErrno (e : Errno) (w : World) : World :=
  { w with kern := { w.kern with errno := e } }

/-- A process outside closes its last copy of an open file. -/
def clientClose (n : Nat) (w : World) : World :=
  if w.kern.fds.entries.any (fun entry => entry.2 == .client n) then w
  else { w with kern := { w.kern with
    regs := w.kern.regs.filter fun r => r.file ≠ .client n } }

/-- One step of the server. -/
def next : Answers × Label → State → Option (Except Fault State)
  | (_, .wait evs), ⟨w, .waiting⟩ =>
      if ValidBatch w.kern.regs evs then some (.ok ⟨w, .events evs⟩) else none
  | (ans, .waitFailed e), ⟨w, .waiting⟩ =>
      if e ≠ EINTR ∧ errnoIsFatal e then some (shutdown ans (withErrno e w))
      else some (.ok ⟨withErrno e w, .events []⟩)
  | (ans, .event garbage), ⟨w, .events (ev :: rest)⟩ =>
      some <| settle (dispatchEvent ans ev w) fun
        | .stop, w' => shutdown ans w'
        | .request, w' => .ok ⟨w', .receiving garbage rest⟩
        | .handled, w' => .ok ⟨w', .events rest⟩
  | (ans, .receive d), ⟨w, .receiving old rest⟩ =>
      some <| settle (usRecv ans old d w) fun
        | none, w' =>
            if errnoIsFatal w'.kern.errno then shutdown ans w' else .ok ⟨w', .events rest⟩
        | some r, w' => .ok ⟨w', .requested r rest⟩
  | (ans, .receiveFailed e), ⟨w, .receiving _ rest⟩ =>
      if errnoIsFatal e then some (shutdown ans (withErrno e w))
      else some (.ok ⟨withErrno e w, .events rest⟩)
  | (ans, .request), ⟨w, .requested r rest⟩ =>
      some <| settle (handleReceived ans r w) fun _ w' => .ok ⟨w', .receiving r.fds rest⟩
  | (ans, .deferred), ⟨w, .events []⟩ =>
      some <| settle (processDeferred ans w) fun _ w' => .ok ⟨w', .waiting⟩
  | (_, .clientCloses n), ⟨w, phase⟩ =>
      if phase = .stopped then none else some (.ok ⟨clientClose n w, phase⟩)
  | _, _ => none

/-- The kernel's side of the process when `srv_run` starts: inherited
descriptors only, among them the request socket, which is registered together
with the poller's own signal descriptor. -/
structure FreshKernel (reqfd : Fd) (k : Kernel) : Prop where
  inherited : ∀ fd f, k.fds.lookup fd = some f → 0 ≤ fd ∧ ∃ n, f = .inherited n
  reqfd_open : reqfd ∈ k.fds
  regs : ∀ r ∈ k.regs, r.udata = .sigfd ∨ r.udata = .reqfd
  registered : ∀ r ∈ k.regs, k.fds.lookup r.fd = some r.file
  files : ∀ n, k.files n = none
  trace : k.trace = []
  record : k.record = []

/-- `srv_run` has just reached its loop. -/
def Initial (s : State) : Prop :=
  s.phase = .waiting ∧
    ∃ reqfd maxfds uid pipeCapacity, 1 ≤ maxfds ∧ maxfds < 2 ^ 31 ∧
      srvNew reqfd maxfds uid pipeCapacity = some s.world.srv ∧
      FreshKernel reqfd s.world.kern

/-- The request that was received last, if the run ends with one. -/
def State.request (s : State) : Option Received :=
  match s.phase with
  | .requested r _ => some r
  | _ => none

theorem State.phase_of_request {s : State} {r : Received} (h : s.request = some r) :
    ∃ rest, s.phase = .requested r rest := by
  unfold State.request at h
  split at h
  · cases h
    exact ⟨_, ‹_›⟩
  · cases h

/-- The server and its environment. -/
def server : System Fault State (Answers × Label) where
  init := Initial
  next := next

namespace Scenario

/-! A concrete environment, for runs that can be carried out. -/

/-- A file whose bytes count up. -/
def countingFile (size : Nat) (h : size < 2 ^ 63) : FileNode where
  size := size
  byte := UInt8.ofNat
  regular := true
  atime := 1
  mtime := 2
  ctime := 3
  blksize := 4096
  size_lt := h

def tenBytes : FileNode := countingFile 10 (by decide)

/-- Every call succeeds, reads and writes are never short, and clients keep their
copies of what they send.  Locks are refused as `fcntl` refuses them. -/
def answers (node : FileNode) : Answers where
  openFile := fun _ _ => .ok node
  fstat := fun _ => none
  lock := fun _ start len =>
    if 0 ≤ start ∧ (0 ≤ len ∨ 0 ≤ start + len) then none else some EINVAL
  lseek := fun _ => none
  io := fun _ n => .ok n
  stray := fun _ _ => 0
  write := fun _ n => .ok n
  dup := fun _ => none
  malloc := some
  epollAdd := fun _ => none
  timerfdCreate := fun _ => none
  timerfdSettime := fun _ => none
  rights := fun _ => protMaxFds
  clientKeeps := fun _ _ => true
  termSignal := fun _ => true

/-- Standard descriptors, the request socket, the poller and its signal
descriptor. -/
def kernel : Kernel where
  fds := List.toAList [⟨0, .inherited 0⟩, ⟨1, .inherited 0⟩, ⟨2, .inherited 0⟩,
    ⟨3, .inherited 1⟩, ⟨4, .inherited 2⟩, ⟨5, .inherited 3⟩]
  regs := [⟨5, .inherited 3, .sigfd⟩, ⟨3, .inherited 1, .reqfd⟩]
  files := fun _ => none
  nextFile := 0
  errno := 0
  trace := []
  record := []
  tick := 0

def start (maxfds pipeCapacity : Nat) : Option State :=
  (srvNew 3 maxfds 1000 pipeCapacity).map fun srv => ⟨⟨srv, kernel⟩, .waiting⟩

theorem kernel_fresh : FreshKernel 3 kernel where
  inherited := by
    have hall : ∀ entry ∈ kernel.fds.entries, 0 ≤ entry.1 ∧
        (entry.2 = .inherited 0 ∨ entry.2 = .inherited 1 ∨ entry.2 = .inherited 2 ∨
          entry.2 = .inherited 3) := by decide
    intro fd f hf
    obtain ⟨hpos, hkind⟩ := hall ⟨fd, f⟩ (AList.mem_lookup_iff.mp hf)
    rcases hkind with h | h | h | h <;> exact ⟨hpos, _, h⟩
  reqfd_open := by decide
  regs := by decide
  registered := by decide
  files := fun _ => rfl
  trace := rfl
  record := rfl

theorem start_initial {maxfds pipeCapacity : Nat} {s : State} (hpos : 1 ≤ maxfds)
    (hlt : maxfds < 2 ^ 31) (h : start maxfds pipeCapacity = some s) : Initial s := by
  obtain ⟨srv, hsrv, rfl⟩ := Option.map_eq_some_iff.mp h
  exact ⟨rfl, 3, maxfds, 1000, pipeCapacity, hpos, hlt, hsrv, kernel_fresh⟩

/-- A property of the end of a concrete run holds of some reachable state. -/
theorem exists_reachable (guard : Answers × Label → State → Prop)
    [∀ l s, Decidable (guard l s)] (maxfds pipeCapacity : Nat) (ls : List (Answers × Label))
    (P : State → Bool)
    (h : (1 ≤ maxfds ∧ maxfds < 2 ^ 31 ∧
      ((start maxfds pipeCapacity).bind (server.run guard ls)).any P = true)) :
    ∃ s, server.Reachable guard s ∧ P s = true := by
  obtain ⟨hpos, hlt, hany⟩ := h
  obtain ⟨s, hs, hP⟩ := (Option.any_eq_true P _).mp hany
  obtain ⟨s₀, hs₀, hrun⟩ := Option.bind_eq_some_iff.mp hs
  exact ⟨s, System.reachable_of_run (start_initial hpos hlt hs₀) hrun, hP⟩

/-- The same for a guard that the labels of the run meet wherever they meet one that can
be checked. -/
theorem exists_reachable_forall {guard : Answers × Label → State → Prop}
    (checked : Answers × Label → State → Prop) [∀ l s, Decidable (checked l s)]
    (maxfds pipeCapacity : Nat) (ls : List (Answers × Label)) (P : State → Bool)
    (hguard : ∀ l ∈ ls, ∀ s, checked l s → guard l s)
    (h : (1 ≤ maxfds ∧ maxfds < 2 ^ 31 ∧
      ((start maxfds pipeCapacity).bind (server.run checked ls)).any P = true)) :
    ∃ s, server.Reachable guard s ∧ P s = true := by
  obtain ⟨hpos, hlt, hany⟩ := h
  obtain ⟨s, hs, hP⟩ := (Option.any_eq_true P _).mp hany
  obtain ⟨s₀, hs₀, hrun⟩ := Option.bind_eq_some_iff.mp hs
  exact ⟨s, ⟨s₀, start_initial hpos hlt hs₀, System.steps_of_run_forall hrun hguard⟩, hP⟩

/-- The step stops the server with the fault. -/
def failsWith (e : Fault) : Option (Except Fault State) → Bool
  | some (.error e') => e' == e
  | _ => false

theorem eq_of_failsWith {e : Fault} {o : Option (Except Fault State)}
    (h : failsWith e o = true) : o = some (.error e) := by
  unfold failsWith at h
  split at h
  · rw [eq_of_beq h]
  · cases h

/-- The eight bytes of a number, least significant first. -/
def le64 (n : Nat) : List UInt8 := (List.range 8).map fun i => UInt8.ofNat (n / 256 ^ i)

/-- A request for the file called `f`. -/
def fileRequest (cmd : ProtCmdReq) (offset len : Nat) : List UInt8 :=
  [UInt8.ofNat cmd.code, 0, 0, 0, 0, 0, 0, 0] ++ le64 offset ++ le64 len ++ [102, 0]

/-- A request that names a transaction. -/
def txnRequest (cmd : ProtCmdReq) (txnid : Nat) : List UInt8 :=
  [UInt8.ofNat cmd.code, 0, 0, 0, 0, 0, 0, 0] ++ le64 txnid

/-- A client of the server's own user. -/
def client : Ucred := ⟨100, 1000, 1000⟩

/-- The request socket becomes readable. -/
def readable : PollEvent := ⟨.reqfd, false, true, false⟩

/-- The destination of a transfer becomes writable. -/
def writable (p : Ptr) : PollEvent := ⟨.xfer p, false, false, true⟩

/-- The poller reports an error on the destination of a transfer. -/
def failing (p : Ptr) : PollEvent := ⟨.xfer p, true, false, false⟩

/-- A timer expires. -/
def expiring (t : Ptr) : PollEvent := ⟨.timer t, false, true, false⟩

/-- One iteration of the loop that receives some datagrams and nothing else. -/
def serve (ans : Answers) (ds : List Datagram) : List (Answers × Label) :=
  [(ans, .wait [readable]), (ans, .event (-1, -1))] ++
    ds.flatMap (fun d => [(ans, .receive d), (ans, .request)]) ++
    [(ans, .receiveFailed EAGAIN), (ans, .deferred)]

/-- One iteration that handles a single event of a transfer. -/
def handle (ans : Answers) (ev : PollEvent) : List (Answers × Label) :=
  [(ans, .wait [ev]), (ans, .event (-1, -1)), (ans, .deferred)]

end Scenario

end Sendfiled
