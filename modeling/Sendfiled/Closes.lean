/-
Closing descriptors.  Two paths close a descriptor that they have closed already: a
SEND_OPEN that is refused, and a FILE_OPEN whose timer cannot be registered; and a SEND
with a single descriptor takes descriptor zero for its destination, which may belong to
somebody else.  In all other steps a descriptor is open when the server closes it.
-/
import Sendfiled.Registrations

namespace Sendfiled

open Prog Transition Ownership

/-- Every descriptor was open when it was closed.  Negative numbers stand for no
descriptor. -/
def ClosesOpen (trace : List Effect) : Prop := ∀ fd, 0 ≤ fd → Effect.closed fd false ∉ trace

/-- The descriptor is closed a second time without having been opened or received since:
it is not open then. -/
def ClosedTwice (trace : List Effect) : Prop :=
  ∃ fd before between after, 0 ≤ fd ∧
    trace = before ++ .closed fd true :: between ++ .closed fd false :: after

theorem ClosesOpen.not_closedTwice {trace : List Effect} (h : ClosesOpen trace) :
    ¬ ClosedTwice trace := by
  rintro ⟨fd, before, between, after, hnonneg, htrace⟩
  apply h fd hnonneg
  rw [htrace]
  simp

theorem ClosesOpen.append {trace tr : List Effect} (h : ClosesOpen trace)
    (htr : ∀ e ∈ tr, ∀ fd, e ≠ .closed fd false) : ClosesOpen (trace ++ tr) := by
  intro fd hnonneg hmem
  rcases List.mem_append.mp hmem with hold | hnew
  · exact h fd hnonneg hold
  · exact htr _ hnew fd rfl

section Kernel

variable {k : Kernel} (ans : Answers)

theorem Kernel.close_trace_eq (fd : Fd) (k : Kernel) :
    (k.close ans fd).2.trace = k.trace ++ [.closed fd (decide (fd ∈ k.fds))] := by
  unfold Kernel.close
  split
  · rename_i hnone
    have hout : fd ∉ k.fds := AList.lookup_eq_none.mp hnone
    simp [Kernel.log, Kernel.fail, hout]
  · rename_i f hf
    have hin : fd ∈ k.fds := Kernel.mem_of_lookup hf
    simp [Kernel.log, Kernel.succeed, hin]

theorem ClosesOpen.close {fd : Fd} (h : ClosesOpen k.trace) (hfd : 0 ≤ fd → fd ∈ k.fds) :
    ClosesOpen (k.close ans fd).2.trace := by
  rw [Kernel.close_trace_eq]
  intro fd' hnonneg hmem
  rcases List.mem_append.mp hmem with hold | hnew
  · exact h fd' hnonneg hold
  · have hsame := List.mem_singleton.mp hnew
    rw [Effect.closed.injEq] at hsame
    obtain ⟨rfl, hout⟩ := hsame
    exact of_decide_eq_false hout.symm (hfd hnonneg)

theorem Kernel.mem_close {fd fd' : Fd} (hne : fd' ≠ fd) (hmem : fd' ∈ k.fds) :
    fd' ∈ (k.close ans fd).2.fds :=
  (Kernel.mem_congr (Kernel.close_lookup ans k hne)).mpr hmem

/-- A transfer's descriptors are open and its file is none of its channels. -/
structure Intact (x : ResrcXfer) (fds : FdTable) : Prop where
  stat : 0 ≤ x.statFd → x.statFd ∈ fds
  dest : 0 ≤ x.destFd → x.destFd ∈ fds
  file : 0 ≤ x.file.fd → x.file.fd ∈ fds ∧ x.file.fd ≠ x.statFd ∧ x.file.fd ≠ x.destFd

theorem ClosesOpen.closeAll {x : ResrcXfer} (h : ClosesOpen k.trace) (hx : Intact x k.fds) :
    ClosesOpen (k.closeAll ans x).trace := by
  have hstat := h.close ans hx.stat
  unfold Kernel.closeAll Kernel.closeDest
  split
  · rename_i hdest
    apply (hstat.close ans fun hnonneg => Kernel.mem_close ans hdest.1 (hx.dest hnonneg)).close
    intro hnonneg
    obtain ⟨hmem, hne, hne'⟩ := hx.file hnonneg
    exact Kernel.mem_close ans hne' (Kernel.mem_close ans hne hmem)
  · apply hstat.close
    intro hnonneg
    obtain ⟨hmem, hne, -⟩ := hx.file hnonneg
    exact Kernel.mem_close ans hne hmem

end Kernel

section Actions

variable {a : Action} {c c' : Config} {L : List Fd} {s : Server} {k : Kernel} {p : Ptr}
  {x : ResrcXfer}

/-- What a transfer owns is open, and its file is not also one of its channels. -/
theorem Descriptors.intact (h : Descriptors (0 ≤ ·) ⟨L, ⟨s, k⟩⟩) (hx : s.xferAt p = some x) :
    Intact x k.fds where
  stat := fun hnonneg => h.mem (o := .channel p) hnonneg ⟨x, hx, Or.inl rfl⟩
  dest := fun hnonneg => h.mem (o := .channel p) hnonneg ⟨x, hx, Or.inr rfl⟩
  file := by
    intro hnonneg
    have hown : s.Owns L (.file p) x.file.fd := ⟨x, hx, rfl⟩
    refine ⟨h.mem hnonneg hown, fun heq => ?_, fun heq => ?_⟩
    · cases h.eq_of_owns (.channel p) hnonneg hown ⟨x, hx, Or.inl heq⟩
    · cases h.eq_of_owns (.channel p) hnonneg hown ⟨x, hx, Or.inr heq⟩

/-- No action but the two that repeat a `close` closes a descriptor that is not open. -/
theorem ClosesOpen.performs (h : ClosesOpen c.world.kern.trace) (hd : Descriptors (0 ≤ ·) c)
    (hreshut : ∀ fd, a ≠ .reshut fd) (hbotch : ∀ t, a ≠ .botch t) (hp : Performs a c c') :
    ClosesOpen c'.world.kern.trace := by
  cases hp with
  | quiet _ _ hk => exact hk.trace ▸ h
  | openFile | seek | openTimer | arrive | dup | register | forget | enroll | skip | cancel
  | ready | release | assign | addTimer | skipTimer | arm | addResp | skipResp => exact h
  | say | balk =>
      apply h.append
      intro e he fd hclosed
      cases List.mem_singleton.mp he
      cases hclosed
  | move ans _ _ _ _ hm =>
      obtain ⟨bytes, -, htr⟩ := Kernel.moveBytes_trace ans _ hm
      rw [show ({ loose := _, world := _ } : Config).world.kern.trace = _ from htr]
      apply h.append
      intro e he fd hclosed
      cases List.mem_singleton.mp he
      cases hclosed
  | @shut L s k fd ans hfd =>
      apply h.close
      intro hnonneg
      rcases hfd with hin | hneg
      · exact hd.mem (o := .hand) hnonneg hin
      · exact absurd hnonneg (Int.not_le.mpr hneg)
  | reshut => exact absurd rfl (hreshut _)
  | botch => exact absurd rfl (hbotch _)
  | retire ans hx => exact h.close ans fun hnonneg => ((hd.intact hx).file hnonneg).1
  | @discard L s k p x ans hx | @bury L s k i p x ans _ hx =>
      have hdel : ClosesOpen (k.epollDel x.destFd).2.trace := by
        rw [Kernel.epollDel_trace]
        exact h
      apply hdel.closeAll
      rw [Kernel.epollDel_fds]
      exact hd.intact hx
  | @expire L s k t tm ans ht =>
      exact h.close ans fun hnonneg => hd.mem (o := .timer t) hnonneg ⟨tm, ht, rfl⟩
  | @dropResp L s k r resp ans hr =>
      exact h.close ans fun hnonneg => hd.mem (o := .resp r) hnonneg ⟨resp, hr, rfl⟩

end Actions

/-- The next request is a SEND_OPEN with a descriptor for which there is no open file. -/
def State.refusesSendOpen (s : State) : Bool :=
  match s.phase with
  | .requested r _ => r.uid == s.world.srv.uid && decide (0 < r.nfds) &&
      (protUnmarshalSendOpen s.world.srv.recvbuf).isSome &&
      (s.world.srv.namedBy .sendOpen r).all fun named => named.2.defer == .cancel
  | _ => false

/-- The next request is a FILE_OPEN. -/
def State.opensFile (s : State) : Bool :=
  match s.phase with
  | .requested r _ => r.uid == s.world.srv.uid &&
      (protUnmarshalRequest s.world.srv.recvbuf r.nread).any fun req => req.cmd == .fileOpen
  | _ => false

/-- The steps that close nothing twice: no SEND_OPEN is refused, no timer of a FILE_OPEN,
and every SEND brings its destination. -/
structure ClosesOnce (l : Answers × Label) (s : State) : Prop where
  dest : l.2 = .request → s.lacksDest = false
  accepted : l.2 = .request → s.refusesSendOpen = false
  timer : l.2 = .request → s.opensFile = true → ¬ l.1.TimerRefused s.world.kern

/-- The actions that are performed in such steps. -/
def closesOnce (a : Action) (c : Config) : Prop :=
  Descriptors.Entitled (0 ≤ ·) a c ∧ (∀ fd, a ≠ .reshut fd) ∧ ∀ t, a ≠ .botch t

theorem ClosesOnce.grants {ans : Answers} {l : Label} {s : State} (hg : ClosesOnce (ans, l) s)
    (hok : PhaseOk s) : ∀ a c, StepMay ans l s a c → closesOnce a c := by
  intro a c ha
  refine ⟨ha.entitled hg.dest hok, ?_, ?_⟩
  · rintro fd rfl
    obtain ⟨r, rest, txnid, rfl, hphase, huid, hnfds, htxnid, hnone⟩ := ha.reshut_cases
    have hpos : 0 < r.nfds := hnfds (by rw [protUnmarshalTxnid_cmd htxnid]; decide)
    have haccepted := hg.accepted rfl
    simp only [State.refusesSendOpen, hphase, huid, hpos, htxnid, beq_self_eq_true, decide_true,
      Option.isSome_some, Bool.true_and, Option.all_eq_false] at haccepted
    obtain ⟨⟨p, x⟩, hnamed, hdefer⟩ := haccepted
    obtain ⟨-, -, hfind, hx, hpid⟩ := Server.namedBy_eq_some hnamed htxnid
    simp [hnone p x hfind hx hpid] at hdefer
  · rintro t rfl
    obtain ⟨r, rest, req, rfl, hphase, huid, -, hreq, hcmd, -, hrefused⟩ := ha.botch_cases
    refine hg.timer rfl ?_ hrefused
    simp [State.opensFile, hphase, huid, hreq, hcmd]

/-- Ownership is exclusive, and every descriptor was open when it was closed. -/
structure Tidy (c : Config) : Prop where
  descriptors : Descriptors (0 ≤ ·) c
  closes : ClosesOpen c.world.kern.trace

theorem tidy_kept : Kept closesOnce ClosesOnce Tidy where
  grants := fun _ _ _ hg _ hok _ => hg.grants hok
  acts := fun _ _ _ _ ha hp h =>
    ⟨h.descriptors.performs (fun _ hnonneg => hnonneg) ha.1 hp,
      h.closes.performs h.descriptors ha.2.1 ha.2.2 hp⟩

theorem tidy_initial (s : State) (h : Initial s) : Tidy s.config := by
  refine ⟨h.descriptors _, ?_⟩
  obtain ⟨-, reqfd, -, -, -, -, -, -, hkern⟩ := h
  intro fd _ hmem
  rw [show s.config.world.kern.trace = [] from hkern.trace] at hmem
  cases hmem

/-- The server without its request socket. -/
def World.unbound (w : World) : Config := ⟨[], ⟨{ w.srv with reqfd := -1 }, w.kern⟩⟩

/-- Closing the request socket leaves everything else open. -/
theorem Tidy.unbind {w : World} (h : Tidy ⟨[], w⟩) (ans : Answers) :
    Tidy (World.unbound ⟨w.srv, (w.kern.close ans w.srv.reqfd).2⟩) := by
  have hown : ∀ o fd, 0 ≤ fd → ({ w.srv with reqfd := -1 } : Server).Owns [] o fd →
      o ≠ .socket ∧ w.srv.Owns [] o fd := by
    intro o fd hnonneg ho
    cases o with
    | socket =>
        rw [show fd = -1 from ho] at hnonneg
        exact absurd hnonneg (by decide)
    | hand | file | channel | timer | resp => exact ⟨nofun, ho⟩
  refine ⟨?_, h.closes.close ans fun hnonneg => h.descriptors.mem (o := .socket) hnonneg rfl⟩
  apply h.descriptors.lose (List.Sublist.refl _) (fun o fd hnonneg ho => (hown o fd hnonneg ho).2)
  · intro fd hfd
    rw [Kernel.close_fds, AList.mem_erase] at hfd
    exact hfd.2
  · intro fd hnonneg hopen
    by_cases hfd : fd = w.srv.reqfd
    · exact Or.inr ⟨.socket, hfd, fun ho => (hown _ fd hnonneg ho).1 rfl⟩
    · exact Or.inl (Kernel.mem_close ans hfd hopen)

theorem Tidy.deleteXfer {w : World} (h : Tidy w.unbound) (ans : Answers) {p : Ptr}
    {x : ResrcXfer} (hx : w.srv.xferAt p = some x) :
    Tidy (World.unbound ⟨(w.srv.release x.addr).dropXfer p, w.kern.closeAll ans x⟩) := by
  refine ⟨?_, h.closes.closeAll ans (h.descriptors.intact hx)⟩
  apply h.descriptors.closeAll ans hx
  exact fun o fd ho => ho.of_dropXfer rfl rfl rfl rfl

theorem Tidy.deleteTimer {w : World} (h : Tidy w.unbound) (ans : Answers) {t : Ptr}
    {tm : ResrcTimer} (ht : w.srv.timerAt t = some tm) :
    Tidy (World.unbound ⟨(w.srv.release tm.addr).dropTimer t, (w.kern.close ans tm.ident).2⟩) := by
  have hown : ∀ o fd, (World.unbound ⟨(w.srv.release tm.addr).dropTimer t,
      (w.kern.close ans tm.ident).2⟩).world.srv.Owns [] o fd →
      w.unbound.world.srv.Owns [] o fd ∧ o ≠ .timer t :=
    fun o fd ho => ho.of_dropTimer rfl rfl rfl rfl
  constructor
  · apply h.descriptors.closed ans (List.Sublist.refl _) fun o fd ho => (hown o fd ho).1
    intro _ _
    exact ⟨.timer t, ⟨tm, ht, rfl⟩, fun ho => (hown _ _ ho).2 rfl⟩
  · apply h.closes.close
    intro hnonneg
    exact h.descriptors.mem (o := .timer t) hnonneg ⟨tm, ht, rfl⟩

/-- The shutdown closes nothing twice either. -/
theorem shutdown_closesOpen {ans : Answers} {w : World} {s : State} (hc : Ledger w.srv)
    (h : Tidy ⟨[], w⟩) (hs : shutdown ans w = .ok s) : ClosesOpen s.world.kern.trace := by
  have hstart : Tidy ⟨[], ⟨w.srv, { w.kern with regs := [] }⟩⟩ :=
    ⟨h.descriptors.same (List.Sublist.refl _) rfl fun _ _ _ ho => ho, h.closes⟩
  have hwp : wp (srvDelete ans) (fun _ w' => ClosesOpen w'.kern.trace) (fun _ _ => False) w :=
    wp_srvDelete_loops ans (I := fun w' => Tidy w'.unbound) hc (hstart.unbind ans)
      (fun p x w' hx h' => h'.deleteXfer ans hx) (fun t tm w' ht h' => h'.deleteTimer ans ht)
      fun w' _ h' => h'.closes
  unfold shutdown settle at hs
  cases hend : srvDelete ans w with
  | done u w' =>
      rw [hend] at hs
      cases hs
      exact wp_done hwp hend
  | fault e w' =>
      rw [hend] at hs
      cases hs

/-- In every run in which no SEND_OPEN is refused, no timer of a FILE_OPEN is refused by
the poller and every SEND brings its destination: whatever the server closes is open, so
that nothing is closed twice. -/
theorem nothing_closed_twice {s : State} (hr : server.Reachable ClosesOnce s) :
    ClosesOpen s.world.kern.trace ∧ ¬ ClosedTwice s.world.kern.trace := by
  have hopen : ClosesOpen s.world.kern.trace := by
    rcases tidy_kept.reachable tidy_initial hr with hs | ⟨-, w, hledger, htidy, -, ans, hshut⟩
    · exact hs.inv.closes
    · exact shutdown_closesOpen hledger htidy hshut
  exact ⟨hopen, hopen.not_closedTwice⟩

section Runs

open Scenario

/-- The part of `ClosesOnce` that is about the state, given a poller that refuses
nothing. -/
def closesOnceHere (l : Answers × Label) (s : State) : Bool :=
  l.2 != .request || (!s.lacksDest && !s.refusesSendOpen &&
    s.world.kern.regs.all fun reg => match reg.file with
      | .timerfd n => decide (n < s.world.kern.nextFile)
      | _ => true)

theorem closesOnce_of_here {l : Answers × Label} {s : State}
    (h : closesOnceHere l s = true) (hadd : ∀ n, l.1.epollAdd n = none) : ClosesOnce l s := by
  unfold closesOnceHere at h
  have hhere : l.2 = .request → (s.lacksDest = false ∧ s.refusesSendOpen = false) ∧
      ∀ reg ∈ s.world.kern.regs, ∀ n, reg.file = .timerfd n → n < s.world.kern.nextFile := by
    intro hl
    simp only [hl, bne_self_eq_false, Bool.false_or, Bool.and_eq_true, Bool.not_eq_true',
      List.all_eq_true] at h
    refine ⟨h.1, fun reg hreg n hn => ?_⟩
    simpa [hn] using h.2 reg hreg
  refine ⟨fun hl => (hhere hl).1.1, fun hl => (hhere hl).1.2, fun hl _ hrefused => ?_⟩
  rcases hrefused with ⟨n, e, he⟩ | ⟨reg, hreg, n, hle, hn⟩
  · rw [hadd n] at he
    cases he
  · exact absurd ((hhere hl).2 reg hreg n hn) (Nat.not_lt.mpr hle)

/-- A file that is opened and sent to its end. -/
def openAndFinish : List (Answers × Label) :=
  openAndSend ++ [(answers tenBytes, .event (-1, -1)), (answers tenBytes, .deferred)]

theorem openAndFinish_closesOnce : ∀ l ∈ openAndFinish, ∀ s,
    closesOnceHere l s = true → ClosesOnce l s := by
  intro l hl s hs
  apply closesOnce_of_here hs
  have hans : l.1 = answers tenBytes := by
    simp only [openAndFinish, openAndSend, serve, List.cons_append, List.nil_append,
      List.mem_cons, List.flatMap_cons, List.flatMap_nil, List.not_mem_nil, or_false] at hl
    rcases hl with rfl | rfl | rfl | rfl | rfl | rfl | rfl | rfl | rfl | rfl | rfl <;> rfl
  intro n
  rw [hans]
  rfl

theorem nothing_closed_twice_of_openAndFinish : ∃ s, server.Reachable ClosesOnce s ∧
    s.world.srv.xferAt 0 = none ∧ Effect.closed 6 true ∈ s.world.kern.trace ∧
    ClosesOpen s.world.kern.trace := by
  obtain ⟨s, hr, hP⟩ := exists_reachable_forall (fun l s => closesOnceHere l s = true) 4 100
    openAndFinish
    (fun s => (s.world.srv.xferAt 0).isNone && s.world.kern.trace.contains (.closed 6 true))
    openAndFinish_closesOnce (by decide +kernel)
  simp only [Bool.and_eq_true, Option.isNone_iff_eq_none, List.contains_iff_mem] at hP
  exact ⟨s, hr, hP.1, hP.2, (nothing_closed_twice hr).1⟩

/-- What a trace looks like in which the descriptor was closed twice. -/
def closesAgain (fd : Fd) : List Effect → Bool
  | [] => false
  | e :: rest => (e == .closed fd true && rest.contains (.closed fd false)) || closesAgain fd rest

theorem closedTwice_of_closesAgain {fd : Fd} (hfd : 0 ≤ fd) {trace : List Effect}
    (h : closesAgain fd trace = true) : ClosedTwice trace := by
  induction trace with
  | nil => cases h
  | cons e rest ih =>
      rw [closesAgain, Bool.or_eq_true, Bool.and_eq_true, beq_iff_eq, List.contains_iff_mem] at h
      rcases h with ⟨rfl, hmem⟩ | h
      · obtain ⟨between, after, rfl⟩ := List.append_of_mem hmem
        exact ⟨fd, [], between, after, hfd, rfl⟩
      · obtain ⟨fd', before, between, after, hfd', rfl⟩ := ih h
        exact ⟨fd', e :: before, between, after, hfd', rfl⟩

/-- A SEND_OPEN for a transaction that does not exist: the descriptor is closed by
`process_request` and again by `close_fds`. -/
theorem closed_twice_by_sendOpen : ∃ s, server.Reachable System.always s ∧
    ClosedTwice s.world.kern.trace := by
  obtain ⟨s, hr, hP⟩ := exists_reachable System.always 4 100
    (serve (answers tenBytes) [⟨txnRequest .sendOpen 7, [1], some client⟩])
    (fun s => closesAgain 6 s.world.kern.trace) (by decide +kernel)
  exact ⟨s, hr, closedTwice_of_closesAgain (by decide) hP⟩

/-- A FILE_OPEN whose timer the poller refuses: `syspoll_timer` closes the timer's
descriptor, and `add_open_file` deletes the timer, which closes it again. -/
theorem closed_twice_by_fileOpen : ∃ s,
    server.Reachable (fun _ s => s.refusesSendOpen = false) s ∧
    ClosedTwice s.world.kern.trace := by
  obtain ⟨s, hr, hP⟩ := exists_reachable (fun _ s => s.refusesSendOpen = false) 4 100
    (serve { answers tenBytes with epollAdd := fun _ => some ENOSPC }
      [⟨fileRequest .fileOpen 0 0, [1], some client⟩])
    (fun s => closesAgain 8 s.world.kern.trace) (by decide +kernel)
  exact ⟨s, hr, closedTwice_of_closesAgain (by decide) hP⟩

/-- Requests that bring no destination: the status channel of an open file is closed
with the transfer that took it for its destination, and with the open file. -/
theorem closed_twice_by_singleSend : ∃ s,
    server.Reachable (fun l s => s.refusesSendOpen = false ∧ l.1.epollAdd 0 = none) s ∧
    ClosedTwice s.world.kern.trace := by
  let ans := answers tenBytes
  obtain ⟨s, hr, hP⟩ := exists_reachable
    (fun l s => s.refusesSendOpen = false ∧ l.1.epollAdd 0 = none) 4 100
    (serve ans [⟨fileRequest .send 0 0, [1], some client⟩] ++ handle ans (writable 0) ++
      serve ans [⟨fileRequest .fileOpen 0 0, [2], some client⟩,
        ⟨fileRequest .send 0 0, [3], some client⟩, ⟨txnRequest .cancel 2, [], some client⟩] ++
      handle ans (writable 3))
    (fun s => closesAgain 0 s.world.kern.trace) (by decide +kernel)
  exact ⟨s, hr, closedTwice_of_closesAgain (by decide) hP⟩

end Runs

end Sendfiled
