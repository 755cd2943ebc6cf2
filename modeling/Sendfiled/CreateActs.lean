/-
Opening files and creating transfers and their timers as sequences of actions.
-/
import Sendfiled.CodeActs

namespace Sendfiled

open Prog

variable {A : Action → Config → Prop} {c₀ : Config} {L : List Fd} {w : World}
  {ans : Answers}

/-- Where the transfer of a requested range starts. -/
def startOf (offset : BitVec 64) : Nat := if 0 < offset.toInt then offset.toNat else 0

/-- The descriptor is the requested file, positioned at the requested offset. -/
def Answers.Supplies (ans : Answers) (req : ProtRequest) (k : Kernel) (fd : Fd) : Prop :=
  ∃ node, (∃ t, ans.openFile t req.filename = .ok node) ∧
    k.Positioned fd node (startOf req.offset)

/-- The destination a request gives its transfer. -/
def ProtRequest.destFd (req : ProtRequest) (fds : Fd × Fd) : Fd :=
  match req.cmd with
  | .fileOpen => -1
  | .send => fds.2
  | _ => fds.1

theorem Kernel.Quiet.positioned {k k' : Kernel} (h : k.Quiet k') {fd : Fd} {node : FileNode}
    {start : Nat} (hpos : k.Positioned fd node start) : k'.Positioned fd node start := by
  unfold Kernel.Positioned
  rw [h.fds, h.files]
  exact hpos

theorem Kernel.opened_positioned (node : FileNode) (k : Kernel) :
    (k.opened node).2.Positioned (k.opened node).1 node 0 := by
  refine ⟨k.nextFile, ?_, ?_⟩
  · simp [opened, install]
  · simp [opened, install]

theorem Kernel.sought_positioned {k : Kernel} {fd : Fd} {node : FileNode} {n start : Nat}
    (offset : Nat) (hn : k.fds.lookup fd = some (.file n)) (hpos : k.Positioned fd node start) :
    (k.sought n offset).Positioned fd node offset := by
  obtain ⟨n', hn', hst⟩ := hpos
  have hnn : n' = n := by
    rw [hn] at hn'
    cases hn'
    rfl
  subst hnn
  refine ⟨n', hn, ?_⟩
  simp [sought, hst]

/-- The descriptors that were open still refer to the same files. -/
def Kernel.Extends (k k' : Kernel) : Prop :=
  ∀ fd f, k.fds.lookup fd = some f → k'.fds.lookup fd = some f

theorem Kernel.Extends.of_eq {k k' : Kernel} (h : k'.fds = k.fds) : k.Extends k' :=
  fun _ _ hf => h ▸ hf

theorem Kernel.install_extends (g : OpenFile) (k : Kernel) : k.Extends (k.install g).2 := by
  intro fd f hf
  have hmem : fd ∈ k.fds.keys := AList.lookup_isSome.mp (by rw [hf]; rfl)
  have hne : fd ≠ (k.install g).1 := by
    rintro rfl
    exact lowestFree_notMem k.fds.keys hmem
  exact (AList.lookup_insert_ne hne).trans hf

theorem Kernel.Extends.mem {k k' : Kernel} (h : k.Extends k') {fd : Fd} (hfd : fd ∈ k.fds) :
    fd ∈ k'.fds := by
  obtain ⟨f, hf⟩ := Option.isSome_iff_exists.mp (AList.lookup_isSome.mpr hfd)
  exact AList.lookup_isSome.mp (by rw [h fd f hf]; rfl)

/-- A timer does not become descriptor zero while that is taken. -/
theorem Kernel.openedTimer_pos {k : Kernel} (h0 : (0 : Fd) ∈ k.fds) : 0 < k.openedTimer.1 := by
  apply Int.lt_iff_le_and_ne.mpr
  refine ⟨lowestFree_nonneg k.fds.keys, fun hzero => ?_⟩
  apply lowestFree_notMem k.fds.keys
  exact (show 0 = lowestFree k.fds.keys from hzero) ▸ h0

theorem Kernel.install_lookup (f : OpenFile) (k : Kernel) :
    (k.install f).2.fds.lookup (k.install f).1 = some f :=
  AList.lookup_insert k.fds

theorem Kernel.opened_extends (node : FileNode) (k : Kernel) : k.Extends (k.opened node).2 :=
  fun fd f hf => Kernel.install_extends _ { k with files := _, nextFile := _ } fd f hf

/-- What a successful registration changes. -/
structure Enlists (fd : Fd) (u : Udata) (w w' : World) : Prop where
  srv : w'.srv = w.srv
  fds : w'.kern.fds = w.kern.fds
  regs : ∃ f, w.kern.fds.lookup fd = some f ∧ w'.kern.regs = w.kern.regs ++ [⟨fd, f, u⟩]
  trace : w'.kern.trace = w.kern.trace

/-- The timer is registered with the poller. -/
structure World.Watches (w : World) (t : Ptr) (tm : ResrcTimer) : Prop where
  timer : w.srv.timerAt t = some tm
  pos : 0 < tm.ident
  reg : ∃ f, w.kern.fds.lookup tm.ident = some f ∧ ⟨tm.ident, f, .timer t⟩ ∈ w.kern.regs

/-- The open file has a timer of its own, and the poller watches it. -/
def World.Armed (w : World) (x : ResrcXfer) : Prop :=
  ∃ t tm, w.Watches t tm ∧ tm.txnid = x.txnid ∧ tm.xferAddr = x.addr

/-- Why a new timer is not registered: the poller refuses it, or it mistakes it for an
older one. -/
def Answers.TimerRefused (ans : Answers) (k : Kernel) : Prop :=
  (∃ n e, ans.epollAdd n = some e) ∨
    ∃ reg ∈ k.regs, ∃ n, k.nextFile ≤ n ∧ reg.file = .timerfd n

section Files

variable (hA : Permissive A) (h : Acts A c₀ ⟨L, w⟩)

include hA h

theorem wp_fileOpenRead (h0 : (0 : Fd) ∈ w.kern.fds) {name : List UInt8}
    {offset len : BitVec 64} {Q : Option (Fd × FioStat) → World → Prop}
    (hnone : ∀ w', w'.srv = w.srv → Acts A c₀ ⟨L, w'⟩ → Q none w')
    (hsome : ∀ fd info node w', w'.srv = w.srv → w'.kern.regs = w.kern.regs →
      w'.kern.trace = w.kern.trace → w.kern.nextFile ≤ w'.kern.nextFile → w.kern.Extends w'.kern →
      (∃ t, ans.openFile t name = .ok node) →
      w'.kern.Positioned fd node (startOf offset) →
      Acts A c₀ ⟨fd :: L, w'⟩ → Q (some (fd, info)) w') :
    wp (fileOpenRead ans name offset len) Q (Faulty A c₀) w := by
  simp only [fileOpenRead, wp_bind, wp_sys]
  obtain ⟨k', heq, hk⟩ | ⟨node, k', heq, hnode, hk⟩ := Kernel.openFile_spec ans name w.kern
  · simp only [heq]
    exact hnone _ rfl (h.kernQuiet hA hk)
  simp only [heq]
  have hopen : Acts A c₀ ⟨(w.kern.opened node).1 :: L, ⟨w.srv, k'⟩⟩ :=
    Acts.kernQuiet (w := ⟨w.srv, _⟩) hA
      (h.snoc (hA .openFile _ rfl) (.openFile h0)) hk
  have hpos : k'.Positioned (w.kern.opened node).1 node 0 :=
    hk.positioned (Kernel.opened_positioned node w.kern)
  have hregs : k'.regs = w.kern.regs := hk.regs
  have htrace : k'.trace = w.kern.trace := hk.trace
  have hnext : w.kern.nextFile ≤ k'.nextFile := by
    rw [hk.nextFile]
    exact Nat.le_succ _
  have hext : w.kern.Extends k' := fun fd f hf =>
    hk.fds ▸ Kernel.opened_extends node w.kern fd f hf
  generalize (w.kern.opened node).1 = fd at hopen hpos
  have hfail : ∀ w', w'.srv = w.srv → Acts A c₀ ⟨fd :: L, w'⟩ →
      wp (do preserveErrno (close ans fd); pure none) Q (Faulty A c₀) w' := by
    intro w' hsrv hacts
    simp only [wp_bind, wp_pure]
    refine wp_preserveErrno_close hA hacts (Or.inl List.mem_cons_self) fun w'' hsrv' h' => ?_
    rw [List.erase_cons_head] at h'
    exact hnone w'' (hsrv'.trans hsrv) h'
  have hstat : k'.Quiet (k'.fstat ans).2 := Kernel.quiet_attempt _ _
  have hlock : k'.Quiet ((k'.fstat ans).2.lock ans offset.toInt len.toInt).2 :=
    hstat.trans (Kernel.quiet_attempt _ _)
  have hlocked := hopen.kernQuiet hA hlock
  simp only [wp_bind, wp_sys]
  rw [wp_ite]
  refine ⟨fun _ => ?_, fun _ => hfail _ rfl (hopen.kernQuiet hA hstat)⟩
  rw [wp_ite]
  refine ⟨fun _ => ?_, fun _ => ?_⟩
  · simp only [wp_bind, wp_sys]
    rw [wp_ite]
    refine ⟨fun _ => ?_, fun _ => hfail _ rfl hlocked⟩
    have hregs' := hlock.regs.trans hregs
    have htrace' := hlock.trace.trans htrace
    have hnext' := Nat.le_trans hnext (Nat.le_of_eq hlock.nextFile.symm)
    have hext' : w.kern.Extends ((k'.fstat ans).2.lock ans offset.toInt len.toInt).2 :=
      fun fd f hf => hlock.fds ▸ hext fd f hf
    rw [wp_ite]
    refine ⟨fun hoff => ?_, fun hoff => ?_⟩
    case refine_2 =>
      have hstart : startOf offset = 0 := if_neg hoff
      exact hsome fd _ node _ rfl hregs' htrace' hnext' hext' ⟨_, hnode⟩
        (hstart ▸ hlock.positioned hpos) hlocked
    simp only [wp_bind, wp_sys]
    obtain ⟨k'', heq', hk'⟩ | ⟨n, k'', heq', hn, hk'⟩ :=
      Kernel.lseek_spec ans fd offset.toNat ((k'.fstat ans).2.lock ans offset.toInt len.toInt).2
    · simp only [heq']
      exact hfail _ rfl (hlocked.kernQuiet hA hk')
    · simp only [heq', if_pos, wp_pure]
      have hsought := hk'.positioned (Kernel.sought_positioned _ hn (hlock.positioned hpos))
      rw [← show startOf offset = offset.toNat from if_pos hoff] at hsought
      exact hsome fd _ node _ rfl (hk'.regs.trans hregs') (hk'.trace.trans htrace')
        (Nat.le_trans hnext' (Nat.le_of_eq hk'.nextFile.symm))
        (fun fd f hf => hk'.fds ▸ hext' fd f hf) ⟨_, hnode⟩ hsought
        (Acts.kernQuiet (w := ⟨w.srv, _⟩) hA
          (hlocked.snoc (hA .seek _ rfl) (.seek List.mem_cons_self hn)) hk')
  · simp only [wp_bind, wp_setErrno]
    exact hfail _ rfl (hopen.kernQuiet hA (hstat.trans (Kernel.quiet_errno _ _)))

/-- No transfer has come into being. -/
def Server.Unborn (s s' : Server) : Prop := ∀ q, s.xferAt q = none → s'.xferAt q = none

/-- One transfer has come into being. -/
structure Server.Bears (s : Server) (x : ResrcXfer) (s' : Server) : Prop where
  xferAt : s'.xferAt s.nextPtr = some x
  others : ∀ q ≠ s.nextPtr, s'.xferAt q = s.xferAt q

/-- What a request makes of a new transfer. -/
structure Created (req : ProtRequest) (clientPid : Nat) (statFd destFd : Fd)
    (x : ResrcXfer) : Prop where
  cmd : x.cmd = req.cmd
  clientPid : x.clientPid = clientPid
  statFd : x.statFd = statFd
  destFd : x.destFd = destFd
  defer : x.defer = .none
  left : x.nbytesLeft = x.file.size

omit h in
theorem wp_insertXfer {req : ProtRequest} {clientPid start : Nat} {node : FileNode}
    {statFd destFd fd : Fd} {info : FioStat} {nbytes : BitVec 64} (h : Acts A c₀ ⟨fd :: L, w⟩)
    (hroom : w.srv.xfers.size ≠ w.srv.xfers.capacity)
    (hstat : statFd ∈ L) (hdest : destFd ∈ L ∨ destFd = -1 ∨ destFd = 0)
    (hcmd : req.cmd = .fileOpen → destFd = -1)
    (hkind : ∀ n, w.kern.fds.lookup statFd ≠ some (.file n))
    (hpos : w.kern.Positioned fd node start)
    (henroll : ∀ x c, Created req clientPid statFd destFd x → x.file.fd = fd →
      fd :: L = c.loose → c.world.kern.Positioned fd node start →
      c.world.srv.nextPtr = w.srv.nextPtr → A (.enroll x) c)
    {Q : Option (Ptr × FioStat) → World → Prop}
    (hnone : ∀ w', w.srv.Unborn w'.srv → Acts A c₀ ⟨L, w'⟩ → Q none w')
    (hsome : ∀ x info' w', w.srv.Bears x w'.srv → w'.srv.nextPtr = w.srv.nextPtr + 1 →
      w'.kern.regs = w.kern.regs → w'.kern.trace = w.kern.trace →
      w'.kern.nextFile = w.kern.nextFile → w'.kern.fds = w.kern.fds →
      Created req clientPid statFd destFd x →
      info'.size = x.file.size.toNat → Acts A c₀ ⟨(L.erase statFd).erase destFd, w'⟩ →
      Q (some (w.srv.nextPtr, info')) w') :
    wp (insertXfer ans req clientPid statFd destFd fd info nbytes) Q (Faulty A c₀) w := by
  simp only [insertXfer, xferNew, wp_bind, wp_gets]
  refine wp_malloc hA h fun o w₁ hs hk h₁ => ?_
  cases o with
  | none =>
      simp only [wp_pure, wp_bind]
      refine wp_preserveErrno_close hA h₁ (Or.inl List.mem_cons_self) fun w₂ hsrv₂ h₂ => ?_
      rw [List.erase_cons_head] at h₂
      refine hnone w₂ (fun q hq => ?_) h₂
      rw [hsrv₂, hs.xferAt, hq]
  | some addr =>
      simp only [wp_bind, wp_gets, wp_onSrv, wp_pure]
      cases hins : XferTable.insert (fun _ => w.srv.nextTxnid) w₁.srv.xfers w₁.srv.nextPtr with
      | none =>
          simp only [Server.newXfer, Server.setXfer, hins, wp_bind, wp_pure]
          rw [wp_preserveErrno]
          refine wp_deleteXferAndCloseFileFd (by simp; rfl) ?_
          refine hnone _ (fun q hq => ?_) ?_
          · by_cases hqp : q = w₁.srv.nextPtr
            · simp [hqp, Server.dropXfer]
            · simpa [hqp, Server.dropXfer, Server.release, hs.xferAt] using hq
          have h₂ := h₁.snoc (hA (.shut fd) _ rfl) (.shut ans (Or.inl List.mem_cons_self))
          rw [List.erase_cons_head] at h₂
          have h₃ := h₂.snoc (hA .skip _ rfl) .skip
          refine h₃.quietly hA (List.Sublist.refl L) ?_ rfl
          simp [Server.Quiet, Server.skip, Server.dropXfer, Server.release]
      | some table =>
          simp only [Server.newXfer, Server.setXfer, hins, wp_bind, wp_onSrv, wp_pure]
          obtain ⟨hfree, rfl⟩ := XferTable.insert_eq_some hins
          let x : ResrcXfer :=
            { addr := addr, destFd := destFd, statFd := statFd, cmd := req.cmd
              txnid := w.srv.nextTxnid
              file := { size := nbytes, fd := fd, blksize := info.blksize }
              nbytesLeft := nbytes, clientPid := clientPid, defer := .none }
          have hx : Created req clientPid statFd destFd x := ⟨rfl, rfl, rfl, rfl, rfl, rfl⟩
          rw [hs.nextPtr]
          refine hsome x _ _ ⟨?_, fun q hq => ?_⟩ rfl hk.regs hk.trace hk.nextFile hk.fds hx rfl ?_
          · simp [x]
          · simp [hq, hs.xferAt]
          rw [← hs.nextPtr]
          refine h₁.snoc (henroll x _ hx rfl rfl (hk.positioned hpos) hs.nextPtr) ?_
          exact .enroll (hs.xfers ▸ hroom) hfree hs.nextTxnid.symm rfl rfl hstat hdest hcmd
            (hk.fds ▸ hkind) (hk.positioned hpos)

theorem wp_addXfer (h0 : (0 : Fd) ∈ w.kern.fds) {req : ProtRequest} {clientPid : Nat}
    {statFd destFd : Fd} (hstat : statFd ∈ L)
    (hclient : ∃ n, w.kern.fds.lookup statFd = some (.client n))
    (hdest : destFd ∈ L ∨ destFd = -1 ∨ destFd = 0)
    (hcmd : req.cmd = .fileOpen → destFd = -1)
    (henroll : ∀ x c, Created req clientPid statFd destFd x → x.file.fd :: L = c.loose →
      ans.Supplies req c.world.kern x.file.fd → c.world.srv.nextPtr = w.srv.nextPtr →
      A (.enroll x) c)
    {Q : Option (Ptr × FioStat) → World → Prop}
    (hnone : ∀ w', w.srv.Unborn w'.srv → Acts A c₀ ⟨L, w'⟩ → Q none w')
    (hsome : ∀ x info w', w.srv.Bears x w'.srv → w'.srv.nextPtr = w.srv.nextPtr + 1 →
      w'.kern.regs = w.kern.regs → w'.kern.trace = w.kern.trace →
      w.kern.nextFile ≤ w'.kern.nextFile → w.kern.Extends w'.kern →
      Created req clientPid statFd destFd x →
      info.size = x.file.size.toNat → Acts A c₀ ⟨(L.erase statFd).erase destFd, w'⟩ →
      Q (some (w.srv.nextPtr, info)) w') :
    wp (addXfer ans req clientPid statFd destFd) Q (Faulty A c₀) w := by
  simp only [addXfer, wp_bind, wp_gets]
  rw [wp_ite]
  refine ⟨fun _ => ?_, fun hroom => ?_⟩
  · simp only [wp_bind, wp_setErrno, wp_pure]
    exact hnone _ (fun _ hq => hq) (h.kernQuiet hA (Kernel.quiet_errno _ _))
  simp only [wp_bind]
  refine wp_fileOpenRead hA h h0 (fun w' hsrv h' => hnone w' (hsrv ▸ fun _ hq => hq) h') ?_
  intro fd info node w' hsrv hregs htrace hnext hext hnode hpos h'
  cases hrange : rangeCheck info.size req.offset req.len with
  | error e =>
      simp only [hrange, wp_bind]
      refine wp_close hA h' (Or.inl List.mem_cons_self) fun w₂ hsrv₂ _ h₂ => ?_
      rw [List.erase_cons_head] at h₂
      refine hnone _ (fun q hq => ?_) (h₂.kernQuiet hA (Kernel.quiet_errno _ _))
      change w₂.srv.xferAt q = none
      rw [hsrv₂, hsrv, hq]
  | ok nbytes =>
      simp only [hrange]
      have hkind : ∀ n, w'.kern.fds.lookup statFd ≠ some (.file n) := by
        obtain ⟨m, hm⟩ := hclient
        intro n hn
        rw [hext statFd _ hm] at hn
        cases hn
      refine wp_insertXfer hA h' (hsrv ▸ hroom) hstat hdest hcmd hkind hpos ?_ ?_ ?_
      · intro x c hx hfd hc hpos' hptr
        subst hfd
        exact henroll x c hx hc ⟨node, hnode, hpos'⟩ (hsrv ▸ hptr)
      · exact hsrv ▸ hnone
      · rw [hsrv]
        intro x info' w'' hborn hptr hregs' htrace' hnext' hfds' hx hinfo h''
        exact hsome x info' w'' hborn hptr (hregs'.trans hregs) (htrace'.trans htrace)
          (Nat.le_trans hnext (Nat.le_of_eq hnext'.symm))
          (fun fd f hf => hfds' ▸ hext fd f hf) hx hinfo h''

theorem wp_syspollRegister {fd : Fd} {u : Udata} (hu : w.srv.Ident u fd)
    {Q : Bool → World → Prop}
    (hok : ∀ w', Enlists fd u w w' → Acts A c₀ ⟨L, w'⟩ → Q true w')
    (hfail : ∀ e w', w'.srv = w.srv → w.kern.Quiet w'.kern →
      w.kern.epollAddError ans fd = some e → Acts A c₀ ⟨L, w'⟩ → Q false w') :
    wp (syspollRegister ans fd u) Q (Faulty A c₀) w := by
  simp only [syspollRegister, wp_sys]
  obtain ⟨e, k', heq, herr, hk⟩ | ⟨f, k', heq, -, hf, hnew, hk⟩ :=
    Kernel.epollAdd_spec ans fd u w.kern
  · rw [heq]
    exact hfail e _ rfl hk herr (h.kernQuiet hA hk)
  · rw [heq]
    exact hok _ ⟨rfl, hk.fds, ⟨f, hf, hk.regs⟩, hk.trace⟩ (Acts.kernQuiet (w := ⟨w.srv, _⟩) hA
      (h.snoc (hA (.register u) _ rfl) (.register hu hf hnew)) hk)

theorem wp_registerXfer {p : Ptr} {x : ResrcXfer} (hp : w.srv.xferAt p = some x)
    (hcmd : x.cmd ≠ .fileOpen) {Q : Bool → World → Prop}
    (hok : ∀ w', Enlists x.destFd (.xfer p) w w' → Acts A c₀ ⟨L, w'⟩ → Q true w')
    (hfail : ∀ e w', w'.srv = w.srv → w.kern.Quiet w'.kern →
      w.kern.epollAddError ans x.destFd = some e → Acts A c₀ ⟨L, w'⟩ → Q false w') :
    wp (registerXfer ans p) Q (Faulty A c₀) w := by
  simp only [registerXfer, wp_bind]
  have hident : w.srv.Ident (.xfer p) x.destFd := ⟨x, hp, rfl, hcmd⟩
  exact wp_getXfer_live hp (wp_syspollRegister hA h hident hok hfail)

/-- When the registration fails, the timer is left with the number of a descriptor
that was closed again. -/
theorem wp_syspollTimer {t : Ptr} {tm : ResrcTimer} (ht : w.srv.timerAt t = some tm)
    (hident : tm.ident = -1) (h0 : (0 : Fd) ∈ w.kern.fds) {Q : Bool → World → Prop}
    (hok : ∀ w' fd, w'.srv.xferAt = w.srv.xferAt → w'.kern.trace = w.kern.trace →
      w'.srv.timerAt t = some { tm with ident := fd } →
      ((∃ n, ans.timerfdCreate n ≠ none) ∨ 0 < fd ∧
        ∃ f, w'.kern.fds.lookup fd = some f ∧ ⟨fd, f, .timer t⟩ ∈ w'.kern.regs) →
      Acts A c₀ ⟨L, w'⟩ → Q true w')
    (hunset : ∀ k, Acts A c₀ ⟨L, ⟨w.srv, k⟩⟩ → Q false ⟨w.srv, k⟩)
    (hunwatched : ∀ k fd, fd ∉ k.fds → ans.TimerRefused w.kern → Acts A c₀ ⟨L, ⟨w.srv, k⟩⟩ →
      Q false ⟨w.srv.setTimer t { tm with ident := fd }, k⟩) :
    wp (syspollTimer ans t) Q (Faulty A c₀) w := by
  simp only [syspollTimer, wp_bind, wp_sys]
  obtain ⟨k', e, heq, he, hk⟩ | ⟨k', heq, hk⟩ := Kernel.timerfdCreate_spec ans w.kern
  · simp only [heq, wp_pure]
    refine hok _ tm.ident rfl hk.trace ht (Or.inl ⟨w.kern.tick, ?_⟩) (h.kernQuiet hA hk)
    rw [he]
    exact Option.some_ne_none e
  simp only [heq, wp_bind, wp_sys]
  have hset : k'.Quiet (k'.timerfdSettime ans).2 := Kernel.quiet_attempt _ _
  have hopen : Acts A c₀ ⟨w.kern.openedTimer.1 :: L, ⟨w.srv, (k'.timerfdSettime ans).2⟩⟩ :=
    Acts.kernQuiet (w := ⟨w.srv, _⟩) hA (h.snoc (hA .openTimer _ rfl) .openTimer)
      (hk.trans hset)
  have hlookup : (k'.timerfdSettime ans).2.fds.lookup w.kern.openedTimer.1 =
      some (.timerfd w.kern.nextFile) := by
    rw [hset.fds, hk.fds]
    exact Kernel.install_lookup _ _
  have hregs : (k'.timerfdSettime ans).2.regs = w.kern.regs := hset.regs.trans hk.regs
  have htrace : (k'.timerfdSettime ans).2.trace = w.kern.trace := hset.trace.trans hk.trace
  have hpos : 0 < w.kern.openedTimer.1 := Kernel.openedTimer_pos h0
  generalize w.kern.openedTimer.1 = fd at hopen hlookup hpos
  generalize (k'.timerfdSettime ans).2 = k at hopen hlookup hregs htrace
  have hclosed : ∀ k₁, k.Quiet k₁ → Acts A c₀ ⟨L, ⟨w.srv,
      { (k₁.close ans fd).2 with errno := k₁.errno }⟩⟩ := by
    intro k₁ hk₁
    have h₁ := hopen.kernQuiet hA hk₁
    have h₂ := h₁.snoc (hA (.shut fd) _ rfl) (.shut ans (Or.inl List.mem_cons_self))
    rw [List.erase_cons_head] at h₂
    exact h₂.kernQuiet hA (Kernel.quiet_errno _ _)
  rw [wp_ite]
  refine ⟨fun _ => ?_, fun _ => ?_⟩
  · simp only [wp_bind]
    refine wp_getTimer_live (by exact ht) ?_
    simp only [wp_onSrv, syspollRegister, wp_sys]
    obtain ⟨e, k₁, heq', herr, hk₁⟩ | ⟨f, k₁, heq', -, hf, hnew, hk₁⟩ :=
      Kernel.epollAdd_spec ans fd (.timer t) k
    · simp only [heq', wp_ite, wp_bind, wp_preserveErrno, close, wp_sys, wp_pure]
      refine ⟨fun hc => (by cases hc), fun _ => hunwatched _ fd ?_ ?_ (hclosed k₁ hk₁)⟩
      · simp [Kernel.close_fds, AList.mem_erase]
      · rcases Kernel.epollAddError_some herr hlookup with ⟨reg, hreg, -, hfile⟩ | hrefused
        · exact Or.inr ⟨reg, hregs ▸ hreg, w.kern.nextFile, Nat.le_refl _, hfile⟩
        · exact Or.inl ⟨_, e, hrefused⟩
    · simp only [heq', if_pos, wp_pure]
      have h₁ := hopen.snoc (hA (.arm t) _ rfl) (.arm ht hident hpos List.mem_cons_self)
      rw [List.erase_cons_head] at h₁
      have hown : (w.srv.setTimer t { tm with ident := fd }).Ident (.timer t) fd :=
        ⟨{ tm with ident := fd }, by simp [Server.setTimer], rfl⟩
      have h₂ := h₁.snoc (hA (.register (.timer t)) _ rfl) (.register hown hf hnew)
      refine hok _ fd rfl (hk₁.trace.trans htrace) (by simp [Server.setTimer])
        (Or.inr ⟨hpos, f, ?_, ?_⟩)
        (Acts.kernQuiet (w := ⟨_, _⟩) hA h₂ hk₁)
      · exact hk₁.fds ▸ hf
      · rw [hk₁.regs]
        exact List.mem_append_right _ List.mem_cons_self
  · simp only [wp_bind, wp_preserveErrno, close, wp_sys, wp_pure]
    exact hunset _ (hclosed k (Kernel.Quiet.refl k))

omit hA h in
theorem wp_timerDelete {t : Ptr} {tm : ResrcTimer} (ht : w.srv.timerAt t = some tm)
    {Q : Unit → World → Prop} {E : Fault → World → Prop}
    (hQ : Q () ⟨(w.srv.release tm.addr).dropTimer t, (w.kern.close ans tm.ident).2⟩) :
    wp (timerDelete ans t) Q E w := by
  simp only [timerDelete, close, wp_bind, wp_sys, wp_pure, wp_onSrv]
  exact wp_getTimer_live ht hQ

/-- Taking back a transfer that was not registered. -/
theorem wp_preserveErrno_deleteUnregistered {p : Ptr} {x : ResrcXfer}
    (hp : w.srv.xferAt p = some x) (hdefer : x.defer = .none)
    (hretire : A (.retire p) ⟨L, w⟩) {Q : Unit → World → Prop}
    (hQ : ∀ w', w'.srv.xferAt = Function.update w.srv.xferAt p none →
      Acts A c₀ ⟨x.channels ++ L, w'⟩ → Q () w') :
    wp (preserveErrno (deleteUnregisteredXfer ans p)) Q (Faulty A c₀) w := by
  rw [wp_preserveErrno]
  refine wp_deleteUnregisteredXfer hp (hQ _ rfl ?_)
  exact Acts.quietly (w := ⟨_, _⟩) hA (h.snoc hretire (.retire ans hp (by simp [hdefer])))
    (List.Sublist.refl _) (Server.quiet_release _ _) (Kernel.quiet_errno _ _)

omit hA h in
/-- Giving a transfer up returns the descriptors it was made from. -/
theorem mem_channels_append {x : ResrcXfer} {fd : Fd} (hfd : fd ∈ L) :
    fd ∈ x.channels ++ (L.erase x.statFd).erase x.destFd := by
  rw [List.mem_append]
  by_cases hs : fd = x.statFd
  · left
    unfold ResrcXfer.channels
    split <;> simp [hs]
  by_cases hd : fd = x.destFd
  · left
    unfold ResrcXfer.channels
    split <;> simp_all
  · right
    exact (List.mem_erase_of_ne hd).mpr ((List.mem_erase_of_ne hs).mpr hfd)

theorem wp_addOpenFile (h0 : (0 : Fd) ∈ w.kern.fds) {req : ProtRequest} {clientPid : Nat}
    {statFd : Fd} (hstat : statFd ∈ L)
    (hclient : ∃ n, w.kern.fds.lookup statFd = some (.client n))
    (henroll : ∀ x c, Created req clientPid statFd (-1) x → x.file.fd :: L = c.loose →
      ans.Supplies req c.world.kern x.file.fd → c.world.srv.nextPtr = w.srv.nextPtr →
      A (.enroll x) c)
    (hretire : ∀ x c, Created req clientPid statFd (-1) x →
      c.world.srv.xferAt w.srv.nextPtr = some x → A (.retire w.srv.nextPtr) c)
    (hexpire : ∀ t c, w.srv.nextPtr < t → A (.expire t) c)
    (hbotch : ∀ t c, w.srv.nextPtr < t → ans.TimerRefused w.kern → A (.botch t) c)
    {Q : Option (Ptr × Ptr × FioStat) → World → Prop}
    (hnone : ∀ L' w', (∀ fd ∈ L, fd ∈ L') → w.srv.Unborn w'.srv → Acts A c₀ ⟨L', w'⟩ →
      Q none w')
    (hsome : ∀ t tm x info w', w'.srv.timerAt t = some tm → w.srv.Bears x w'.srv →
      tm.txnid = x.txnid → Created req clientPid statFd (-1) x →
      info.size = x.file.size.toNat → w'.kern.trace = w.kern.trace →
      (w'.Armed x ∨ ∃ n, ans.timerfdCreate n ≠ none) →
      Acts A c₀ ⟨(L.erase statFd).erase (-1), w'⟩ → Q (some (t, w.srv.nextPtr, info)) w') :
    wp (addOpenFile ans req clientPid statFd) Q (Faulty A c₀) w := by
  simp only [addOpenFile, wp_bind]
  refine wp_addXfer hA h h0 hstat hclient (Or.inr (Or.inl rfl)) (fun _ => rfl) henroll
    (fun w' hborn h' => hnone L w' (fun fd hfd => hfd) hborn h') ?_
  intro x info w₁ hborn hptr hregs htrace hnext hext hx hinfo h₁
  have hp := hborn.xferAt
  have hall : ∀ fd ∈ L, fd ∈ x.channels ++ (L.erase statFd).erase (-1) := by
    intro fd hfd
    have hmem := mem_channels_append (x := x) hfd
    rwa [hx.statFd, hx.destFd] at hmem
  generalize (L.erase statFd).erase (-1) = L₁ at *
  have hback : ∀ L' w', w'.srv.xferAt = w₁.srv.xferAt →
      (∀ fd ∈ L, fd ∈ x.channels ++ L') →
      Acts A c₀ ⟨L', w'⟩ → wp (preserveErrno (deleteUnregisteredXfer ans w.srv.nextPtr))
        (fun _ w'' => wp (pure none) Q (Faulty A c₀) w'') (Faulty A c₀) w' := by
    intro L' w' hsame hL' h'
    have hp' : w'.srv.xferAt w.srv.nextPtr = some x := hsame ▸ hp
    refine wp_preserveErrno_deleteUnregistered hA h' hp' hx.defer (hretire x _ hx hp') ?_
    intro w'' hdrop h''
    refine hnone _ w'' hL' (fun q hq => ?_) h''
    rw [hdrop]
    by_cases hqp : q = w.srv.nextPtr
    · rw [hqp, Function.update_self]
    · rw [Function.update_of_ne hqp, hsame, hborn.others q hqp, hq]
  simp only [wp_bind]
  refine wp_getXfer_live hp ?_
  simp only [newTimer, wp_bind]
  refine wp_malloc hA h₁ fun o w₂ hs hk h₂ => ?_
  cases o with
  | none =>
      simp only [wp_pure, wp_bind]
      exact hback L₁ w₂ hs.xferAt hall h₂
  | some addr =>
      simp only [wp_bind, wp_gets, wp_onSrv, wp_pure]
      let tm : ResrcTimer :=
        { addr := addr, ident := -1, txnid := x.txnid, xferAddr := x.addr }
      have hlt : w.srv.nextPtr < w₂.srv.nextPtr := by
        rw [hs.nextPtr, hptr]
        exact Nat.lt_succ_self _
      cases hins : XferTable.insert (fun _ => x.txnid) w₂.srv.xferTimers w₂.srv.nextPtr with
      | none =>
          simp only [Server.newTimer, Server.setTimer, hins, wp_bind]
          rw [wp_preserveErrno]
          refine wp_timerDelete (show _ = some tm by simp [tm]) ?_
          have h₃ := (h₂.snoc (hA (.shut (-1)) _ rfl) (.shut ans (Or.inr (by decide)))).snoc
            (hA .skipTimer _ rfl) .skipTimer
          refine hback (L₁.erase (-1)) _ hs.xferAt (fun fd hfd => ?_) ?_
          · have hmem := hall fd hfd
            rw [List.mem_append] at hmem ⊢
            by_cases hneg : fd = -1
            · left
              unfold ResrcXfer.channels
              split <;> simp_all [hx.destFd]
            · exact hmem.imp id (List.mem_erase_of_ne hneg).mpr
          · refine Acts.quietly (w := ⟨_, _⟩) hA h₃ (List.Sublist.refl _) ?_ rfl
            simp [Server.Quiet, Server.skipTimer, Server.dropTimer, Server.release]
      | some table =>
          simp only [Server.newTimer, Server.setTimer, hins, wp_bind, wp_onSrv]
          obtain ⟨hfree, rfl⟩ := XferTable.insert_eq_some hins
          have hlive : w₂.srv.xferAt w.srv.nextPtr = some x := hs.xferAt ▸ hp
          have h₃ := h₂.snoc (hA .addTimer _ rfl)
            (.addTimer (t := tm) rfl hfree ⟨_, x, hlive, hx.defer, rfl, rfl⟩)
          have ht₃ : (w₂.srv.addTimer tm).timerAt w₂.srv.nextPtr = some tm := by
            simp [Server.addTimer, Server.newTimer, Server.setTimer]
          refine wp_syspollTimer hA h₃ ht₃ rfl (hk.fds.symm ▸ hext.mem h0) ?_ ?_ ?_
          · intro w' fd hxfers htrace' ht hwatched h'
            have hborn' : w.srv.Bears x w'.srv := by
              constructor
              · rw [hxfers]
                exact hlive
              · intro q hq
                rw [hxfers]
                exact (congrFun hs.xferAt q).trans (hborn.others q hq)
            refine hsome _ _ x info w' ht hborn' rfl hx hinfo
              (htrace'.trans (hk.trace.trans htrace)) ?_ h'
            rcases hwatched with hn | ⟨hpos, f, hf, hreg⟩
            · exact Or.inr hn
            · exact Or.inl ⟨_, _, ⟨ht, hpos, f, hf, hreg⟩, rfl, rfl⟩
          · intro k h'
            simp only [Bool.false_eq_true, if_false, wp_bind]
            rw [wp_preserveErrno]
            simp only [eraseTimer, wp_onSrv]
            rw [wp_preserveErrno]
            refine wp_timerDelete (by exact ht₃) ?_
            have h₄ := h'.snoc (hexpire _ _ hlt) (.expire ans ht₃)
            refine hback L₁ _ hs.xferAt hall ?_
            exact Acts.quietly (w := ⟨_, _⟩) hA h₄ (List.Sublist.refl _) rfl rfl
          · intro k fd hfd hrefused h'
            simp only [Bool.false_eq_true, if_false, wp_bind]
            rw [wp_preserveErrno]
            simp only [eraseTimer, wp_onSrv]
            rw [wp_preserveErrno]
            refine wp_timerDelete (show _ = some { tm with ident := fd } by
              simp [Server.setTimer]) ?_
            have hrefused' : ans.TimerRefused w.kern := by
              refine hrefused.imp_right ?_
              rintro ⟨reg, hreg, n, hn, hfile⟩
              refine ⟨reg, ?_, n, ?_, hfile⟩
              · rw [← hregs, ← hk.regs]
                exact hreg
              · exact Nat.le_trans hnext (hk.nextFile ▸ hn)
            have h₄ := h'.snoc (hbotch _ _ hlt hrefused') (.botch ans ht₃ hfd)
            refine hback L₁ _ hs.xferAt hall ?_
            refine Acts.quietly (w := ⟨_, _⟩) hA h₄ (List.Sublist.refl _) ?_ rfl
            simp [Server.Quiet, Server.expire, Server.dropTimer, Server.release,
              Server.setTimer, tm]

end Files

end Sendfiled
