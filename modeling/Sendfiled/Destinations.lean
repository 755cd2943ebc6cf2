/-
Where the data goes.  As long as every request brings the descriptors it needs, all data of a
transfer goes to the file that was sent for its destination, and until the transfer is deleted
nobody else writes through the descriptor of that file.
-/
import Sendfiled.Delivery

namespace Sendfiled

open Prog Transition

section Deliveries

variable {ans : Answers} {l : Label} {s s₁ s' : State} {a : Action} {c c' : Config} {p : Ptr}
  {x y : ResrcXfer} {fd : Fd} {f : OpenFile} {node : FileNode} {offset size : Nat}
  {R R' R₀ : List Entry}

/-- The data that a call has put through a descriptor. -/
def Effect.dataThrough (fd : Fd) : Effect → List UInt8
  | .moved _ fd' bytes => if fd' = fd then bytes else []
  | _ => []

/-- All the data that went through a descriptor, whoever moved it. -/
def dataThrough (fd : Fd) (R : List Entry) : List UInt8 :=
  R.flatMap fun e => e.1.dataThrough fd

/-- All data of the transfer `p` went through `fd`, to the file `f`. -/
def Funnels (p : Ptr) (fd : Fd) (f : Option OpenFile) (R : List Entry) : Prop :=
  ∀ e ∈ R, ∀ fd' bytes, e.1 = .moved p fd' bytes → fd' = fd ∧ e.2 = f

theorem Funnels.append {g : Option OpenFile} (h : Funnels p fd g R) (h' : Funnels p fd g R') :
    Funnels p fd g (R ++ R') := by
  intro e he
  rcases List.mem_append.mp he with he | he
  · exact h e he
  · exact h' e he

theorem Funnels.of_append {g : Option OpenFile} (h : Funnels p fd g (R ++ R')) :
    Funnels p fd g R ∧ Funnels p fd g R' :=
  ⟨fun e he => h e (List.mem_append_left _ he), fun e he => h e (List.mem_append_right _ he)⟩

theorem Funnels.cleared {w w' : World} {g : Option OpenFile} (h : Funnels p fd g w.kern.record)
    (hcleared : Cleared w w') : Funnels p fd g w'.kern.record := by
  obtain ⟨T, hT, honly⟩ := hcleared.closings
  rw [hT.record]
  refine h.append fun e he fd' bytes hmoved => ?_
  obtain ⟨_, _, hclosed⟩ := honly e he
  rw [hclosed] at hmoved
  cases hmoved

/-- Where only the transfer's own calls go through its destination, what went through is what
was moved for the transfer. -/
theorem Funnels.dataThrough_eq (h : Funnels p fd (some f) R)
    (hreserved : Reserved (Effect.isFor p) fd f R) :
    dataThrough fd R = movedBy p (R.map Prod.fst) := by
  unfold dataThrough movedBy
  rw [List.flatMap_map]
  refine List.flatMap_congr fun e he => ?_
  obtain ⟨e, g⟩ := e
  cases e with
  | sent | failed | closed => rfl
  | moved q fd' bytes =>
      by_cases hfd : fd' = fd
      · have hq : q = p := Option.some.inj (hreserved _ he hfd).1
        simp [Effect.dataThrough, Effect.bytesFor, hfd, hq]
      · have hq : q ≠ p := by
          rintro rfl
          exact hfd (h _ he fd' bytes rfl).1
        simp [Effect.dataThrough, Effect.bytesFor, hfd, hq]

/-- Nothing is moved for a transfer whose calls do not go through its destination. -/
theorem Funnels.moved_eq_nil (h : Funnels p fd (some f) R)
    (hnone : ∀ e ∈ R, e.1.isFor p → e.1.fd ≠ fd) : movedBy p (R.map Prod.fst) = [] := by
  apply List.flatMap_eq_nil_iff.mpr
  intro e he
  obtain ⟨entry, hentry, rfl⟩ := List.mem_map.mp he
  obtain ⟨e, g⟩ := entry
  cases e with
  | sent | failed | closed => rfl
  | moved q fd' bytes =>
      have hq : q ≠ p := by
        rintro rfl
        exact hnone _ hentry rfl (h _ hentry fd' bytes rfl).1
      simp [Effect.bytesFor, hq]

/-- What is moved for a transfer goes to its destination. -/
theorem Writes.funnels {e : Entry} (h : Writes c a e) {fd' : Fd} {bytes : List UInt8}
    (he : e.1 = .moved p fd' bytes) : ∃ x, c.world.srv.xferAt p = some x ∧ x.cmd ≠ .fileOpen ∧
      fd' = x.destFd ∧ e.2 = c.world.kern.fds.lookup x.destFd := by
  cases h with
  | say | balk => cases he
  | move hx hcmd =>
      cases he
      exact ⟨_, hx, by rcases hcmd with hcmd | hcmd <;> simp [hcmd], rfl, rfl⟩

/-- What the steps give that leave the destination of a transfer alone. -/
structure aims (p : Ptr) (a : Action) (c : Config) : Prop where
  supplied : supplied a c
  inHand : answersInHand a c
  once : sendsOnce p a c

theorem Undiverted.aims (hg : Undiverted p (ans, l) s) (hok : PhaseOk s)
    (hc : Channeled s.config) (ha : StepMay ans l s a c) : aims p a c :=
  ⟨hg.2.1.supplied hok hc ha, hg.2.inHand ha, hg.1.sendsOnce ha⟩

/-- A transfer that has its destination keeps it. -/
theorem sendsOnce.destFd (honce : sendsOnce p a c) (hknown : p < c.world.srv.nextPtr)
    (hp : Performs a c c') (hy : c'.world.srv.xferAt p = some y) :
    ∃ x, c.world.srv.xferAt p = some x ∧
      (x.cmd ≠ .fileOpen → y.cmd = x.cmd ∧ y.destFd = x.destFd) := by
  rcases hp.evolves hy with ⟨hnew, -⟩ | ⟨x, hx, hevolves⟩
  · exact absurd hknown (hnew ▸ Nat.lt_irrefl _)
  · refine ⟨x, hx, fun hopen => hevolves.cmd.resolve_right ?_⟩
    rintro ⟨-, hassign⟩
    exact hopen (honce _ x hassign hx)

/-- While the transfer `p` is live, all its data has gone to its destination. -/
structure Directed (p : Ptr) (c : Config) : Prop where
  channeled : Channeled c
  known : p < c.world.srv.nextPtr
  waiting : ∀ x, c.world.srv.xferAt p = some x → x.cmd = .fileOpen →
    ∀ e ∈ c.world.kern.record, ∀ fd' bytes, e.1 ≠ .moved p fd' bytes
  data : ∀ x, c.world.srv.xferAt p = some x → x.cmd ≠ .fileOpen →
    Funnels p x.destFd (c.world.kern.fds.lookup x.destFd) c.world.kern.record

/-- What an action moves for a transfer goes to its destination. -/
theorem Performs.funnels (hp : Performs a c c') {T : List Entry}
    (hT : c.world.kern.Records T c'.world.kern) {e : Entry} (he : e ∈ T) {fd' : Fd}
    {bytes : List UInt8} (hmoved : e.1 = .moved p fd' bytes) :
    ∃ x, c.world.srv.xferAt p = some x ∧ x.cmd ≠ .fileOpen ∧ fd' = x.destFd ∧
      e.2 = c.world.kern.fds.lookup x.destFd := by
  obtain ⟨T', hT', hwrites⟩ := hp.records
  rw [List.append_cancel_left (hT.record.symm.trans hT'.record)] at he
  rcases hwrites e he with ⟨_, _, hclosed⟩ | hw
  · rw [hclosed] at hmoved
    cases hmoved
  · exact hw.funnels hmoved

theorem Directed.performs (h : Directed p c) (ha : aims p a c) (hp : Performs a c c') :
    Directed p c' := by
  have hc' := h.channeled.performs ha.supplied hp
  obtain ⟨T, hT, -⟩ := hp.records
  refine ⟨hc', Nat.lt_of_lt_of_le h.known hp.nextPtr_le, fun y hy hopen e he fd' bytes hmoved => ?_,
    fun y hy hopen => ?_⟩
  · obtain ⟨x, hx, hkeeps⟩ := ha.once.destFd h.known hp hy
    have hxopen : x.cmd = .fileOpen := by
      by_contra hcmd
      exact hcmd ((hkeeps hcmd).1 ▸ hopen)
    rw [hT.record] at he
    rcases List.mem_append.mp he with he | he
    · exact h.waiting x hx hxopen e he fd' bytes hmoved
    · obtain ⟨z, hz, hcmd, -⟩ := hp.funnels hT he hmoved
      cases hx.symm.trans hz
      exact hcmd hxopen
  · obtain ⟨x, hx, hkeeps⟩ := ha.once.destFd h.known hp hy
    rw [hT.record]
    by_cases hxopen : x.cmd = .fileOpen
    · -- the destination is new, and nothing was moved yet
      refine Funnels.append (fun e he fd' bytes hmoved =>
        absurd hmoved (h.waiting x hx hxopen e he fd' bytes)) fun e he fd' bytes hmoved => ?_
      obtain ⟨z, hz, hcmd, -⟩ := hp.funnels hT he hmoved
      cases hx.symm.trans hz
      exact absurd hxopen hcmd
    · have hdest := (hkeeps hxopen).2
      have hgood := h.channeled.dest p x hx hxopen
      have ho : c.world.srv.Owns c.loose (.channel p) x.destFd := ⟨x, hx, Or.inr rfl⟩
      have ho' : c'.world.srv.Owns c'.loose (.channel p) x.destFd :=
        ⟨y, hy, Or.inr hdest.symm⟩
      obtain ⟨g, hg⟩ := Option.isSome_iff_exists.mp (AList.lookup_isSome.mpr
        (h.channeled.descriptors.exclusive.present (.channel p) x.destFd hgood ho))
      have hg' := hp.lookup hg (hc'.descriptors.exclusive.present (.channel p) _ hgood ho')
      have hold := h.data x hx hxopen
      rw [hdest, hg']
      rw [hg] at hold
      refine hold.append fun e he fd' bytes hmoved => ?_
      obtain ⟨z, hz, -, hfd, hfile⟩ := hp.funnels hT he hmoved
      cases hx.symm.trans hz
      exact ⟨hfd, hfile.trans hg⟩

/-- The transfer `p` has the descriptor `fd`, open on `f`, for its destination, or had it until
it was deleted, and all its data went there. -/
structure DestTenant (p : Ptr) (fd : Fd) (f : OpenFile) (R₀ : List Entry) (c : Config) : Prop
    extends Tenant (Effect.isFor p) p fd f R₀ c where
  dest : ∀ x, c.world.srv.xferAt p = some x → x.cmd ≠ .fileOpen ∧ x.destFd = fd
  data : Funnels p fd (some f) c.world.kern.record

theorem DestTenant.performs (h : DestTenant p fd f R₀ c) (ha : aims p a c)
    (hp : Performs a c c') : DestTenant p fd f R₀ c' := by
  have hdest : ∀ y, c'.world.srv.xferAt p = some y → y.cmd ≠ .fileOpen ∧ y.destFd = fd := by
    intro y hy
    obtain ⟨x, hx, hkeeps⟩ := ha.once.destFd h.known hp hy
    obtain ⟨hopen, hfd⟩ := h.dest x hx
    obtain ⟨hcmd, hsame⟩ := hkeeps hopen
    exact ⟨hcmd ▸ hopen, hsame.trans hfd⟩
  refine ⟨h.toTenant.performs_own hp ha.supplied.entitled ha.inHand
    fun y hy => Or.inr (hdest y hy).2.symm, hdest, ?_⟩
  obtain ⟨T, hT, -⟩ := hp.records
  rw [hT.record]
  refine h.data.append fun e he fd' bytes hmoved => ?_
  obtain ⟨x, hx, -, hfd, hfile⟩ := hp.funnels hT he hmoved
  obtain ⟨_, _, -, -, -, hlive⟩ := h.tenure
  have hsame := (h.dest x hx).2
  refine ⟨hfd.trans hsame, ?_⟩
  rw [hfile, hsame]
  exact (hlive x hx).2

theorem Directed.destTenant (h : Directed p c) (hc : Ledger c.world.srv)
    (hx : c.world.srv.xferAt p = some x) (hopen : x.cmd ≠ .fileOpen) :
    ∃ f, c.world.kern.fds.lookup x.destFd = some f ∧
      DestTenant p x.destFd f c.world.kern.record c := by
  obtain ⟨f, hf, htenant⟩ := h.channeled.tenant hc hx (h.channeled.dest p x hx hopen) (Or.inr rfl)
  refine ⟨f, hf, htenant, fun y hy => ?_, hf ▸ h.data x hx hopen⟩
  cases hx.symm.trans hy
  exact ⟨hopen, rfl⟩

/-- The transfer `p` has had the descriptor `fd`, the file `f`, for its destination since the
record was `R₀` and `done` bytes had been written.  By now `n` bytes of the file have been, and
all of them went there; and until the transfer is deleted nobody else uses the descriptor, so
what has gone through it are the bytes from `done` to `n`. -/
structure Sent (node : FileNode) (offset done n : Nat) (p : Ptr) (fd : Fd) (f : OpenFile)
    (R₀ : List Entry) (w : World) : Prop where
  moved : movedBy p w.kern.trace = node.slice offset n
  reached : Funnels p fd (some f) w.kern.record
  alone : ∃ R R', w.kern.record = R₀ ++ R ++ R' ∧ Reserved (Effect.isFor p) fd f R ∧
    dataThrough fd R = node.slice (offset + done) (n - done) ∧
    ∀ x, w.srv.xferAt p = some x → R' = [] ∧ w.kern.fds.lookup fd = some f

theorem Sent.of_tenure {w : World} {done : Nat} (htenure : Tenure (Effect.isFor p) p fd f R₀ w)
    (hdata : Funnels p fd (some f) w.kern.record)
    (hrecord : w.kern.record.map Prod.fst = w.kern.trace)
    (hmoved : movedBy p w.kern.trace =
      node.slice offset (movedBy p w.kern.trace).length)
    (hdone : movedBy p (R₀.map Prod.fst) = node.slice offset done) :
    Sent node offset done (movedBy p w.kern.trace).length p fd f R₀ w := by
  obtain ⟨R, R', hsplit, hreserved, hrest, hlive⟩ := htenure
  have hparts := hdata
  rw [hsplit] at hparts
  have hthrough := hparts.of_append.1.of_append.2.dataThrough_eq hreserved
  have hnil := hparts.of_append.2.moved_eq_nil hrest
  have hall : movedBy p w.kern.trace = node.slice offset done ++ dataThrough fd R := by
    rw [← hrecord, hsplit, List.map_append, List.map_append, movedBy_append, movedBy_append, hnil,
      List.append_nil, hdone, hthrough]
  refine ⟨hmoved, hdata, R, R', hsplit, hreserved, ?_, hlive⟩
  rw [hall, List.length_append, FileNode.length_slice, FileNode.slice_add] at hmoved
  rw [hall, List.length_append, FileNode.length_slice, Nat.add_sub_cancel_left]
  exact List.append_cancel_left hmoved

/-- What is known of a transfer of `size` bytes of a file from an offset on, and of where they
go. -/
structure Delivering (node : FileNode) (offset size : Nat) (p : Ptr) (c : Config) : Prop where
  filed : Filed c
  delivery : Delivery node offset size p c
  directed : Directed p c

theorem delivering_kept :
    Kept (aims p) (Undiverted p) (Delivering node offset size p) where
  grants := fun _ _ _ hg _ hok h _ _ ha => hg.aims hok h.directed.channeled ha
  acts := fun _ _ _ _ ha hp h => ⟨h.filed.performs hp, h.delivery.performs h.filed ha.once hp,
    h.directed.performs ha hp⟩

theorem destTenant_kept : Kept (aims p) (Undiverted p)
    (fun c => Channeled c ∧ DestTenant p fd f R₀ c) where
  grants := fun _ _ _ hg _ hok h _ _ ha => hg.aims hok h.1 ha
  acts := fun _ _ _ _ ha hp h => ⟨h.1.performs ha.supplied hp, h.2.performs ha hp⟩

/-- Nothing was moved for a transfer that was just accepted. -/
theorem Born.directed (h : Born p x (s.world.view p)) (hr : server.Reachable Brings s)
    (hx : s.world.srv.xferAt p = some x) : Directed p s.config := by
  have hra : server.Reachable System.always s := hr.mono fun _ _ _ => trivial
  have hnone : ∀ e ∈ s.world.kern.record, ∀ fd' bytes, e.1 ≠ .moved p fd' bytes := by
    intro e he fd' bytes hmoved
    have hmem : Effect.moved p fd' bytes ∈ (s.world.view p).history := by
      refine List.mem_filter.mpr ⟨?_, by simp [Effect.onBehalf]⟩
      rw [← reachable_record hra, ← hmoved]
      exact List.mem_map_of_mem he
    generalize s.world.view p = v at h hmem
    cases h with
    | intro => cases List.mem_singleton.mp hmem
  exact ⟨reachable_channeled hr (running_of_live hra hx), (reachable_ledger hra).1.xfer_lt p x hx,
    fun _ _ _ => hnone, fun _ _ _ e he fd' bytes hmoved => absurd hmoved (hnone e he fd' bytes)⟩

/-- What is known of a transfer when the step that creates it is over. -/
theorem next_delivering (hr : server.Reachable Proper s) (hg : Proper (ans, l) s)
    (hn : next (ans, l) s = some (.ok s')) (hnone : s.world.srv.xferAt p = none)
    (hx : s'.world.srv.xferAt p = some x) : ∃ req node, s.Opens ans req node ∧
      Delivering node (startOf req.offset) x.file.size.toNat p s'.config := by
  have hra : server.Reachable System.always s := hr.mono fun _ _ _ => trivial
  obtain ⟨hledger, hok⟩ := reachable_ledger hra
  obtain ⟨-, -, -, -, -, -, hborn, -⟩ :=
    next_born hledger (Minted.reachable hra) hok hn hnone hx
  obtain ⟨hfiled, req, node, hopens, hdelivery⟩ := next_delivery hra hn hnone hx
  exact ⟨req, node, hopens, hfiled, hdelivery,
    hborn.directed ((hr.step hg hn).mono fun _ _ hg => hg.1) hx⟩

/-- From the moment a transfer has a destination, its data goes there, in order and alone. -/
theorem Delivering.sent (h : Delivering node offset size p s.config)
    (hr : server.Reachable System.always s) (hx : s.world.srv.xferAt p = some x)
    (hopen : x.cmd ≠ .fileOpen) :
    ∃ f, s.world.kern.fds.lookup x.destFd = some f ∧ ∀ s', server.Steps (Undiverted p) s s' →
      ∃ n ≤ size, Sent node offset (size - x.nbytesLeft.toNat) n p x.destFd f
        s.world.kern.record s'.world ∧ ∀ y, s'.world.srv.xferAt p = some y →
          y.destFd = x.destFd ∧ n + y.nbytesLeft.toNat = size := by
  obtain ⟨hledger, hok⟩ := reachable_ledger hr
  obtain ⟨f, hf, htenant⟩ := h.directed.destTenant hledger hx hopen
  refine ⟨f, hf, fun s' hsteps => ?_⟩
  have hr' : server.Reachable System.always s' := hr.steps (hsteps.mono fun _ _ _ => trivial)
  have hlater := delivery_steps hr h.filed h.delivery (hsteps.mono fun _ _ hg => hg.1)
  have hdone : movedBy p (s.world.kern.record.map Prod.fst) =
      node.slice offset (size - x.nbytesLeft.toNat) := by
    rw [reachable_record hr, ← Nat.eq_sub_of_add_eq' (h.delivery.left x hx)]
    exact h.delivery.bytes
  refine ⟨_, hlater.atMost, ?_⟩
  rcases destTenant_kept.steps hsteps (Or.inl ⟨hledger, hok, h.directed.channeled, htenant⟩) with
    hs | ⟨-, w, -, ⟨-, hend⟩, hcleared, -⟩
  · refine ⟨.of_tenure hs.inv.2.tenure hs.inv.2.data (reachable_record hr') hlater.bytes hdone,
      fun y hy => ⟨(hs.inv.2.dest y hy).2, ?_⟩⟩
    rw [Nat.add_comm]
    exact hlater.left y hy
  · refine ⟨.of_tenure (hend.tenure.cleared hcleared) (hend.data.cleared hcleared)
      (reachable_record hr') hlater.bytes hdone, fun y hy => ?_⟩
    rw [hcleared.xferAt] at hy
    cases hy

/-- The same from any later state in which the transfer is live and has its destination. -/
theorem Delivering.sent_later (h : Delivering node offset size p s₁.config)
    (hr : server.Reachable System.always s₁) (hsteps : server.Steps (Undiverted p) s₁ s)
    (hx : s.world.srv.xferAt p = some x) (hopen : x.cmd ≠ .fileOpen) :
    ∃ f, s.world.kern.fds.lookup x.destFd = some f ∧ ∀ s', server.Steps (Undiverted p) s s' →
      ∃ n ≤ size, Sent node offset (size - x.nbytesLeft.toNat) n p x.destFd f
        s.world.kern.record s'.world ∧ ∀ y, s'.world.srv.xferAt p = some y →
          y.destFd = x.destFd ∧ n + y.nbytesLeft.toNat = size := by
  obtain ⟨hledger, hok⟩ := reachable_ledger hr
  rcases delivering_kept.steps hsteps (Or.inl ⟨hledger, hok, h⟩) with
    hs | ⟨-, w, -, -, hcleared, -⟩
  · exact hs.inv.sent (hr.steps (hsteps.mono fun _ _ _ => trivial)) hx hopen
  · rw [hcleared.xferAt] at hx
    cases hx

/-- Exact delivery.  From its acceptance on, whatever the kernel answers and whatever else
the server does, what was written for a transfer is its range of the file up to what is
left, in order; from the moment it has a destination, this and nothing else goes to the file
that was sent for it; and a READ that nobody interferes with, and that ends without an error,
ends when all of the range was written there. -/
theorem exact_delivery {s₀ s₁ : State} (hr : server.Reachable Proper s₀)
    (hg : Proper (ans, l) s₀) (hn : next (ans, l) s₀ = some (.ok s₁))
    (hnone : s₀.world.srv.xferAt p = none) (hx : s₁.world.srv.xferAt p = some x) :
    (∃ atime mtime ctime txnid result, Effect.sent (some p) x.statFd
      (.fileInfo x.file.size.toNat atime mtime ctime txnid) result ∈ s₁.world.kern.trace) ∧
    ∃ req node, s₀.Opens ans req node ∧
      (1 ≤ x.file.size.toNat → req.offset.toNat + x.file.size.toNat ≤ node.size →
        (∀ s, server.Steps (Undiverted p) s₁ s →
          Delivered node req.offset.toNat x.file.size.toNat p s.world) ∧
        (∀ s₂ y, server.Steps (Undiverted p) s₁ s₂ → s₂.world.srv.xferAt p = some y →
          y.cmd ≠ .fileOpen → ∃ f, s₂.world.kern.fds.lookup y.destFd = some f ∧
            ∀ s, server.Steps (Undiverted p) s₂ s → ∃ n ≤ x.file.size.toNat,
              Sent node req.offset.toNat (x.file.size.toNat - y.nbytesLeft.toNat) n p y.destFd f
                s₂.world.kern.record s.world ∧
              ∀ z, s.world.srv.xferAt p = some z →
                z.destFd = y.destFd ∧ n + z.nbytesLeft.toNat = x.file.size.toNat) ∧
        ∀ s, server.Steps (LeavesAlone p) s₁ s → x.cmd = .read → s.phase ≠ .stopped →
          s.world.srv.xferAt p = none →
          (∀ fd e, Effect.failed p fd e ∈ s.world.kern.trace → errnoIsFatal e = false) →
          (∀ fd, ¬ Attempted p fd s.world.kern.trace) →
          ∃ f, s₁.world.kern.fds.lookup x.destFd = some f ∧
            Sent node req.offset.toNat 0 x.file.size.toNat p x.destFd f s₁.world.kern.record
              s.world) := by
  have hra : server.Reachable System.always s₀ := hr.mono fun _ _ _ => trivial
  have hra₁ : server.Reachable System.always s₁ := hra.step trivial hn
  obtain ⟨hledger, hok⟩ := reachable_ledger hra
  obtain ⟨hledger₁, hok₁⟩ := reachable_ledger hra₁
  obtain ⟨-, -, -, -, -, -, hborn, -⟩ :=
    next_born hledger (Minted.reachable hra) hok hn hnone hx
  obtain ⟨req, node, hopens, hdelivering⟩ := next_delivering hr hg hn hnone hx
  refine ⟨?_, req, node, hopens, fun _ hrange => ?_⟩
  · obtain ⟨atime, mtime, ctime, result, hmem⟩ := hborn.greeted.2
    exact ⟨atime, mtime, ctime, x.txnid, result, hmem⟩
  rw [startOf_eq hrange] at hdelivering
  refine ⟨fun s hsteps => ?_, fun s₂ y hsteps hy hopen =>
    hdelivering.sent_later hra₁ hsteps hy hopen, ?_⟩
  · exact (delivery_steps hra₁ hdelivering.filed hdelivering.delivery
      (hsteps.mono fun _ _ hg => hg.1)).delivered
  · intro s hsteps hread hrun hgone hwrites hsilent
    obtain ⟨f, hf, hsent⟩ := hdelivering.sent hra₁ hx (by simp [hread])
    obtain ⟨n, -, hend, -⟩ := hsent s (hsteps.mono fun _ _ hg => hg.1)
    refine ⟨f, hf, ?_⟩
    have htold : Told p s₁.config := by
      intro y hy hcancel
      cases hx.symm.trans hy
      rw [hborn.greeted.1] at hcancel
      cases hcancel
    have hreading : Reading node req.offset.toNat x.file.size.toNat p s₁.config := by
      refine ⟨hdelivering.filed, hdelivering.delivery, htold, fun y hy => ?_, fun hnot => ?_⟩
      · cases hx.symm.trans hy
        exact hread
      · rw [show s₁.config.world.srv.xferAt p = some x from hx] at hnot
        cases hnot
    have hfull : (movedBy p s.world.kern.trace).length = x.file.size.toNat := by
      rcases reading_kept.steps hsteps (Or.inl ⟨hledger₁, hok₁, hreading⟩) with hs | hs
      · rcases hs.inv.ended hgone with hlen | ⟨fd, e, hmem, hfatal⟩ | ⟨fd, htold⟩
        · exact hlen
        · rw [hwrites fd e hmem] at hfatal
          cases hfatal
        · exact absurd htold (hsilent fd)
      · exact absurd hs.1 hrun
    rw [hend.moved, FileNode.length_slice] at hfull
    rwa [hborn.left, Nat.sub_self, hfull] at hend

end Deliveries

section Runs

open Scenario

/-- A READ of five bytes from offset two has been received. -/
def middleRead : List (Answers × Label) :=
  [(answers tenBytes, .wait [readable]), (answers tenBytes, .event (-1, -1)),
    (answers tenBytes, .receive ⟨fileRequest .read 2 5, [1], some client⟩)]

/-- What follows: the request is handled, three bytes are written before the destination is
full, and then the others. -/
def middleReadEnd : List (Answers × Label) :=
  [(answers tenBytes, .request), (answers tenBytes, .receiveFailed EAGAIN),
    (answers tenBytes, .deferred)] ++
    handle { answers tenBytes with io := fun _ n => if n = 5 then .ok 3 else .error EAGAIN }
      (writable 0) ++
    handle (answers tenBytes) (writable 0)

/-- The offset of the request that is handled next. -/
def State.requestsFrom (offset : BitVec 64) (s : State) : Bool :=
  match s.phase with
  | .requested r _ =>
      (protUnmarshalRequest s.world.srv.recvbuf r.nread).all fun req => req.offset == offset
  | _ => false

theorem State.Opens.offset {s : State} {ans : Answers} {req : ProtRequest} {node : FileNode}
    {offset : BitVec 64} (h : s.Opens ans req node) (hs : s.requestsFrom offset = true) :
    req.offset = offset := by
  obtain ⟨r, rest, t, hphase, hreq, -⟩ := h
  simpa [State.requestsFrom, hphase, hreq] using hs

/-- No write of data failed for good. -/
def Effect.recoverable : Effect → Bool
  | .failed _ _ e => !errnoIsFatal e
  | _ => true

theorem not_failed_of_recoverable {p : Ptr} {trace : List Effect}
    (h : (trace.all fun e => e.recoverable) = true) :
    ∀ fd e, Effect.failed p fd e ∈ trace → errnoIsFatal e = false := by
  intro fd e hmem
  have hrecoverable := List.all_eq_true.mp h _ hmem
  simpa [Effect.recoverable] using hrecoverable

theorem exact_delivery_of_middleRead : ∃ s₀ s₁ s x f, server.Reachable Proper s₀ ∧
    s₀.world.srv.xferAt 0 = none ∧ s₁.world.srv.xferAt 0 = some x ∧
    server.Steps (LeavesAlone 0) s₁ s ∧ s.world.srv.xferAt 0 = none ∧
    Delivered tenBytes 2 5 0 s.world ∧
    Sent tenBytes 2 0 5 0 x.destFd f s₁.world.kern.record s.world := by
  obtain ⟨s₀, hr, hP⟩ := exists_reachable Proper 4 100 middleRead
    (fun s₀ => (s₀.world.srv.xferAt 0).isNone && s₀.requestsFrom 2 &&
      (server.run Proper (middleReadEnd.take 1) s₀).any fun s₁ =>
        ((s₁.world.srv.xferAt 0).any fun x => x.file.size == 5 && x.cmd == .read) &&
        (server.run (LeavesAlone 0) (middleReadEnd.drop 1) s₁).any fun s =>
          (s.world.srv.xferAt 0).isNone && (s.phase != .stopped) &&
            (s.world.kern.trace.all fun e => e.recoverable) &&
            s.world.kern.trace.all (Effect.silent 0))
    (by decide +kernel)
  simp only [Bool.and_eq_true, Option.any_eq_true, Option.isNone_iff_eq_none, beq_iff_eq,
    bne_iff_ne] at hP
  obtain ⟨⟨hnone, hfrom⟩, s₁, hrun₁, ⟨x, hx, hsize, hread⟩, s, hrun, ⟨⟨hgone, hgoes⟩, hrecoverable⟩,
    hsilent⟩ := hP
  obtain ⟨s₁', hg, hn, hend⟩ := System.run_cons hrun₁
  cases hend
  have hsteps := System.steps_of_run hrun
  obtain ⟨-, req, node, hopens, hdelivered⟩ := exact_delivery hr hg hn hnone hx
  have hoffset := hopens.offset hfrom
  have hnode : node = tenBytes := by
    obtain ⟨_, _, _, _, _, hopen⟩ := hopens
    exact (Except.ok.inj hopen).symm
  rw [hoffset, hsize, hnode] at hdelivered
  obtain ⟨hall, -, hover⟩ := hdelivered (by decide) (by decide)
  obtain ⟨f, -, hsent⟩ := hover s hsteps hread hgoes hgone (not_failed_of_recoverable hrecoverable)
    (not_attempted_of_silent hsilent)
  exact ⟨s₀, s₁, s, x, f, hr, hnone, hx, hsteps, hgone, hall s (hsteps.mono fun _ _ hg => hg.1),
    hsent⟩

/-- A first SEND with one descriptor ends, and descriptor zero is closed.  The status channel of
the second SEND then has that number, and a third one, which has one descriptor again, takes it
for its destination.  When the second one has ended, a READ gets the number, and the third one
is not over. -/
def foreignDest : List (Answers × Label) :=
  serve (answers tenBytes) [⟨fileRequest .send 0 0, [1], some client⟩] ++
    handle (answers tenBytes) (writable 0) ++
    serve (answers tenBytes) [⟨fileRequest .send 0 0, [2, 3], some client⟩] ++
    serve (answers tenBytes) [⟨fileRequest .send 0 0, [4], some client⟩] ++
    [(answers tenBytes, .wait [writable 1, readable, writable 2]),
      (answers tenBytes, .event (-1, -1)), (answers tenBytes, .event (-1, -1)),
      (answers tenBytes, .receive ⟨fileRequest .read 2 5, [5], some client⟩)]

/-- The READ is accepted, and the third SEND goes on. -/
def foreignDestEnd : List (Answers × Label) :=
  [(answers tenBytes, .request), (answers tenBytes, .receiveFailed EAGAIN),
    (answers tenBytes, .event (-1, -1))]

/-- The client of a READ gets the file of another one. -/
theorem foreign_data_delivered : ∃ s₀ s₁ s x R f, server.Reachable System.always s₀ ∧
    s₀.world.srv.xferAt 3 = none ∧ server.Steps System.always s₀ s₁ ∧
    s₁.world.srv.xferAt 3 = some x ∧ x.cmd = .read ∧ server.Steps (FixesDest 3) s₁ s ∧
    s.world.srv.xferAt 3 = some x ∧ x.nbytesLeft = x.file.size ∧
    s₁.world.kern.fds.lookup x.destFd = some f ∧
    s.world.kern.record = s₁.world.kern.record ++ R ∧
    (Effect.moved 2 x.destFd [0, 1, 2, 3, 4, 5, 6, 7, 8, 9], some f) ∈ R := by
  obtain ⟨s₀, hr, hP⟩ := exists_reachable System.always 8 100 foreignDest
    (fun s₀ => (s₀.world.srv.xferAt 3).isNone &&
      (server.run System.always (foreignDestEnd.take 1) s₀).any fun s₁ =>
        (s₁.world.srv.xferAt 3).any fun x => x.cmd == .read && x.nbytesLeft == x.file.size &&
        (s₁.world.kern.fds.lookup x.destFd).any fun f =>
          (server.run (FixesDest 3) (foreignDestEnd.drop 1) s₁).any fun s =>
            s.world.srv.xferAt 3 == some x &&
              s₁.world.kern.record.isPrefixOf s.world.kern.record &&
              (s.world.kern.record.drop s₁.world.kern.record.length).contains
                (.moved 2 x.destFd [0, 1, 2, 3, 4, 5, 6, 7, 8, 9], some f))
    (by decide +kernel)
  simp only [Bool.and_eq_true, Option.any_eq_true, Option.isNone_iff_eq_none, beq_iff_eq,
    List.contains_iff_mem, List.isPrefixOf_iff_prefix] at hP
  obtain ⟨hnone, s₁, hrun₁, x, hx, ⟨hread, hleft⟩, f, hf, s, hrun, ⟨hlive, hold⟩, hmem⟩ := hP
  exact ⟨s₀, s₁, s, x, _, f, hr, hnone, System.steps_of_run hrun₁, hx, hread,
    System.steps_of_run hrun, hlive, hleft, hf,
    (List.prefix_iff_eq_append.mp hold).symm, hmem⟩

end Runs

end Sendfiled
