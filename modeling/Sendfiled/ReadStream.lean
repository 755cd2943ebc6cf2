/-
What the client of a READ finds in its pipe.  The status channel of a READ is its
destination, so the file's information, the data and an error status all go through one
pipe, where only their order tells them apart.
-/
import Sendfiled.Destinations
import Sendfiled.Channels
import Sendfiled.Messages

namespace Sendfiled

open Prog Transition

/-- The structure `send_pdu` writes, as bytes.  Of a message that reports an error only the
header is sent. -/
def Pdu.bytes : Pdu → List UInt8
  | .hdr cmd stat => [UInt8.ofNat cmd.code, UInt8.ofNat stat]
  | .fileInfo size atime mtime ctime txnid =>
      (protMarshalFileInfo (BitVec.ofNat 64 size) (BitVec.ofNat 64 atime) (BitVec.ofNat 64 mtime)
        (BitVec.ofNat 64 ctime) (BitVec.ofNat 64 txnid)).bytes
  | .xferStat size => (protMarshalXferStat (BitVec.ofNat 64 size)).bytes

@[simp] theorem Pdu.length_bytes (pdu : Pdu) : pdu.bytes.length = pdu.size := by
  cases pdu <;>
    simp [Pdu.bytes, Pdu.size, SfdFileInfo.bytes, SfdXferStat.bytes, header,
      LittleEndian.length_words]

/-- What a call put into a descriptor on behalf of a transfer.  A message that is written at
all is written whole. -/
def Effect.output (p : Ptr) (fd : Fd) : Effect → List UInt8
  | .sent (some q) fd' pdu (.ok _) => if q = p ∧ fd' = fd then pdu.bytes else []
  | .moved q fd' bytes => if q = p ∧ fd' = fd then bytes else []
  | _ => []

/-- Everything that was put into a descriptor on behalf of a transfer. -/
def streamOf (p : Ptr) (fd : Fd) (trace : List Effect) : List UInt8 :=
  trace.flatMap (Effect.output p fd)

section Streams

variable {p : Ptr} {fd : Fd} {trace : List Effect}

@[simp] theorem streamOf_append (tr tr' : List Effect) :
    streamOf p fd (tr ++ tr') = streamOf p fd tr ++ streamOf p fd tr' :=
  List.flatMap_append

@[simp] theorem streamOf_cons (e : Effect) (tr : List Effect) :
    streamOf p fd (e :: tr) = e.output p fd ++ streamOf p fd tr :=
  List.flatMap_cons

/-- Calls on behalf of others put nothing into the stream. -/
theorem Effect.output_eq_nil {e : Effect} (h : e.onBehalf ≠ some p) : e.output p fd = [] := by
  cases e with
  | sent q fd' pdu result =>
      cases q with
      | none => rfl
      | some q =>
          have hq : q ≠ p := fun heq => h (congrArg some heq)
          cases result <;> simp [Effect.output, hq]
  | moved q fd' bytes =>
      have hq : q ≠ p := fun heq => h (congrArg some heq)
      simp [Effect.output, hq]
  | failed | closed => rfl

theorem streamOf_historyOf (p : Ptr) (fd : Fd) (trace : List Effect) :
    streamOf p fd (historyOf p trace) = streamOf p fd trace := by
  induction trace with
  | nil => rfl
  | cons e rest ih =>
      by_cases he : e.onBehalf = some p
      · rw [historyOf, List.filter_cons_of_pos (by simpa using he), streamOf_cons, streamOf_cons]
        exact congrArg _ ih
      · rw [historyOf, List.filter_cons_of_neg (by simpa using he), streamOf_cons,
          Effect.output_eq_nil he]
        exact ih

/-- A call for a transfer whose data and messages go to one descriptor, and which sends no
progress messages. -/
def Effect.along (fd : Fd) : Effect → Prop
  | .sent _ fd' pdu _ => fd' = fd ∧ ∀ size, pdu ≠ .xferStat size
  | .moved _ fd' _ => fd' = fd
  | .failed .. | .closed .. => True

/-- While the transfer goes on, its stream is its data. -/
theorem streamOf_ongoing (halong : ∀ e ∈ trace, e.along fd) (hgoes : ∀ e ∈ trace, e.ongoing) :
    streamOf p fd trace = movedBy p trace := by
  induction trace with
  | nil => rfl
  | cons e rest ih =>
      have hrest := ih (fun e' he' => halong e' (List.mem_cons_of_mem e he'))
        fun e' he' => hgoes e' (List.mem_cons_of_mem e he')
      have hfirst := halong e List.mem_cons_self
      rw [streamOf_cons, hrest, movedBy, movedBy, List.flatMap_cons]
      congr 1
      cases e with
      | sent q fd' pdu result =>
          obtain ⟨size, hpdu, -⟩ := hgoes _ List.mem_cons_self
          exact absurd hpdu (hfirst.2 size)
      | moved q fd' bytes =>
          obtain rfl : fd' = fd := hfirst
          simp [Effect.output, Effect.bytesFor]
      | failed | closed => rfl

/-- After its end, its stream is what was delivered of the last message. -/
theorem streamOf_farewell (halong : ∀ e ∈ trace, e.along fd)
    (hends : ∀ e ∈ trace, e.Farewell p) :
    streamOf p fd trace = (delivered p trace).flatMap Pdu.bytes := by
  induction trace with
  | nil => rfl
  | cons e rest ih =>
      have hrest := ih (fun e' he' => halong e' (List.mem_cons_of_mem e he'))
        fun e' he' => hends e' (List.mem_cons_of_mem e he')
      have hfirst := halong e List.mem_cons_self
      obtain ⟨fd', pdu, result, rfl, -⟩ := hends e List.mem_cons_self
      obtain ⟨rfl, -⟩ := hfirst
      rw [streamOf_cons, hrest, ← List.singleton_append, delivered_append, List.flatMap_append]
      congr 1
      cases result <;> simp [Effect.output, delivered]

/-- Nothing goes anywhere else. -/
theorem streamOf_elsewhere {fd' : Fd} (halong : ∀ e ∈ trace, e.along fd) (hne : fd' ≠ fd) :
    streamOf p fd' trace = [] := by
  apply List.flatMap_eq_nil_iff.mpr
  intro e he
  have hfirst := halong e he
  cases e with
  | sent q fd'' pdu result =>
      obtain ⟨rfl, -⟩ := hfirst
      cases q with
      | none => rfl
      | some q => cases result <;> simp [Effect.output, Ne.symm hne]
  | moved q fd'' bytes =>
      obtain rfl : fd'' = fd := hfirst
      simp [Effect.output, Ne.symm hne]
  | failed | closed => rfl

end Streams

/-- All that was done for a READ went through one descriptor, and nothing is held back. -/
structure OnPipe (fd : Fd) (v : View) : Prop where
  live : ∀ y, v.xfer = some y → y.cmd = .read → y.statFd = fd ∧ y.destFd = fd
  resp : ∀ r, v.resp r = none
  entries : ∀ e ∈ v.history, e.along fd

namespace OnPipe

variable {ans : Answers} {p : Ptr} {fd : Fd} {v v' : View} {x y : ResrcXfer} {pdu : Pdu}
  {e : Errno} {total : Nat} {b : Bool} {tr : List Effect}

theorem say (h : OnPipe fd v) (htr : ∀ e ∈ tr, e.along fd) : OnPipe fd (v.say tr) := by
  refine ⟨h.live, h.resp, fun e he => ?_⟩
  rcases List.mem_append.mp he with hold | hnew
  · exact h.entries e hold
  · exact htr e hnew

theorem set (h : OnPipe fd v) (hy : y.cmd = .read → y.statFd = fd ∧ y.destFd = fd) :
    OnPipe fd (v.set y) := by
  refine ⟨fun z hz hread => ?_, h.resp, h.entries⟩
  cases hz
  exact hy hread

theorem gone (h : OnPipe fd v) : OnPipe fd v.gone :=
  ⟨nofun, h.resp, h.entries⟩

theorem moves (h : OnPipe fd v) (hx : x.statFd = fd ∧ x.destFd = fd)
    (hmoves : Moves p x y tr) : OnPipe fd ((v.say tr).set y) := by
  apply OnPipe.set
  · apply h.say
    intro e he
    obtain ⟨bytes, rfl⟩ := hmoves.entries e he
    exact hx.2
  · intro _
    exact ⟨hmoves.statFd.trans hx.1, hmoves.destFd.trans hx.2⟩

/-- The end of a READ is not reported. -/
theorem reported (h : OnPipe fd v) (hx : x.statFd = fd ∧ x.destFd = fd)
    (hreport : Reported ans p x pdu v v') : OnPipe fd v' := by
  cases hreport with
  | silent => exact h
  | notified hchannel => exact absurd (hx.1.trans hx.2.symm) hchannel

theorem faltered (h : OnPipe fd v) (hx : x.statFd = fd ∧ x.destFd = fd) (hread : x.cmd = .read)
    (hfaltered : Faltered ans p x e total v b v') : OnPipe fd v' := by
  cases hfaltered with
  | paused => exact h.set fun _ => hx
  | stalled _ _ hchannel => exact absurd (hx.1.trans hx.2.symm) hchannel
  | muted _ _ hcmd =>
      rw [hread] at hcmd
      cases hcmd
  | completed _ hreport => exact h.reported hx hreport
  | broken _ hreport => exact h.reported hx hreport

theorem transferred (h : OnPipe fd v) (hx : x.statFd = fd ∧ x.destFd = fd) (hread : x.cmd = .read)
    (htransferred : Transferred ans p x v b v') : OnPipe fd v' := by
  cases htransferred with
  | full hmoves =>
      have hmoved := h.moves hx hmoves
      exact hmoved.set fun _ => ⟨hmoves.statFd.trans hx.1, hmoves.destFd.trans hx.2⟩
  | completed hmoves _ hreport =>
      exact (h.moves hx hmoves).reported ⟨hmoves.statFd.trans hx.1, hmoves.destFd.trans hx.2⟩
        hreport
  | @faltered y tr e _ _ hmoves _ hend =>
      have hmoved : OnPipe fd ((v.say (tr ++ [.failed p x.destFd e])).set y) := by
        rw [← View.say_say]
        apply OnPipe.set
        · apply OnPipe.say
          · exact ⟨h.live, h.resp, (h.moves hx hmoves).entries⟩
          · intro e' he'
            rw [List.mem_singleton.mp he']
            trivial
        · intro _
          exact ⟨hmoves.statFd.trans hx.1, hmoves.destFd.trans hx.2⟩
      exact hmoved.faltered ⟨hmoves.statFd.trans hx.1, hmoves.destFd.trans hx.2⟩
        (hmoves.cmd.trans hread) hend
  | idle => exact h

/-- What the server does to a READ is done through the pipe. -/
theorem deed (h : OnPipe fd v) (hread : ∀ y, v.xfer = some y → y.cmd = .read)
    (hdeed : Deed ans p v v') : OnPipe fd v' := by
  have hends : ∀ {y}, v.xfer = some y → y.statFd = fd ∧ y.destFd = fd :=
    fun hy => h.live _ hy (hread _ hy)
  cases hdeed with
  | served hx _ htransferred => exact h.transferred (hends hx) (hread _ hx) htransferred
  | ended hx _ htransferred => exact (h.transferred (hends hx) (hread _ hx) htransferred).gone
  | errored | shut | buried => exact h.gone
  | cancelled hx =>
      have hx' := hends hx
      exact h.set fun _ => hx'
  | assigned => exact h.set nofun
  | rejected hx =>
      apply OnPipe.gone
      apply h.say
      intro e he
      rw [List.mem_singleton.mp he]
      exact ⟨(hends hx).1, nofun⟩
  | dropped hr | settled hr | retried hr =>
      rw [h.resp] at hr
      cases hr

theorem turn (h : OnPipe fd v) (hread : ∀ y, v.xfer = some y → y.cmd = .read)
    (hturn : Turn ans p v v') : OnPipe fd v' := by
  obtain ⟨v₁, htouched, hend⟩ := hturn
  have hone : OnPipe fd v₁ := by
    cases htouched with
    | refl => exact h
    | single hdeed => exact h.deed hread hdeed
  rcases hend with rfl | rfl
  · exact hone
  · exact hone.gone

theorem expired {w w' : World} (h : OnPipe fd (w.view p))
    (hread : ∀ y, (w.view p).xfer = some y → y.cmd = .read) (hexpired : Expired p w w') :
    OnPipe fd (w'.view p) := by
  obtain ⟨hx, -, -, -, hview, -⟩ := hexpired
  have hends := h.live _ hx (hread _ hx)
  rw [hview]
  apply OnPipe.set
  · apply h.say
    intro e he
    rw [List.mem_singleton.mp he]
    exact ⟨hends.1, nofun⟩
  · intro _
    exact hends

end OnPipe

section Runs

variable {ans : Answers} {l : Label} {s s' : State} {p : Ptr} {x : ResrcXfer} {node : FileNode}
  {offset size : Nat} {info : Effect} {fd : Fd}

/-- What is known of a READ within a step. -/
structure ReadOn (node : FileNode) (offset size : Nat) (p : Ptr) (c : Config) : Prop where
  filed : Filed c
  delivery : Delivery node offset size p c
  cmd : ∀ y, c.world.srv.xferAt p = some y → y.cmd = .read

theorem readOn_kept : Kept (sendsOnce p) (FixesDest p) (ReadOn node offset size p) where
  grants := fun _ _ _ hg _ _ _ _ _ ha => hg.sendsOnce ha
  acts := by
    intro a c c' _ honce hp h
    refine ⟨h.filed.performs hp, h.delivery.performs h.filed honce hp, fun y hy => ?_⟩
    obtain ⟨x, hx, hevolves⟩ := h.delivery.evolves hp hy
    rcases hevolves.cmd with ⟨hcmd, -⟩ | ⟨-, hassign⟩
    · exact hcmd.trans (h.cmd x hx)
    · have hopen := honce _ x hassign hx
      rw [h.cmd x hx] at hopen
      cases hopen

/-- What is known of a READ between the steps. -/
structure Piping (node : FileNode) (offset size : Nat) (info : Effect) (p : Ptr) (fd : Fd)
    (s : State) : Prop where
  reachable : server.Reachable System.always s
  readOn : Sound (ReadOn node offset size p) s ∨ Halted (ReadOn node offset size p) s
  chat : Chat info p size s.world
  onPipe : OnPipe fd (s.world.view p)

namespace Piping

theorem cmd (h : Piping node offset size info p fd s) (y : ResrcXfer)
    (hy : s.world.srv.xferAt p = some y) : y.cmd = .read := by
  rcases h.readOn with hs | ⟨-, w, -, -, hcleared, -⟩
  · exact hs.inv.cmd y hy
  · rw [hcleared.xferAt] at hy
    cases hy

theorem delivery (h : Piping node offset size info p fd s) :
    Delivery node offset size p s.config := by
  rcases h.readOn with hs | ⟨hphase, w, -, hread, hcleared, -⟩
  · exact hs.inv.delivery
  · obtain ⟨w', phase⟩ := s
    subst hphase
    exact hread.delivery.cleared hcleared

theorem next (h : Piping node offset size info p fd s) (hg : FixesDest p (ans, l) s)
    (hn : Sendfiled.next (ans, l) s = some (.ok s')) : Piping node offset size info p fd s' := by
  obtain ⟨hledger, hok⟩ := reachable_ledger h.reachable
  refine ⟨h.reachable.step trivial hn, ?_, h.chat.next h.reachable hn, ?_⟩
  · rcases h.readOn with hs | hs
    · exact readOn_kept.next hs hg hn
    · rw [next_stopped hs.1] at hn
      cases hn
  · rcases next_turn hledger (Minted.reachable h.reachable) hok hn h.chat.known with
      hturn | hexpired
    · exact h.onPipe.turn h.cmd hturn
    · exact h.onPipe.expired h.cmd hexpired

theorem steps (h : Piping node offset size info p fd s)
    (hsteps : server.Steps (FixesDest p) s s') : Piping node offset size info p fd s' := by
  refine hsteps.keeps (I := Piping node offset size info p fd) ?_ h
  rintro ⟨ans, l⟩ s₁ s₂ h₁ hg hn
  exact h₁.next hg hn

end Piping

/-- What has been put into the pipe of a READ of `size` bytes from `offset` on: the bytes
`info`, the file up to what is left, and at most one error status, which is the last thing to
come.  Nothing is put anywhere else.  All of it reached the pipe `f` behind `fd`, and since the
record was `R₀` and until the READ is deleted nobody else has used that descriptor. -/
structure ReadStream (node : FileNode) (offset size : Nat) (p : Ptr) (fd : Fd) (f : OpenFile)
    (R₀ : List Entry) (info : List UInt8) (w : World) : Prop where
  stream : ∃ n notice, n ≤ size ∧ movedBy p w.kern.trace = node.slice offset n ∧
    streamOf p fd w.kern.trace = info ++ node.slice offset n ++ notice ∧
    (notice = [] ∨ ∃ cmd stat result, notice = (Pdu.hdr cmd stat).bytes ∧
      Effect.sent (some p) fd (.hdr cmd stat) result ∈ w.kern.trace) ∧
    ∀ y, w.srv.xferAt p = some y →
      n + y.nbytesLeft.toNat = size ∧ (notice ≠ [] → y.defer = .cancel)
  only : ∀ fd', fd' ≠ fd → streamOf p fd' w.kern.trace = []
  reached : ∀ e ∈ w.kern.record, e.1.isFor p → e.1.fd = fd → e.2 = some f
  alone : Tenure (Effect.isFor p) p fd f R₀ w

/-- A terminal message that is no progress message is a bare header. -/
theorem Effect.along.notice {tail : List Effect} (halong : ∀ e ∈ tail, e.along fd)
    (hends : ∀ e ∈ tail, e.Farewell p) (hone : (delivered p tail).length ≤ 1) :
    (delivered p tail).flatMap Pdu.bytes = [] ∨ ∃ cmd stat result,
      (delivered p tail).flatMap Pdu.bytes = (Pdu.hdr cmd stat).bytes ∧
        Effect.sent (some p) fd (.hdr cmd stat) result ∈ tail := by
  cases hall : delivered p tail with
  | nil => exact Or.inl rfl
  | cons pdu rest =>
      right
      rw [hall] at hone
      have hrest : rest = [] := by
        apply List.eq_nil_of_length_eq_zero
        simpa using hone
      have hpdu : pdu ∈ delivered p tail := by
        rw [hall]
        exact List.mem_cons_self
      have hterminal := delivered_farewell hends pdu hpdu
      obtain ⟨e, he, hsent⟩ := List.mem_filterMap.mp hpdu
      obtain ⟨fd', pdu', result, rfl, -⟩ := hends e he
      obtain ⟨rfl, hnot⟩ := halong _ he
      cases result with
      | error e => cases hsent
      | ok n =>
          simp only [if_true, Option.some.injEq] at hsent
          subst hsent
          cases pdu' with
          | hdr cmd stat => exact ⟨cmd, stat, .ok n, by simp [hrest], he⟩
          | xferStat size => exact absurd rfl (hnot size)
          | fileInfo => cases hterminal

theorem Piping.readStream {f : OpenFile} {R₀ : List Entry}
    (h : Piping node offset size info p fd s) (hinfo : info.bytesFor p = [])
    (hold : ∀ e ∈ R₀, e.1.isFor p → e.1.fd = fd → e.2 = some f)
    (halone : Tenure (Effect.isFor p) p fd f R₀ s.world) :
    ReadStream node offset size p fd f R₀ (info.output p fd) s.world := by
  have hdelivery := h.delivery
  have halong := h.onPipe.entries
  have hleft : ∀ y, s.world.srv.xferAt p = some y →
      (movedBy p s.world.kern.trace).length + y.nbytesLeft.toNat = size := by
    intro y hy
    rw [Nat.add_comm]
    exact hdelivery.left y hy
  -- the history falls into the part in which the transfer goes on and the rest
  have hparts : ∃ rest tail, (s.world.view p).history = info :: (rest ++ tail) ∧
      (∀ e ∈ rest, e.ongoing) ∧ (∀ e ∈ tail, e.Farewell p) ∧ (delivered p tail).length ≤ 1 ∧
      (delivered p tail ≠ [] → ∀ y, s.world.srv.xferAt p = some y → y.defer = .cancel) := by
    rcases h.chat.conversation with ⟨⟨rest, hhistory, hrest⟩, -⟩ |
      ⟨hhistory, hrest, htail, hnone, -, -, -⟩ | ⟨hhistory, hrest, htail, hone, hlive, -⟩
    · exact ⟨rest, [], by simpa using hhistory, hrest, by simp, by simp [delivered],
        by simp [delivered]⟩
    · exact ⟨_, _, hhistory, hrest, htail, by simp [hnone], by simp [hnone]⟩
    · exact ⟨_, _, hhistory, hrest, htail, hone, fun _ y hy => (hlive y hy).1⟩
  obtain ⟨rest, tail, hhistory, hrest, htail, hone, hcancel⟩ := hparts
  rw [hhistory] at halong
  have halongRest : ∀ e ∈ rest, e.along fd := fun e he => halong e (by simp [he])
  have halongTail : ∀ e ∈ tail, e.along fd := fun e he => halong e (by simp [he])
  change historyOf p s.world.kern.trace = _ at hhistory
  have hmoved : movedBy p s.world.kern.trace = movedBy p rest := by
    rw [← movedBy_historyOf, hhistory, movedBy, List.flatMap_cons, hinfo, List.nil_append]
    rw [← movedBy, movedBy_append, movedBy_farewell htail, List.append_nil]
  have hstream : streamOf p fd s.world.kern.trace =
      info.output p fd ++ movedBy p rest ++ (delivered p tail).flatMap Pdu.bytes := by
    rw [← streamOf_historyOf, hhistory, streamOf_cons, streamOf_append,
      streamOf_ongoing halongRest hrest, streamOf_farewell halongTail htail, List.append_assoc]
  refine ⟨⟨(movedBy p s.world.kern.trace).length, (delivered p tail).flatMap Pdu.bytes,
    hdelivery.atMost, hdelivery.bytes, ?_, ?_, fun y hy => ?_⟩, ?_, ?_, halone⟩
  · rw [hstream, ← hmoved]
    exact congrArg (fun bytes => info.output p fd ++ bytes ++ _) hdelivery.bytes
  · rcases Effect.along.notice halongTail htail hone with hnil | ⟨cmd, stat, result, hbytes, hmem⟩
    · exact Or.inl hnil
    · refine Or.inr ⟨cmd, stat, result, hbytes, World.mem_history (p := p) ?_⟩
      change _ ∈ historyOf p s.world.kern.trace
      rw [hhistory]
      simp [hmem]
  · refine ⟨hleft y hy, fun hnotice => hcancel (fun hnil => hnotice ?_) y hy⟩
    rw [hnil]
    rfl
  · intro fd' hne
    rw [← streamOf_historyOf, hhistory]
    exact streamOf_elsewhere halong hne
  · obtain ⟨R, R', hrecord, hreserved, hrest, -⟩ := halone
    intro e he hfor hfd
    rw [hrecord, List.append_assoc] at he
    rcases List.mem_append.mp he with he | he
    · exact hold e he hfor hfd
    rcases List.mem_append.mp he with he | he
    · exact (hreserved e he hfd).2
    · exact absurd hfd (hrest e he hfor)

/-- A READ that was just accepted. -/
theorem Born.piping {atime mtime ctime : Nat} {result : Except Errno Nat}
    (hr : server.Reachable System.always s) (hfiled : Filed s.config)
    (hdelivery : Delivery node offset x.file.size.toNat p s.config)
    (hx : s.world.srv.xferAt p = some x) (hread : x.cmd = .read) (hdest : x.destFd = x.statFd)
    (hview : s.world.view p = ⟨some x, fun _ => none, [.sent (some p) x.statFd
      (.fileInfo x.file.size.toNat atime mtime ctime x.txnid) result]⟩)
    (hleft : x.nbytesLeft = x.file.size) :
    Piping node offset x.file.size.toNat (.sent (some p) x.statFd
      (.fileInfo x.file.size.toNat atime mtime ctime x.txnid) result) p x.statFd s := by
  obtain ⟨hledger, hok⟩ := reachable_ledger hr
  refine ⟨hr, Or.inl ⟨hledger, hok, hfiled, hdelivery, fun y hy => ?_⟩,
    ⟨hledger.xfer_lt p x hx, ?_, ?_⟩, ?_⟩
  · cases hx.symm.trans hy
    exact hread
  · rw [hview]
    exact .going ⟨⟨[], rfl, by simp⟩, fun _ => rfl⟩
  · rw [hview]
    refine ⟨fun y hy => ?_, fun fd pdu result hmem hcomplete => ?_, fun r resp hresp => ?_⟩
    · cases hy
      rw [hleft]
      rfl
    · cases List.mem_singleton.mp hmem
      cases hcomplete
    · cases hresp
  · rw [hview]
    refine ⟨fun y hy _ => ?_, fun _ => rfl, fun e he => ?_⟩
    · cases hy
      exact ⟨rfl, hdest⟩
    · rw [List.mem_singleton.mp he]
      exact ⟨rfl, nofun⟩

/-- Why a READ that nobody interferes with is over. -/
theorem Piping.readOver (h : Piping node offset size info p fd s) (hdefer : x.defer = .none)
    (hx : s.world.srv.xferAt p = some x) (hsteps : server.Steps (LeavesAlone p) s s')
    (hrun : s'.phase ≠ .stopped) (hgone : s'.world.srv.xferAt p = none) :
    ReadOver size p s'.world.kern.trace := by
  rcases h.readOn with hs | ⟨-, w, -, -, hcleared, -⟩
  · have htold : Told p s.config := by
      intro y hy hcancel
      cases hx.symm.trans hy
      rw [hdefer] at hcancel
      cases hcancel
    have hreading : Reading node offset size p s.config := by
      refine ⟨hs.inv.filed, hs.inv.delivery, htold, hs.inv.cmd, fun hnot => ?_⟩
      rw [show s.config.world.srv.xferAt p = some x from hx] at hnot
      cases hnot
    rcases reading_kept.steps hsteps (Or.inl ⟨hs.ledger, hs.phase, hreading⟩) with hend | hend
    · exact hend.inv.ended hgone
    · exact absurd hend.1 hrun
  · rw [hcleared.xferAt] at hx
    cases hx

/-- The one message that was written when a transfer is new. -/
theorem Born.delivered {w : World} (h : Born p x (w.view p)) : ∃ atime mtime ctime result,
    w.view p = ⟨some x, fun _ => none, [.sent (some p) x.statFd
      (.fileInfo x.file.size.toNat atime mtime ctime x.txnid) result]⟩ ∧
    x.nbytesLeft = x.file.size ∧
    (Effect.sent (some p) x.statFd (.fileInfo x.file.size.toNat atime mtime ctime x.txnid)
      result).output p x.statFd = (Sendfiled.delivered p w.kern.trace).flatMap Pdu.bytes ∧
    (Sendfiled.delivered p w.kern.trace ≠ [] → Sendfiled.delivered p w.kern.trace =
      [.fileInfo x.file.size.toNat atime mtime ctime x.txnid]) := by
  generalize hv : w.view p = v at h
  obtain ⟨-, hleft⟩ := h
  rename_i atime mtime ctime result
  have hhistory : historyOf p w.kern.trace = _ := congrArg View.history hv
  refine ⟨atime, mtime, ctime, result, rfl, hleft, ?_⟩
  rw [← delivered_historyOf, hhistory]
  cases result <;> simp [Sendfiled.delivered, Effect.output]

/-- What the client of a READ finds in its pipe.  From its acceptance on, whatever the kernel
answers and whatever else the server does, the pipe has been given the file's information,
from which the client learns the size and the transaction, then the range of the file up to
what is left, and then at most one error status; nobody else writes to it.  A READ that nobody
interferes with, and that is over without an error, has been given all of the range. -/
theorem read_stream {s₀ s₁ : State} (hr : server.Reachable Proper s₀) (hg : Proper (ans, l) s₀)
    (hn : next (ans, l) s₀ = some (.ok s₁)) (hnone : s₀.world.srv.xferAt p = none)
    (hx : s₁.world.srv.xferAt p = some x) (hread : x.cmd = .read) :
    ∃ req node atime mtime ctime f, s₀.Opens ans req node ∧
      s₁.world.kern.fds.lookup x.statFd = some f ∧ ∀ s,
      (server.Steps (Undiverted p) s₁ s →
        ReadStream node (startOf req.offset) x.file.size.toNat p x.statFd f
          s₁.world.kern.record ((delivered p s₁.world.kern.trace).flatMap Pdu.bytes) s.world ∧
        (delivered p s₁.world.kern.trace ≠ [] → ∀ old,
          sfdUnmarshalFileInfo old (streamOf p x.statFd s.world.kern.trace) =
            (true, protMarshalFileInfo x.file.size atime mtime ctime (BitVec.ofNat 64 x.txnid)))) ∧
      (server.Steps (LeavesAlone p) s₁ s → s.phase ≠ .stopped → s.world.srv.xferAt p = none →
        (∀ fd e, Effect.failed p fd e ∈ s.world.kern.trace → errnoIsFatal e = false) →
        (∀ fd, ¬ Attempted p fd s.world.kern.trace) →
        streamOf p x.statFd s.world.kern.trace =
          (delivered p s₁.world.kern.trace).flatMap Pdu.bytes ++
            node.slice (startOf req.offset) x.file.size.toNat) := by
  have hra : server.Reachable System.always s₀ := hr.mono fun _ _ _ => trivial
  have hra₁ : server.Reachable System.always s₁ := hra.step trivial hn
  have hr₁ : server.Reachable Brings s₁ := (hr.step hg hn).mono fun _ _ hg => hg.1
  obtain ⟨hledger, hok⟩ := reachable_ledger hra
  obtain ⟨r, rest, -, -, -, -, hborn, haccepted⟩ :=
    next_born hledger (Minted.reachable hra) hok hn hnone hx
  obtain ⟨hfiled, req, node, hopens, hdelivery⟩ := next_delivery hra hn hnone hx
  obtain ⟨atime, mtime, ctime, result, hview, hleft, houtput, hone⟩ := hborn.delivered
  have hdest : x.destFd = x.statFd := by
    obtain ⟨req', -, hcreated, -⟩ := haccepted.of_born hnone hx
    rw [hcreated.destFd, hcreated.statFd, ProtRequest.destFd, ← hcreated.cmd, hread]
  have hpiping := Born.piping hra₁ hfiled hdelivery hx hread hdest hview hleft
  obtain ⟨f, hf, hspeaking⟩ := hborn.speaking hr₁ hx
  have hstream : ∀ s, server.Steps (Undiverted p) s₁ s →
      ReadStream node (startOf req.offset) x.file.size.toNat p x.statFd f s₁.world.kern.record
        ((delivered p s₁.world.kern.trace).flatMap Pdu.bytes) s.world := by
    intro s hsteps
    rw [← houtput]
    refine (hpiping.steps (hsteps.mono fun _ _ hg => hg.1)).readStream rfl ?_
      (hspeaking.onChannel hra₁ (hsteps.mono fun _ _ hg => hg.2)).channel
    exact fun e he hfor hfd => (reached_of_live hr₁ hx e he hfor hfd).trans hf
  refine ⟨req, node, BitVec.ofNat 64 atime, BitVec.ofNat 64 mtime, BitVec.ofNat 64 ctime, f,
    hopens, hf, fun s => ⟨fun hsteps => ⟨hstream s hsteps, fun hinfo old => ?_⟩, ?_⟩⟩
  · obtain ⟨n, notice, -, -, hall, -⟩ := (hstream s hsteps).stream
    rw [hall, hone hinfo, List.flatMap_singleton, List.append_assoc, Pdu.bytes,
      sfdUnmarshalFileInfo_bytes, BitVec.ofNat_toNat, BitVec.setWidth_eq]
  · intro hsteps hrun hgone hwrites hsilent
    obtain ⟨n, notice, -, hmoved, hall, hnotice, -⟩ :=
      (hstream s (hsteps.mono fun _ _ hg => hg.1)).stream
    have hnil : notice = [] := by
      rcases hnotice with hnil | ⟨cmd, stat, result, -, hmem⟩
      · exact hnil
      · exact absurd ⟨_, result, rfl, hmem⟩ (hsilent x.statFd)
    have hlen := hpiping.readOver hborn.greeted.1 hx hsteps hrun hgone
    unfold ReadOver at hlen
    rw [hmoved, FileNode.length_slice] at hlen
    rcases hlen with rfl | ⟨fd, e, hmem, hfatal⟩ | ⟨fd, htold⟩
    · rw [hall, hnil, List.append_nil]
    · rw [hwrites fd e hmem] at hfatal
      cases hfatal
    · exact absurd htold (hsilent fd)

end Runs

section Examples

open Scenario

/-- The READ of five bytes is accepted, which its client is told. -/
def State.startsRead (s : State) : Bool :=
  match s.world.srv.xferAt 0 with
  | some x => x.cmd == .read && x.file.size == 5 && x.statFd == 6 &&
      (delivered 0 s.world.kern.trace == [.fileInfo 5 1 2 3 1])
  | none => false

/-- The READ is over, and this is what its pipe was given. -/
def State.endsReadWith (bytes : List UInt8) (s : State) : Bool :=
  (s.world.srv.xferAt 0).isNone && (streamOf 0 6 s.world.kern.trace == bytes)

/-- The request is handled next, and the READ runs to its end. -/
def State.readsThrough (s₀ : State) : Bool :=
  (s₀.world.srv.xferAt 0).isNone && s₀.requestsFrom 2 &&
    (server.run Proper (middleReadEnd.take 1) s₀).any fun s₁ => s₁.startsRead &&
      (server.run (LeavesAlone 0) (middleReadEnd.drop 1) s₁).any
        (State.endsReadWith ((Pdu.fileInfo 5 1 2 3 1).bytes ++ [2, 3, 4, 5, 6]))

theorem State.of_startsRead {s : State} (h : s.startsRead = true) : ∃ x,
    s.world.srv.xferAt 0 = some x ∧ x.cmd = .read ∧ x.file.size = 5 ∧ x.statFd = 6 ∧
      delivered 0 s.world.kern.trace = [.fileInfo 5 1 2 3 1] := by
  unfold State.startsRead at h
  split at h
  · rename_i x hx
    simp only [Bool.and_eq_true, beq_iff_eq] at h
    exact ⟨x, hx, h.1.1.1, h.1.1.2, h.1.2, h.2⟩
  · cases h

theorem read_stream_of_middleRead : ∃ s₀ s₁ s x f, server.Reachable Proper s₀ ∧
    s₀.world.srv.xferAt 0 = none ∧ s₁.world.srv.xferAt 0 = some x ∧ x.cmd = .read ∧
    server.Steps (LeavesAlone 0) s₁ s ∧ s.world.srv.xferAt 0 = none ∧
    ReadStream tenBytes 2 5 0 6 f s₁.world.kern.record (Pdu.fileInfo 5 1 2 3 1).bytes s.world ∧
    streamOf 0 6 s.world.kern.trace = (Pdu.fileInfo 5 1 2 3 1).bytes ++ [2, 3, 4, 5, 6] := by
  obtain ⟨s₀, hr, hP⟩ := exists_reachable Proper 4 100 middleRead State.readsThrough
    (by decide +kernel)
  simp only [State.readsThrough, State.endsReadWith, Bool.and_eq_true, Option.any_eq_true,
    Option.isNone_iff_eq_none, beq_iff_eq] at hP
  obtain ⟨⟨hnone, hfrom⟩, s₁, hrun₁, hstart, s, hrun, hgone, hstream⟩ := hP
  obtain ⟨x, hx, hread, hsize, hstat, hgreeted⟩ := State.of_startsRead hstart
  obtain ⟨s₁', hg, hn, hend⟩ := System.run_cons hrun₁
  cases hend
  have hsteps := System.steps_of_run hrun
  obtain ⟨req, node, _, _, _, f, hopens, -, hall⟩ := read_stream hr hg hn hnone hx hread
  have hoffset := hopens.offset hfrom
  have hnode : node = tenBytes := by
    obtain ⟨_, _, _, _, _, hopen⟩ := hopens
    exact (Except.ok.inj hopen).symm
  have hread' := ((hall s).1 (hsteps.mono fun _ _ hg => hg.1)).1
  rw [hoffset, hsize, hnode, hstat, hgreeted, List.flatMap_singleton] at hread'
  exact ⟨s₀, s₁, s, x, f, hr, hnone, hx, hread, hsteps, hgone, hread', hstream⟩

end Examples

end Sendfiled
