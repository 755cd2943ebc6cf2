/-
What the actions leave in the trace of observable calls and with the poller.
-/
import Sendfiled.CodeActs

namespace Sendfiled

/-- The transfer on whose behalf a call was made. -/
def Effect.onBehalf : Effect → Option Ptr
  | .sent xfer _ _ _ => xfer
  | .moved xfer _ _ => some xfer
  | .failed xfer _ _ => some xfer
  | .closed _ _ => none

/-- The file data a call moved on behalf of a transfer. -/
def Effect.bytesFor (p : Ptr) : Effect → List UInt8
  | .moved q _ bytes => if q = p then bytes else []
  | _ => []

/-- All file data moved on behalf of a transfer, in order. -/
def movedBy (p : Ptr) (trace : List Effect) : List UInt8 := trace.flatMap (Effect.bytesFor p)

@[simp] theorem movedBy_append (p : Ptr) (tr tr' : List Effect) :
    movedBy p (tr ++ tr') = movedBy p tr ++ movedBy p tr' := by
  simp [movedBy]

theorem movedBy_snoc {p : Ptr} {tr : List Effect} {bytes : List UInt8} {fd : Fd} :
    (movedBy p (tr ++ [.moved p fd bytes])).length = (movedBy p tr).length + bytes.length := by
  simp [movedBy, Effect.bytesFor]

/-- `close` was called on the descriptor. -/
def ClosedIn (trace : List Effect) (fd : Fd) : Prop := ∃ wasOpen, Effect.closed fd wasOpen ∈ trace

/-- `close` was called on all descriptors of the transfer. -/
structure Buried (x : ResrcXfer) (trace : List Effect) : Prop where
  stat : ClosedIn trace x.statFd
  dest : 0 ≤ x.destFd → ClosedIn trace x.destFd
  file : ClosedIn trace x.file.fd

theorem ClosedIn.append {tr tr' : List Effect} {fd : Fd} (h : ClosedIn tr fd) :
    ClosedIn (tr ++ tr') fd := by
  obtain ⟨b, hb⟩ := h
  exact ⟨b, List.mem_append_left _ hb⟩

theorem ClosedIn.append_right {tr tr' : List Effect} {fd : Fd} (h : ClosedIn tr' fd) :
    ClosedIn (tr ++ tr') fd := by
  obtain ⟨b, hb⟩ := h
  exact ⟨b, List.mem_append_right _ hb⟩

theorem Buried.append {x : ResrcXfer} {tr tr' : List Effect} (h : Buried x tr) :
    Buried x (tr ++ tr') :=
  ⟨h.stat.append, fun hd => (h.dest hd).append, h.file.append⟩

theorem Buried.append_right {x : ResrcXfer} {tr tr' : List Effect} (h : Buried x tr') :
    Buried x (tr ++ tr') :=
  ⟨h.stat.append_right, fun hd => (h.dest hd).append_right, h.file.append_right⟩

/-- Calls of `close` only. -/
def OnlyCloses (trace : List Effect) : Prop := ∀ e ∈ trace, ∃ fd wasOpen, e = .closed fd wasOpen

theorem OnlyCloses.append {tr tr' : List Effect} (h : OnlyCloses tr) (h' : OnlyCloses tr') :
    OnlyCloses (tr ++ tr') := by
  intro e he
  rcases List.mem_append.mp he with he | he
  · exact h e he
  · exact h' e he

theorem OnlyCloses.movedBy {tr : List Effect} (h : OnlyCloses tr) (p : Ptr) :
    movedBy p tr = [] := by
  unfold Sendfiled.movedBy
  rw [List.flatMap_eq_nil_iff]
  intro e he
  obtain ⟨fd, b, rfl⟩ := h e he
  rfl

namespace Kernel

variable (ans : Answers) (k : Kernel)

theorem close_trace (fd : Fd) :
    ∃ wasOpen, (k.close ans fd).2.trace = k.trace ++ [.closed fd wasOpen] := by
  unfold close
  split
  · exact ⟨false, rfl⟩
  · exact ⟨true, rfl⟩

theorem epollDel_trace (fd : Fd) : (k.epollDel fd).2.trace = k.trace := by
  unfold epollDel
  split
  · rfl
  · split <;> rfl

theorem onlyCloses_singleton (fd : Fd) (b : Bool) : OnlyCloses [.closed fd b] := by
  intro e he
  exact ⟨fd, b, List.mem_singleton.mp he⟩

theorem closeAll_trace (x : ResrcXfer) : ∃ tr, (k.closeAll ans x).trace = k.trace ++ tr ∧
    OnlyCloses tr ∧ Buried x tr := by
  obtain ⟨b₁, h₁⟩ := close_trace ans k x.statFd
  unfold closeAll closeDest
  split
  · obtain ⟨b₂, h₂⟩ := close_trace ans (k.close ans x.statFd).2 x.destFd
    obtain ⟨b₃, h₃⟩ := close_trace ans ((k.close ans x.statFd).2.close ans x.destFd).2 x.file.fd
    refine ⟨[.closed x.statFd b₁, .closed x.destFd b₂, .closed x.file.fd b₃], ?_, ?_, ?_⟩
    · simp [h₃, h₂, h₁]
    · intro e he
      simp only [List.mem_cons, List.not_mem_nil, or_false] at he
      rcases he with rfl | rfl | rfl <;> exact ⟨_, _, rfl⟩
    · exact ⟨⟨b₁, by simp⟩, fun _ => ⟨b₂, by simp⟩, ⟨b₃, by simp⟩⟩
  · rename_i hshared
    obtain ⟨b₃, h₃⟩ := close_trace ans (k.close ans x.statFd).2 x.file.fd
    refine ⟨[.closed x.statFd b₁, .closed x.file.fd b₃], ?_, ?_, ?_⟩
    · simp [h₃, h₁]
    · intro e he
      simp only [List.mem_cons, List.not_mem_nil, or_false] at he
      rcases he with rfl | rfl <;> exact ⟨_, _, rfl⟩
    · refine ⟨⟨b₁, by simp⟩, fun hd => ?_, ⟨b₃, by simp⟩⟩
      have heq : x.destFd = x.statFd := by
        by_contra hne
        exact hshared ⟨hne, hd⟩
      exact ⟨b₁, by simp [heq]⟩

theorem dismantle_trace (x : ResrcXfer) : ∃ tr, (k.dismantle ans x).trace = k.trace ++ tr ∧
    OnlyCloses tr ∧ Buried x tr := by
  obtain ⟨tr, htr, honly, hburied⟩ := closeAll_trace ans (k.epollDel x.destFd).2 x
  rw [epollDel_trace] at htr
  exact ⟨tr, htr, honly, hburied⟩

/-- The calls made from `k` to `k'`, with the open files they reached. -/
structure Records (k : Kernel) (R : List Entry) (k' : Kernel) : Prop where
  record : k'.record = k.record ++ R
  trace : k'.trace = k.trace ++ R.map Prod.fst

namespace Records

variable {k k' k'' : Kernel} {R R' : List Entry}

theorem of_eq (hrecord : k'.record = k.record) (htrace : k'.trace = k.trace) :
    k.Records [] k' :=
  ⟨by rw [hrecord, List.append_nil], by rw [htrace, List.map_nil, List.append_nil]⟩

theorem trans (h : k.Records R k') (h' : k'.Records R' k'') : k.Records (R ++ R') k'' where
  record := by rw [h'.record, h.record, List.append_assoc]
  trace := by rw [h'.trace, h.trace, List.map_append, List.append_assoc]

end Records

/-- The entry for a call of `close`. -/
def closing (fd : Fd) (k : Kernel) : Entry :=
  (.closed fd (k.fds.lookup fd).isSome, k.fds.lookup fd)

theorem records_close (fd : Fd) : k.Records [k.closing fd] (k.close ans fd).2 := by
  unfold close closing
  cases h : k.fds.lookup fd with
  | none => exact ⟨by simp [fail, log, Effect.fd, h], rfl⟩
  | some f => exact ⟨by simp [succeed, log, Effect.fd, h], rfl⟩

theorem epollDel_record (fd : Fd) : (k.epollDel fd).2.record = k.record := by
  unfold epollDel
  split
  · rfl
  · split <;> rfl

theorem epollDel_fds (fd : Fd) : (k.epollDel fd).2.fds = k.fds := by
  unfold epollDel
  split
  · rfl
  · split <;> rfl

/-- Deleting a transfer closes its status channel first. -/
theorem records_closeAll (x : ResrcXfer) : ∃ R, k.Records R (k.closeAll ans x) ∧
    OnlyCloses (R.map Prod.fst) ∧ k.closing x.statFd ∈ R := by
  have hstat := records_close ans k x.statFd
  unfold closeAll closeDest
  split
  · refine ⟨_, (hstat.trans (records_close ..)).trans (records_close ..), fun e he => ?_, by simp⟩
    simp only [List.cons_append, List.nil_append, List.map_cons, List.map_nil, List.mem_cons,
      List.not_mem_nil, or_false] at he
    rcases he with rfl | rfl | rfl <;> exact ⟨_, _, rfl⟩
  · refine ⟨_, hstat.trans (records_close ..), fun e he => ?_, by simp⟩
    simp only [List.cons_append, List.nil_append, List.map_cons, List.map_nil, List.mem_cons,
      List.not_mem_nil, or_false] at he
    rcases he with rfl | rfl <;> exact ⟨_, _, rfl⟩

theorem records_dismantle (x : ResrcXfer) : ∃ R, k.Records R (k.dismantle ans x) ∧
    OnlyCloses (R.map Prod.fst) ∧ k.closing x.statFd ∈ R := by
  obtain ⟨R, hR, honly, hmem⟩ := records_closeAll ans (k.epollDel x.destFd).2 x
  have hdel : k.Records [] (k.epollDel x.destFd).2 :=
    .of_eq (epollDel_record k x.destFd) (epollDel_trace k x.destFd)
  have hsame : (k.epollDel x.destFd).2.closing x.statFd = k.closing x.statFd := by
    simp only [closing, epollDel_fds]
  exact ⟨R, hdel.trans hR, honly, hsame ▸ hmem⟩

theorem records_log (e : Effect) : k.Records [(e, k.fds.lookup e.fd)] (k.log e) := ⟨rfl, rfl⟩

/-- Data that was moved went to the file behind the descriptor. -/
theorem records_moveBytes {p : Ptr} {fdIn fdOut : Fd} {n m : Nat} {k' : Kernel}
    (h : k.moveBytes ans p fdIn fdOut n = (.ok m, k')) :
    ∃ bytes, k.Records [(.moved p fdOut bytes, k.fds.lookup fdOut)] k' := by
  unfold moveBytes at h
  repeat' split at h
  all_goals cases h
  all_goals exact ⟨_, rfl, rfl⟩

theorem moveBytes_trace {p : Ptr} {fdIn fdOut : Fd} {n m : Nat} {k' : Kernel}
    (h : k.moveBytes ans p fdIn fdOut n = (.ok m, k')) :
    ∃ bytes, bytes.length = m ∧ k'.trace = k.trace ++ [.moved p fdOut bytes] := by
  unfold moveBytes at h
  repeat' split at h
  all_goals cases h
  all_goals exact ⟨_, by simp, rfl⟩

theorem dismantle_regs (x : ResrcXfer) :
    (k.dismantle ans x).regs.Sublist (k.epollDel x.destFd).2.regs := by
  unfold dismantle closeAll closeDest
  refine (close_regs_sublist ans _ _).trans ?_
  split
  · exact (close_regs_sublist ans _ _).trans (close_regs_sublist ans _ _)
  · exact close_regs_sublist ans _ _

theorem epollDel_regs (fd : Fd) : (k.epollDel fd).2.regs.Sublist k.regs := by
  unfold epollDel
  split
  · exact List.Sublist.refl _
  · split
    · exact List.filter_sublist
    · exact List.Sublist.refl _

theorem moveBytes_fds {p : Ptr} {fdIn fdOut : Fd} {n m : Nat} {k' : Kernel}
    (h : k.moveBytes ans p fdIn fdOut n = (.ok m, k')) : k'.fds = k.fds ∧ k'.regs = k.regs := by
  unfold moveBytes at h
  repeat' split at h
  all_goals cases h
  all_goals exact ⟨rfl, rfl⟩

end Kernel

/-- The registration of an open descriptor was added. -/
structure Config.Enrolls (c : Config) (reg : Reg) (c' : Config) : Prop where
  ident : c'.world.srv.Ident reg.udata reg.fd
  file : c.world.kern.fds.lookup reg.fd = some reg.file
  unlisted : ∀ r ∈ c.world.kern.regs, ¬ (r.fd = reg.fd ∧ r.file = reg.file)
  regs : c'.world.kern.regs = c.world.kern.regs ++ [reg]
  xferAt : c'.world.srv.xferAt = c.world.srv.xferAt
  fds : c'.world.kern.fds = c.world.kern.fds

/-- Only registering adds a registration. -/
theorem Performs.regs {a : Action} {c c' : Config} (h : Performs a c c') :
    c'.world.kern.regs.Sublist c.world.kern.regs ∨ ∃ reg, c.Enrolls reg c' ∧
      (a = .register reg.udata ∨
        ∃ r, a = .addResp r ∧ reg.udata = .resp c.world.srv.nextPtr) := by
  cases h with
  | quiet _ _ hk => exact Or.inl (by rw [hk.regs])
  | register hu hf hnew => exact Or.inr ⟨_, ⟨hu, hf, hnew, rfl, rfl, rfl⟩, Or.inl rfl⟩
  | @addResp L s k r f hfd hf hnew =>
      have hident : (s.newResp r).Ident (.resp s.nextPtr) r.statFd :=
        ⟨r, Function.update_self .., rfl⟩
      exact Or.inr ⟨⟨r.statFd, f, .resp s.nextPtr⟩, ⟨hident, hf, hnew, rfl, rfl, rfl⟩,
        Or.inr ⟨r, rfl, rfl⟩⟩
  | forget => exact Or.inl List.filter_sublist
  | say | openFile | seek | openTimer | arrive | dup | enroll | skip | cancel | ready | release
  | assign | balk | addTimer | skipTimer | arm | skipResp => exact Or.inl (List.Sublist.refl _)
  | shut ans | reshut ans | retire ans | expire ans | botch ans | dropResp ans =>
      exact Or.inl (Kernel.close_regs_sublist ans _ _)
  | discard ans | bury ans =>
      exact Or.inl ((Kernel.dismantle_regs ans _ _).trans (Kernel.epollDel_regs _ _))
  | move ans _ _ _ _ hm => exact Or.inl (by rw [(Kernel.moveBytes_fds ans _ hm).2])

/-- What the actions write, with the files it reaches: messages go to the status channel of
their transfer or to a descriptor kept for it, data to the destination. -/
inductive Writes (c : Config) : Action → Entry → Prop
  | say {xfer : Option Ptr} {fd : Fd} {pdu : Pdu} {result : Except Errno Nat}
      (hsay : c.world.srv.MaySay xfer pdu)
      (hfd : ∀ p, xfer = some p → c.world.srv.Through p fd) :
      Writes c (.say xfer fd pdu) (.sent xfer fd pdu result, c.world.kern.fds.lookup fd)
  | move {p : Ptr} {x : ResrcXfer} {bytes : List UInt8} (hp : c.world.srv.xferAt p = some x)
      (hcmd : x.cmd = .read ∨ x.cmd = .send) :
      Writes c (.move p) (.moved p x.destFd bytes, c.world.kern.fds.lookup x.destFd)
  | balk {p : Ptr} {x : ResrcXfer} {e : Errno} (hp : c.world.srv.xferAt p = some x) :
      Writes c (.balk p) (.failed p x.destFd e, c.world.kern.fds.lookup x.destFd)

/-- Whatever an action adds to the record, it closes a descriptor or is written. -/
theorem Performs.records {a : Action} {c c' : Config} (h : Performs a c c') :
    ∃ R, c.world.kern.Records R c'.world.kern ∧
      ∀ e ∈ R, (∃ fd wasOpen, e.1 = .closed fd wasOpen) ∨ Writes c a e := by
  have hcloses : ∀ {R : List Entry}, OnlyCloses (R.map Prod.fst) →
      ∀ e ∈ R, (∃ fd wasOpen, e.1 = .closed fd wasOpen) ∨ Writes c a e := fun honly e he =>
    Or.inl (honly e.1 (List.mem_map_of_mem he))
  have hone : ∀ {e : Entry}, Writes c a e →
      ∀ e' ∈ [e], (∃ fd wasOpen, e'.1 = .closed fd wasOpen) ∨ Writes c a e' := fun hw e' he' =>
    Or.inr (List.mem_singleton.mp he' ▸ hw)
  cases h with
  | quiet _ _ hk => exact ⟨[], .of_eq hk.record hk.trace, by simp⟩
  | say hsay hfd => exact ⟨_, Kernel.records_log _ _, hone (.say hsay hfd)⟩
  | balk hp => exact ⟨_, Kernel.records_log _ _, hone (.balk hp)⟩
  | openFile | seek | openTimer | arrive | dup | register | forget | enroll | skip | cancel
  | ready | release | assign | addTimer | skipTimer | arm | addResp | skipResp =>
      exact ⟨[], .of_eq rfl rfl, by simp⟩
  | shut ans | reshut ans | retire ans | expire ans | botch ans | dropResp ans =>
      exact ⟨_, Kernel.records_close ans _ _, hcloses (Kernel.onlyCloses_singleton _ _)⟩
  | discard ans | bury ans =>
      obtain ⟨R, hR, honly, -⟩ := Kernel.records_dismantle ans _ _
      exact ⟨R, hR, hcloses honly⟩
  | move ans hp _ hcmd _ hm =>
      obtain ⟨bytes, hR⟩ := Kernel.records_moveBytes ans _ hm
      exact ⟨_, hR, hone (.move hp hcmd)⟩

/-- An action extends the trace; only the transfer of data moves bytes. -/
theorem Performs.trace {a : Action} {c c' : Config} (h : Performs a c c') :
    ∃ tr, c'.world.kern.trace = c.world.kern.trace ++ tr ∧
      ∀ p, a ≠ .move p → movedBy p tr = [] := by
  obtain ⟨R, hR, hwrites⟩ := h.records
  refine ⟨_, hR.trace, fun p hp => List.flatMap_eq_nil_iff.mpr fun e he => ?_⟩
  obtain ⟨entry, hentry, rfl⟩ := List.mem_map.mp he
  rcases hwrites entry hentry with ⟨fd, b, heq⟩ | hwrites
  · rw [heq]
    rfl
  · cases hwrites with
    | say | balk => rfl
    | @move q =>
        have hne : q ≠ p := fun heq => hp (by rw [heq])
        simp [Effect.bytesFor, hne]

theorem Acts.trace_prefix {A : Action → Config → Prop} {c c' : Config} (h : Acts A c c') :
    c.world.kern.trace <+: c'.world.kern.trace := by
  apply h.keeps (I := fun c₁ => c.world.kern.trace <+: c₁.world.kern.trace)
  · intro a c₁ c₂ _ hp hle
    obtain ⟨tr, htr, -⟩ := hp.trace
    exact hle.trans ⟨tr, htr.symm⟩
  · exact List.prefix_refl _

end Sendfiled
