/-
The helpers of the server's code perform nothing but actions.  Every lemma here
extends the sequence of actions that led to the current world, and says which
part of the world its function leaves alone.
-/
import Sendfiled.Actions

namespace Sendfiled

open Prog

/-- The free actions are permitted everywhere. -/
def Permissive (A : Action → Config → Prop) : Prop :=
  ∀ a c, a.free = true → A a c

/-- What is known where an assertion of `defer_xfer` fails, or where a null response is
registered.  The loop bounds of the model are never reached. -/
def Blames (A : Action → Config → Prop) (c : Config) : Fault → Prop
  | .assertion .deferCancel => ∃ p x, c.world.srv.xferAt p = some x ∧
      x.defer ≠ .ready ∧ A (.cancel p) c ∧
      c.world.srv.xfers.size ≤ c.world.srv.deferredXfers.length
  | .assertion .deferReadyRoom => ∃ p x, c.world.srv.xferAt p = some x ∧
      x.defer = .none ∧ c.world.srv.xfers.size ≤ c.world.srv.deferredXfers.length
  | .assertion .deferReadyNotCancel => False
  | .nullDeref => ∃ r, A (.addResp r) c
  | .outOfFuel => False
  | _ => True

/-- A fault after permitted actions. -/
def Faulty (A : Action → Config → Prop) (c₀ : Config) (e : Fault) (w : World) : Prop :=
  ∃ L, Acts A c₀ ⟨L, w⟩ ∧ Blames A ⟨L, w⟩ e

theorem Blames.mono {A B : Action → Config → Prop} (hAB : ∀ a c, A a c → B a c) {c : Config}
    {e : Fault} (h : Blames A c e) : Blames B c e := by
  unfold Blames at h ⊢
  split at h
  · obtain ⟨p, x, hp, hdefer, ha, hfull⟩ := h
    exact ⟨p, x, hp, hdefer, hAB _ _ ha, hfull⟩
  · exact h
  · exact h
  · obtain ⟨r, ha⟩ := h
    exact ⟨r, hAB _ _ ha⟩
  · exact h
  · trivial

/-- A fault after permitted actions is one after more of them. -/
theorem Faulty.trans {A B : Action → Config → Prop} {c₀ c : Config} {e : Fault} {w : World}
    (h' : Faulty A c e w) (h : Acts B c₀ c) (hAB : ∀ a c, A a c → B a c) : Faulty B c₀ e w := by
  obtain ⟨L, hacts, hblames⟩ := h'
  exact ⟨L, h.trans (hacts.mono hAB), hblames.mono hAB⟩

section Rules

variable {α : Type} {E : Fault → World → Prop} {w : World}

@[simp] theorem wp_sys (f : Kernel → α × Kernel) {Q : α → World → Prop} :
    wp (sys f) Q E w ↔ Q (f w.kern).1 { w with kern := (f w.kern).2 } := Iff.rfl

@[simp] theorem wp_onSrv (f : Server → Server) {Q : Unit → World → Prop} :
    wp (onSrv f) Q E w ↔ Q () { w with srv := f w.srv } := Iff.rfl

@[simp] theorem wp_getErrno {Q : Errno → World → Prop} :
    wp getErrno Q E w ↔ Q w.kern.errno w := Iff.rfl

@[simp] theorem wp_setErrno (e : Errno) {Q : Unit → World → Prop} :
    wp (setErrno e) Q E w ↔ Q () { w with kern := { w.kern with errno := e } } := Iff.rfl

@[simp] theorem wp_assert (c : Prop) [Decidable c] (a : Assertion)
    {Q : Unit → World → Prop} :
    wp (assert c a) Q E w ↔ (c → Q () w) ∧ (¬ c → E (.assertion a) w) :=
  wp_check c _

theorem wp_preserveErrno (m : M Unit) {Q : Unit → World → Prop} :
    wp (preserveErrno m) Q E w ↔ wp m (fun _ w' =>
      Q () { w' with kern := { w'.kern with errno := w.kern.errno } }) E w := by
  simp only [preserveErrno, wp_bind, wp_getErrno, wp_setErrno]

theorem wp_getXfer (p : Ptr) {Q : ResrcXfer → World → Prop} :
    wp (getXfer p) Q E w ↔ (∀ x, w.srv.xferAt p = some x → Q x w) ∧
      (w.srv.xferAt p = none → E .useAfterFree w) := by
  simp only [getXfer, wp_bind, wp_gets]
  cases h : w.srv.xferAt p <;> simp

theorem wp_getTimer (t : Ptr) {Q : ResrcTimer → World → Prop} :
    wp (getTimer t) Q E w ↔ (∀ tm, w.srv.timerAt t = some tm → Q tm w) ∧
      (w.srv.timerAt t = none → E .useAfterFree w) := by
  simp only [getTimer, wp_bind, wp_gets]
  cases h : w.srv.timerAt t <;> simp

theorem wp_getResp (r : Ptr) {Q : ResrcResp → World → Prop} :
    wp (getResp r) Q E w ↔ (∀ rs, w.srv.respAt r = some rs → Q rs w) ∧
      (w.srv.respAt r = none → E .useAfterFree w) := by
  simp only [getResp, wp_bind, wp_gets]
  cases h : w.srv.respAt r <;> simp

/-- Following a pointer to a live transfer. -/
theorem wp_getXfer_live {p : Ptr} {x : ResrcXfer} (hp : w.srv.xferAt p = some x)
    {Q : ResrcXfer → World → Prop} (h : Q x w) : wp (getXfer p) Q E w := by
  rw [wp_getXfer, hp]
  exact ⟨fun _ hx => Option.some.inj hx ▸ h, fun hn => by cases hn⟩

theorem wp_getTimer_live {t : Ptr} {tm : ResrcTimer} (ht : w.srv.timerAt t = some tm)
    {Q : ResrcTimer → World → Prop} (h : Q tm w) : wp (getTimer t) Q E w := by
  rw [wp_getTimer, ht]
  exact ⟨fun _ hx => Option.some.inj hx ▸ h, fun hn => by cases hn⟩

theorem wp_getResp_live {r : Ptr} {rs : ResrcResp} (hr : w.srv.respAt r = some rs)
    {Q : ResrcResp → World → Prop} (h : Q rs w) : wp (getResp r) Q E w := by
  rw [wp_getResp, hr]
  exact ⟨fun _ hx => Option.some.inj hx ▸ h, fun hn => by cases hn⟩

end Rules

section Quiet

variable {k k' k'' : Kernel} {s s' s'' : Server}

theorem Kernel.Quiet.refl (k : Kernel) : k.Quiet k := rfl

theorem Kernel.Quiet.trans (h : k.Quiet k') (h' : k'.Quiet k'') : k.Quiet k'' := by
  unfold Kernel.Quiet at *
  rw [h', h]

theorem Kernel.quiet_fail (e : Errno) (k : Kernel) : k.Quiet (k.fail e) := rfl

theorem Kernel.quiet_succeed (k : Kernel) : k.Quiet k.succeed := rfl

theorem Kernel.quiet_errno (e : Errno) (k : Kernel) : k.Quiet { k with errno := e } := rfl

theorem Kernel.Quiet.fds (h : k.Quiet k') : k'.fds = k.fds := by rw [h]

theorem Kernel.Quiet.regs (h : k.Quiet k') : k'.regs = k.regs := by rw [h]

theorem Kernel.Quiet.files (h : k.Quiet k') : k'.files = k.files := by rw [h]

theorem Kernel.Quiet.nextFile (h : k.Quiet k') : k'.nextFile = k.nextFile := by rw [h]

theorem Kernel.Quiet.trace (h : k.Quiet k') : k'.trace = k.trace := by rw [h]

theorem Kernel.Quiet.record (h : k.Quiet k') : k'.record = k.record := by rw [h]

theorem Kernel.quiet_attempt (answer : Option Errno) (k : Kernel) :
    k.Quiet (k.attempt answer).2 := by
  cases answer <;> rfl

theorem Kernel.close_fds (ans : Answers) (fd : Fd) (k : Kernel) :
    (k.close ans fd).2.fds = k.fds.erase fd := by
  unfold Kernel.close
  split
  · rename_i hnone
    have hnot : fd ∉ k.fds := AList.lookup_eq_none.mp hnone
    exact AList.ext (List.kerase_of_notMem_keys hnot).symm
  · rfl

theorem Kernel.close_regs_sublist (ans : Answers) (fd : Fd) (k : Kernel) :
    (k.close ans fd).2.regs.Sublist k.regs := by
  unfold Kernel.close
  split
  · exact List.Sublist.refl _
  · simp only [Kernel.succeed, Kernel.log]
    split
    · exact List.Sublist.refl _
    · exact List.filter_sublist

/-! What each system call does to the kernel, up to `errno` and the clock. -/

theorem Kernel.write_cases (ans : Answers) (xfer : Option Ptr) (fd : Fd) (pdu : Pdu)
    (k : Kernel) :
    (∃ e k', k.write ans xfer fd pdu = (.error e, k') ∧ k'.errno = e ∧
        (fd ∉ k.fds → e = EBADF) ∧ (k.log (.sent xfer fd pdu (.error e))).Quiet k') ∨
      ∃ n k', k.write ans xfer fd pdu = (.ok n, k') ∧ fd ∈ k.fds ∧
        (k.log (.sent xfer fd pdu (.ok n))).Quiet k' := by
  unfold Kernel.write
  split
  · exact Or.inl ⟨_, _, rfl, rfl, fun _ => rfl, Kernel.quiet_fail _ _⟩
  · rename_i f hf
    have hopen : fd ∈ k.fds := AList.lookup_isSome.mp (by rw [hf]; rfl)
    split
    · exact Or.inl ⟨_, _, rfl, rfl, fun hgone => absurd hopen hgone, Kernel.quiet_fail _ _⟩
    · exact Or.inr ⟨_, _, rfl, hopen, Kernel.quiet_succeed _⟩

theorem Kernel.write_quiet (ans : Answers) (xfer : Option Ptr) (fd : Fd) (pdu : Pdu) (k : Kernel) :
    (k.log (.sent xfer fd pdu (k.write ans xfer fd pdu).1)).Quiet
      (k.write ans xfer fd pdu).2 := by
  obtain ⟨e, k', heq, -, -, hk⟩ | ⟨n, k', heq, -, hk⟩ := Kernel.write_cases ans xfer fd pdu k <;>
    rw [heq] <;> exact hk

theorem Kernel.write_spec (ans : Answers) (xfer : Option Ptr) (fd : Fd) (pdu : Pdu)
    (k : Kernel) : ∃ result,
      (k.log (.sent xfer fd pdu result)).Quiet (k.write ans xfer fd pdu).2 :=
  ⟨_, Kernel.write_quiet ans xfer fd pdu k⟩

theorem Kernel.openFile_spec (ans : Answers) (name : List UInt8) (k : Kernel) :
    (∃ k', k.openFile ans name = (none, k') ∧ k.Quiet k') ∨
      ∃ node k', k.openFile ans name = (some ((k.opened node).1, node), k') ∧
        ans.openFile k.tick name = .ok node ∧ (k.opened node).2.Quiet k' := by
  unfold Kernel.openFile
  split
  · exact Or.inl ⟨_, rfl, Kernel.quiet_fail _ _⟩
  · rename_i node hnode
    exact Or.inr ⟨node, _, rfl, hnode, Kernel.quiet_succeed _⟩

theorem Kernel.lseek_spec (ans : Answers) (fd : Fd) (offset : Nat) (k : Kernel) :
    (∃ k', k.lseek ans fd offset = (false, k') ∧ k.Quiet k') ∨
      ∃ n k', k.lseek ans fd offset = (true, k') ∧ k.fds.lookup fd = some (.file n) ∧
        (k.sought n offset).Quiet k' := by
  unfold Kernel.lseek
  split
  · exact Or.inl ⟨_, rfl, Kernel.quiet_fail _ _⟩
  · split
    · exact Or.inr ⟨_, _, rfl, ‹_›, rfl⟩
    · exact Or.inl ⟨_, rfl, Kernel.quiet_fail _ _⟩

theorem Kernel.dup_spec (ans : Answers) (fd : Fd) (k : Kernel) :
    (∃ k', k.dup ans fd = (none, k') ∧ (fd ∈ k.fds → ∃ n, ans.dup n ≠ none) ∧ k.Quiet k') ∨
      ∃ f k', k.dup ans fd = (some (k.install f).1, k') ∧ k.fds.lookup fd = some f ∧
        (k.install f).2.Quiet k' := by
  unfold Kernel.dup
  split
  · rename_i hnone
    refine Or.inl ⟨_, rfl, fun hopen => ?_, Kernel.quiet_fail _ _⟩
    exact absurd hopen (AList.lookup_eq_none.mp hnone)
  · split
    · rename_i e he
      exact Or.inl ⟨_, rfl, fun _ => ⟨_, by rw [he]; exact Option.some_ne_none e⟩,
        Kernel.quiet_fail _ _⟩
    · exact Or.inr ⟨_, _, rfl, ‹_›, Kernel.quiet_succeed _⟩

theorem Kernel.timerfdCreate_spec (ans : Answers) (k : Kernel) :
    (∃ k' e, k.timerfdCreate ans = (none, k') ∧ ans.timerfdCreate k.tick = some e ∧
        k.Quiet k') ∨
      ∃ k', k.timerfdCreate ans = (some k.openedTimer.1, k') ∧
        k.openedTimer.2.Quiet k' := by
  unfold Kernel.timerfdCreate
  split
  · exact Or.inl ⟨_, _, rfl, ‹_›, Kernel.quiet_fail _ _⟩
  · exact Or.inr ⟨_, rfl, Kernel.quiet_succeed _⟩

theorem Kernel.epollAddError_none {ans : Answers} {fd : Fd} {k : Kernel}
    (h : k.epollAddError ans fd = none) : ∃ f, k.fds.lookup fd = some f ∧
      ∀ r ∈ k.regs, ¬ (r.fd = fd ∧ r.file = f) := by
  unfold Kernel.epollAddError at h
  split at h
  · cases h
  · split at h
    · cases h
    · rename_i f hf hany
      refine ⟨f, hf, ?_⟩
      simpa using hany

theorem Kernel.epollAddError_some {ans : Answers} {fd : Fd} {k : Kernel} {e : Errno}
    {f : OpenFile} (h : k.epollAddError ans fd = some e) (hf : k.fds.lookup fd = some f) :
    (∃ reg ∈ k.regs, reg.fd = fd ∧ reg.file = f) ∨ ans.epollAdd k.tick = some e := by
  unfold Kernel.epollAddError at h
  rw [hf] at h
  simp only at h
  split at h
  · rename_i hany
    obtain ⟨reg, hreg, hsame⟩ := List.any_eq_true.mp hany
    rw [Bool.and_eq_true, beq_iff_eq, beq_iff_eq] at hsame
    exact Or.inl ⟨reg, hreg, hsame⟩
  · exact Or.inr h

theorem Kernel.epollAdd_spec (ans : Answers) (fd : Fd) (u : Udata) (k : Kernel) :
    (∃ e k', k.epollAdd ans fd u = (false, k') ∧ k.epollAddError ans fd = some e ∧
        k.Quiet k') ∨
      ∃ f k', k.epollAdd ans fd u = (true, k') ∧ k.epollAddError ans fd = none ∧
        k.fds.lookup fd = some f ∧ (∀ r ∈ k.regs, ¬ (r.fd = fd ∧ r.file = f)) ∧
        Kernel.Quiet { k with regs := k.regs ++ [⟨fd, f, u⟩] } k' := by
  unfold Kernel.epollAdd
  cases herr : k.epollAddError ans fd with
  | some e => exact Or.inl ⟨e, _, rfl, rfl, Kernel.quiet_fail _ _⟩
  | none =>
      obtain ⟨f, hf, hnew⟩ := Kernel.epollAddError_none herr
      rw [hf]
      exact Or.inr ⟨f, _, rfl, rfl, rfl, hnew, Kernel.quiet_succeed _⟩

/-- The errors a write of file data can fail with. -/
def Answers.Balks (ans : Answers) (e : Errno) : Prop :=
  e = EBADF ∨ ∃ t n, ans.io t n = .error e

theorem Kernel.moveBytes_spec (ans : Answers) (p : Ptr) (fdIn fdOut : Fd) (n : Nat)
    (k : Kernel) :
    (∃ e k', k.moveBytes ans p fdIn fdOut n = (.error e, k') ∧ k'.errno = e ∧
        ans.Balks e ∧ (k.log (.failed p fdOut e)).Quiet k') ∨
      ∃ m k', k.moveBytes ans p fdIn fdOut n = (.ok m, k') ∧ m ≤ n := by
  unfold Kernel.moveBytes
  split
  · split
    · rename_i e he
      exact Or.inl ⟨_, _, rfl, rfl, Or.inr ⟨_, _, he⟩, Kernel.quiet_fail _ _⟩
    · split
      · split
        · exact Or.inl ⟨_, _, rfl, rfl, Or.inl rfl, Kernel.quiet_fail _ _⟩
        · exact Or.inr ⟨_, _, rfl, Nat.min_le_right _ _⟩
      · exact Or.inr ⟨_, _, rfl, Nat.min_le_right _ _⟩
  · exact Or.inl ⟨_, _, rfl, rfl, Or.inl rfl, Kernel.quiet_fail _ _⟩

theorem Server.Quiet.refl (s : Server) : s.Quiet s := rfl

theorem Server.Quiet.xfers (h : s.Quiet s') : s'.xfers = s.xfers := by rw [h]

theorem Server.Quiet.xferAt (h : s.Quiet s') : s'.xferAt = s.xferAt := by rw [h]

theorem Server.Quiet.timerAt (h : s.Quiet s') : s'.timerAt = s.timerAt := by rw [h]

theorem Server.Quiet.respAt (h : s.Quiet s') : s'.respAt = s.respAt := by rw [h]

theorem Server.Quiet.xferTimers (h : s.Quiet s') : s'.xferTimers = s.xferTimers := by rw [h]

theorem Server.Quiet.deferredXfers (h : s.Quiet s') :
    s'.deferredXfers = s.deferredXfers := by rw [h]

theorem Server.Quiet.pipeCapacity (h : s.Quiet s') : s'.pipeCapacity = s.pipeCapacity := by rw [h]

theorem Server.Quiet.nextTxnid (h : s.Quiet s') : s'.nextTxnid = s.nextTxnid := by rw [h]

theorem Server.Quiet.reqfd (h : s.Quiet s') : s'.reqfd = s.reqfd := by rw [h]

theorem Server.Quiet.nextPtr (h : s.Quiet s') : s'.nextPtr = s.nextPtr := by rw [h]

theorem Server.quiet_release (a : Addr) (s : Server) : s.Quiet (s.release a) := rfl

end Quiet

section Acts

variable {A : Action → Config → Prop} {c₀ : Config} {L : List Fd} {w w' : World}

/-- Quiet changes go unnoticed, and descriptors in hand may be lost. -/
theorem Acts.quietly (hA : Permissive A) (h : Acts A c₀ ⟨L, w⟩) {L' : List Fd}
    (hL : L'.Sublist L) (hs : w.srv.Quiet w'.srv) (hk : w.kern.Quiet w'.kern) :
    Acts A c₀ ⟨L', w'⟩ :=
  h.snoc (hA .quiet _ rfl) (.quiet hL hs hk)

theorem Acts.kernQuiet (hA : Permissive A) (h : Acts A c₀ ⟨L, w⟩) {k : Kernel}
    (hk : w.kern.Quiet k) : Acts A c₀ ⟨L, { w with kern := k }⟩ :=
  h.quietly hA (List.Sublist.refl L) (Server.Quiet.refl _) hk

theorem Acts.faulty (h : Acts A c₀ ⟨L, w⟩) {e : Fault} (he : Blames A ⟨L, w⟩ e) :
    Faulty A c₀ e w := ⟨L, h, he⟩

end Acts

/-- Each call takes a tick. -/
theorem Kernel.write_tick (ans : Answers) (xfer : Option Ptr) (fd : Fd) (pdu : Pdu) (k : Kernel) :
    (k.write ans xfer fd pdu).2.tick = k.tick + 1 := by
  unfold Kernel.write
  split
  · rfl
  · split <;> rfl

theorem Kernel.moveBytes_tick (ans : Answers) (p : Ptr) (fdIn fdOut : Fd) (n : Nat) (k : Kernel) :
    (k.moveBytes ans p fdIn fdOut n).2.tick = k.tick + 1 := by
  unfold Kernel.moveBytes
  split
  · split
    · rfl
    · split
      · split <;> rfl
      · rfl
  · rfl

/-- `send_pdu` writes once. -/
theorem wp_sendPdu_written {ans : Answers} {w : World} {E : Fault → World → Prop}
    {xfer : Option Ptr} {fd : Fd} {pdu : Pdu} {Q : Bool → World → Prop}
    (hQ : ∀ b, Q b ⟨w.srv, (w.kern.write ans xfer fd pdu).2⟩)
    (hE : E (.assertion .sendPduWhole) ⟨w.srv, (w.kern.write ans xfer fd pdu).2⟩) :
    wp (sendPdu ans xfer fd pdu) Q E w := by
  simp only [sendPdu, wp_bind, wp_sys]
  obtain ⟨e, k, heq, -⟩ | ⟨n, k, heq, -⟩ := Kernel.write_cases ans xfer fd pdu w.kern
  · simp only [heq] at hQ ⊢
    exact hQ _
  · simp only [heq, wp_bind, wp_assert, wp_pure] at hQ hE ⊢
    exact ⟨fun _ => hQ _, fun _ => hE⟩

/-- A message leaves its mark in the trace, with the result of the write, and nowhere else. -/
theorem wp_sendPdu_result {ans : Answers} {w : World} {E : Fault → World → Prop}
    {xfer : Option Ptr} {fd : Fd} {pdu : Pdu} {Q : Bool → World → Prop}
    (hQ : ∀ b k, (w.kern.log (.sent xfer fd pdu (w.kern.write ans xfer fd pdu).1)).Quiet k →
      Q b ⟨w.srv, k⟩)
    (hE : ∀ k, (w.kern.log (.sent xfer fd pdu (w.kern.write ans xfer fd pdu).1)).Quiet k →
      E (.assertion .sendPduWhole) ⟨w.srv, k⟩) :
    wp (sendPdu ans xfer fd pdu) Q E w :=
  wp_sendPdu_written (fun b => hQ b _ (Kernel.write_quiet ans xfer fd pdu w.kern))
    (hE _ (Kernel.write_quiet ans xfer fd pdu w.kern))

/-- The same, whatever the result. -/
theorem wp_sendPdu_logged {ans : Answers} {w : World} {E : Fault → World → Prop}
    {xfer : Option Ptr} {fd : Fd} {pdu : Pdu} {Q : Bool → World → Prop}
    (hQ : ∀ b k result, (w.kern.log (.sent xfer fd pdu result)).Quiet k → Q b ⟨w.srv, k⟩)
    (hE : ∀ k result, (w.kern.log (.sent xfer fd pdu result)).Quiet k →
      E (.assertion .sendPduWhole) ⟨w.srv, k⟩) :
    wp (sendPdu ans xfer fd pdu) Q E w :=
  wp_sendPdu_result (fun b k hk => hQ b k _ hk) fun k hk => hE k _ hk

/-- What `write` returned, given the result of `send_pdu`. -/
def writeResult (pdu : Pdu) (e : Errno) : Bool → Except Errno Nat
  | true => .ok pdu.size
  | false => .error e

/-- What writing a message changes. -/
structure Wrote (xfer : Option Ptr) (fd : Fd) (pdu : Pdu) (sent : Bool) (w w' : World) : Prop where
  srv : w'.srv = w.srv
  kern : (w.kern.log (.sent xfer fd pdu (writeResult pdu w'.kern.errno sent))).Quiet w'.kern
  unopened : fd ∉ w.kern.fds → w'.kern.errno = EBADF

section Wrote

variable {xfer : Option Ptr} {fd : Fd} {pdu : Pdu} {sent : Bool} {w w' : World}

theorem Wrote.fds (h : Wrote xfer fd pdu sent w w') : w'.kern.fds = w.kern.fds := h.kern.fds

theorem Wrote.regs (h : Wrote xfer fd pdu sent w w') : w'.kern.regs = w.kern.regs := h.kern.regs

theorem Wrote.trace (h : Wrote xfer fd pdu sent w w') : w'.kern.trace =
    w.kern.trace ++ [.sent xfer fd pdu (writeResult pdu w'.kern.errno sent)] := h.kern.trace

theorem Wrote.record (h : Wrote xfer fd pdu sent w w') : w'.kern.record = w.kern.record ++
    [(.sent xfer fd pdu (writeResult pdu w'.kern.errno sent), w.kern.fds.lookup fd)] :=
  h.kern.record

/-- Error headers may be written on behalf of no transfer or of a live one. -/
theorem Server.maySay_hdr {s : Server} {cmd : SfdCmdId} {stat : Nat}
    (hlive : ∀ p, xfer = some p → ∃ x, s.xferAt p = some x) : s.MaySay xfer (.hdr cmd stat) := by
  cases xfer with
  | none => exact Or.inl trivial
  | some p => exact Or.inl (hlive p rfl)

/-- The status channel of a live transfer. -/
theorem Server.through_statFd {s : Server} {p : Ptr} {x : ResrcXfer} (hp : s.xferAt p = some x) :
    ∀ q, some p = some q → s.Through q x.statFd := by
  intro q hq
  cases hq
  exact Or.inl ⟨x, hp, rfl⟩

end Wrote

section Helpers

variable {A : Action → Config → Prop} {c₀ : Config} {L : List Fd} {w : World}
  {ans : Answers} (hA : Permissive A) (h : Acts A c₀ ⟨L, w⟩)

include hA h

theorem wp_close {fd : Fd} (hfd : fd ∈ L ∨ fd < 0)
    {Q : Unit → World → Prop}
    (hQ : ∀ w', w'.srv = w.srv → w'.kern = (w.kern.close ans fd).2 →
      Acts A c₀ ⟨L.erase fd, w'⟩ → Q () w') :
    wp (close ans fd) Q (Faulty A c₀) w := by
  simp only [close, wp_bind, wp_sys, wp_pure]
  exact hQ _ rfl rfl (h.snoc (hA (.shut fd) _ rfl) (.shut ans hfd))

omit hA in
/-- Closing a descriptor that is not open any more. -/
theorem wp_close_again {fd : Fd} (hfd : fd ∉ w.kern.fds) (hreshut : A (.reshut fd) ⟨L, w⟩)
    {Q : Unit → World → Prop}
    (hQ : ∀ w', w'.srv = w.srv → w'.kern = (w.kern.close ans fd).2 →
      Acts A c₀ ⟨L, w'⟩ → Q () w') :
    wp (close ans fd) Q (Faulty A c₀) w := by
  simp only [close, wp_bind, wp_sys, wp_pure]
  exact hQ _ rfl rfl (h.snoc hreshut (.reshut ans hfd))

theorem wp_preserveErrno_close {fd : Fd} (hfd : fd ∈ L ∨ fd < 0)
    {Q : Unit → World → Prop}
    (hQ : ∀ w', w'.srv = w.srv → Acts A c₀ ⟨L.erase fd, w'⟩ → Q () w') :
    wp (preserveErrno (close ans fd)) Q (Faulty A c₀) w := by
  rw [wp_preserveErrno]
  refine wp_close hA h hfd fun w' hsrv _ h' => ?_
  exact hQ _ hsrv (h'.kernQuiet hA (Kernel.quiet_errno _ _))

theorem wp_malloc {Q : Option Addr → World → Prop}
    (hQ : ∀ o w', w.srv.Quiet w'.srv → w.kern.Quiet w'.kern → Acts A c₀ ⟨L, w'⟩ → Q o w') :
    wp (malloc ans) Q (Faulty A c₀) w := by
  simp only [malloc, wp_modifyGet]
  have hfail : Acts A c₀ ⟨L, { w with kern := w.kern.fail ENOMEM }⟩ :=
    h.kernQuiet hA (Kernel.quiet_fail _ _)
  split
  · exact hQ _ _ (Server.Quiet.refl _) (Kernel.quiet_fail _ _) hfail
  · split
    · exact hQ _ _ (Server.Quiet.refl _) (Kernel.quiet_fail _ _) hfail
    · refine hQ _ _ rfl (Kernel.quiet_succeed _) ?_
      exact h.quietly hA (List.Sublist.refl L) rfl (Kernel.quiet_succeed _)

theorem wp_sendPdu {xfer : Option Ptr} {fd : Fd} {pdu : Pdu}
    (hspeak : A (.say xfer fd pdu) ⟨L, w⟩) (hsay : w.srv.MaySay xfer pdu)
    (hfd : ∀ p, xfer = some p → w.srv.Through p fd)
    {Q : Bool → World → Prop}
    (hQ : ∀ b w', Wrote xfer fd pdu b w w' → Acts A c₀ ⟨L, w'⟩ → Q b w') :
    wp (sendPdu ans xfer fd pdu) Q (Faulty A c₀) w := by
  have hsaid : ∀ result k, (w.kern.log (.sent xfer fd pdu result)).Quiet k →
      Acts A c₀ ⟨L, ⟨w.srv, k⟩⟩ := fun result k hk =>
    Acts.kernQuiet (w := ⟨w.srv, _⟩) hA (h.snoc hspeak (.say hsay hfd)) hk
  simp only [sendPdu, wp_bind, wp_sys]
  obtain ⟨e, k', heq, he, hbad, hk⟩ | ⟨n, k', heq, hopen, hk⟩ :=
    Kernel.write_cases ans xfer fd pdu w.kern
  · simp only [heq, wp_pure]
    exact hQ _ _ ⟨rfl, he.symm ▸ hk, he.symm ▸ hbad⟩ (hsaid _ _ hk)
  · simp only [heq, wp_bind, wp_assert, wp_pure]
    refine ⟨fun hn => ?_, fun _ => (hsaid _ _ hk).faulty trivial⟩
    subst hn
    exact hQ _ _ ⟨rfl, hk, fun hgone => absurd hopen hgone⟩ (hsaid _ _ hk)

theorem wp_sendReqErr {xfer : Option Ptr} {fd : Fd} {stat : Errno}
    (hspeak : ∀ pdu, A (.say xfer fd pdu) ⟨L, w⟩)
    (hlive : ∀ p, xfer = some p → ∃ x, w.srv.xferAt p = some x ∧ fd = x.statFd)
    {Q : Bool → World → Prop}
    (hQ : ∀ b w', 0 < stat → Wrote xfer fd (.hdr .fileInfo stat) b w w' → Acts A c₀ ⟨L, w'⟩ →
      Q b w') :
    wp (sendReqErr ans xfer fd stat) Q (Faulty A c₀) w := by
  simp only [sendReqErr, wp_bind, wp_assert]
  refine ⟨fun hstat => ?_, fun _ => h.faulty trivial⟩
  exact wp_sendPdu hA h (hspeak _)
    (Server.maySay_hdr fun p hp => (hlive p hp).imp fun _ => And.left)
    (fun p hp => Or.inl (hlive p hp)) fun b w' => hQ b w' hstat.1

theorem wp_sendXferErr {xfer : Option Ptr} {fd : Fd} {stat : Errno}
    (hspeak : ∀ pdu, A (.say xfer fd pdu) ⟨L, w⟩)
    (hlive : ∀ p, xfer = some p → ∃ x, w.srv.xferAt p = some x ∧ fd = x.statFd)
    {Q : Bool → World → Prop}
    (hQ : ∀ b w', Wrote xfer fd (.hdr .xferStat (stat % 256)) b w w' → Acts A c₀ ⟨L, w'⟩ →
      Q b w') :
    wp (sendXferErr ans xfer fd stat) Q (Faulty A c₀) w :=
  wp_sendPdu hA h (hspeak _) (Server.maySay_hdr fun p hp => (hlive p hp).imp fun _ => And.left)
    (fun p hp => Or.inl (hlive p hp)) hQ

theorem wp_sendFileInfo {p : Ptr} {x : ResrcXfer} {fd : Fd} {txnid : Nat} {info : FioStat}
    (hspeak : ∀ pdu, A (.say (some p) fd pdu) ⟨L, w⟩)
    (hp : w.srv.xferAt p = some x) (hfd : fd = x.statFd) (hsize : info.size = x.file.size.toNat)
    (htxnid : txnid = x.txnid) {Q : Bool → World → Prop}
    (hQ : ∀ b w', Wrote (some p) fd
      (.fileInfo x.file.size.toNat info.atime info.mtime info.ctime x.txnid) b w w' →
      Acts A c₀ ⟨L, w'⟩ → Q b w') :
    wp (sendFileInfo ans p fd txnid info) Q (Faulty A c₀) w := by
  subst htxnid
  have hsay : w.srv.MaySay (some p)
      (.fileInfo x.file.size.toNat info.atime info.mtime info.ctime x.txnid) :=
    Or.inl ⟨x, hp, rfl, rfl⟩
  unfold sendFileInfo
  rw [hsize]
  exact wp_sendPdu hA h (hspeak _) hsay
    (fun q hq => Or.inl (Option.some.inj hq ▸ ⟨x, hp, hfd⟩)) hQ

end Helpers

section Deletion

variable {E : Fault → World → Prop} {Q : Unit → World → Prop} {w : World} {ans : Answers}
  {p : Ptr} {x : ResrcXfer} (hp : w.srv.xferAt p = some x)

include hp

theorem wp_xferDelete (hQ : Q () { w with srv := (w.srv.release x.addr).dropXfer p }) :
    wp (xferDelete p) Q E w := by
  simp only [xferDelete, wp_bind, wp_onSrv]
  exact wp_getXfer_live hp hQ

theorem wp_deleteXferAndCloseFileFd
    (hQ : Q () ⟨(w.srv.release x.addr).dropXfer p, (w.kern.close ans x.file.fd).2⟩) :
    wp (deleteXferAndCloseFileFd ans p) Q E w := by
  simp only [deleteXferAndCloseFileFd, close, wp_bind, wp_sys, wp_pure]
  exact wp_getXfer_live hp (wp_xferDelete hp hQ)

theorem wp_deleteXferAndCloseAllFds
    (hQ : Q () ⟨(w.srv.release x.addr).dropXfer p, w.kern.closeAll ans x⟩) :
    wp (deleteXferAndCloseAllFds ans p) Q E w := by
  simp only [deleteXferAndCloseAllFds, close, wp_bind, wp_sys, wp_pure]
  refine wp_getXfer_live hp ?_
  unfold Kernel.closeAll Kernel.closeDest at hQ
  split
  · rename_i hdest
    rw [if_pos hdest] at hQ
    simp only [wp_bind, wp_sys, wp_pure]
    exact wp_deleteXferAndCloseFileFd hp hQ
  · rename_i hdest
    rw [if_neg hdest] at hQ
    exact wp_deleteXferAndCloseFileFd hp hQ

theorem wp_deleteUnregisteredXfer
    (hQ : Q () ⟨(w.srv.discard p x.txnid).release x.addr, (w.kern.close ans x.file.fd).2⟩) :
    wp (deleteUnregisteredXfer ans p) Q E w := by
  simp only [deleteUnregisteredXfer, eraseXfer, wp_bind, wp_onSrv]
  exact wp_getXfer_live hp (wp_deleteXferAndCloseFileFd hp hQ)

theorem wp_deleteRegisteredXfer
    (hQ : Q () ⟨(w.srv.discard p x.txnid).release x.addr, w.kern.dismantle ans x⟩) :
    wp (deleteRegisteredXfer ans p) Q E w := by
  simp only [deleteRegisteredXfer, eraseXfer, deregisterXfer, syspollDeregister, wp_bind,
    wp_onSrv]
  refine wp_getXfer_live hp (wp_getXfer_live (by exact hp) ?_)
  simp only [wp_sys]
  exact wp_deleteXferAndCloseAllFds (by exact hp) hQ

theorem wp_setDefer {d : Deferral}
    (hQ : Q () { w with srv := w.srv.setXfer p { x with defer := d } }) :
    wp (setDefer p d) Q E w := by
  simp only [setDefer, wp_bind, wp_onSrv]
  exact wp_getXfer_live hp hQ

theorem wp_undeferXfer {i : Nat} (hQ : Q () { w with
      srv := (w.srv.unlist i).setXfer p { x with defer := .none } }) :
    wp (undeferXfer i p) Q E w := by
  simp only [undeferXfer, wp_bind]
  refine wp_setDefer hp ?_
  simp only [wp_onSrv]
  exact hQ

end Deletion

section Deferral

variable {A : Action → Config → Prop} {c₀ : Config} {L : List Fd} {w : World}
  {p : Ptr} {x : ResrcXfer} (h : Acts A c₀ ⟨L, w⟩) (hp : w.srv.xferAt p = some x)

include h hp

theorem wp_deferCancel (hcancel : A (.cancel p) ⟨L, w⟩) {Q : Unit → World → Prop}
    (hQ : Acts A c₀ ⟨L, { w with srv := w.srv.cancel p x }⟩ →
      Q () { w with srv := w.srv.cancel p x }) :
    wp (deferCancel p) Q (Faulty A c₀) w := by
  simp only [deferCancel, wp_bind]
  refine wp_getXfer_live hp ?_
  simp only [wp_gets, wp_assert]
  refine ⟨fun hroom => ?_, fun hfull => ?_⟩
  · have hdone := hQ (h.snoc hcancel (.cancel hp hroom))
    rw [wp_ite]
    refine ⟨fun hnone => ?_, fun hlisted => ?_⟩
    · simp only [pushDeferred, wp_bind, wp_onSrv]
      refine wp_setDefer (by exact hp) ?_
      simp only [Server.cancel, if_pos hnone] at hdone
      exact hdone
    · refine wp_setDefer hp ?_
      simp only [Server.cancel, if_neg hlisted] at hdone
      exact hdone
  · refine h.faulty ⟨p, x, hp, ?_, hcancel, ?_⟩
    · exact fun hready => hfull (Or.inl hready)
    · exact Nat.le_of_not_lt fun hlt => hfull (Or.inr hlt)

theorem wp_deferReady (hready : A (.ready p) ⟨L, w⟩) (hdefer : x.defer = .none)
    (hcmd : x.cmd = .read ∨ x.cmd = .send) {Q : Unit → World → Prop}
    (hQ : Acts A c₀ ⟨L, { w with srv := w.srv.ready p x }⟩ →
      Q () { w with srv := w.srv.ready p x }) :
    wp (deferReady p) Q (Faulty A c₀) w := by
  simp only [deferReady, wp_bind]
  refine wp_getXfer_live hp ?_
  simp only [wp_gets, wp_assert]
  refine ⟨fun _ => ⟨fun hroom => ?_, fun hfull => ?_⟩, fun hcancel => ?_⟩
  · simp only [pushDeferred, wp_onSrv]
    exact wp_setDefer (by exact hp) (hQ (h.snoc hready (.ready hp hdefer hcmd hroom)))
  · exact h.faulty ⟨p, x, hp, hdefer, Nat.le_of_not_lt hfull⟩
  · simp [hdefer] at hcancel

end Deferral

end Sendfiled
