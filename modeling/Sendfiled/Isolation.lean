/-
Which transfers a request can reach.  A client reaches no transfer of another
process; within its own it reaches whatever the slot of the transaction ID holds,
which need not be the transaction it named.
-/
import Sendfiled.DeferredList

namespace Sendfiled

open Prog Transition

/-- Only transfers with the property `R` are acted on. -/
def confined (R : ResrcXfer → Prop) (a : Action) (c : Config) : Prop :=
  ∀ p x, a.subject = some p → c.world.srv.xferAt p = some x → R x

theorem confined_permissive (R : ResrcXfer → Prop) : Permissive (confined R) := by
  intro a c ha p x hp
  rw [Action.subject_of_free ha] at hp
  cases hp

/-- What is written acts on no transfer. -/
theorem confined_say (R : ResrcXfer → Prop) (xfer : Option Ptr) (fd : Fd) (pdu : Pdu)
    (c : Config) : confined R (.say xfer fd pdu) c := by
  intro p x hp
  cases hp

theorem confined_of_subject {R : ResrcXfer → Prop} {a : Action} {c : Config} {p : Ptr}
    {x : ResrcXfer} (ha : a.subject = some p) (hp : c.world.srv.xferAt p = some x) (hR : R x) :
    confined R a c := by
  intro q y hq hy
  rw [ha] at hq
  cases hq
  rw [hp] at hy
  cases hy
  exact hR

/-- Transfers without the property stay as they are. -/
theorem Acts.spares {R : ResrcXfer → Prop} {c c' : Config} (h : Acts (confined R) c c')
    {q : Ptr} {y : ResrcXfer} (hlt : q < c.world.srv.nextPtr)
    (hq : c.world.srv.xferAt q = some y) (hy : ¬ R y) : c'.world.srv.xferAt q = some y := by
  have hkept := h.keeps
    (I := fun c => q < c.world.srv.nextPtr ∧ c.world.srv.xferAt q = some y) ?_ ⟨hlt, hq⟩
  · exact hkept.2
  · rintro a c₁ c₂ hconf hperf ⟨hlt₁, hq₁⟩
    refine ⟨Nat.lt_of_lt_of_le hlt₁ hperf.nextPtr_le, ?_⟩
    rw [hperf.frame hlt₁ fun hsub => hy (hconf q y hsub hq₁)]
    exact hq₁

/-- The transfer is live in both states, in the same slot and with the same
contents. -/
structure Untouched (q : Ptr) (y : ResrcXfer) (s s' : Server) : Prop where
  xfer : s'.xferAt q = some y
  slot : ∀ i, s'.xfers.slot i = some q ↔ s.xfers.slot i = some q
  stored : q ∈ s'.xfers.stored

theorem Acts.untouched {R : ResrcXfer → Prop} {c c' : Config} (h : Acts (confined R) c c')
    (hc : Ledger c.world.srv) {q : Ptr} {y : ResrcXfer} (hq : c.world.srv.xferAt q = some y)
    (hy : ¬ R y) : Untouched q y c.world.srv c'.world.srv := by
  have hq' := h.spares (hc.xfer_lt q y hq) hq hy
  have hc' := h.ledger hc
  refine ⟨hq', fun i => ?_, hc'.mem_stored.mpr ⟨y, hq'⟩⟩
  have hindex : c'.world.srv.xfers.indexof y.txnid = c.world.srv.xfers.indexof y.txnid := by
    unfold XferTable.indexof XferTable.capacity
    rw [h.xfers_order]
  rw [hc'.slot_iff hq', hc.slot_iff hq, hindex]

/-- A request acts only on transfers that its sender may act on, the ones it
creates among them. -/
theorem grants_confined_pid {ans : Answers} {L : List Fd} {w : World} {buf : RecvBuf}
    {size clientPid : Nat} {fds : Fd × Fd} :
    Grants (confined fun x => pidMatches x clientPid = true) ans L w buf size clientPid fds := by
  intro a c ha
  cases ha with
  | free ha => exact confined_permissive _ a c ha
  | refuse | enroll | greet | expire | botch | apologize | reshut =>
      exact fun p x hp => by cases hp
  | retire _ hpid _ _ _ hp => exact confined_of_subject rfl hp (by simp [pidMatches, hpid])
  | assign _ _ hp hpid => exact confined_of_subject rfl hp hpid
  | reject _ _ _ hpid _ _ _ _ hc => exact confined_of_subject rfl hc hpid
  | cancel _ _ hp hpid => exact confined_of_subject rfl hp hpid

/-- Whatever a client asks for, the transfers of other processes are untouched
where the handling of its request ends. -/
theorem request_isolated {s : State} (hr : server.Reachable System.always s) {r : Received}
    {rest : List PollEvent} (hphase : s.phase = .requested r rest) {q : Ptr} {y : ResrcXfer}
    (hq : s.world.srv.xferAt q = some y) (hknown : y.clientPid ≠ usInvalidPid)
    (hother : y.clientPid ≠ r.pid) (ans : Answers) :
    Untouched q y s.world.srv (handleReceived ans r s.world).state.srv := by
  obtain ⟨hledger, hok⟩ := reachable_ledger hr
  simp only [PhaseOk, hphase] at hok
  have hmatch : ¬ pidMatches y r.pid = true := by
    simp [pidMatches, hknown, hother]
  have hacts : ∀ L (w' : World), Acts (confined fun x => pidMatches x r.pid = true)
      ⟨r.arrived, s.world⟩ ⟨L, w'⟩ → Untouched q y s.world.srv w'.srv :=
    fun L w' h => h.untouched hledger hq hmatch
  refine wp_state (R := fun w' : World => Untouched q y s.world.srv w'.srv) ?_
  refine wp_mono (wp_handleReceived (confined_permissive _) Acts.refl hok
    (fun _ pdu c _ => confined_say _ none _ pdu c) (fun _ _ => grants_confined_pid)
    (Q := fun _ w' => Untouched q y s.world.srv w'.srv) fun w' _ h => hacts [] w' h)
    (fun _ _ h => h) ?_
  rintro e w' ⟨L, h, -⟩
  exact hacts L w' h

section Runs

open Scenario

/-- A process that sends a file, and another one that asks for the transfer to be
cancelled. -/
def foreignCancel : List (Answers × Label) :=
  let ans := answers tenBytes
  serve ans [⟨fileRequest .send 0 0, [1, 2], some client⟩] ++
    [(ans, .wait [readable]), (ans, .event (-1, -1)),
      (ans, .receive ⟨txnRequest .cancel 1, [], some ⟨200, 1000, 1000⟩⟩)]

theorem request_isolated_of_foreignCancel : ∃ s r rest y,
    server.Reachable System.always s ∧ s.phase = .requested r rest ∧
    s.world.srv.xferAt 0 = some y ∧ y.clientPid ≠ usInvalidPid ∧ y.clientPid ≠ r.pid ∧
    Untouched 0 y s.world.srv (handleReceived (answers tenBytes) r s.world).state.srv := by
  obtain ⟨s, hr, hP⟩ := exists_reachable System.always 4 4 foreignCancel
    (fun s => s.request.any fun r => (s.world.srv.xferAt 0).any fun y =>
      y.clientPid != usInvalidPid && y.clientPid != r.pid) (by decide +kernel)
  obtain ⟨r, hrequest, hP⟩ := (Option.any_eq_true _ _).mp hP
  obtain ⟨rest, hphase⟩ := State.phase_of_request hrequest
  obtain ⟨y, hy, hpids⟩ := (Option.any_eq_true _ _).mp hP
  obtain ⟨hknown, hother⟩ : y.clientPid ≠ usInvalidPid ∧ y.clientPid ≠ r.pid := by
    simpa using hpids
  exact ⟨s, r, rest, y, hr, hphase, hy, hknown, hother,
    request_isolated hr hphase hy hknown hother _⟩

end Runs

/-! Transaction addressing. -/

/-- The server forgets about a request: its memory is unchanged, nothing is
registered with the poller and nothing is written on behalf of a transfer. -/
structure Ignored (w w' : World) : Prop where
  srv : w'.srv = w.srv
  regs : ∀ reg ∈ w'.kern.regs, reg ∈ w.kern.regs
  trace : ∃ tr, w'.kern.trace = w.kern.trace ++ tr ∧ ∀ e ∈ tr, e.onBehalf = none

theorem Ignored.refl (w : World) : Ignored w w :=
  ⟨rfl, fun _ h => h, [], (List.append_nil _).symm, fun _ h => by cases h⟩

theorem Ignored.trans {w w' w'' : World} (h : Ignored w w') (h' : Ignored w' w'') :
    Ignored w w'' := by
  obtain ⟨tr, htr, hnone⟩ := h.trace
  obtain ⟨tr', htr', hnone'⟩ := h'.trace
  refine ⟨h'.srv.trans h.srv, fun reg hreg => h.regs reg (h'.regs reg hreg), tr ++ tr', ?_, ?_⟩
  · rw [htr', htr, List.append_assoc]
  · intro e he
    rcases List.mem_append.mp he with he | he
    · exact hnone e he
    · exact hnone' e he

section Refusal

variable {ans : Answers} {w : World} {E : Fault → World → Prop}

theorem wp_close_ignored {fd : Fd} {Q : Unit → World → Prop}
    (hQ : ∀ w', Ignored w w' → Q () w') : wp (close ans fd) Q E w := by
  simp only [close, wp_bind, wp_sys, wp_pure]
  obtain ⟨b, hb⟩ := Kernel.close_trace ans w.kern fd
  refine hQ _ ⟨rfl, fun _ hreg => (Kernel.close_regs_sublist ans fd w.kern).subset hreg, _, hb,
    fun e he => ?_⟩
  rw [List.mem_singleton.mp he]
  rfl

theorem wp_closeFds_ignored {fds : Fd × Fd} {nfds : Nat} {Q : Unit → World → Prop}
    (hQ : ∀ w', Ignored w w' → Q () w') : wp (closeFds ans fds nfds) Q E w := by
  unfold closeFds
  rw [wp_ite]
  refine ⟨fun _ => ?_, fun _ => hQ w (Ignored.refl w)⟩
  simp only [wp_bind]
  refine wp_close_ignored fun w₁ h₁ => ?_
  rw [wp_ite]
  exact ⟨fun _ => wp_close_ignored fun w₂ h₂ => hQ w₂ (h₁.trans h₂), fun _ => hQ w₁ h₁⟩

/-- A message on behalf of no transfer. -/
theorem ignored_of_logged {fd : Fd} {pdu : Pdu} {result : Except Errno Nat} {k : Kernel}
    (hk : (w.kern.log (.sent none fd pdu result)).Quiet k) : Ignored w ⟨w.srv, k⟩ := by
  refine ⟨rfl, fun reg hreg => ?_, [.sent none fd pdu result], hk.trace, fun e he => ?_⟩
  · rw [show (World.kern ⟨w.srv, k⟩).regs = w.kern.regs from hk.regs] at hreg
    exact hreg
  · rw [List.mem_singleton.mp he]
    rfl

end Refusal

/-- A request that names a transaction gets to the branch of its command. -/
theorem processRequest_txn {ans : Answers} {buf : RecvBuf} {cmd : ProtCmdReq}
    (hcmd : cmd = .cancel ∨ cmd = .sendOpen) {t : Nat}
    (ht : protUnmarshalTxnid cmd buf = some t) (size clientPid : Nat) (fds : Fd × Fd) :
    processRequest ans buf size clientPid fds =
      if cmd = .cancel then processCancel buf clientPid
      else processSendOpen ans buf clientPid fds := by
  have hcode := protUnmarshalTxnid_cmd ht
  have hstat : sfdGetStat buf = 0 := by
    unfold protUnmarshalTxnid at ht
    split at ht
    · cases ht
    · rename_i hnot
      by_contra hne
      exact hnot (Or.inr hne)
  unfold processRequest
  rcases hcmd with rfl | rfl <;>
    simp [hstat, hcode, ProtCmdReq.code, protIsRequest, ProtCmdReq.ofCode]

/-- No live transfer has this transaction ID. -/
def Server.NoneLive (s : Server) (t : Nat) : Prop :=
  ∀ p x, s.xferAt p = some x → x.txnid ≠ t

/-- The live transfers with another transaction ID are as they were. -/
def Server.Spares (s : Server) (t : Nat) (s' : Server) : Prop :=
  ∀ q y, s.xferAt q = some y → y.txnid ≠ t → s'.xferAt q = some y

/-- A request that names transaction `t` touches no other, and is ignored if there
is no such transaction. -/
def Addressed (ans : Answers) (r : Received) (t : Nat) (w : World) : Prop :=
  wp (handleReceived ans r)
    (fun _ w' => w.srv.Spares t w'.srv ∧ (w.srv.NoneLive t → Ignored w w'))
    (fun e w' => w.srv.Spares t w'.srv ∧
      (w.srv.NoneLive t → Ignored w w' ∧ e ≠ .assertion .deferCancel)) w

/-- The slot of transaction `t` holds another transaction, and the request goes on
to act on it. -/
def Collides (cmd : ProtCmdReq) (r : Received) (t : Nat) (s : Server) : Prop :=
  ∃ q y, s.namedBy cmd r = some (q, y) ∧ y.txnid ≠ t ∧
    (y.defer ≠ .cancel ∨ cmd = .cancel ∧ s.xfers.size ≤ s.deferredXfers.length)

theorem Ignored.spares {w w' : World} (h : Ignored w w') (t : Nat) :
    w.srv.Spares t w'.srv := by
  intro q y hq _
  rw [h.srv]
  exact hq

section Addressing

variable {ans : Answers} {r : Received} {w : World} {cmd : ProtCmdReq} {t : Nat}

/-- A request that names no transfer, or only one that is cancelled already, is
ignored. -/
theorem wp_handleReceived_ignored (hledger : Ledger w.srv) (hread : r.nread ≠ 0)
    (hcmd : cmd = .cancel ∨ cmd = .sendOpen)
    (ht : protUnmarshalTxnid cmd w.srv.recvbuf = some t)
    (hnone : ∀ q y, w.srv.namedBy cmd r = some (q, y) → y.defer = .cancel ∧
      (cmd = .cancel → w.srv.deferredXfers.length < w.srv.xfers.size)) :
    wp (handleReceived ans r) (fun _ w' => Ignored w w')
      (fun e w' => Ignored w w' ∧ e ≠ .assertion .deferCancel) w := by
  have hcode := protUnmarshalTxnid_cmd ht
  simp only [handleReceived, wp_bind, wp_assert, wp_gets]
  refine ⟨fun _ => ?_, fun h => absurd hread h⟩
  rw [wp_ite]
  refine ⟨fun _ => Ignored.refl w, fun hcount => ?_⟩
  rw [wp_ite]
  refine ⟨fun _ => ?_, fun huid => ?_⟩
  · simp only [wp_bind, sendXferErr]
    refine wp_sendPdu_logged (fun _ k result hk => ?_) fun k result hk => ?_
    · exact wp_closeFds_ignored fun w' h' => (ignored_of_logged hk).trans h'
    · exact ⟨ignored_of_logged hk, by simp⟩
  have hnamed : ∀ q y, w.srv.xfers.find t = some q → w.srv.xferAt q = some y →
      pidMatches y r.pid = true → w.srv.namedBy cmd r = some (q, y) := by
    intro q y hfind hq hpid
    refine Server.namedBy_eq (Decidable.not_not.mp huid) (fun hne hzero => hcount ⟨?_, ?_⟩) ht
      hfind hq hpid
    · rw [hcode]
      rcases hcmd with rfl | rfl
      · exact absurd rfl hne
      · decide
    · omega
  -- what is left to do in either branch is to close the descriptors that came along
  have hclose : ∀ w', Ignored w w' → wp (closeFds ans r.fds r.nfds) (fun _ w' => Ignored w w')
      (fun e w' => Ignored w w' ∧ e ≠ .assertion .deferCancel) w' :=
    fun w' h' => wp_closeFds_ignored fun w'' h'' => h'.trans h''
  simp only [wp_bind, processRequest_txn hcmd ht]
  rcases hcmd with rfl | rfl
  · have ht' : protUnmarshalCancel w.srv.recvbuf = some t := ht
    simp only [if_true, processCancel, ht', getOpenFile, wp_bind, wp_gets]
    cases hfind : w.srv.xfers.find t with
    | none => exact hclose w (Ignored.refl w)
    | some q =>
        obtain ⟨y, hq, -⟩ := hledger.of_find hfind
        simp only [wp_bind]
        refine wp_getXfer_live hq ?_
        rw [wp_ite]
        refine ⟨fun hpid => ?_, fun _ => hclose w (Ignored.refl w)⟩
        obtain ⟨hcancel, hroom⟩ := hnone q y (hnamed q y hfind hq hpid)
        have hsame : { y with defer := Deferral.cancel } = y := by rw [← hcancel]
        simp only [wp_pure, wp_bind, deferCancel]
        refine wp_getXfer_live hq ?_
        simp only [wp_gets, wp_assert, hcancel, reduceCtorEq, false_or, if_false]
        refine ⟨fun _ => wp_setDefer hq ?_, fun hfull => absurd (hroom rfl) hfull⟩
        rw [hsame, Server.setXfer_self hq]
        exact Ignored.refl w
  · have ht' : protUnmarshalSendOpen w.srv.recvbuf = some t := ht
    have hrefuse : wp (do close ans r.fds.1; pure false) (fun b w' =>
        wp (if b = true then pure () else closeFds ans r.fds r.nfds) (fun _ w' => Ignored w w')
          (fun e w' => Ignored w w' ∧ e ≠ .assertion .deferCancel) w')
        (fun e w' => Ignored w w' ∧ e ≠ .assertion .deferCancel) w := by
      simp only [wp_bind, wp_pure]
      exact wp_close_ignored fun w' h' => hclose w' h'
    simp only [reduceCtorEq, if_false, processSendOpen, ht', getOpenFile, wp_bind, wp_gets]
    cases hfind : w.srv.xfers.find t with
    | none => exact hrefuse
    | some q =>
        obtain ⟨y, hq, -⟩ := hledger.of_find hfind
        simp only [wp_bind]
        refine wp_getXfer_live hq ?_
        rw [wp_ite]
        refine ⟨fun hpid => ?_, fun _ => hrefuse⟩
        obtain ⟨hcancel, -⟩ := hnone q y (hnamed q y hfind hq hpid)
        simp only [wp_pure, wp_bind]
        refine wp_getXfer_live hq ?_
        simp only [hcancel, if_true]
        exact hrefuse

/-- Where transaction `t` is live, a request that names it acts on it alone. -/
theorem grants_confined_txnid {p : Ptr} {x : ResrcXfer} {size : Nat} {L : List Fd}
    (hledger : Ledger w.srv) (hcmd : cmd = .cancel ∨ cmd = .sendOpen)
    (ht : protUnmarshalTxnid cmd w.srv.recvbuf = some t) (hp : w.srv.xferAt p = some x)
    (hx : x.txnid = t) :
    Grants (confined fun y => y.txnid = t) ans L w w.srv.recvbuf size r.pid r.fds := by
  have hfound : ∀ q y, w.srv.xfers.find t = some q → w.srv.xferAt q = some y → y.txnid = t := by
    intro q y hfind hq
    have hfind' := hledger.find hp
    rw [hx, hfind] at hfind'
    cases hfind'
    rw [hp] at hq
    cases hq
    exact hx
  have hsame : ∀ cmd' t', protUnmarshalTxnid cmd' w.srv.recvbuf = some t' → t' = t := by
    intro cmd' t' ht'
    unfold protUnmarshalTxnid at ht ht'
    split at ht
    · cases ht
    · split at ht'
      · cases ht'
      · exact (Option.some.inj ht').symm.trans (Option.some.inj ht)
  intro a c ha
  cases ha with
  | free ha => exact confined_permissive _ a c ha
  | refuse | enroll | greet | expire | botch | apologize | reshut =>
      exact fun p x hp => by cases hp
  | retire hreq =>
      -- the request is not one for a file
      exfalso
      have hfile := protUnmarshalRequest_fileCmd hreq
      rw [protUnmarshalTxnid_cmd ht] at hfile
      rcases hcmd with rfl | rfl <;> cases hfile
  | assign ht' hfind hq =>
      rw [hsame _ _ ht'] at hfind
      exact confined_of_subject rfl hq (hfound _ _ hfind hq)
  | @reject _ _ y _ _ ht' hfind hq _ _ _ _ _ hq' =>
      rw [hsame _ _ ht'] at hfind
      have hy : y.txnid = t := hfound _ y hfind hq
      exact confined_of_subject rfl hq' hy
  | cancel ht' hfind hq =>
      rw [hsame _ _ ht'] at hfind
      exact confined_of_subject rfl hq (hfound _ _ hfind hq)

theorem addressed_of_live {p : Ptr} {x : ResrcXfer} (hledger : Ledger w.srv)
    (hheld : Held r w.kern) (hcmd : cmd = .cancel ∨ cmd = .sendOpen)
    (ht : protUnmarshalTxnid cmd w.srv.recvbuf = some t) (hp : w.srv.xferAt p = some x)
    (hx : x.txnid = t) : Addressed ans r t w := by
  have hlive : ¬ w.srv.NoneLive t := fun hnone => hnone p x hp hx
  have hspares : ∀ L (w' : World), Acts (confined fun y => y.txnid = t) ⟨r.arrived, w⟩ ⟨L, w'⟩ →
      w.srv.Spares t w'.srv :=
    fun L w' h q y hq hy => h.spares (hledger.xfer_lt q y hq) hq hy
  refine wp_mono (wp_handleReceived (confined_permissive _) Acts.refl hheld
    (fun _ pdu c _ => confined_say _ none _ pdu c)
    (fun _ _ => grants_confined_txnid hledger hcmd ht hp hx)
    (Q := fun _ w' => w.srv.Spares t w'.srv) fun w' _ h => hspares [] w' h) ?_ ?_
  · exact fun _ w' h => ⟨h, fun hnone => absurd hnone hlive⟩
  · rintro e w' ⟨L, h, -⟩
    exact ⟨hspares L w' h, fun hnone => absurd hnone hlive⟩

/-- What a request does to the transfer in the slot of its transaction ID: it marks it
CANCEL or fails the assertion, or it gives it the descriptor and registers it, or it
reports the failure and deletes it. -/
theorem wp_handleReceived_named {q : Ptr} {y : ResrcXfer} (hread : r.nread ≠ 0)
    (hmax : cmd = .sendOpen → r.nfds ≤ protMaxFds) (hcmd : cmd = .cancel ∨ cmd = .sendOpen)
    (ht : protUnmarshalTxnid cmd w.srv.recvbuf = some t)
    (hnamed : w.srv.namedBy cmd r = some (q, y)) (hdefer : cmd = .sendOpen → y.defer ≠ .cancel)
    {Q : Unit → World → Prop} {E : Fault → World → Prop}
    (hmark : ∀ s' : Server, (y.defer = .ready ∨ w.srv.deferredXfers.length < w.srv.xfers.size) →
      s'.xferAt q = some { y with defer := .cancel } → Q () ⟨s', w.kern⟩)
    (habort : ¬ (y.defer = .ready ∨ w.srv.deferredXfers.length < w.srv.xfers.size) →
      E (.assertion .deferCancel) w)
    (hstart : ∀ (s' : Server) (k : Kernel) f, s'.xferAt q =
        some { y with cmd := .send, destFd := r.fds.1 } →
      (⟨r.fds.1, f, .xfer q⟩ : Reg) ∈ k.regs →
      (∀ reg ∈ w.kern.regs, ¬ (reg.fd = r.fds.1 ∧ reg.file = f)) → Q () ⟨s', k⟩)
    (hdrop : ∀ w', w'.srv.xferAt q = none → Q () w')
    (hspoke : ∀ (s' : Server) (k : Kernel) fd pdu result, s'.xferAt q =
        some { y with cmd := .send, destFd := r.fds.1 } →
      k.trace = w.kern.trace ++ [.sent (some q) fd pdu result] →
      E (.assertion .sendPduWhole) ⟨s', k⟩) :
    wp (handleReceived ans r) Q E w := by
  obtain ⟨huid, hfds, hfind, hq, hpid⟩ := Server.namedBy_eq_some hnamed ht
  have hcode := protUnmarshalTxnid_cmd ht
  simp only [handleReceived, wp_bind, wp_assert, wp_gets]
  refine ⟨fun _ => ?_, fun h => absurd hread h⟩
  have hcount : ¬ (sfdGetCmd w.srv.recvbuf ≠ ProtCmdReq.cancel.code ∧
      (r.nfds < 1 ∨ protMaxFds < r.nfds)) := by
    rintro ⟨hnot, hfew | hmany⟩
    · refine hfds (fun heq => hnot ?_) (by omega)
      rw [hcode, heq]
    · rcases hcmd with heq | heq
      · exact hnot (by rw [hcode, heq])
      · exact absurd (hmax heq) (by omega)
  rw [if_neg hcount, if_neg (not_not.mpr huid)]
  simp only [wp_bind, processRequest_txn hcmd ht]
  rcases hcmd with rfl | rfl
  · have ht' : protUnmarshalCancel w.srv.recvbuf = some t := ht
    simp only [if_true, processCancel, ht', getOpenFile, wp_bind, wp_gets, hfind]
    refine wp_getXfer_live hq ?_
    simp only [hpid, if_true, wp_pure, wp_bind, deferCancel]
    refine wp_getXfer_live hq ?_
    simp only [wp_gets, wp_assert]
    refine ⟨fun hroom => ?_, habort⟩
    rw [wp_ite]
    refine ⟨fun _ => ?_, fun _ => ?_⟩
    · simp only [pushDeferred, wp_bind, wp_onSrv]
      refine wp_setDefer (by exact hq) ?_
      exact hmark _ hroom (by simp [Server.setXfer])
    · refine wp_setDefer hq ?_
      exact hmark _ hroom (by simp [Server.setXfer])
  · have ht' : protUnmarshalSendOpen w.srv.recvbuf = some t := ht
    simp only [reduceCtorEq, if_false, processSendOpen, ht', getOpenFile, wp_bind, wp_gets, hfind]
    refine wp_getXfer_live hq ?_
    simp only [hpid, if_true, wp_pure, wp_bind]
    refine wp_getXfer_live hq ?_
    rw [if_neg (hdefer rfl)]
    simp only [startOpenFile, registerXfer, wp_bind, wp_onSrv]
    have hq' : (w.srv.setXfer q { y with cmd := .send, destFd := r.fds.1 }).xferAt q =
        some { y with cmd := .send, destFd := r.fds.1 } := by simp [Server.setXfer]
    refine wp_getXfer_live (by exact hq') ?_
    simp only [syspollRegister, wp_sys]
    obtain ⟨e, k, heq, -, hk⟩ | ⟨f, k, heq, -, -, hnew, hk⟩ :=
      Kernel.epollAdd_spec ans r.fds.1 (.xfer q) w.kern
    · simp only [heq, Bool.false_eq_true, if_false, wp_bind, wp_getErrno, sendXferErr]
      refine wp_sendPdu_logged (fun _ k' result hk' => ?_) fun k' result hk' => ?_
      · refine wp_deleteUnregisteredXfer (by exact hq') ?_
        refine wp_closeFds_ignored fun w' h' => hdrop w' ?_
        rw [h'.srv]
        simp [Server.discard, Server.dropXfer, Server.release]
      · refine hspoke _ k' y.statFd (.hdr .xferStat (k.errno % 256)) result hq' ?_
        rw [hk'.trace, Kernel.log, hk.trace]
    · simp only [heq, if_true, wp_pure]
      exact hstart _ k f hq' (by rw [hk.regs]; simp) hnew

/-- A request that collides changes a transfer it did not name, registers a
descriptor for it, speaks on its behalf or aborts the server. -/
theorem not_addressed_of_collides (hledger : Ledger w.srv) (hread : r.nread ≠ 0)
    (hheld : Held r w.kern) (hcmd : cmd = .cancel ∨ cmd = .sendOpen)
    (ht : protUnmarshalTxnid cmd w.srv.recvbuf = some t) (h : Collides cmd r t w.srv) :
    ¬ Addressed ans r t w := by
  obtain ⟨q, y, hnamed, hne, hacts⟩ := h
  obtain ⟨-, -, hfind, hq, -⟩ := Server.namedBy_eq_some hnamed ht
  have hnone : w.srv.NoneLive t := by
    intro p x hp hx
    have hfind' := hledger.find hp
    rw [hx, hfind] at hfind'
    cases hfind'
    rw [hq] at hp
    cases hp
    exact hne hx
  refine wp_not (wp_handleReceived_named hread (fun _ => hheld.nfds_le) hcmd ht hnamed
    ?_ ?_ ?_ ?_ ?_ ?_)
  · rintro rfl
    exact hacts.resolve_right fun hno => by cases hno.1
  · intro s' hroom hs' hgood
    have hcancel : y.defer ≠ .cancel := by
      rcases hacts with hcancel | ⟨-, hfull⟩
      · exact hcancel
      · rcases hroom with hready | hlt
        · simp [hready]
        · omega
    have hsame := hgood.1 q y hq hne
    rw [hs'] at hsame
    exact hcancel (by rw [← Option.some.inj hsame])
  · exact fun _ hgood => (hgood.2 hnone).2 rfl
  · exact fun s' k f _ hmem hnew hgood =>
      hnew _ ((hgood.2 hnone).regs _ hmem) ⟨rfl, rfl⟩
  · intro w' hgone hgood
    have hsame := hgood.1 q y hq hne
    rw [hgone] at hsame
    cases hsame
  · intro s' k fd pdu result _ hsaid hgood
    obtain ⟨tr, htr, hno⟩ := (hgood.2 hnone).1.trace
    rw [hsaid] at htr
    have hbehalf := hno (.sent (some q) fd pdu result)
      (by rw [← List.append_cancel_left htr]; exact List.mem_singleton_self _)
    cases hbehalf

end Addressing

/-- In every reachable state, a CANCEL or SEND_OPEN request acts on the transaction
it names and on no other exactly when it does not collide. -/
theorem addressed_iff {s : State} (hr : server.Reachable System.always s) {r : Received}
    {rest : List PollEvent} (hphase : s.phase = .requested r rest) (hread : r.nread ≠ 0)
    {cmd : ProtCmdReq} (hcmd : cmd = .cancel ∨ cmd = .sendOpen) {t : Nat}
    (ht : protUnmarshalTxnid cmd s.world.srv.recvbuf = some t) (ans : Answers) :
    Addressed ans r t s.world ↔ ¬ Collides cmd r t s.world.srv := by
  obtain ⟨hledger, hok⟩ := reachable_ledger hr
  simp only [PhaseOk, hphase] at hok
  refine ⟨fun haddr hcoll =>
    not_addressed_of_collides hledger hread hok hcmd ht hcoll haddr, fun hcoll => ?_⟩
  by_cases hlive : ∃ p x, s.world.srv.xferAt p = some x ∧ x.txnid = t
  · obtain ⟨p, x, hp, hx⟩ := hlive
    exact addressed_of_live hledger hok hcmd ht hp hx
  · have hignored : ∀ q y, s.world.srv.namedBy cmd r = some (q, y) → y.defer = .cancel ∧
        (cmd = .cancel → s.world.srv.deferredXfers.length < s.world.srv.xfers.size) := by
      intro q y hnamed
      obtain ⟨-, -, -, hq, -⟩ := Server.namedBy_eq_some hnamed ht
      have hne : y.txnid ≠ t := fun heq => hlive ⟨q, y, hq, heq⟩
      constructor
      · by_contra hcancel
        exact hcoll ⟨q, y, hnamed, hne, Or.inl hcancel⟩
      · intro heq
        by_contra hfull
        exact hcoll ⟨q, y, hnamed, hne, Or.inr ⟨heq, Nat.le_of_not_lt hfull⟩⟩
    refine wp_mono (wp_handleReceived_ignored hledger hread hcmd ht hignored) ?_ ?_
    · exact fun _ w' h => ⟨h.spares t, fun _ => h⟩
    · exact fun e w' h => ⟨h.1.spares t, fun _ => h⟩

section Runs

open Scenario

/-- The request that waits to be handled, if it is one for a transaction. -/
def State.asksFor (cmd : ProtCmdReq) (t : Nat) (s : State) : Bool :=
  match s.phase with
  | .requested r _ => r.nread != 0 && protUnmarshalTxnid cmd s.world.srv.recvbuf == some t
  | _ => false

theorem State.of_asksFor {cmd : ProtCmdReq} {t : Nat} {s : State} (h : s.asksFor cmd t = true) :
    ∃ r rest, s.phase = .requested r rest ∧ r.nread ≠ 0 ∧
      protUnmarshalTxnid cmd s.world.srv.recvbuf = some t := by
  unfold State.asksFor at h
  split at h
  · rename_i r rest hphase
    obtain ⟨hread, ht⟩ : r.nread ≠ 0 ∧ protUnmarshalTxnid cmd s.world.srv.recvbuf = some t := by
      simpa using h
    exact ⟨r, rest, hphase, hread, ht⟩
  · cases h

theorem addressed_iff_of_openAndCancel : ∃ s r rest, server.Reachable System.always s ∧
    s.phase = .requested r rest ∧ r.nread ≠ 0 ∧
    protUnmarshalTxnid .cancel s.world.srv.recvbuf = some 1 ∧
    (Addressed (answers tenBytes) r 1 s.world ↔ ¬ Collides .cancel r 1 s.world.srv) := by
  obtain ⟨s, hr, hP⟩ := exists_reachable System.always 4 4 openAndCancel
    (State.asksFor .cancel 1) (by decide +kernel)
  obtain ⟨r, rest, hphase, hread, ht⟩ := State.of_asksFor hP
  exact ⟨s, r, rest, hr, hphase, hread, ht, addressed_iff hr hphase hread (Or.inl rfl) ht _⟩

/-- An open file in a table of two slots, and a request to cancel a transaction
that was never issued. -/
def cancelAnother : List (Answers × Label) :=
  [(answers tenBytes, .wait [readable]), (answers tenBytes, .event (-1, -1)),
    (answers tenBytes, .receive ⟨fileRequest .fileOpen 0 0, [1], some client⟩),
    (answers tenBytes, .request),
    (answers tenBytes, .receive ⟨txnRequest .cancel 3, [], some client⟩)]

/-- Cancelling transaction 3, which does not exist, cancels transaction 1. -/
theorem cancel_hits_another : ∃ s r rest, server.Reachable System.always s ∧
    s.phase = .requested r rest ∧ r.nread ≠ 0 ∧
    protUnmarshalTxnid .cancel s.world.srv.recvbuf = some 3 ∧
    ¬ Addressed (answers tenBytes) r 3 s.world := by
  obtain ⟨s, hr, hP⟩ := exists_reachable System.always 2 4 cancelAnother
    (fun s => s.asksFor .cancel 3 && match s.phase with
      | .requested r _ => (s.world.srv.namedBy .cancel r).any fun named =>
          named.2.txnid != 3 && named.2.defer != .cancel
      | _ => false) (by decide +kernel)
  obtain ⟨hasks, hnamed⟩ := Bool.and_eq_true_iff.mp hP
  obtain ⟨r, rest, hphase, hread, ht⟩ := State.of_asksFor hasks
  obtain ⟨hledger, hok⟩ := reachable_ledger hr
  simp only [PhaseOk, hphase] at hok hnamed
  obtain ⟨⟨q, y⟩, hq, hother⟩ := (Option.any_eq_true _ _).mp hnamed
  obtain ⟨hne, hcancel⟩ : y.txnid ≠ 3 ∧ y.defer ≠ .cancel := by simpa using hother
  exact ⟨s, r, rest, hr, hphase, hread, ht, not_addressed_of_collides hledger hread hok
    (Or.inl rfl) ht ⟨q, y, hq, hne, Or.inl hcancel⟩⟩

end Runs

end Sendfiled
