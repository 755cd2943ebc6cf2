/-
Requests that are refused.  The error of the step that failed is reported, and the state
of the server is what it was before the request.
-/
import Sendfiled.StaleErrno

namespace Sendfiled

open Prog Transition

variable {ans : Answers} {req : ProtRequest} {w w' : World}

section Processing

/-- A request for a file gets to the branch of its command. -/
theorem processRequest_file {buf : RecvBuf} {size : Nat}
    (hreq : protUnmarshalRequest buf size = some req) (clientPid : Nat) (fds : Fd × Fd) :
    processRequest ans buf size clientPid fds =
      if req.cmd = .fileOpen then processFileOpen ans buf size clientPid fds
      else processReadSend ans buf size clientPid fds := by
  have hcode := protUnmarshalRequest_cmd hreq
  have hstat : sfdGetStat buf = 0 := by
    by_contra hne
    unfold protUnmarshalRequest at hreq
    repeat' split at hreq
    all_goals cases hreq
  have hreqd := protIsRequest_of_ofCode hcode
  unfold processRequest
  rw [if_neg (by simpa using hstat), if_neg (by simp [hreqd]), hcode]
  rcases protUnmarshalRequest_kind hreq with hcmd | hcmd | hcmd <;> simp [hcmd]

/-- The step at which a request for a file fails, and the error it fails with. -/
inductive RequestFails (ans : Answers) (req : ProtRequest) (clientPid : Nat) (fds : Fd × Fd)
    (w : World) : Errno → Prop
  | openFile {e : Errno} (hcmd : req.cmd = .fileOpen)
      (h : OpenFails ans req clientPid fds.1 w e) : RequestFails ans req clientPid fds w e
  | add {e : Errno} (hcmd : req.cmd ≠ .fileOpen) (h : AddFails ans req w e) :
      RequestFails ans req clientPid fds w e
  | register {p : Ptr} {info : FioStat} {w₁ : World} {e : Errno} (hcmd : req.cmd ≠ .fileOpen)
      (hadd : addXfer ans req clientPid fds.1 (req.destFd fds) w = .done (some (p, info)) w₁)
      (h : w₁.kern.epollAddError ans (req.destFd fds) = some e) :
      RequestFails ans req clientPid fds w e

/-- The request gets as far as a table that has no room for its transfer or timer. -/
def TableTaken (ans : Answers) (req : ProtRequest) (clientPid : Nat) (fds : Fd × Fd)
    (w : World) : Prop :=
  SlotTaken ans req w ∨ (req.cmd = .fileOpen ∧ TimerSlotTaken ans req clientPid fds.1 w)

def Effect.isSent : Effect → Bool
  | .sent .. => true
  | _ => false

/-- The status that is reported for a request that failed. -/
def Stated (ans : Answers) (req : ProtRequest) (clientPid : Nat) (fds : Fd × Fd) (w : World)
    (e : Errno) : Prop :=
  TableTaken ans req clientPid fds w ∨ RequestFails ans req clientPid fds w e

/-- `process_request` has refused a request for a file: everything is undone, and a status
was reported. -/
def Refused (ans : Answers) (req : ProtRequest) (clientPid : Nat) (fds : Fd × Fd)
    (w w' : World) : Prop :=
  ∃ tr xfer e result, Undone w tr w' ∧ Tidies ans req w tr ∧
    tr.filter Effect.isSent = [.sent xfer fds.1 (.hdr .fileInfo e) result] ∧
    (0 < e ∧ e ≤ 255) ∧ Stated ans req clientPid fds w e

/-- `write` takes a message whole, as it does for pipes. -/
def Answers.Whole (ans : Answers) : Prop := ∀ t size n, ans.write t size = .ok n → n = size

theorem Answers.Whole.write {k k' : Kernel} {xfer : Option Ptr} {fd : Fd} {pdu : Pdu} {n : Nat}
    (h : ans.Whole) (hwrite : k.write ans xfer fd pdu = (.ok n, k')) : n = pdu.size := by
  unfold Kernel.write at hwrite
  split at hwrite
  · cases hwrite
  · split at hwrite
    · cases hwrite
    · rename_i m hm
      cases hwrite
      exact h _ _ _ hm

/-- The fault of a message that was not written whole. -/
def Answers.Torn (ans : Answers) (e : Fault) : Prop :=
  e = .assertion .sendPduWhole ∧ ¬ ans.Whole

/-- The status of a request that failed: a table has no room and `errno` is what it was, or
it is the error of the step that failed. -/
def StatedBy (ans : Answers) (req : ProtRequest) (clientPid : Nat) (fds : Fd × Fd) (w : World)
    (e : Errno) : Prop :=
  (TableTaken ans req clientPid fds w ∧ e = w.kern.errno) ∨ RequestFails ans req clientPid fds w e

theorem StatedBy.stated {clientPid : Nat} {fds : Fd × Fd} {e : Errno}
    (h : StatedBy ans req clientPid fds w e) : Stated ans req clientPid fds w e :=
  h.imp And.left id

/-- The assertions a request for a file can fail. -/
inductive Aborts (ans : Answers) (req : ProtRequest) (clientPid : Nat) (fds : Fd × Fd)
    (w : World) : Fault → Prop
  | torn (h : ¬ ans.Whole) : Aborts ans req clientPid fds w (.assertion .sendPduWhole)
  | status {e : Errno} (hrange : ¬ (0 < e ∧ e ≤ 255)) (h : StatedBy ans req clientPid fds w e) :
      Aborts ans req clientPid fds w (.assertion .sendReqErrStat)

/-- `send_req_err` was called with something that is no status. -/
def Unstated (ans : Answers) (req : ProtRequest) (clientPid : Nat) (fds : Fd × Fd) (w : World)
    (f : Fault) : Prop :=
  f = .assertion .sendReqErrStat → ∃ e, ¬ (0 < e ∧ e ≤ 255) ∧ Stated ans req clientPid fds w e

theorem Aborts.unstated {clientPid : Nat} {fds : Fd × Fd} {f : Fault}
    (h : Aborts ans req clientPid fds w f) : Unstated ans req clientPid fds w f := by
  intro hf
  cases h with
  | torn => cases hf
  | status hrange h => exact ⟨_, hrange, h.stated⟩

/-- A message is written whole, fails or tears the server down. -/
theorem wp_sendPdu_whole {E : Fault → World → Prop} {xfer : Option Ptr} {fd : Fd} {pdu : Pdu}
    {Q : Bool → World → Prop}
    (hQ : ∀ b k result, (w.kern.log (.sent xfer fd pdu result)).Quiet k → Q b ⟨w.srv, k⟩)
    (hE : ¬ ans.Whole → ∀ k, E (.assertion .sendPduWhole) ⟨w.srv, k⟩) :
    wp (sendPdu ans xfer fd pdu) Q E w := by
  simp only [sendPdu, wp_bind, wp_sys]
  obtain ⟨result, hquiet⟩ := Kernel.write_spec ans xfer fd pdu w.kern
  rcases hwrite : w.kern.write ans xfer fd pdu with ⟨e | n, k⟩
  · rw [hwrite] at hquiet
    exact hQ _ _ result hquiet
  · rw [hwrite] at hquiet
    simp only [wp_bind, wp_assert, wp_pure]
    exact ⟨fun _ => hQ _ _ result hquiet,
      fun hne => hE (fun hwhole => hne (hwhole.write hwrite)) _⟩

theorem OnlyCloses.filter_isSent {tr : List Effect} (h : OnlyCloses tr) :
    tr.filter Effect.isSent = [] := by
  apply List.filter_eq_nil_iff.mpr
  intro e he
  obtain ⟨fd, b, rfl⟩ := h e he
  simp [Effect.isSent]

/-- What writing a message adds to what was undone. -/
theorem Undone.say {tr : List Effect} (h : Undone w tr w') {xfer : Option Ptr} {fd : Fd}
    {pdu : Pdu} {result : Except Errno Nat} {k : Kernel}
    (hk : (w'.kern.log (.sent xfer fd pdu result)).Quiet k) :
    Undone w (tr ++ [.sent xfer fd pdu result]) ⟨w'.srv, k⟩ := by
  have hlog : w'.kern.Restored [.sent xfer fd pdu result] k :=
    ⟨fun _ => by rw [hk.fds]; rfl, hk.regs, hk.trace, .logged hk⟩
  exact { h with kern := h.kern.trans hlog }

/-- The error of a request that was undone is reported. -/
theorem wp_sendReqErr_steps {clientPid : Nat} {fds : Fd × Fd} {tr : List Effect}
    (hundone : Undone w tr w') (honly : OnlyCloses tr) (htidies : Tidies ans req w tr)
    (hstated : StatedBy ans req clientPid fds w w'.kern.errno) :
    wp (do let _ ← sendReqErr ans none fds.1 (← getErrno); pure false)
      (fun ok w'' => ok = false → Refused ans req clientPid fds w w'')
      (fun f _ => Aborts ans req clientPid fds w f) w' := by
  simp only [sendReqErr, wp_bind, wp_getErrno, wp_assert, wp_pure]
  refine ⟨fun hrange => ?_, fun hrange => .status hrange hstated⟩
  refine wp_sendPdu_whole (fun b k result hk => ?_) fun htorn _ => .torn htorn
  intro _
  refine ⟨_, none, w'.kern.errno, result, hundone.say hk, fun hroom hopens => ?_, ?_, hrange,
    hstated.stated⟩
  · rw [List.filter_append, htidies hroom hopens]
    rfl
  · rw [List.filter_append, honly.filter_isSent]
    rfl

theorem wp_processFileOpen_steps (hledger : Ledger w.srv) (hnum : w.kern.Numbered)
    {buf : RecvBuf} {size : Nat} (hreq : protUnmarshalRequest buf size = some req)
    (hcmd : req.cmd = .fileOpen) {clientPid : Nat} {fds : Fd × Fd} :
    wp (processFileOpen ans buf size clientPid fds)
      (fun ok w' => ok = false → Refused ans req clientPid fds w w')
      (fun f _ => Aborts ans req clientPid fds w f) w := by
  simp only [processFileOpen, hreq, wp_bind]
  have hsteps := @wp_addOpenFile_steps ans req w clientPid fds.1 hledger hnum
  cases hrun : addOpenFile ans req clientPid fds.1 w with
  | fault e w₁ => exact (wp_fault hsteps hrun).elim
  | done o w₁ =>
      refine wp_of_done hrun ?_
      cases o with
      | none =>
          obtain ⟨⟨tr, hundone, honly, htidies⟩, hwhy⟩ := wp_done hsteps hrun rfl
          have hstated : StatedBy ans req clientPid fds w w₁.kern.errno := by
            rcases hwhy with htaken | htaken | hfails
            · exact Or.inl ⟨Or.inl htaken, (wp_done (htaken.wp_addOpenFile hnum) hrun).2⟩
            · exact Or.inl ⟨Or.inr ⟨hcmd, htaken⟩,
                (wp_done (htaken.wp_addOpenFile hledger hnum) hrun).2⟩
            · exact Or.inr (.openFile hcmd hfails)
          have hreport := wp_sendReqErr_steps hundone honly htidies hstated
          simpa only [wp_bind] using hreport
      | some opened =>
          obtain ⟨t, p, info⟩ := opened
          obtain ⟨tm, ht⟩ := wp_done wp_addOpenFile_live hrun t p info rfl
          simp only [wp_bind]
          refine wp_getTimer_live ht ?_
          simp only [sendFileInfo, wp_pure]
          exact wp_sendPdu_whole (fun _ _ _ _ => by simp) fun htorn _ => .torn htorn

/-- A transfer that cannot be registered is reported and deleted. -/
theorem wp_unregistered_steps (hledger : Ledger w.srv) {clientPid : Nat} {fds : Fd × Fd}
    {x : ResrcXfer} (hstat : x.statFd = fds.1) (hpending : Pending ans req w x [] w')
    (hstated : StatedBy ans req clientPid fds w w'.kern.errno) :
    wp (do
        let y ← getXfer w.srv.nextPtr
        let _ ← sendReqErr ans (some w.srv.nextPtr) y.statFd (← getErrno)
        deleteUnregisteredXfer ans w.srv.nextPtr
        pure false)
      (fun ok w'' => ok = false → Refused ans req clientPid fds w w'')
      (fun f _ => Aborts ans req clientPid fds w f) w' := by
  have hx : w'.srv.xferAt w.srv.nextPtr = some x := by
    rw [hpending.xferAt]
    exact Function.update_self ..
  simp only [wp_bind]
  refine wp_getXfer_live hx ?_
  simp only [sendReqErr, wp_bind, wp_getErrno, wp_assert, wp_pure, hstat]
  refine ⟨fun hrange => ?_, fun hrange => .status hrange hstated⟩
  refine wp_sendPdu_whole (fun b k result hk => ?_) fun htorn _ => .torn htorn
  -- the message stands in the trace before the file is closed
  have hsaid : Pending ans req w x
      [.sent (some w.srv.nextPtr) fds.1 (.hdr .fileInfo w'.kern.errno) result] ⟨w'.srv, k⟩ := by
    have hkern : w'.kern.Restored
        [.sent (some w.srv.nextPtr) fds.1 (.hdr .fileInfo w'.kern.errno) result] k :=
      ⟨fun _ => by rw [hk.fds]; rfl, hk.regs, hk.trace, .logged hk⟩
    refine hpending.congr ⟨rfl, rfl, rfl, rfl, rfl⟩ hpending.xferTimers hpending.timerAt
      (Nat.le_refl _) (hpending.kern.restored hkern) ?_
    exact hpending.numbered.more hk.fds hk.regs (Nat.le_of_eq hk.nextFile.symm)
  refine hsaid.undo hledger fun w'' hundone _ => ?_
  refine ⟨_, some w.srv.nextPtr, w'.kern.errno, result, hundone, tidies_of_closed ?_, ?_, hrange,
    hstated.stated⟩
  · intro e he
    rw [List.mem_singleton.mp he]
    rfl
  · rfl

theorem wp_processReadSend_steps (hledger : Ledger w.srv) (hnum : w.kern.Numbered)
    {buf : RecvBuf} {size : Nat} (hreq : protUnmarshalRequest buf size = some req)
    (hcmd : req.cmd ≠ .fileOpen) {clientPid : Nat} {fds : Fd × Fd} :
    wp (processReadSend ans buf size clientPid fds)
      (fun ok w' => ok = false → Refused ans req clientPid fds w w')
      (fun f _ => Aborts ans req clientPid fds w f) w := by
  have hdest : (if req.cmd = .send then fds.2 else fds.1) = req.destFd fds := by
    rcases protUnmarshalRequest_kind hreq with hkind | hkind | hkind
    · exact absurd hkind hcmd
    · simp [hkind, ProtRequest.destFd]
    · simp [hkind, ProtRequest.destFd]
  simp only [processReadSend, hreq, wp_bind, hdest]
  have hsteps := @wp_addXfer_steps ans req w clientPid fds.1 (req.destFd fds) hledger hnum
  cases hrun : addXfer ans req clientPid fds.1 (req.destFd fds) w with
  | fault e w₁ => exact (wp_fault hsteps hrun).elim
  | done o w₁ =>
      have hdone := wp_done hsteps hrun
      refine wp_of_done hrun ?_
      cases o with
      | none =>
          obtain ⟨⟨tr, hundone, honly, htidies⟩, hwhy⟩ := hdone
          have hstated : StatedBy ans req clientPid fds w w₁.kern.errno := by
            rcases hwhy with htaken | hfails
            · exact Or.inl ⟨Or.inl htaken, (wp_done (htaken.wp_addXfer hnum) hrun).2⟩
            · exact Or.inr (.add hcmd hfails)
          have hreport := wp_sendReqErr_steps hundone honly htidies hstated
          simpa only [wp_bind] using hreport
      | some added =>
          obtain ⟨p, info⟩ := added
          obtain ⟨rfl, x, hcreated, hpending⟩ := hdone
          have hx : w₁.srv.xferAt w.srv.nextPtr = some x := by
            rw [hpending.xferAt]
            exact Function.update_self ..
          simp only [registerXfer, wp_bind]
          refine wp_getXfer_live hx ?_
          rw [hcreated.destFd]
          refine wp_syspollRegister_cases (fun e herr => ?_) fun f _ _ => ?_
          · simp only [Bool.false_eq_true, if_false]
            have hpending' : Pending ans req w x [] ⟨w₁.srv, w₁.kern.fail e⟩ :=
              { hpending with
                kern := hpending.kern.quiet (Kernel.quiet_fail _ _)
                numbered := hpending.numbered.quiet (Kernel.quiet_fail _ _) }
            exact wp_unregistered_steps hledger hcreated.statFd hpending'
              (Or.inr (.register hcmd hrun herr))
          · simp only [if_true, wp_bind]
            refine wp_getXfer_live (by exact hx) ?_
            simp only [sendFileInfo, wp_pure]
            exact wp_sendPdu_whole (fun _ _ _ _ => by simp) fun htorn _ => .torn htorn

/-- Why a request for a file is refused, what is reported, and what is left behind. -/
theorem wp_processRequest_steps (hledger : Ledger w.srv) (hnum : w.kern.Numbered)
    {buf : RecvBuf} {size : Nat} (hreq : protUnmarshalRequest buf size = some req)
    {clientPid : Nat} {fds : Fd × Fd} :
    wp (processRequest ans buf size clientPid fds)
      (fun ok w' => ok = false → Refused ans req clientPid fds w w')
      (fun f _ => Aborts ans req clientPid fds w f) w := by
  rw [processRequest_file hreq, wp_ite]
  exact ⟨fun hcmd => wp_processFileOpen_steps hledger hnum hreq hcmd,
    fun hcmd => wp_processReadSend_steps hledger hnum hreq hcmd⟩

end Processing

/-- A request for a file that is accepted has its transfer. -/
theorem wp_processRequest_born {r : Received} (hheld : Held r w.kern) (hpos : 0 < r.nfds)
    (hreq : protUnmarshalRequest w.srv.recvbuf r.nread = some req) :
    wp (processRequest ans w.srv.recvbuf r.nread r.pid r.fds)
      (fun ok w' => ok = true → w'.srv.xferAt w.srv.nextPtr ≠ none)
      (Faulty anything ⟨r.arrived, w⟩) w := by
  have hfile := protUnmarshalRequest_fileCmd hreq
  refine wp_processRequest (A := anything) (L := r.arrived) Acts.refl (fun _ _ _ => trivial)
    (fun _ => ⟨hheld.zero_open hpos, mem_arrived_fst hpos,
      hheld.clients _ (mem_arrived_fst hpos), ?_⟩) (fun _ w' h _ _ hgone => ?_) (by simp)
  · have hle := hheld.nfds_le
    by_cases hone : r.nfds = 1
    · exact Or.inr (hheld.single hone)
    · exact Or.inl (mem_arrived_snd (by simp only [protMaxFds] at hle; omega))
  · cases h with
    | created _ _ hborn =>
        rw [hborn.xferAt] at hgone
        cases hgone
    | assigned htxnid | cancelled htxnid =>
        rw [protUnmarshalTxnid_cmd htxnid] at hfile
        cases hfile

/-- A request for a file that is refused has changed nothing, and its file has been closed. -/
structure Atomic (ans : Answers) (buf : RecvBuf) (size : Nat) (w w' : World) : Prop where
  undecoded : protUnmarshalRequest buf size = none → w' = w
  undone : ∃ tr, Undone w tr w' ∧
    ∀ req, protUnmarshalRequest buf size = some req → Tidies ans req w tr

/-- A request that cannot be decoded is refused without further ado. -/
theorem processRequest_undecoded {buf : RecvBuf} {size clientPid : Nat} {fds : Fd × Fd}
    {cmd : ProtCmdReq} (hcmd : fileCmd (sfdGetCmd buf) = some cmd)
    (hreq : protUnmarshalRequest buf size = none) :
    processRequest ans buf size clientPid fds w = .done false w := by
  unfold processRequest
  split
  · rfl
  split
  · rfl
  cases hcode : ProtCmdReq.ofCode (sfdGetCmd buf) with
  | none => simp [fileCmd, hcode] at hcmd
  | some code =>
      cases code with
      | read | send =>
          simp only [processReadSend, hreq]
          rfl
      | fileOpen =>
          simp only [processFileOpen, hreq]
          rfl
      | sendOpen | cancel => simp [fileCmd, hcode] at hcmd

/-- Whatever step of a request for a file fails, the tables, the deferred list, the
transfers and the registrations are as before the request, and the file is closed. -/
theorem failed_creation_atomic {s : State} {buf : RecvBuf} {size clientPid : Nat}
    {fds : Fd × Fd} {cmd : ProtCmdReq} {w' : World}
    (hr : server.Reachable System.always s) (hrun : s.phase ≠ .stopped)
    (hcmd : fileCmd (sfdGetCmd buf) = some cmd)
    (hfalse : processRequest ans buf size clientPid fds s.world = .done false w') :
    Atomic ans buf size s.world w' := by
  cases hreq : protUnmarshalRequest buf size with
  | none =>
      rw [processRequest_undecoded hcmd hreq] at hfalse
      cases hfalse
      exact ⟨fun _ => rfl, [], .of_srv rfl (.refl _), fun req h => by rw [hreq] at h; cases h⟩
  | some req =>
      have hsteps := @wp_processRequest_steps ans req s.world (reachable_ledger hr).1
        (reachable_numbered hr hrun) buf size hreq clientPid fds
      obtain ⟨tr, xfer, e, result, hundone, htidies, -⟩ := wp_done hsteps hfalse rfl
      refine ⟨fun h => ?_, tr, hundone, fun req' hreq' => ?_⟩
      · rw [hreq] at h
        cases h
      · rw [hreq] at hreq'
        cases hreq'
        exact htidies

/-- The error codes of the kernel fit into the status of a message. -/
structure Answers.Coded (ans : Answers) : Prop where
  openFile : ∀ t name e, ans.openFile t name = .error e → 0 < e ∧ e ≤ 255
  fstat : ∀ t e, ans.fstat t = some e → 0 < e ∧ e ≤ 255
  lock : ∀ t start len e, ans.lock t start len = some e → 0 < e ∧ e ≤ 255
  lseek : ∀ t e, ans.lseek t = some e → 0 < e ∧ e ≤ 255
  epollAdd : ∀ t e, ans.epollAdd t = some e → 0 < e ∧ e ≤ 255
  timerfdSettime : ∀ t e, ans.timerfdSettime t = some e → 0 < e ∧ e ≤ 255

section Codes

variable (hcoded : ans.Coded)
include hcoded

theorem FileFails.coded {k : Kernel} {e : Errno} (h : FileFails ans req k e) :
    0 < e ∧ e ≤ 255 := by
  cases h with
  | opening h => exact hcoded.openFile _ _ e h
  | stat _ h => exact hcoded.fstat _ e h
  | kind => decide
  | lock _ _ _ h => exact hcoded.lock _ _ _ e h
  | seek _ _ _ _ _ h => exact hcoded.lseek _ e h

omit hcoded in
theorem rangeCheck_coded {size : Nat} {offset len : BitVec 64} {e : Errno}
    (h : rangeCheck size offset len = .error e) : 0 < e ∧ e ≤ 255 := by
  unfold rangeCheck at h
  repeat' split at h
  all_goals cases h
  all_goals decide

theorem AddFails.coded {e : Errno} (h : AddFails ans req w e) : 0 < e ∧ e ≤ 255 := by
  cases h with
  | full => decide
  | file _ h => exact h.coded hcoded
  | range _ _ h => exact rangeCheck_coded h
  | memory => decide

theorem OpenFails.coded {clientPid : Nat} {statFd : Fd} {e : Errno}
    (h : OpenFails ans req clientPid statFd w e) : 0 < e ∧ e ≤ 255 := by
  cases h with
  | add h => exact h.coded hcoded
  | memory => decide
  | settime _ _ _ _ h => exact hcoded.timerfdSettime _ e h
  | register _ _ _ _ _ h => exact hcoded.epollAdd _ e h

theorem epollAddError_coded {k : Kernel} {fd : Fd} {e : Errno}
    (h : k.epollAddError ans fd = some e) : 0 < e ∧ e ≤ 255 := by
  unfold Kernel.epollAddError at h
  repeat' split at h
  · cases h
    decide
  · cases h
    decide
  · exact hcoded.epollAdd _ e h

theorem RequestFails.coded {clientPid : Nat} {fds : Fd × Fd} {e : Errno}
    (h : RequestFails ans req clientPid fds w e) : 0 < e ∧ e ≤ 255 := by
  cases h with
  | openFile _ h => exact h.coded hcoded
  | add _ h => exact h.coded hcoded
  | register _ _ h => exact epollAddError_coded hcoded h

end Codes

/-- Exactly one message went to the status channel of the request: a file information
header with the error of the step that failed. -/
def FailureReported (ans : Answers) (req : ProtRequest) (clientPid : Nat) (fds : Fd × Fd)
    (w w' : World) : Prop :=
  ∃ tr xfer e result, w'.kern.trace = w.kern.trace ++ tr ∧
    tr.filter Effect.isSent = [.sent xfer fds.1 (.hdr .fileInfo e) result] ∧
    (0 < e ∧ e ≤ 255) ∧ RequestFails ans req clientPid fds w e

/-- A request that does not run into a table slot that is taken is accepted, or refused
with the error of the step that failed. -/
theorem refusal_reported {s : State} {buf : RecvBuf} {size clientPid : Nat} {fds : Fd × Fd}
    (hr : server.Reachable System.always s) (hrun : s.phase ≠ .stopped) (hcoded : ans.Coded)
    (hreq : protUnmarshalRequest buf size = some req)
    (hfree : ¬ TableTaken ans req clientPid fds s.world) :
    wp (processRequest ans buf size clientPid fds)
      (fun ok w' => ok = false → FailureReported ans req clientPid fds s.world w')
      (fun f _ => f ≠ .assertion .sendReqErrStat) s.world := by
  have hsteps := @wp_processRequest_steps ans req s.world (reachable_ledger hr).1
    (reachable_numbered hr hrun) buf size hreq clientPid fds
  refine wp_mono hsteps (fun ok w' hrefused hok => ?_) fun f w' haborts hf => ?_
  · obtain ⟨tr, xfer, e, result, hundone, -, hsent, hrange, hstated⟩ := hrefused hok
    exact ⟨tr, xfer, e, result, hundone.kern.trace, hsent, hrange, hstated.resolve_left hfree⟩
  · obtain ⟨e, hrange, hstated⟩ := haborts.unstated hf
    exact hrange ((hstated.resolve_left hfree).coded hcoded)

section Runs

open Scenario

theorem State.request_running {s : State} {r : Received} (h : s.request = some r) :
    s.phase ≠ .stopped := by
  intro hphase
  simp [State.request, hphase] at h

/-- The received request is refused, with the given messages. -/
def State.refusesWith (ans : Answers) (sent : Received → List Effect) (s : State) : Bool :=
  match s.request with
  | none => false
  | some r =>
      match processRequest ans s.world.srv.recvbuf r.nread r.pid r.fds s.world with
      | .done ok w' => !ok &&
          ((w'.kern.trace.drop s.world.kern.trace.length).filter Effect.isSent == sent r)
      | .fault _ _ => false

theorem State.refusesWith_eq {sent : Received → List Effect} {s : State}
    (h : s.refusesWith ans sent = true) : ∃ r w', s.request = some r ∧
      processRequest ans s.world.srv.recvbuf r.nread r.pid r.fds s.world = .done false w' ∧
      (w'.kern.trace.drop s.world.kern.trace.length).filter Effect.isSent = sent r := by
  unfold State.refusesWith at h
  split at h
  · cases h
  · rename_i r hr
    split at h
    · rename_i ok w' hrun
      simp only [Bool.and_eq_true, Bool.not_eq_true', beq_iff_eq] at h
      obtain ⟨rfl, hsent⟩ := h
      exact ⟨r, w', hr, hrun, hsent⟩
    · cases h

/-- The destination of a transfer cannot be registered. -/
def unregistrable : Answers := { answers tenBytes with epollAdd := fun _ => some ENOSPC }

/-- A request that has been received but not handled. -/
def receiving (d : Datagram) : List (Answers × Label) :=
  let ans := answers tenBytes
  [(ans, .wait [readable]), (ans, .event (-1, -1)), (ans, .receive d)]

theorem failed_creation_atomic_of_unregistrable : ∃ s r w',
    server.Reachable System.always s ∧ s.request = some r ∧
    processRequest unregistrable s.world.srv.recvbuf r.nread r.pid r.fds s.world =
      .done false w' ∧
    Atomic unregistrable s.world.srv.recvbuf r.nread s.world w' := by
  obtain ⟨s, hr, hP⟩ := exists_reachable System.always 4 4
    (receiving ⟨fileRequest .send 2 5, [1, 2], some client⟩)
    (fun s => s.refusesWith unregistrable
        (fun r => [.sent (some 0) r.fds.1 (.hdr .fileInfo ENOSPC) (.ok 2)]) &&
      fileCmd (sfdGetCmd s.world.srv.recvbuf) == some .send)
    (by decide +kernel)
  simp only [Bool.and_eq_true, beq_iff_eq] at hP
  obtain ⟨r, w', hreq, hfalse, -⟩ := State.refusesWith_eq hP.1
  exact ⟨s, r, w', hr, hreq, hfalse,
    failed_creation_atomic hr (State.request_running hreq) hP.2 hfalse⟩

theorem answers_coded {node : FileNode} : (answers node).Coded where
  openFile := nofun
  fstat := nofun
  lock := by
    intro _ start len e h
    simp only [answers] at h
    split at h
    · cases h
    · cases h
      decide
  lseek := nofun
  epollAdd := nofun
  timerfdSettime := nofun

theorem unregistrable_coded : unregistrable.Coded :=
  { @answers_coded tenBytes with
    epollAdd := by
      intro _ e h
      cases h
      decide }

/-- The slots of the request that was received are free. -/
def State.slotsFree (s : State) : Bool :=
  (s.world.srv.xfers.find s.world.srv.nextTxnid).isNone &&
    (s.world.srv.xferTimers.find s.world.srv.nextTxnid).isNone

theorem State.slotsFree_not_taken {s : State} (h : s.slotsFree = true) (req : ProtRequest)
    (clientPid : Nat) (fds : Fd × Fd) : ¬ TableTaken ans req clientPid fds s.world := by
  simp only [State.slotsFree, Bool.and_eq_true, Option.isNone_iff_eq_none] at h
  rintro (⟨_, _, _, _, -, -, -, -, htaken⟩ | ⟨-, _, _, _, -, -, htaken⟩)
  · exact htaken h.1
  · exact htaken h.2

theorem refusal_reported_of_unregistrable : ∃ s r req w',
    server.Reachable System.always s ∧ s.request = some r ∧
    protUnmarshalRequest s.world.srv.recvbuf r.nread = some req ∧
    processRequest unregistrable s.world.srv.recvbuf r.nread r.pid r.fds s.world =
      .done false w' ∧
    FailureReported unregistrable req r.pid r.fds s.world w' := by
  obtain ⟨s, hr, hP⟩ := exists_reachable System.always 4 4
    (receiving ⟨fileRequest .send 2 5, [1, 2], some client⟩)
    (fun s => s.refusesWith unregistrable
        (fun r => [.sent (some 0) r.fds.1 (.hdr .fileInfo ENOSPC) (.ok 2)]) &&
      s.slotsFree && s.request.all fun r =>
        (protUnmarshalRequest s.world.srv.recvbuf r.nread).isSome)
    (by decide +kernel)
  simp only [Bool.and_eq_true] at hP
  obtain ⟨r, w', hrecv, hfalse, -⟩ := State.refusesWith_eq hP.1.1
  have hsome := hP.2
  rw [hrecv] at hsome
  obtain ⟨req, hreq⟩ := Option.isSome_iff_exists.mp hsome
  have hreported := refusal_reported hr (State.request_running hrecv) unregistrable_coded hreq
    (State.slotsFree_not_taken hP.1.2 req r.pid r.fds)
  exact ⟨s, r, req, w', hr, hrecv, hreq, hfalse, wp_done hreported hfalse rfl⟩

/-- No step of a request fails with EAGAIN here. -/
theorem answers_requestFails {node : FileNode} {clientPid : Nat} {fds : Fd × Fd} {e : Errno}
    (h : RequestFails (answers node) req clientPid fds w e) : e ≠ EAGAIN := by
  have hfile : ∀ k e, FileFails (answers node) req k e → e ≠ EAGAIN := by
    intro k e hfails
    cases hfails with
    | opening h | stat _ h => cases h
    | kind => decide
    | lock _ _ _ h =>
        simp only [answers] at h
        split at h
        · cases h
        · cases h
          decide
    | seek _ _ _ _ _ h => cases h
  have hadd : ∀ e, AddFails (answers node) req w e → e ≠ EAGAIN := by
    intro e hfails
    cases hfails with
    | full | memory => decide
    | file _ h => exact hfile _ e h
    | range _ _ h =>
        unfold rangeCheck at h
        repeat' split at h
        all_goals cases h
        all_goals decide
  cases h with
  | add _ h => exact hadd e h
  | register _ _ h =>
      unfold Kernel.epollAddError at h
      repeat' split at h
      · cases h
        decide
      · cases h
        decide
      · cases h
  | openFile _ h =>
      cases h with
      | add h => exact hadd e h
      | memory => decide
      | settime _ _ _ _ h => cases h
      | register _ _ _ _ _ h => cases h

/-- Of two transfers the second finishes, and a third request arrives. -/
def thirdRequest : List (Answers × Label) :=
  serve (answers tenBytes) [⟨fileRequest .read 0 0, [1], some client⟩,
    ⟨fileRequest .read 0 0, [2], some client⟩] ++
  handle (answers tenBytes) (writable 1) ++ receiving ⟨fileRequest .read 0 0, [3], some client⟩

/-- The slot of the third transfer is that of the first.  The insertion sets no error, and
what is reported is the error that the request socket gave before. -/
theorem refusal_misreported : ∃ s r req, server.Reachable System.always s ∧
    s.request = some r ∧ protUnmarshalRequest s.world.srv.recvbuf r.nread = some req ∧
    (answers tenBytes).Coded ∧
    ¬ wp (processRequest (answers tenBytes) s.world.srv.recvbuf r.nread r.pid r.fds)
      (fun ok w' => ok = false → FailureReported (answers tenBytes) req r.pid r.fds s.world w')
      (fun f _ => f ≠ .assertion .sendReqErrStat) s.world := by
  obtain ⟨s, hr, hP⟩ := exists_reachable System.always 2 100 thirdRequest
    (fun s => s.refusesWith (answers tenBytes)
        (fun r => [.sent none r.fds.1 (.hdr .fileInfo EAGAIN) (.ok 2)]) &&
      s.request.all fun r => (protUnmarshalRequest s.world.srv.recvbuf r.nread).isSome)
    (by decide +kernel)
  rw [Bool.and_eq_true] at hP
  obtain ⟨r, w', hrecv, hfalse, hsent⟩ := State.refusesWith_eq hP.1
  have hsome := hP.2
  rw [hrecv] at hsome
  obtain ⟨req, hreq⟩ := Option.isSome_iff_exists.mp hsome
  refine ⟨s, r, req, hr, hrecv, hreq, answers_coded, fun hwp => ?_⟩
  obtain ⟨tr, xfer, e, result, htrace, hmsg, -, hfails⟩ := wp_done hwp hfalse rfl
  rw [htrace, List.drop_left, hmsg] at hsent
  simp only [List.cons.injEq, Effect.sent.injEq, Pdu.hdr.injEq] at hsent
  exact answers_requestFails hfails hsent.1.2.2.1.2

end Runs

end Sendfiled
