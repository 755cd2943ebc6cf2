/-
What earlier requests leave in the receive buffer.  The decoder of file requests
looks at the received bytes only; the decoders of SEND_OPEN and CANCEL are not told
how many there are.
-/
import Sendfiled.Isolation
import Sendfiled.Lib.Commutes

namespace Sendfiled

open Prog

/-- The same world with other contents of the receive buffer. -/
def World.withBuf (b : RecvBuf) (w : World) : World :=
  { w with srv := { w.srv with recvbuf := b } }

/-- The program neither looks at the receive buffer nor changes it. -/
def Blind {α : Type} (m : M α) : Prop := ∀ b, Commutes (World.withBuf b) m

namespace Blind

variable {α β : Type} {ans : Answers} {m n : M α}

theorem pure (a : α) : Blind (Pure.pure a : M α) := fun _ => .pure a

theorem halt (e : Fault) : Blind (Prog.halt e : M α) := fun _ => .halt e

theorem bind {f : α → M β} (hm : Blind m) (hf : ∀ a, Blind (f a)) : Blind (m >>= f) :=
  fun b => (hm b).bind fun a => hf a b

theorem ite {c : Prop} [Decidable c] (hm : Blind m) (hn : Blind n) :
    Blind (if c then m else n) :=
  fun b => (hm b).ite (hn b)

theorem sys (f : Kernel → α × Kernel) : Blind (Sendfiled.sys f) :=
  fun _ => .modifyGet fun _ => rfl

theorem onSrv {f : Server → Server}
    (hf : ∀ b s, f { s with recvbuf := b } = { f s with recvbuf := b }) :
    Blind (Sendfiled.onSrv f) :=
  fun b => .modify fun w => by
    unfold World.withBuf
    rw [hf b w.srv]

theorem gets {f : World → α} (hf : ∀ b w, f (w.withBuf b) = f w) :
    Blind (Prog.gets f : M α) :=
  fun b => .gets (hf b)

theorem getErrno : Blind getErrno := gets fun _ _ => rfl

theorem setErrno (e : Errno) : Blind (setErrno e) := fun _ => .modify fun _ => rfl

theorem preserveErrno {m : M Unit} (hm : Blind m) : Blind (preserveErrno m) :=
  getErrno.bind fun e => hm.bind fun _ => setErrno e

theorem assert (c : Prop) [Decidable c] (a : Assertion) : Blind (assert c a) :=
  fun _ => .check c _

theorem getXfer (p : Ptr) : Blind (getXfer p) := by
  refine bind (gets fun _ _ => rfl) fun o => ?_
  cases o with
  | none => exact halt _
  | some x => exact pure x

theorem getTimer (t : Ptr) : Blind (getTimer t) := by
  refine bind (gets fun _ _ => rfl) fun o => ?_
  cases o with
  | none => exact halt _
  | some x => exact pure x

theorem malloc : Blind (malloc ans) := by
  refine fun b => .modifyGet fun w => ?_
  simp only [World.withBuf]
  cases ans.malloc w.kern.tick with
  | none => rfl
  | some a => by_cases ha : w.srv.allocated a = true <;> simp [ha]

theorem close (fd : Fd) : Blind (close ans fd) := (sys _).bind fun _ => pure ()

theorem xferDelete (p : Ptr) : Blind (xferDelete p) :=
  (getXfer p).bind fun _ => onSrv fun _ _ => rfl

theorem timerDelete (t : Ptr) : Blind (timerDelete ans t) :=
  (getTimer t).bind fun _ => (close _).bind fun _ => onSrv fun _ _ => rfl

theorem xferNew (cmd : ProtCmdReq) (file : ResrcXferFile) (nbytes : BitVec 64)
    (clientPid : Nat) (statFd destFd : Fd) (txnid : Nat) :
    Blind (xferNew ans cmd file nbytes clientPid statFd destFd txnid) := by
  refine malloc.bind fun o => ?_
  cases o with
  | none => exact pure none
  | some addr =>
      exact (gets fun _ _ => rfl).bind fun _ => (onSrv fun _ _ => rfl).bind fun _ => pure _

theorem syspollRegister (fd : Fd) (u : Udata) : Blind (syspollRegister ans fd u) := sys _

theorem syspollTimer (t : Ptr) : Blind (syspollTimer ans t) := by
  refine (sys _).bind fun o => ?_
  cases o with
  | none => exact pure true
  | some fd =>
      have hfail : Blind (do Sendfiled.preserveErrno (Sendfiled.close ans fd); Pure.pure false) :=
        (preserveErrno (close fd)).bind fun _ => pure false
      exact (sys _).bind fun _ => ite ((getTimer t).bind fun _ =>
        (onSrv fun _ _ => rfl).bind fun _ => (syspollRegister _ _).bind fun _ =>
          ite (pure true) hfail) hfail

theorem sendPdu (xfer : Option Ptr) (fd : Fd) (pdu : Pdu) : Blind (sendPdu ans xfer fd pdu) := by
  refine (sys _).bind fun o => ?_
  cases o with
  | error e => exact pure false
  | ok n => exact (assert _ _).bind fun _ => pure true

theorem sendReqErr (xfer : Option Ptr) (fd : Fd) (stat : Errno) :
    Blind (sendReqErr ans xfer fd stat) :=
  (assert _ _).bind fun _ => sendPdu _ _ _

theorem sendXferErr (xfer : Option Ptr) (fd : Fd) (stat : Errno) :
    Blind (sendXferErr ans xfer fd stat) := sendPdu _ _ _

theorem sendFileInfo (p : Ptr) (fd : Fd) (txnid : Nat) (info : FioStat) :
    Blind (sendFileInfo ans p fd txnid info) := sendPdu _ _ _

theorem fileOpenRead (name : List UInt8) (offset len : BitVec 64) :
    Blind (fileOpenRead ans name offset len) := by
  refine (sys _).bind fun o => ?_
  cases o with
  | none => exact pure none
  | some opened =>
      have hfail : Blind (do
          Sendfiled.preserveErrno (Sendfiled.close ans opened.1)
          Pure.pure (none : Option (Fd × FioStat))) :=
        (preserveErrno (close _)).bind fun _ => pure none
      exact (sys _).bind fun _ => ite (ite ((sys _).bind fun _ => ite
        (ite ((sys _).bind fun _ => ite (pure _) hfail) (pure _)) hfail)
        ((setErrno _).bind fun _ => hfail)) hfail

theorem deleteXferAndCloseFileFd (p : Ptr) : Blind (deleteXferAndCloseFileFd ans p) :=
  (getXfer p).bind fun _ => (close _).bind fun _ => xferDelete p

theorem registerXfer (p : Ptr) : Blind (registerXfer ans p) :=
  (getXfer p).bind fun _ => syspollRegister _ _

theorem deleteUnregisteredXfer (p : Ptr) : Blind (deleteUnregisteredXfer ans p) :=
  (getXfer p).bind fun _ => (onSrv fun _ _ => rfl).bind fun _ => deleteXferAndCloseFileFd p

theorem setDefer (p : Ptr) (d : Deferral) : Blind (setDefer p d) :=
  (getXfer p).bind fun _ => onSrv fun _ _ => rfl

theorem deferCancel (p : Ptr) : Blind (deferCancel p) := by
  have hmark := setDefer p .cancel
  refine (getXfer p).bind fun x b => .gets_bind (fun _ => rfl) fun s => ?_
  exact ((assert _ _).bind fun _ => ite ((onSrv fun _ _ => rfl).bind fun _ => hmark) hmark) b

theorem insertXfer (req : ProtRequest) (clientPid : Nat) (statFd destFd fd : Fd)
    (info : FioStat) (nbytes : BitVec 64) :
    Blind (insertXfer ans req clientPid statFd destFd fd info nbytes) := by
  refine (gets fun _ _ => rfl).bind fun txnid => (xferNew _ _ _ _ _ _ _).bind fun o => ?_
  cases o with
  | none => exact (preserveErrno (close _)).bind fun _ => pure none
  | some p =>
      refine (onSrv fun _ _ => rfl).bind fun _ => (gets fun _ _ => rfl).bind fun table => ?_
      cases table.insert (fun _ => txnid) p with
      | none => exact (preserveErrno (deleteXferAndCloseFileFd p)).bind fun _ => pure none
      | some table' => exact (onSrv fun _ _ => rfl).bind fun _ => pure _

theorem addXfer (req : ProtRequest) (clientPid : Nat) (statFd destFd : Fd) :
    Blind (addXfer ans req clientPid statFd destFd) := by
  refine (gets fun _ _ => rfl).bind fun _ => ite ((setErrno _).bind fun _ => pure none) ?_
  refine (fileOpenRead _ _ _).bind fun o => ?_
  cases o with
  | none => exact pure none
  | some opened =>
      obtain ⟨fd, info⟩ := opened
      cases hrange : rangeCheck info.size req.offset req.len with
      | error e =>
          simp only [hrange]
          exact (close _).bind fun _ => (setErrno _).bind fun _ => pure none
      | ok nbytes =>
          simp only [hrange]
          exact insertXfer _ _ _ _ _ _ _

theorem newTimer (txnid : Nat) (xferAddr : Addr) : Blind (newTimer ans txnid xferAddr) := by
  refine malloc.bind fun o => ?_
  cases o with
  | none => exact pure none
  | some addr =>
      exact (gets fun _ _ => rfl).bind fun _ => (onSrv fun _ _ => rfl).bind fun _ => pure _

theorem addOpenFile (req : ProtRequest) (clientPid : Nat) (statFd : Fd) :
    Blind (addOpenFile ans req clientPid statFd) := by
  refine (addXfer _ _ _ _).bind fun o => ?_
  cases o with
  | none => exact pure none
  | some added =>
      obtain ⟨p, info⟩ := added
      have hback : Blind (do
          Sendfiled.preserveErrno (Sendfiled.deleteUnregisteredXfer ans p)
          Pure.pure (none : Option (Ptr × Ptr × FioStat))) :=
        (preserveErrno (deleteUnregisteredXfer p)).bind fun _ => pure none
      refine (getXfer p).bind fun x => (newTimer _ _).bind fun o => ?_
      cases o with
      | none => exact hback
      | some t =>
          refine (gets fun _ _ => rfl).bind fun table => ?_
          cases table.insert (fun _ => x.txnid) t with
          | none => exact (preserveErrno (timerDelete t)).bind fun _ => hback
          | some table' =>
              refine (onSrv fun _ _ => rfl).bind fun _ => (syspollTimer t).bind fun _ =>
                ite (pure _) ?_
              exact (preserveErrno (onSrv fun _ _ => rfl)).bind fun _ =>
                (preserveErrno (timerDelete t)).bind fun _ => hback

theorem getOpenFile (clientPid txnid : Nat) : Blind (getOpenFile clientPid txnid) := by
  refine (gets fun _ _ => rfl).bind fun table => ?_
  cases table.find txnid with
  | none => exact pure none
  | some p => exact (getXfer p).bind fun _ => ite (pure _) (pure _)

theorem processFileOpen (buf : RecvBuf) (size clientPid : Nat) (fds : Fd × Fd) :
    Blind (processFileOpen ans buf size clientPid fds) := by
  unfold Sendfiled.processFileOpen
  cases protUnmarshalRequest buf size with
  | none => exact pure false
  | some req =>
      refine (addOpenFile _ _ _).bind fun o => ?_
      cases o with
      | none => exact getErrno.bind fun _ => (sendReqErr _ _ _).bind fun _ => pure false
      | some added =>
          exact (getTimer _).bind fun _ => (sendFileInfo _ _ _ _).bind fun _ => pure true

theorem processReadSend (buf : RecvBuf) (size clientPid : Nat) (fds : Fd × Fd) :
    Blind (processReadSend ans buf size clientPid fds) := by
  unfold Sendfiled.processReadSend
  cases protUnmarshalRequest buf size with
  | none => exact pure false
  | some req =>
      refine (addXfer _ _ _ _).bind fun o => ?_
      cases o with
      | none => exact getErrno.bind fun _ => (sendReqErr _ _ _).bind fun _ => pure false
      | some added =>
          refine (registerXfer _).bind fun _ => ite ?_ ?_
          · exact (getXfer _).bind fun _ => (sendFileInfo _ _ _ _).bind fun _ => pure true
          · exact (getXfer _).bind fun _ => getErrno.bind fun _ =>
              (sendReqErr _ _ _).bind fun _ => (deleteUnregisteredXfer _).bind fun _ => pure false

theorem processSendOpen (buf : RecvBuf) (clientPid : Nat) (fds : Fd × Fd) :
    Blind (processSendOpen ans buf clientPid fds) := by
  unfold Sendfiled.processSendOpen
  have hrefuse : Blind (do Sendfiled.close ans fds.1; Pure.pure false) :=
    (close _).bind fun _ => pure false
  cases protUnmarshalSendOpen buf with
  | none => exact pure false
  | some txnid =>
      refine (getOpenFile _ _).bind fun o => ?_
      cases o with
      | none => exact hrefuse
      | some p =>
          refine (getXfer p).bind fun x => ite hrefuse ?_
          refine (onSrv fun _ _ => rfl).bind fun _ => (registerXfer p).bind fun _ =>
            ite (pure true) ?_
          exact getErrno.bind fun _ => (sendXferErr _ _ _).bind fun _ =>
            (deleteUnregisteredXfer p).bind fun _ => pure false

theorem processCancel (buf : RecvBuf) (clientPid : Nat) :
    Blind (processCancel buf clientPid) := by
  unfold Sendfiled.processCancel
  cases protUnmarshalCancel buf with
  | none => exact pure false
  | some txnid =>
      refine (getOpenFile _ _).bind fun o => ?_
      cases o with
      | none => exact pure false
      | some p => exact (deferCancel p).bind fun _ => pure true

theorem processRequest (buf : RecvBuf) (size clientPid : Nat) (fds : Fd × Fd) :
    Blind (processRequest ans buf size clientPid fds) := by
  unfold Sendfiled.processRequest
  refine ite (pure false) (ite (pure false) ?_)
  cases ProtCmdReq.ofCode (sfdGetCmd buf) with
  | none => exact pure false
  | some cmd =>
      cases cmd with
      | fileOpen => exact processFileOpen _ _ _ _
      | read => exact processReadSend _ _ _ _
      | send => exact processReadSend _ _ _ _
      | sendOpen => exact processSendOpen _ _ _
      | cancel => exact processCancel _ _

theorem closeFds (fds : Fd × Fd) (nfds : Nat) : Blind (closeFds ans fds nfds) :=
  ite ((close _).bind fun _ => ite (close _) (pure ())) (pure ())

end Blind

section Decoders

theorem takeWhile_ne_zero_eq {l l' : List UInt8} (m : Nat)
    (heq : ∀ i ≤ m, l.getD i 0 = l'.getD i 0) (hzero : l.getD m 0 = 0) :
    l.takeWhile (· ≠ 0) = l'.takeWhile (· ≠ 0) := by
  induction m generalizing l l' with
  | zero =>
      have hnil : ∀ k : List UInt8, k.getD 0 0 = 0 → k.takeWhile (· ≠ 0) = [] := by
        intro k hk
        cases k with
        | nil => rfl
        | cons head tail => simp_all
      rw [hnil l hzero, hnil l' (heq 0 (Nat.le_refl 0) ▸ hzero)]
  | succ m ih =>
      have hhead := heq 0 (Nat.zero_le _)
      cases l with
      | nil =>
          cases l' with
          | nil => rfl
          | cons head' tail' =>
              have hz : head' = 0 := by simpa using hhead.symm
              simp [hz]
      | cons head tail =>
          cases l' with
          | nil =>
              have hz : head = 0 := by simpa using hhead
              simp [hz]
          | cons head' tail' =>
              have hsame : head = head' := by simpa using hhead
              subst hsame
              by_cases hz : head = 0
              · simp [hz]
              · have htail : tail.takeWhile (· ≠ 0) = tail'.takeWhile (· ≠ 0) :=
                  ih (fun i hi => by simpa using heq (i + 1) (by omega)) (by simpa using hzero)
                rw [List.takeWhile_cons_of_pos (by simpa using hz),
                  List.takeWhile_cons_of_pos (by simpa using hz), htail]

theorem leNat_add (buf : RecvBuf) (start c d : Nat) :
    leNat buf start (c + d) = leNat buf start c + 256 ^ c * leNat buf (start + c) d := by
  induction c generalizing start with
  | zero => simp [leNat]
  | succ c ih =>
      rw [show c + 1 + d = c + d + 1 by omega, leNat, leNat, ih (start + 1),
        show start + 1 + c = start + (c + 1) by omega, Nat.pow_succ, Nat.mul_add]
      rw [show 256 * (256 ^ c * leNat buf (start + (c + 1)) d) =
        256 ^ c * 256 * leNat buf (start + (c + 1)) d by
          rw [← Nat.mul_assoc, Nat.mul_comm 256 (256 ^ c)]]
      omega

theorem leNat_congr {a b : RecvBuf} (start count : Nat)
    (h : ∀ i, start ≤ i → i < start + count → a.byte i = b.byte i) :
    leNat a start count = leNat b start count := by
  induction count generalizing start with
  | zero => rfl
  | succ count ih =>
      rw [leNat, leNat, h start (by omega) (by omega),
        ih (start + 1) fun i hle hlt => h i (by omega) (by omega)]

variable {n : Nat} {a b : RecvBuf} (h : RecvBuf.Agree n a b)

include h

theorem RecvBuf.Agree.cmd (hn : 1 ≤ n) : sfdGetCmd a = sfdGetCmd b := by
  unfold sfdGetCmd
  rw [h 0 (by omega)]

theorem RecvBuf.Agree.stat (hn : 2 ≤ n) : sfdGetStat a = sfdGetStat b := by
  unfold sfdGetStat
  rw [h 1 (by omega)]

theorem RecvBuf.Agree.leNat (start count : Nat) (hle : start + count ≤ n) :
    leNat a start count = leNat b start count :=
  leNat_congr start count fun i _ hlt => h i (by omega)

/-- The slot of a transaction ID depends on its four low bytes. -/
theorem RecvBuf.Agree.find {α : Type} (hn : 12 ≤ n) (t : XferTable α) :
    t.find (Sendfiled.leNat a 8 8) = t.find (Sendfiled.leNat b 8 8) := by
  have hlow : ∀ buf : RecvBuf, Sendfiled.leNat buf 8 8 % t.capacity =
      Sendfiled.leNat buf 8 4 % t.capacity := by
    intro buf
    have hdvd : t.capacity ∣ 2 ^ 32 := Nat.pow_dvd_pow 2 (Nat.le_of_lt t.order_lt)
    rw [leNat_add buf 8 4 4, ← Nat.mod_mod_of_dvd _ hdvd, show (256 ^ 4 : Nat) = 2 ^ 32 by decide,
      Nat.add_mul_mod_self_left, Nat.mod_mod_of_dvd _ hdvd]
  unfold XferTable.find
  rw [t.indexof_eq_mod, t.indexof_eq_mod, hlow, hlow, h.leNat 8 4 (by omega)]

/-- File requests are decoded from the received bytes alone. -/
theorem RecvBuf.Agree.request : protUnmarshalRequest a n = protUnmarshalRequest b n := by
  unfold protUnmarshalRequest
  by_cases hshort : n < protReqMinSize
  · rw [if_pos hshort, if_pos hshort]
  have hn : 26 ≤ n := by simpa [protReqMinSize, protReqBaseSize] using hshort
  rw [if_neg hshort, if_neg hshort, h.cmd (by omega), h.stat (by omega), h (n - 1) (by omega),
    h.leNat 8 8 (by omega), h.leNat 16 8 (by omega)]
  cases fileCmd (sfdGetCmd b) with
  | none => rfl
  | some cmd =>
      by_cases hnul : b.byte (n - 1) = 0
      · have hname : cString a protReqBaseSize = cString b protReqBaseSize := by
          unfold cString protReqBaseSize
          have hdrop : ∀ (buf : RecvBuf) i, (buf.bytes.drop 24).getD i 0 = buf.byte (24 + i) := by
            intro buf i
            simp [RecvBuf.byte, List.getD_eq_getElem?_getD]
          refine takeWhile_ne_zero_eq (n - 25) (fun i hi => ?_) ?_
          · rw [hdrop, hdrop]
            exact h (24 + i) (by omega)
          · rw [hdrop, show 24 + (n - 25) = n - 1 by omega, h (n - 1) (by omega)]
            exact hnul
        rw [hname]
      · simp [hnul]

end Decoders

/-- The request is one whose decoder reads beyond the received bytes. -/
def ReadsStale (r : Received) (buf : RecvBuf) : Prop :=
  r.nread ≤ 11 ∧ (r.nread = 1 ∨ sfdGetStat buf = 0) ∧
    ((sfdGetCmd buf = ProtCmdReq.sendOpen.code ∧ 1 ≤ r.nfds ∧ r.nfds ≤ protMaxFds) ∨
      sfdGetCmd buf = ProtCmdReq.cancel.code)

/-- The two ends are the same but for the receive buffer. -/
def SameEffect {α : Type} (o o' : Outcome Fault World α) : Prop :=
  o.map (World.withBuf .zeroed) = o'.map (World.withBuf .zeroed)

/-- What becomes of a received datagram does not depend on the bytes of the buffer
beyond those received. -/
def IgnoresStale (r : Received) (buf : RecvBuf) : Prop :=
  ∀ ans (w : World) b b', RecvBuf.Agree r.nread buf b → RecvBuf.Agree r.nread buf b' →
    SameEffect (handleReceived ans r (w.withBuf b)) (handleReceived ans r (w.withBuf b'))

/-- `handleReceived` with the contents of the buffer as an argument. -/
def handleBuffer (ans : Answers) (r : Received) (buf : RecvBuf) : M Unit := do
  assert (r.nread ≠ 0) .recvNonempty
  let uid ← gets fun w => w.srv.uid
  if sfdGetCmd buf ≠ ProtCmdReq.cancel.code ∧ (r.nfds < 1 ∨ protMaxFds < r.nfds) then
    pure ()
  else if r.uid ≠ uid then
    let _ ← sendXferErr ans none r.fds.1 EACCES
    closeFds ans r.fds r.nfds
  else if ← processRequest ans buf r.nread r.pid r.fds then pure ()
  else closeFds ans r.fds r.nfds

section Independence

variable {ans : Answers} {r : Received} {buf b b' : RecvBuf} {w : World}

theorem handleReceived_eq_handleBuffer (w : World) :
    handleReceived ans r w = handleBuffer ans r w.srv.recvbuf w := by
  unfold handleReceived handleBuffer assert check
  by_cases hread : r.nread ≠ 0
  · rw [if_pos hread]
    rfl
  · rw [if_neg hread]
    rfl

theorem handleBuffer_blind : Blind (handleBuffer ans r buf) := by
  refine (Blind.assert _ _).bind fun _ => (Blind.gets fun _ _ => rfl).bind fun uid => ?_
  refine .ite (.pure ()) (.ite ?_ ?_)
  · exact (Blind.sendXferErr _ _ _).bind fun _ => .closeFds _ _
  · exact (Blind.processRequest _ _ _ _).bind fun _ => .ite (.pure ()) (.closeFds _ _)

/-- Only what the handling makes of the buffer matters. -/
theorem sameEffect_of_handleBuffer (h : handleBuffer ans r b w = handleBuffer ans r b' w) :
    SameEffect (handleReceived ans r (w.withBuf b)) (handleReceived ans r (w.withBuf b')) := by
  unfold SameEffect
  rw [handleReceived_eq_handleBuffer, handleReceived_eq_handleBuffer]
  change (handleBuffer ans r b (w.withBuf b)).map _ = (handleBuffer ans r b' (w.withBuf b')).map _
  rw [handleBuffer_blind b w, handleBuffer_blind b' w, h, Outcome.map_map, Outcome.map_map]
  rfl

/-- The two decoders that do not know the length agree on the transfer they lead to
once the low half of the transaction ID has been received. -/
theorem getOpenFile_agree {n : Nat} (h : RecvBuf.Agree n b b') (hn : 12 ≤ n) (clientPid : Nat) :
    getOpenFile clientPid (leNat b 8 8) = getOpenFile clientPid (leNat b' 8 8) := by
  unfold getOpenFile
  simp only [h.find hn]

theorem protUnmarshalRequest_short {buf : RecvBuf} : protUnmarshalRequest buf 1 = none := by
  unfold protUnmarshalRequest
  rw [if_pos (by decide)]

/-- A single byte that is neither SEND_OPEN nor CANCEL is refused whatever follows. -/
theorem processRequest_one {size clientPid : Nat} {fds : Fd × Fd} (hsize : size = 1)
    (hcancel : sfdGetCmd buf ≠ ProtCmdReq.cancel.code)
    (hopen : sfdGetCmd buf ≠ ProtCmdReq.sendOpen.code) :
    processRequest ans buf size clientPid fds = pure false := by
  subst hsize
  unfold processRequest
  split
  · rfl
  split
  · rfl
  cases hcmd : ProtCmdReq.ofCode (sfdGetCmd buf) with
  | none => rfl
  | some cmd =>
      have hcode : cmd.code = sfdGetCmd buf := by
        unfold ProtCmdReq.ofCode at hcmd
        split at hcmd <;> cases hcmd <;> simp_all [ProtCmdReq.code]
      cases cmd with
      | fileOpen => simp only [processFileOpen, protUnmarshalRequest_short]
      | read => simp only [processReadSend, protUnmarshalRequest_short]
      | send => simp only [processReadSend, protUnmarshalRequest_short]
      | sendOpen => exact absurd hcode.symm hopen
      | cancel => exact absurd hcode.symm hcancel

theorem processRequest_agree (h : RecvBuf.Agree r.nread b b') (hread : 1 ≤ r.nread)
    (hfresh : sfdGetCmd b = ProtCmdReq.cancel.code ∨ sfdGetCmd b = ProtCmdReq.sendOpen.code →
      12 ≤ r.nread ∨ (2 ≤ r.nread ∧ sfdGetStat b ≠ 0)) :
    processRequest ans b r.nread r.pid r.fds = processRequest ans b' r.nread r.pid r.fds := by
  have hcmd := h.cmd hread
  by_cases hone : r.nread = 1
  · have hnot : ¬ (sfdGetCmd b = ProtCmdReq.cancel.code ∨
        sfdGetCmd b = ProtCmdReq.sendOpen.code) := fun hc => by
      have := hfresh hc
      omega
    rw [not_or] at hnot
    rw [processRequest_one hone hnot.1 hnot.2,
      processRequest_one hone (hcmd ▸ hnot.1) (hcmd ▸ hnot.2)]
  have hstat := h.stat (by omega)
  -- with the status byte zero, a transaction ID has been received far enough
  have htxnid : ∀ cmd, protUnmarshalTxnid cmd b = none ∧ protUnmarshalTxnid cmd b' = none ∨
      protUnmarshalTxnid cmd b = some (leNat b 8 8) ∧
        protUnmarshalTxnid cmd b' = some (leNat b' 8 8) := by
    intro cmd
    unfold protUnmarshalTxnid
    rw [← hcmd, ← hstat]
    by_cases hno : sfdGetCmd b ≠ cmd.code ∨ sfdGetStat b ≠ 0
    · exact Or.inl ⟨if_pos hno, if_pos hno⟩
    · exact Or.inr ⟨if_neg hno, if_neg hno⟩
  unfold processRequest
  rw [← hcmd, ← hstat]
  by_cases hzero : sfdGetStat b = 0
  · rw [if_neg (not_not.mpr hzero), if_neg (not_not.mpr hzero)]
    have hfar : sfdGetCmd b = ProtCmdReq.cancel.code ∨
        sfdGetCmd b = ProtCmdReq.sendOpen.code → 12 ≤ r.nread := fun hc =>
      (hfresh hc).resolve_right fun hno => hno.2 hzero
    split
    · rfl
    cases hof : ProtCmdReq.ofCode (sfdGetCmd b) with
    | none => rfl
    | some cmd =>
        have hcode : cmd.code = sfdGetCmd b := by
          unfold ProtCmdReq.ofCode at hof
          split at hof <;> cases hof <;> simp_all [ProtCmdReq.code]
        cases cmd with
        | fileOpen => simp only [processFileOpen, h.request]
        | read => simp only [processReadSend, h.request]
        | send => simp only [processReadSend, h.request]
        | sendOpen =>
            have hagree := getOpenFile_agree h (hfar (Or.inr hcode.symm)) r.pid
            simp only [processSendOpen, protUnmarshalSendOpen]
            rcases htxnid .sendOpen with ⟨ht, ht'⟩ | ⟨ht, ht'⟩
            · rw [ht, ht']
            · simp only [ht, ht', hagree]
        | cancel =>
            have hagree := getOpenFile_agree h (hfar (Or.inl hcode.symm)) r.pid
            simp only [processCancel, protUnmarshalCancel]
            rcases htxnid .cancel with ⟨ht, ht'⟩ | ⟨ht, ht'⟩
            · rw [ht, ht']
            · simp only [ht, ht', hagree]
  · rw [if_pos hzero, if_pos hzero]

theorem ignoresStale_of_not_readsStale (hread : 1 ≤ r.nread) (h : ¬ ReadsStale r buf) :
    IgnoresStale r buf := by
  intro ans w b b' hb hb'
  have hagree : RecvBuf.Agree r.nread b b' := fun i hi => (hb i hi).symm.trans (hb' i hi)
  refine sameEffect_of_handleBuffer ?_
  unfold handleBuffer
  rw [← hagree.cmd hread]
  by_cases hskip : sfdGetCmd b ≠ ProtCmdReq.cancel.code ∧ (r.nfds < 1 ∨ protMaxFds < r.nfds)
  · simp only [if_pos hskip]
  · have hfresh : sfdGetCmd b = ProtCmdReq.cancel.code ∨
        sfdGetCmd b = ProtCmdReq.sendOpen.code →
        12 ≤ r.nread ∨ (2 ≤ r.nread ∧ sfdGetStat b ≠ 0) := by
      intro hc
      by_contra hnot
      rw [not_or] at hnot
      refine h ⟨by omega, ?_, ?_⟩
      · by_cases hone : r.nread = 1
        · exact Or.inl hone
        · right
          rw [hb.stat (by omega)]
          by_contra hne
          exact hnot.2 ⟨by omega, hne⟩
      · rw [hb.cmd hread]
        rcases hc with hc | hc
        · exact Or.inr hc
        · refine Or.inl ⟨hc, ?_⟩
          by_contra hfds
          exact hskip ⟨by rw [hc]; decide, by omega⟩
    rw [processRequest_agree hagree hread hfresh]

end Independence

/-! A server with a single open file, in a table so large that the last byte of the
low half of a transaction ID matters. -/

theorem length_free (α : Type) (k : Nat) :
    (List.replicate (2 ^ k) (none : Option α)).length = 2 ^ k := List.length_replicate

/-- A table without elements. -/
def emptyTable {α : Type} (k : Nat) (hk : k < 32) : XferTable α where
  order := k
  elems := List.replicate (2 ^ k) none
  size := 0
  order_lt := hk
  length_eq := length_free α k

def emptyServer (k : Nat) (hk : k < 32) (uid : Nat) : Server where
  xfers := emptyTable k hk
  xferTimers := emptyTable k hk
  deferredXfers := []
  nextTxnid := 1
  reqfd := 3
  uid := uid
  pipeCapacity := 4096
  recvbuf := .zeroed
  xferAt := fun _ => none
  timerAt := fun _ => none
  respAt := fun _ => none
  nextPtr := 0
  allocated := fun _ => false

theorem emptyServer_ledger (k : Nat) (hk : k < 32) (uid : Nat) :
    Ledger (emptyServer k hk uid) where
  xfers := XferTable.represents_empty rfl rfl
  timers := XferTable.represents_empty rfl rfl
  xfer_lt := fun p x hp => by cases hp
  timer_lt := fun t tm ht => by cases ht
  deferred_lt := fun p hp => by cases hp
  nodup := List.nodup_nil
  listed := fun p x hp => by cases hp

/-- An open file of a client that could not be identified. -/
def loneXfer (t : Nat) : ResrcXfer where
  addr := 0
  destFd := -1
  statFd := 6
  cmd := .fileOpen
  txnid := t
  file := { size := 1, fd := 7, blksize := 4096 }
  nbytesLeft := 1
  clientPid := usInvalidPid
  defer := .none

def loneWorld (k : Nat) (hk : k < 32) (uid t : Nat) : World where
  srv := (emptyServer k hk uid).enroll (loneXfer t)
  kern := Scenario.kernel

section Lone

variable {k uid t : Nat} {hk : k < 32}

theorem loneWorld_ledger : Ledger (loneWorld k hk uid t).srv :=
  (emptyServer_ledger k hk uid).enroll
    (by
      cases hfind : (emptyServer k hk uid).xfers.find (loneXfer t).txnid with
      | none => rfl
      | some p =>
          obtain ⟨x, hx, -⟩ := (emptyServer_ledger k hk uid).of_find hfind
          cases hx) rfl

theorem loneWorld_xferAt : (loneWorld k hk uid t).srv.xferAt 0 = some (loneXfer t) := by
  simp [loneWorld, Server.enroll, Server.newXfer, Server.setXfer, emptyServer]

/-- Only the transaction IDs of the same slot lead to the open file. -/
theorem loneWorld_find {t' : Nat} : (loneWorld k hk uid t).srv.xfers.find t' =
    if t' % 2 ^ k = t % 2 ^ k then some 0 else none := by
  have hledger : Ledger (loneWorld k hk uid t).srv := loneWorld_ledger
  have hfind := hledger.find loneWorld_xferAt
  have hcap : (loneWorld k hk uid t).srv.xfers.capacity = 2 ^ k := rfl
  have hidx : ∀ u, (loneWorld k hk uid t).srv.xfers.indexof u = u % 2 ^ k := fun u => by
    rw [XferTable.indexof_eq_mod, hcap]
  split
  · rename_i hmod
    rw [XferTable.find, hidx, hmod, ← hidx t]
    exact hfind
  · rename_i hmod
    cases hother : (loneWorld k hk uid t).srv.xfers.find t' with
    | none => rfl
    | some p =>
        exfalso
        obtain ⟨x, hx, hsame⟩ := hledger.of_find hother
        have hp : p = 0 := by
          by_contra hne
          simp [loneWorld, Server.enroll, Server.newXfer, Server.setXfer, emptyServer, hne] at hx
        rw [hp, loneWorld_xferAt] at hx
        cases hx
        rw [hidx, hidx] at hsame
        exact hmod hsame.symm

end Lone

/-- Overwrite one byte of the buffer. -/
def RecvBuf.poke (buf : RecvBuf) (i : Nat) (v : UInt8) : RecvBuf where
  bytes := buf.bytes.set i v
  length_eq := by simp [buf.length_eq]

theorem RecvBuf.byte_poke (buf : RecvBuf) {i : Nat} (hi : i < protReqMaxSize) (v : UInt8)
    (j : Nat) : (buf.poke i v).byte j = if j = i then v else buf.byte j := by
  simp only [RecvBuf.byte, RecvBuf.poke, List.getD_eq_getElem?_getD, List.getElem?_set]
  by_cases hj : j = i
  · subst hj
    simp [buf.length_eq, hi]
  · simp [hj, Ne.symm hj]

/-- A buffer with a zero status byte and the given last byte of the low half of the
transaction ID. -/
def RecvBuf.staled (buf : RecvBuf) (v : UInt8) : RecvBuf := (buf.poke 1 0).poke 11 v

section Staled

variable {buf : RecvBuf} {v : UInt8} {r : Received}

theorem RecvBuf.byte_staled (i : Nat) : (buf.staled v).byte i =
    if i = 11 then v else if i = 1 then 0 else buf.byte i := by
  unfold RecvBuf.staled
  rw [RecvBuf.byte_poke _ (by decide), RecvBuf.byte_poke _ (by decide)]

theorem RecvBuf.agree_staled (h : ReadsStale r buf) : RecvBuf.Agree r.nread buf (buf.staled v) := by
  intro i hi
  obtain ⟨hlen, hstat, -⟩ := h
  rw [RecvBuf.byte_staled, if_neg (by omega)]
  split
  · rename_i hone
    have hzero : sfdGetStat buf = 0 := hstat.resolve_left (by omega)
    rw [hone]
    exact UInt8.toNat_inj.mp hzero
  · rfl

theorem RecvBuf.staled_txnid {cmd : ProtCmdReq} (hcmd : sfdGetCmd buf = cmd.code) :
    protUnmarshalTxnid cmd (buf.staled v) = some (leNat (buf.staled v) 8 8) := by
  have hcmd' : sfdGetCmd (buf.staled v) = cmd.code := by
    rw [← hcmd, sfdGetCmd, RecvBuf.byte_staled]
    rfl
  have hstat : sfdGetStat (buf.staled v) = 0 := by
    rw [sfdGetStat, RecvBuf.byte_staled]
    rfl
  simp [protUnmarshalTxnid, hcmd', hstat]

theorem RecvBuf.leNat_staled : leNat (buf.staled 1) 8 8 = leNat (buf.staled 0) 8 8 + 2 ^ 24 := by
  have hparts : ∀ v, leNat (buf.staled v) 8 8 =
      leNat buf 8 3 + 256 ^ 3 * (v.toNat + 256 * leNat buf 12 4) := by
    intro v
    have hsame : ∀ i, i ≠ 11 → i ≠ 1 → (buf.staled v).byte i = buf.byte i := by
      intro i h11 h1
      rw [RecvBuf.byte_staled, if_neg h11, if_neg h1]
    have hlow : leNat (buf.staled v) 8 3 = leNat buf 8 3 :=
      leNat_congr 8 3 fun i hle hlt => hsame i (by omega) (by omega)
    have hrest : leNat (buf.staled v) 12 4 = leNat buf 12 4 :=
      leNat_congr 12 4 fun i hle hlt => hsame i (by omega) (by omega)
    have hhigh : leNat (buf.staled v) 11 5 = v.toNat + 256 * leNat buf 12 4 := by
      rw [leNat, RecvBuf.byte_staled, if_pos rfl, hrest]
    rw [leNat_add _ 8 3 5, hlow, hhigh]
  rw [hparts, hparts]
  have h0 : (0 : UInt8).toNat = 0 := rfl
  have h1 : (1 : UInt8).toNat = 1 := rfl
  rw [h0, h1]
  omega

end Staled

theorem SameEffect.srv {α : Type} {o o' : Outcome Fault World α} (h : SameEffect o o') :
    o.state.srv.xferAt = o'.state.srv.xferAt ∧
      o.state.srv.deferredXfers = o'.state.srv.deferredXfers := by
  have hstate := congrArg Outcome.state h
  have hmap : ∀ o : Outcome Fault World α,
      (o.map (World.withBuf .zeroed)).state = o.state.withBuf .zeroed := by
    intro o
    cases o <;> rfl
  rw [hmap, hmap] at hstate
  have hxferAt := congrArg (fun w : World => w.srv.xferAt) hstate
  have hdeferred := congrArg (fun w : World => w.srv.deferredXfers) hstate
  exact ⟨hxferAt, hdeferred⟩

/-- A buffer whose stale bytes lead to the open file, and one whose stale bytes do
not. -/
theorem not_ignoresStale_of_readsStale {r : Received} {buf : RecvBuf} (hread : 1 ≤ r.nread)
    (h : ReadsStale r buf) : ¬ IgnoresStale r buf := by
  obtain ⟨cmd, hcmd, hcode, hfds, hmax⟩ : ∃ cmd, (cmd = .cancel ∨ cmd = .sendOpen) ∧
      sfdGetCmd buf = ProtCmdReq.code cmd ∧ (cmd ≠ .cancel → r.nfds ≠ 0) ∧
      (cmd = .sendOpen → r.nfds ≤ protMaxFds) := by
    obtain ⟨-, -, ⟨hopen, hone, hmax⟩ | hcancel⟩ := h
    · exact ⟨.sendOpen, Or.inr rfl, hopen, fun _ => by omega, fun _ => hmax⟩
    · exact ⟨.cancel, Or.inl rfl, hcancel, fun hne => absurd rfl hne, fun heq => by cases heq⟩
  have hhit := RecvBuf.staled_txnid (v := 0) hcode
  have hmiss := RecvBuf.staled_txnid (v := 1) hcode
  generalize ht : leNat (buf.staled 0) 8 8 = t at hhit
  rw [RecvBuf.leNat_staled, ht] at hmiss
  let w := loneWorld 25 (by decide) r.uid t
  have hx : w.srv.xferAt 0 = some (loneXfer t) := loneWorld_xferAt
  intro hignores
  let ans := Scenario.answers (Scenario.countingFile 1 (by decide))
  have hsame := (hignores ans w (buf.staled 0) (buf.staled 1) (RecvBuf.agree_staled h)
    (RecvBuf.agree_staled h)).srv.1
  -- the second buffer leads nowhere
  have hsecond : (handleReceived ans r (w.withBuf (buf.staled 1))).state.srv.xferAt 0 =
      some (loneXfer t) := by
    refine wp_state (R := fun w' : World => w'.srv.xferAt 0 = some (loneXfer t))
      (wp_mono (wp_handleReceived_ignored ?_ (by omega) hcmd hmiss ?_) ?_ ?_)
    · exact loneWorld_ledger.congr rfl rfl rfl rfl rfl (Nat.le_refl _)
    · intro q y hnamed
      obtain ⟨-, -, hfind, -, -⟩ := Server.namedBy_eq_some hnamed hmiss
      have hother : ¬ (t + 2 ^ 24) % 2 ^ 25 = t % 2 ^ 25 := by omega
      rw [show (w.withBuf (buf.staled 1)).srv.xfers.find (t + 2 ^ 24) = _ from loneWorld_find,
        if_neg hother] at hfind
      cases hfind
    · exact fun _ w' hw' => hw'.srv ▸ hx
    · exact fun _ w' hw' => hw'.1.srv ▸ hx
  rw [← hsame] at hsecond
  -- the first one leads to the open file and changes it
  refine absurd hsecond (wp_state (R := fun w' : World => w'.srv.xferAt 0 ≠ some (loneXfer t))
    (wp_handleReceived_named (w := w.withBuf (buf.staled 0)) (q := 0) (y := loneXfer t)
      (by omega) hmax hcmd hhit
      (Server.namedBy_eq rfl hfds hhit (by exact loneWorld_find.trans (if_pos rfl)) hx rfl)
      (fun _ => by simp [loneXfer]) ?_ ?_ ?_ ?_ ?_))
  · intro s' _ hs'
    rw [hs']
    simp [loneXfer]
  · intro hfull
    exact absurd (Or.inr (show 0 < 1 from Nat.one_pos)) hfull
  · intro s' k f hs' _ _
    rw [hs']
    simp [loneXfer]
  · intro w' hgone
    rw [hgone]
    simp
  · intro s' k fd pdu result hs' _
    rw [hs']
    simp [loneXfer]

/-- For every received datagram, what becomes of it is independent of the stale part
of the buffer exactly when its decoder does not read there. -/
theorem ignoresStale_iff {r : Received} (hread : 1 ≤ r.nread) (buf : RecvBuf) :
    IgnoresStale r buf ↔ ¬ ReadsStale r buf :=
  ⟨fun hignores hstale => not_ignoresStale_of_readsStale hread hstale hignores,
    ignoresStale_of_not_readsStale hread⟩

section Runs

open Scenario Transition

/-- A CANCEL of full length. -/
def fullCancel : Received := ⟨16, 0, (-1, -1), 1000, 100⟩

theorem ignoresStale_iff_of_fullCancel : 1 ≤ fullCancel.nread ∧
    IgnoresStale fullCancel (RecvBuf.zeroed.receive (txnRequest .cancel 1)) := by
  refine ⟨by decide, (ignoresStale_iff (by decide) _).mpr ?_⟩
  rintro ⟨hlen, -⟩
  exact absurd hlen (by decide)

/-- An open file whose CANCEL has only its first byte.  The rest of the buffer still
holds the request that opened the file. -/
def shortCancel : List (Answers × Label) :=
  [(answers tenBytes, .wait [readable]), (answers tenBytes, .event (-1, -1)),
    (answers tenBytes, .receive ⟨fileRequest .fileOpen 1 0, [1], some client⟩),
    (answers tenBytes, .request),
    (answers tenBytes, .receive ⟨[5], [], some client⟩)]

/-- The offset of the earlier request is taken for a transaction ID. -/
theorem shortCancel_readsStale : ∃ s r rest b, server.Reachable System.always s ∧
    s.phase = .requested r rest ∧ 1 ≤ r.nread ∧
    RecvBuf.Agree r.nread s.world.srv.recvbuf b ∧
    ¬ SameEffect (handleReceived (answers tenBytes) r s.world)
      (handleReceived (answers tenBytes) r (s.world.withBuf b)) := by
  obtain ⟨s, hr, hP⟩ := exists_reachable System.always 4 4 shortCancel
    (fun s => s.request.any fun r => r.nread == 1 && s.world.srv.recvbuf.byte 0 == 5 &&
      (handleReceived (answers tenBytes) r s.world).state.srv.deferredXfers == [0] &&
      (handleReceived (answers tenBytes) r
        (s.world.withBuf (RecvBuf.zeroed.receive [5]))).state.srv.deferredXfers == [])
    (by decide +kernel)
  obtain ⟨r, hrequest, hP⟩ := (Option.any_eq_true _ _).mp hP
  obtain ⟨rest, hphase⟩ := State.phase_of_request hrequest
  simp only [Bool.and_eq_true, beq_iff_eq] at hP
  obtain ⟨⟨⟨hread, hbyte⟩, hcancelled⟩, hnot⟩ := hP
  refine ⟨s, r, rest, RecvBuf.zeroed.receive [5], hr, hphase, by omega, fun i hi => ?_, ?_⟩
  · rw [show i = 0 by omega, hbyte]
    decide
  · intro hsame
    have hdeferred := hsame.srv.2
    rw [hcancelled, hnot] at hdeferred
    cases hdeferred

end Runs

end Sendfiled
