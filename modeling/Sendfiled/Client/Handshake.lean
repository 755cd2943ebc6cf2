/-
The two phases of an open file.  A client asks for a file with `sfd_open`, reads the
transaction ID from the file's information, and names it in `sfd_send_open` when it has a
destination.  What it then gets is the file it asked for, and nothing else.
-/
import Sendfiled.Client.Service
import Sendfiled.OpenFiles
import Sendfiled.ReadStream
import Sendfiled.Txnids

namespace Sendfiled.Client

open Prog Transition
open Startup (Os CString)

section Message

variable {os : Os} {ans : Answers} {sock dest : Fd} {txnid : BitVec 64} {c c' : Process}

/-- The message of `sfd_send_open`. -/
theorem sent_of_sfdSendOpen (h : sfdSendOpen os ans sock txnid dest c = .done true c') :
    ∃ m f, c'.sent = c.sent ++ [m] ∧ m.data = (protMarshalSendOpen txnid).bytes ∧
      m.rights = [f] ∧ Refers c dest f := by
  have htold := wp_done (wp_tell (protMarshalSendOpen txnid).bytes [dest]) h
  cases htold with
  | @sent _ n fs _ _ _ hrights hsent =>
      cases hrights with
      | @cons _ f _ fs hf hrest =>
          cases hrest
          exact ⟨_, f, hsent, rfl, rfl, Or.inl hf⟩

/-- The server decodes it. -/
theorem decode_sendOpen (old : RecvBuf) :
    protUnmarshalSendOpen (old.receive (protMarshalSendOpen txnid).bytes) = some txnid.toNat := by
  have hdecode := unmarshalTxn_receive old ⟨0, 0, 0⟩ .sendOpen txnid
  rw [protUnmarshalSendOpen, protUnmarshalTxnid_eq .sendOpen ⟨0, 0, 0⟩]
  rw [show protMarshalSendOpen txnid = ⟨UInt8.ofNat ProtCmdReq.sendOpen.code, 0, txnid⟩ from rfl,
    hdecode]
  rfl

theorem length_sendOpen : (protMarshalSendOpen txnid).bytes.length = 16 := by
  simp [protMarshalSendOpen, ProtTxnPdu.bytes, header, LittleEndian.length_words]

end Message

section Creation

variable {p : Ptr} {x : ResrcXfer} {w : World}

/-- The ID that the client of a new transfer reads is the transfer's. -/
theorem txnid_of_told (h : Born p x (w.view p)) {fd : Fd} {pdu : Pdu} {n : Nat}
    (htold : Effect.sent (some p) fd pdu (.ok n) ∈ w.kern.trace) {out info : SfdFileInfo}
    {more : List UInt8} (hinfo : sfdUnmarshalFileInfo out (pdu.bytes ++ more) = (true, info)) :
    info.txnid = BitVec.ofNat 64 x.txnid := by
  generalize hv : w.view p = v at h
  obtain ⟨-, -⟩ := h
  rename_i atime mtime ctime result
  have hhistory : historyOf p w.kern.trace = _ := congrArg View.history hv
  have hmem : Effect.sent (some p) fd pdu (.ok n) ∈ historyOf p w.kern.trace :=
    List.mem_filter.mpr ⟨htold, by simp [Effect.onBehalf]⟩
  rw [hhistory] at hmem
  cases List.mem_singleton.mp hmem
  rw [Pdu.bytes, sfdUnmarshalFileInfo_bytes] at hinfo
  cases hinfo
  rfl

end Creation

/-- What the server makes of `sfd_send_open` for the open file `p`: it is sent to the file that
the client's descriptor refers to, of which it gets the part that was asked for, in order; or
the poller refuses the destination, which the client is told on its status channel, and both
the transfer and the destination are given up. -/
inductive Handed (ans : Sendfiled.Answers) (c : Process) (dest : Fd) (files : File → Nat) (p : Ptr)
    (x : ResrcXfer) (node : FileNode) (offset : Nat) (s s' : State) : Prop
  | started {fd : Fd} {f : File} (hdest : Refers c dest f)
      (hx : s'.world.srv.xferAt p = some { x with cmd := .send, destFd := fd })
      (hwatched : ⟨fd, .client (files f), .xfer p⟩ ∈ s'.world.kern.regs)
      (hsilent : s'.world.kern.trace = s.world.kern.trace)
      (hlater : ∀ t, server.Steps (Undiverted p) s' t →
        Delivered node offset x.file.size.toNat p t.world ∧ ∃ n ≤ x.file.size.toNat,
          Sent node offset 0 n p fd (.client (files f)) s'.world.kern.record t.world ∧
          ∀ y, t.world.srv.xferAt p = some y →
            y.destFd = fd ∧ n + y.nbytesLeft.toNat = x.file.size.toNat) :
      Handed ans c dest files p x node offset s s'
  | rejected {fd : Fd} {f : File} {e : Errno} {result : Except Errno Nat} {tr : List Effect}
      (hdest : Refers c dest f) (hfd : s.world.kern.fds.lookup fd = some (.client (files f)))
      (herr : s.world.kern.epollAddError ans fd = some e)
      (hgone : s'.world.srv.xferAt p = none) (hclosed : fd ∉ s'.world.kern.fds)
      (htold : s'.world.kern.trace = s.world.kern.trace ++
        .sent (some p) x.statFd (.hdr .xferStat (e % 256)) result :: tr)
      (hquiet : ∀ e ∈ tr, e.onBehalf = none) :
      Handed ans c dest files p x node offset s s'

section Server

variable {os : Os} {cans : Answers} {sock dest : Fd} {c c' : Process} {m : Message}
  {files : File → Nat} {creds : Ucred} {ans₀ ans ans' : Sendfiled.Answers} {l₀ : Label}
  {s₀ s₁ s s₂ s₃ : State} {p : Ptr} {x y : ResrcXfer} {old : Fd × Fd} {rest : List PollEvent}

/-- The request is handled. -/
theorem handed {r : Received} {f : File} {node : FileNode} {offset : Nat}
    (hrefers : Refers c dest f) (hr : server.Reachable System.always s₁)
    (hdelivering : Delivering node offset x.file.size.toNat p s₁.config)
    (hsteps : server.Steps Proper s₁ s₂) (hx : s₂.world.srv.xferAt p = some x)
    (hopen : x.cmd = .fileOpen) (hcancel : x.defer ≠ .cancel)
    (hleft : x.nbytesLeft = x.file.size)
    (hphase : s₂.phase = .requested r rest) (hpos : 0 < r.nfds)
    (huid : r.uid = s₂.world.srv.uid) (hpid : pidMatches x r.pid = true)
    (htxnid : protUnmarshalSendOpen s₂.world.srv.recvbuf = some x.txnid)
    (hfd : s₂.world.kern.fds.lookup r.fds.1 = some (.client (files f)))
    (hn : next (ans, .request) s₂ = some (.ok s₃)) :
    Handed ans c dest files p x node offset s₂ s₃ := by
  have hknown := hdelivering.delivery.known
  have hr₂ : server.Reachable System.always s₂ := hr.steps (hsteps.mono fun _ _ _ => trivial)
  obtain ⟨hledger, hok⟩ := reachable_ledger hr₂
  have hresumed :=
    next_resumed hok hphase huid hpos htxnid (hledger.find hx) hx hpid hcancel hn
  cases hresumed with
  | @started f' hf hsrv hfds hregs htrace =>
      rw [hfd] at hf
      cases hf
      have hx₃ : s₃.world.srv.xferAt p = some { x with cmd := .send, destFd := r.fds.1 } := by
        rw [hsrv]
        exact Function.update_self ..
      have hundiverted : server.Steps (Undiverted p) s₁ s₃ :=
        (steps_undiverted hr hknown hsteps hx hopen).tail ⟨(ans, .request),
          ⟨fixesDest_of_open hx hopen, proper_of_sendOpen hphase huid htxnid⟩, hn⟩
      refine .started hrefers hx₃ (by simp [hregs]) htrace fun t ht => ⟨?_, ?_⟩
      · exact (delivery_steps hr hdelivering.filed hdelivering.delivery
          (System.Steps.mono (fun _ _ hg => hg.1) (hundiverted.trans ht))).delivered
      · obtain ⟨g, hg, hsent⟩ := hdelivering.sent_later hr hundiverted hx₃ ProtCmdReq.noConfusion
        rw [show s₃.world.kern.fds = s₂.world.kern.fds from hfds, hfd] at hg
        cases hg
        have hend := hsent t ht
        rwa [hleft, Nat.sub_self] at hend
  | @rejected e result tr herr _ hsrv htrace hquiet =>
      have hgone : s₃.world.srv.xferAt p = none := by
        rw [hsrv]
        exact Function.update_self ..
      have hclosed := next_gone hledger hok hphase hx hgone hn _ (mem_arrived_fst hpos)
      exact .rejected hrefers hfd herr hgone hclosed htrace hquiet

/-- A client that has opened a file sends it.  Whatever the server has done in the meantime,
if the file is still open then it is the one that was opened, from the same offset on, and it is
what is sent to the destination the client names, with the ID that it has read from the file's
information. -/
theorem open_then_send (hr : server.Reachable Proper s₀) (hg : Proper (ans₀, l₀) s₀)
    (hn : next (ans₀, l₀) s₀ = some (.ok s₁)) (hnone : s₀.world.srv.xferAt p = none)
    (hx : s₁.world.srv.xferAt p = some x)
    {fd : Fd} {pdu : Pdu} {n : Nat} {out info : SfdFileInfo} {more : List UInt8}
    (htold : Effect.sent (some p) fd pdu (.ok n) ∈ s₁.world.kern.trace)
    (hinfo : sfdUnmarshalFileInfo out (pdu.bytes ++ more) = (true, info))
    (hsteps : server.Steps Proper s₁ s) (hy : s.world.srv.xferAt p = some y)
    (hopen : y.cmd = .fileOpen) (hcancel : y.defer ≠ .cancel)
    (hcall : sfdSendOpen os cans sock info.txnid dest c = .done true c')
    (hm : c'.sent.getLast? = some m) (hphase : s.phase = .receiving old rest)
    (hroom : m.rights.length ≤ (s.world.kern.arriving ans (m.datagram files creds)).length)
    (huid : creds.uid = s.world.srv.uid) (hpid : pidMatches x creds.pid = true)
    (hrecv : next (ans, .receive (m.datagram files creds)) s = some (.ok s₂))
    (hreq : next (ans', .request) s₂ = some (.ok s₃)) :
    ∃ req node, s₀.Opens ans₀ req node ∧
      Handed ans' c dest files p x node (startOf req.offset) s₂ s₃ := by
  have hra : server.Reachable System.always s₀ := hr.mono fun _ _ _ => trivial
  obtain ⟨hledger₀, hok₀⟩ := reachable_ledger hra
  have hr₁ : server.Reachable System.always s₁ := hra.step trivial hn
  have hall : server.Steps System.always s₁ s := hsteps.mono fun _ _ _ => trivial
  have hr_s := hr₁.steps hall
  have hyx := unstarted_eq hra hn hnone hx hall hy hopen hcancel
  subst hyx
  -- the message, as it arrives
  obtain ⟨m', f, hsent, hdata, hrights, hrefers⟩ := sent_of_sfdSendOpen hcall
  have hmm : m' = m := by
    rw [hsent, List.getLast?_concat] at hm
    exact Option.some.inj hm
  subst hmm
  obtain ⟨r, rest', hphase₂⟩ := requested_of_next hreq
  have hshort : m'.data.length ≤ protReqMaxSize := by
    rw [hdata, length_sendOpen]
    decide
  have hfew : m'.rights.length ≤ protMaxFds := by
    rw [hrights]
    exact Nat.succ_le_succ (Nat.zero_le 1)
  obtain ⟨harrived, hworld⟩ := next_arrived hphase hroom hshort hfew hrecv hphase₂
  -- it names the transfer
  have hx₂ : s₂.world.srv.xferAt p = some y := by
    rw [hworld]
    exact hy
  have hsmall : y.txnid < 2 ^ 64 := by
    have hrun : s.phase ≠ .stopped := by simp [hphase]
    exact ((reachable_ticketed hr_s hrun).known _ p (World.identifies_of_live hy)).2
  obtain ⟨-, -, -, -, -, -, hborn, -⟩ :=
    next_born hledger₀ (Minted.reachable hra) hok₀ hn hnone hx
  have htxnid : protUnmarshalSendOpen s₂.world.srv.recvbuf = some y.txnid := by
    rw [harrived.recvbuf, hdata, decode_sendOpen, txnid_of_told hborn htold hinfo,
      BitVec.toNat_ofNat, Nat.mod_eq_of_lt hsmall]
  obtain ⟨req, node, hopens, hdelivering⟩ := next_delivering hr hg hn hnone hx
  refine ⟨req, node, hopens, ?_⟩
  have hsteps₂ : server.Steps Proper s₁ s₂ :=
    hsteps.tail ⟨_, ⟨Label.noConfusion, Label.noConfusion⟩, hrecv⟩
  apply handed hrefers hr₁ hdelivering hsteps₂ hx₂ hopen hcancel hborn.left hphase₂ ?_ ?_ ?_
    htxnid (harrived.fst _ _ hrights) hreq
  · rw [harrived.nfds, hrights]
    exact Nat.succ_pos _
  · rw [harrived.uid, huid, hworld]
    rfl
  · rw [harrived.pid]
    exact hpid

end Server

section Runs

open Scenario

/-- The message of `sfd_send_open` for the first transaction. -/
def sendOpenMessage : Message := ⟨.held 0, (protMarshalSendOpen 1).bytes, [.held 1]⟩

/-- The last message that was sent by a call that returned zero. -/
def lastSent : Outcome Empty Process Bool → Option Message
  | .done true c' => c'.sent.getLast?
  | _ => none

theorem done_of_lastSent {o : Outcome Empty Process Bool} {m : Message}
    (h : lastSent o = some m) : ∃ c', o = .done true c' ∧ c'.sent.getLast? = some m := by
  unfold lastSent at h
  split at h
  · exact ⟨_, rfl, h⟩
  · cases h

/-- A FILE_OPEN has been received. -/
def openReceived : List (Sendfiled.Answers × Label) :=
  [(answers tenBytes, .wait [readable]), (answers tenBytes, .event (-1, -1)),
    (answers tenBytes, .receive ⟨fileRequest .fileOpen 2 5, [1], some client⟩)]

/-- The request is handled next, and then the client's message. -/
def opensThenSends (s : State) : Bool :=
  match next (answers tenBytes, .request) s with
  | some (.ok s₁) =>
      match s₁.world.srv.xferAt 0, s₁.phase,
        next (answers tenBytes, .receive (sendOpenMessage.datagram openFiles client)) s₁ with
      | some x, .receiving _ _, some (.ok s₂) =>
          match next (answers tenBytes, .request) s₂ with
          | some (.ok s₃) => (s.world.srv.xferAt 0).isNone &&
              decide (Proper (answers tenBytes, .request) s) && (s₃.world.srv.xferAt 0).isSome &&
              (x.cmd == .fileOpen) && (x.defer != .cancel) && pidMatches x client.pid &&
              (client.uid == s₁.world.srv.uid) &&
              decide (.sent (some 0) 6 (.fileInfo 5 1 2 3 1) (.ok 48) ∈ s₁.world.kern.trace) &&
              decide (1 ≤ (s₁.world.kern.arriving (answers tenBytes)
                (sendOpenMessage.datagram openFiles client)).length)
          | _ => false
      | _, _, _ => false
  | _ => false

/-- The information the client reads. -/
def firstInfo : SfdFileInfo := protMarshalFileInfo 5 1 2 3 1

theorem open_then_send_of_openReceived : ∃ c' s s₃ x node offset,
    sfdSendOpen .linux reliable 3 firstInfo.txnid 4 connected = .done true c' ∧
    Handed (answers tenBytes) connected 4 openFiles 0 x node offset s s₃ ∧
    s₃.world.srv.xferAt 0 ≠ none := by
  obtain ⟨c', hcall, hm⟩ := @done_of_lastSent
    (sfdSendOpen .linux reliable 3 firstInfo.txnid 4 connected) sendOpenMessage (by decide +kernel)
  obtain ⟨s₀, hr, hP⟩ := exists_reachable Proper 4 100 openReceived opensThenSends
    (by decide +kernel)
  unfold opensThenSends at hP
  split at hP
  · rename_i s₁ hn
    split at hP
    · rename_i x old rest s₂ hx hphase hrecv
      split at hP
      · rename_i s₃ hreq
        simp only [Bool.and_eq_true, Option.isNone_iff_eq_none, Option.isSome_iff_ne_none,
          beq_iff_eq, bne_iff_ne, decide_eq_true_eq] at hP
        obtain ⟨⟨⟨⟨⟨⟨⟨⟨hnone, hg⟩, hlive⟩, hopen⟩, hcancel⟩, hpid⟩, huid⟩, htold⟩, hroom⟩ := hP
        have hsent : ∃ req node, s₀.Opens (answers tenBytes) req node ∧ Handed (answers tenBytes)
            connected 4 openFiles 0 x node (startOf req.offset) s₂ s₃ :=
          open_then_send hr hg hn hnone hx htold
            (sfdUnmarshalFileInfo_bytes ⟨0, 0, 0, 0, 0, 0, 0⟩ 5 1 2 3 1 [])
            Relation.ReflTransGen.refl hx hopen hcancel hcall hm hphase hroom huid hpid hrecv hreq
        obtain ⟨req, node, -, hhanded⟩ := hsent
        exact ⟨c', s₂, s₃, x, node, _, hcall, hhanded, hlive⟩
      · cases hP
    · cases hP
  · cases hP

end Runs

end Sendfiled.Client
