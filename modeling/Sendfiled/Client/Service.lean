/-
From the library to the server: what a client asks for with one of its calls is what the
server's transfer is about.
-/
import Sendfiled.Client.Calls
import Sendfiled.Delivery
import Sendfiled.Draining
import Sendfiled.Supply

namespace Sendfiled.Client

open Prog Transition
open Startup (Os CString)

/-- The calls that ask for a file. -/
inductive Ask where
  | read
  | open
  | send (dest : Fd)

/-- The command of the request. -/
def Ask.cmd : Ask → ProtCmdReq
  | .read => .read
  | .open => .fileOpen
  | .send _ => .send

/-- The descriptors that are sent after the write end of the pipe. -/
def Ask.dests : Ask → List Fd
  | .send dest => [dest]
  | _ => []

def Ask.call (os : Os) (ans : Answers) (ask : Ask) (sock : Fd) (filename : Option CString)
    (offset len : BitVec 64) (nonblock : Bool) : C (Option Fd) :=
  match ask with
  | .read => sfdRead os ans sock filename offset len nonblock
  | .open => sfdOpen os ans sock filename offset len nonblock
  | .send dest => sfdSend os ans sock filename dest offset len nonblock

/-- The message as it arrives at the server: `files` are the open files of the system that
the client's files are, and the kernel vouches for the credentials. -/
def Message.datagram (files : File → Nat) (creds : Ucred) (m : Message) : Datagram where
  data := m.data
  files := m.rights.map files
  creds := some creds

section Message

variable {os : Os} {ans : Answers} {ask : Ask} {sock fd : Fd} {name : CString}
  {offset len : BitVec 64} {nonblock : Bool} {c c' : Process}

theorem Ask.wp_call (filename : Option CString) :
    wp (ask.call os ans sock filename offset len nonblock)
      (fun o c' => Asked os c ask.cmd ask.dests sock filename offset len nonblock o c')
      (fun _ _ => False) c := by
  cases ask with
  | read => exact wp_requestCall .read (fun _ _ _ => rfl) [] filename offset len nonblock
  | «open» => exact wp_requestCall .fileOpen (fun _ _ _ => rfl) [] filename offset len nonblock
  | send dest => exact wp_requestCall .send (fun _ _ _ => rfl) [dest] filename offset len nonblock

theorem Ask.fileCmd_cmd : fileCmd ask.cmd.code = some ask.cmd := by cases ask <;> rfl

/-- The message of a call that succeeded. -/
theorem Ask.sent (h : ask.call os ans sock (some name) offset len nonblock c =
      .done (some fd) c') :
    ∃ m req rights, c'.sent = c.sent ++ [m] ∧ m.data = reqIovs req ∧
      m.rights = .writeEnd c.nextPipe :: rights ∧
      marshalReq ask.cmd offset len (some name.mem) = .ok req ∧
      List.Forall₂ (Refers c) ask.dests rights := by
  have hasked := wp_done (ask.wp_call (some name)) h
  cases hasked with
  | @sent _ _ n name' req rights _ _ _ _ _ hname hreq _ hrights hsent =>
      cases hname
      exact ⟨_, req, rights, hsent, rfl, rfl, hreq, hrights⟩

/-- A name that is not too long. -/
theorem length_of_marshalReq {cmd : ProtCmdReq} {req : ProtRequestPdu}
    (h : marshalReq cmd offset len (some name.mem) = .ok req) :
    name.chars.length ≤ protFilenameMax := by
  unfold marshalReq at h
  split at h
  · cases h
  · rename_i hlen
    rw [namelen, Startup.strnlen_mem] at hlen
    omega

/-- The server decodes what the library encodes. -/
theorem decode_request {cmd : ProtCmdReq} {req : ProtRequestPdu}
    (hcmd : fileCmd cmd.code = some cmd) (hne : name.chars ≠ [])
    (h : marshalReq cmd offset len (some name.mem) = .ok req) (old : RecvBuf) :
    (reqIovs req).length ≤ protReqMaxSize ∧
      protUnmarshalRequest (old.receive (reqIovs req)) (reqIovs req).length =
        some ⟨cmd, offset, len, name.chars, name.chars.length⟩ := by
  obtain ⟨req', hreq', hshort, hdecode⟩ := marshalReq_unmarshalRequest hcmd offset len []
    (List.length_pos_iff.mpr hne) (length_of_marshalReq h) name.nonzero
  rw [show name.chars ++ [0] = name.mem from rfl, h] at hreq'
  cases hreq'
  refine ⟨hshort, ?_⟩
  obtain ⟨out, hout, hcode, -, hoffset, hlen, hname, hnamelen⟩ := hdecode old ⟨0, 0, 0, 0, [], 0⟩
  rw [protUnmarshalRequest_eq ⟨0, 0, 0, 0, [], 0⟩, hout]
  have hkind : fileCmd (UInt8.ofNat cmd.code).toNat = some cmd := by
    rw [show (UInt8.ofNat cmd.code).toNat = cmd.code by cases cmd <;> rfl, hcmd]
  simp only [if_true, ProtRequestPdu.request, hcode, hkind, hoffset, hlen, hname, hnamelen,
    Option.map_some]

end Message

/-- The destination the transfer is to have. -/
def Ask.Destined (ask : Ask) (c : Process) (files : File → Nat) (k : Kernel) (x : ResrcXfer) :
    Prop :=
  match ask with
  | .read => x.destFd = x.statFd
  | .open => x.destFd = -1
  | .send dest => ∃ f, Refers c dest f ∧ k.fds.lookup x.destFd = some (.client (files f))

/-- The message has arrived: its bytes are in the buffer, and what it brought is open. -/
structure Arrived (m : Message) (files : File → Nat) (creds : Ucred) (old : RecvBuf)
    (r : Received) (w : World) : Prop where
  recvbuf : w.srv.recvbuf = old.receive m.data
  nread : r.nread = m.data.length
  nfds : r.nfds = m.rights.length
  uid : r.uid = creds.uid
  pid : r.pid = creds.pid
  fst : ∀ f rest, m.rights = f :: rest → w.kern.fds.lookup r.fds.1 = some (.client (files f))
  snd : ∀ f g rest, m.rights = f :: g :: rest →
    w.kern.fds.lookup r.fds.2 = some (.client (files g))

section Reception

variable {ans : Sendfiled.Answers} {s s₁ : State} {old : Fd × Fd} {rest : List PollEvent}
  {m : Message} {files : File → Nat} {creds : Ucred}

/-- If every descriptor of a message can be installed, all of them arrive. -/
theorem arriving_eq {d : Datagram} {k : Kernel} (h : d.files.length ≤ (k.arriving ans d).length) :
    k.arriving ans d = d.files := by
  unfold Kernel.arriving at h ⊢
  rw [List.take_take] at h ⊢
  rw [List.length_take] at h
  exact List.take_of_length_le (by omega)

/-- The world after the message was received. -/
theorem arrived (hroom : m.rights.length ≤
      (s.world.kern.arriving ans (m.datagram files creds)).length)
    (hshort : m.data.length ≤ protReqMaxSize) :
    Arrived m files creds s.world.srv.recvbuf
      (s.world.received ans old (m.datagram files creds) creds)
      (s.world.receive ans (m.datagram files creds)) := by
  have hall : s.world.kern.arriving ans (m.datagram files creds) = m.rights.map files :=
    arriving_eq (by simpa [Message.datagram] using hroom)
  have hzip := @Kernel.installAll_zip (m.rights.map files) s.world.kern
  have hlength := Kernel.installAll_length (m.rights.map files) s.world.kern
  have harrivals : s.world.kern.arrivals ans (m.datagram files creds) =
      (Kernel.installAll (m.rights.map files) s.world.kern).1 := by rw [Kernel.arrivals, hall]
  have hfds : (s.world.received ans old (m.datagram files creds) creds).fds =
      recvFds old (Kernel.installAll (m.rights.map files) s.world.kern).1 := by
    rw [World.received, harrivals]
  have hkern : (s.world.receive ans (m.datagram files creds)).kern.fds =
      (Kernel.installAll (m.rights.map files) s.world.kern).2.fds := by
    rw [World.receive, hall]
    rfl
  refine ⟨rfl, Nat.min_eq_left hshort, ?_, rfl, rfl, ?_, ?_⟩
  · simp only [World.received, harrivals, hlength, List.length_map]
  all_goals
    rw [hfds, hkern]
    generalize Kernel.installAll (m.rights.map files) s.world.kern = installed at hzip hlength
    obtain ⟨fds, k⟩ := installed
  · intro f more hrights
    rw [hrights] at hzip hlength
    rcases fds with _ | ⟨a, _ | ⟨b, fds⟩⟩
    · cases hlength
    · exact @hzip (a, files f) (by simp)
    · exact @hzip (a, files f) (by simp)
  · intro f g more hrights
    rw [hrights] at hzip hlength
    rcases fds with _ | ⟨a, _ | ⟨b, fds⟩⟩
    · cases hlength
    · simp at hlength
    · exact @hzip (b, files g) (by simp)

/-- The reception of a message of the library, if a request is in hand afterwards. -/
theorem next_arrived (hphase : s.phase = .receiving old rest)
    (hroom : m.rights.length ≤ (s.world.kern.arriving ans (m.datagram files creds)).length)
    (hshort : m.data.length ≤ protReqMaxSize) (hfew : m.rights.length ≤ protMaxFds)
    (hn : next (ans, .receive (m.datagram files creds)) s = some (.ok s₁))
    {r : Received} {rest' : List PollEvent} (hphase₁ : s₁.phase = .requested r rest') :
    Arrived m files creds s.world.srv.recvbuf r s₁.world ∧
      s₁.world = s.world.receive ans (m.datagram files creds) := by
  have harrived := @arrived ans s old m files creds hroom hshort
  obtain ⟨w, phase⟩ := s
  subst hphase
  simp only [next, Option.some.injEq] at hn
  revert hn
  have hfits : (m.datagram files creds).Fits := ⟨hshort, by simpa [Message.datagram] using hfew⟩
  refine settle_of_wp (P := fun res => res = .ok s₁ → _) (wp_usRecv_fits hfits) ?_
    fun _ _ hno => hno.elim
  rintro o w' (⟨rfl, hnot⟩ | ⟨-, creds', hcreds, rfl, rfl⟩) hres
  · exact absurd ⟨by simpa [Message.datagram] using hroom, by simp [Message.datagram]⟩ hnot
  · cases hcreds
    cases hres
    cases hphase₁
    exact ⟨harrived, rfl⟩

end Reception

/-- What the server makes of a request of the library: the transfer that was asked for, whose
client is told its size on the new pipe, or an error status on that pipe, after which nothing
of the request is left. -/
inductive Honoured (ans : Sendfiled.Answers) (c : Process) (ask : Ask) (name : CString)
    (offset : BitVec 64) (files : File → Nat) (creds : Ucred) (s s' : State) : Prop
  | created {x : ResrcXfer} {node : FileNode} {t atime mtime ctime : Nat}
      {result : Except Errno Nat} (hx : s'.world.srv.xferAt s.world.srv.nextPtr = some x)
      (hcmd : x.cmd = ask.cmd) (hpid : x.clientPid = creds.pid)
      (hstat : s'.world.kern.fds.lookup x.statFd =
        some (.client (files (.writeEnd c.nextPipe))))
      (hdest : ask.Destined c files s'.world.kern x)
      (hopen : ans.openFile t name.chars = .ok node)
      (hdelivery : Delivery node (startOf offset) x.file.size.toNat s.world.srv.nextPtr s'.config)
      (hinfo : s'.world.kern.trace = s.world.kern.trace ++ [.sent (some s.world.srv.nextPtr)
        x.statFd (.fileInfo x.file.size.toNat atime mtime ctime x.txnid) result]) :
      Honoured ans c ask name offset files creds s s'
  | refused {fd : Fd} {before after : List Effect} {who : Option Ptr} {stat : Nat}
      {result : Except Errno Nat} (hunborn : s.world.srv.Unborn s'.world.srv) (hstat : 0 < stat)
      (hfd : s.world.kern.fds.lookup fd = some (.client (files (.writeEnd c.nextPipe))))
      (htold : s'.world.kern.trace =
        s.world.kern.trace ++ before ++ .sent who fd (.hdr .fileInfo stat) result :: after)
      (hgone : ∀ r rest, s.phase = .requested r rest → ∀ fd ∈ r.arrived, fd ∉ s'.world.kern.fds) :
      Honoured ans c ask name offset files creds s s'

/-- A request for a file names no transaction. -/
theorem not_txnid {buf : RecvBuf} {size txnid : Nat} {req : ProtRequest} {cmd : ProtCmdReq}
    (hreq : protUnmarshalRequest buf size = some req) (hcmd : fileCmd cmd.code = none) :
    protUnmarshalTxnid cmd buf ≠ some txnid := by
  intro htxnid
  have hfile := protUnmarshalRequest_fileCmd hreq
  rw [protUnmarshalTxnid_cmd htxnid, hcmd] at hfile
  cases hfile

/-- What a client of the server's user asks for with a call of the library, and gets the read
end of a pipe for, is what the server gives it: a transfer of that kind from that file and
offset, for that client, with the other end of the pipe and the destination sent along, or an
error status on that pipe.  The name is not empty: the server does not decode a request
without one, and does not answer what it does not decode. -/
theorem request_honoured {os : Os} {cans : Answers} {ask : Ask} {sock fd : Fd} {name : CString}
    {offset len : BitVec 64} {nonblock : Bool} {c c' : Process} {m : Message}
    {files : File → Nat} {creds : Ucred} {ans ans' : Sendfiled.Answers} {s s₁ s₂ : State}
    {old : Fd × Fd} {rest : List PollEvent}
    (hcall : ask.call os cans sock (some name) offset len nonblock c = .done (some fd) c')
    (hm : c'.sent.getLast? = some m) (hname : name.chars ≠ [])
    (hr : server.Reachable System.always s) (hphase : s.phase = .receiving old rest)
    (hroom : m.rights.length ≤ (s.world.kern.arriving ans (m.datagram files creds)).length)
    (huid : creds.uid = s.world.srv.uid)
    (hrecv : next (ans, .receive (m.datagram files creds)) s = some (.ok s₁))
    (hreq : next (ans', .request) s₁ = some (.ok s₂)) :
    Honoured ans' c ask name offset files creds s₁ s₂ := by
  obtain ⟨m', req, rights, hsent, hdata, hrights, hmarshal, hrefers⟩ := ask.sent hcall
  have hmm : m' = m := by
    rw [hsent, List.getLast?_concat] at hm
    exact Option.some.inj hm
  subst hmm
  obtain ⟨hshort, hdecode⟩ :=
    decode_request ask.fileCmd_cmd hname hmarshal s.world.srv.recvbuf
  rw [← hdata] at hshort hdecode
  have hfew : m'.rights.length ≤ protMaxFds := by
    rw [hrights, List.length_cons, ← hrefers.length_eq]
    cases ask <;> simp [Ask.dests, protMaxFds]
  obtain ⟨r, rest', hphase₁⟩ := requested_of_next hreq
  obtain ⟨harrived, hworld⟩ := next_arrived hphase hroom hshort hfew hrecv hphase₁
  have huser : s₁.world.srv.uid = s.world.srv.uid := by rw [hworld]; rfl
  rw [← harrived.recvbuf, ← harrived.nread] at hdecode
  have hstat := harrived.fst _ _ hrights
  have huid₁ : r.uid = s₁.world.srv.uid := by rw [harrived.uid, huid, huser]
  have hpos : 0 < r.nfds := by
    rw [harrived.nfds, hrights]
    exact Nat.succ_pos _
  have hr₁ : server.Reachable System.always s₁ := hr.step trivial hrecv
  obtain ⟨hledger, hok⟩ := reachable_ledger hr₁
  obtain ⟨hserved, hacts⟩ := next_served hok hphase₁ hreq
  cases hserved with
  | refused hgone hunborn _ hrefusal =>
      obtain ⟨w₁, tr, ⟨before, after, who, stat, result, ⟨mid, hstart⟩, herr, htold⟩, htr, -⟩ :=
        hrefusal hpos huid₁ (by rw [hdecode]; simp)
      have hwritten : s₂.world.kern.trace = s₁.world.kern.trace ++ mid ++
          .sent who r.fds.1 (.hdr .fileInfo stat) result :: (after ++ tr) := by
        rw [htr, htold, hstart, List.append_assoc, List.cons_append]
      refine .refused hunborn herr hstat hwritten fun r' rest'' hphase' fd' hfd' => ?_
      rw [hphase₁] at hphase'
      cases hphase'
      exact hgone fd' hfd'
  | accepted _ haccepted =>
      cases haccepted with
      | assigned htxnid => exact absurd htxnid (not_txnid hdecode rfl)
      | cancelled htxnid => exact absurd htxnid (not_txnid hdecode rfl)
      | @created req' x atime mtime ctime result hreq' hx hborn hinfo _ =>
          rw [hdecode] at hreq'
          cases hreq'
          -- no descriptor was closed on the way
          have hext : s₁.world.kern.Extends s₂.world.kern := by
            rcases hacts.extends with hext | ⟨tr, fd', b, htr, hclosed⟩
            · exact hext
            · dsimp only at htr
              rw [hinfo] at htr
              rw [← List.append_cancel_left htr, List.mem_singleton] at hclosed
              cases hclosed
          obtain ⟨-, req', node, ⟨r', rest'', t, hphase', hreq', hopen⟩, hdelivery⟩ :=
            next_delivery hr₁ hreq hledger.xferAt_nextPtr hborn.xferAt
          rw [hphase₁] at hphase'
          cases hphase'
          rw [hdecode] at hreq'
          cases hreq'
          have hstat₂ : s₂.world.kern.fds.lookup x.statFd =
              some (.client (files (.writeEnd c.nextPipe))) := by
            rw [hx.statFd]
            exact hext _ _ hstat
          refine .created hborn.xferAt hx.cmd (hx.clientPid.trans harrived.pid) hstat₂ ?_ hopen
            hdelivery hinfo
          cases ask with
          | read => exact hx.destFd.trans hx.statFd.symm
          | «open» => exact hx.destFd
          | send dest =>
              cases hrefers with
              | @cons _ f _ fs hf hfs =>
                  refine ⟨f, hf, ?_⟩
                  rw [hx.destFd]
                  exact hext _ _ (harrived.snd _ f _ hrights)

section Runs

open Scenario

/-- A process with a socket and a file, on a system where nothing fails. -/
def connected : Process where
  errno := 0
  fds := List.toAList [⟨3, ⟨.held 0, true⟩⟩, ⟨4, ⟨.held 1, false⟩⟩]
  flags := fun _ => 0
  nextPipe := 0
  sent := []
  calls := []

def reliable : Answers := ⟨fun _ _ => none⟩

/-- The name of the file `f`. -/
def nameOfF : CString := ⟨[102], by decide⟩

/-- The descriptor a call returns, and the last message that was sent. -/
def outcomeOf : Outcome Empty Process (Option Fd) → Option (Fd × Message)
  | .done (some fd) c' => c'.sent.getLast?.map fun m => (fd, m)
  | _ => none

theorem done_of_outcomeOf {o : Outcome Empty Process (Option Fd)} {fd : Fd} {m : Message}
    (h : outcomeOf o = some (fd, m)) :
    ∃ c', o = .done (some fd) c' ∧ c'.sent.getLast? = some m := by
  unfold outcomeOf at h
  split at h
  · obtain ⟨m', hm, heq⟩ := Option.map_eq_some_iff.mp h
    cases heq
    exact ⟨_, rfl, hm⟩
  · cases h

/-- The message of `sfd_send`. -/
def sendMessage : Message := ⟨.held 0, fileRequest .send 2 5, [.writeEnd 0, .held 1]⟩

/-- The open files of the client's message. -/
def openFiles : File → Nat
  | .writeEnd _ => 1
  | _ => 2

/-- The datagram is received and handled next, and a transfer comes of it. -/
def takesUp (d : Datagram) (s : State) : Bool :=
  match s.phase, next (answers tenBytes, .receive d) s with
  | .receiving _ _, some (.ok s₁) =>
      match next (answers tenBytes, .request) s₁ with
      | some (.ok s₂) => (s₂.world.srv.xferAt s₁.world.srv.nextPtr).isSome &&
          (s.world.srv.uid == 1000) &&
          decide (d.files.length ≤ (s.world.kern.arriving (answers tenBytes) d).length)
      | _ => false
  | _, _ => false

theorem of_takesUp {d : Datagram} {s : State} (h : takesUp d s = true) :
    ∃ old rest s₁ s₂, s.phase = .receiving old rest ∧
      next (answers tenBytes, .receive d) s = some (.ok s₁) ∧
      next (answers tenBytes, .request) s₁ = some (.ok s₂) ∧
      s₂.world.srv.xferAt s₁.world.srv.nextPtr ≠ none ∧ s.world.srv.uid = 1000 ∧
      d.files.length ≤ (s.world.kern.arriving (answers tenBytes) d).length := by
  unfold takesUp at h
  split at h
  · rename_i old rest s₁ hphase hrecv
    split at h
    · rename_i s₂ hreq
      simp only [Bool.and_eq_true, beq_iff_eq, decide_eq_true_eq, Option.isSome_iff_ne_none] at h
      exact ⟨old, rest, s₁, s₂, hphase, hrecv, hreq, h.1.1, h.1.2, h.2⟩
    · cases h
  · cases h

theorem request_honoured_of_sfdSend : ∃ c' s s₁ s₂,
    sfdSend .linux reliable 3 (some nameOfF) 4 2 5 false connected = .done (some 0) c' ∧
    c'.sent.getLast? = some sendMessage ∧ server.Reachable System.always s ∧
    s₂.world.srv.xferAt s₁.world.srv.nextPtr ≠ none ∧
    Honoured (answers tenBytes) connected (.send 4) nameOfF 2 openFiles client s₁ s₂ := by
  obtain ⟨c', hcall, hsent⟩ := @done_of_outcomeOf
    ((Ask.send 4).call .linux reliable 3 (some nameOfF) 2 5 false connected) 0 sendMessage
    (by decide +kernel)
  obtain ⟨s, hr, hP⟩ := exists_reachable System.always 4 100 socketReady
    (takesUp (sendMessage.datagram openFiles client)) (by decide +kernel)
  obtain ⟨old, rest, s₁, s₂, hphase, hrecv, hreq, hlive, huid, hroom⟩ := of_takesUp hP
  refine ⟨c', s, s₁, s₂, hcall, hsent, hr, hlive, ?_⟩
  exact request_honoured hcall hsent (by decide) hr hphase
    (by simpa [Message.datagram] using hroom) huid.symm hrecv hreq

end Runs

end Sendfiled.Client
