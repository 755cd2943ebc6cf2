/-
Client requests as sequences of actions.  What a request may do, and what is known
where it does it, is a relation between actions and configurations; what has become
of the request in the end is a relation between worlds.
-/
import Sendfiled.CreateActs
import Sendfiled.Outcomes

namespace Sendfiled

open Prog

variable {A : Action → Config → Prop} {c₀ : Config} {L : List Fd} {w : World}
  {ans : Answers}

theorem protUnmarshalRequest_fileCmd {buf : RecvBuf} {size : Nat} {req : ProtRequest}
    (h : protUnmarshalRequest buf size = some req) :
    fileCmd (sfdGetCmd buf) = some req.cmd := by
  unfold protUnmarshalRequest at h
  split at h
  · cases h
  · split at h
    · cases h
    · rename_i cmd hcmd
      have hreq : req.cmd = cmd := by
        repeat' split at h
        all_goals cases h
        rfl
      rw [hreq, hcmd]

theorem protUnmarshalRequest_cmd {buf : RecvBuf} {size : Nat} {req : ProtRequest}
    (h : protUnmarshalRequest buf size = some req) :
    ProtCmdReq.ofCode (sfdGetCmd buf) = some req.cmd := by
  have hfile := protUnmarshalRequest_fileCmd h
  unfold fileCmd at hfile
  split at hfile <;> simp_all

theorem protUnmarshalTxnid_cmd {cmd : ProtCmdReq} {buf : RecvBuf} {txnid : Nat}
    (h : protUnmarshalTxnid cmd buf = some txnid) : sfdGetCmd buf = cmd.code := by
  unfold protUnmarshalTxnid at h
  split at h
  · cases h
  · rename_i hnot
    by_contra hne
    exact hnot (Or.inl hne)

theorem protIsRequest_of_ofCode {n : Nat} {cmd : ProtCmdReq}
    (h : ProtCmdReq.ofCode n = some cmd) : protIsRequest n = true := by
  unfold ProtCmdReq.ofCode at h
  split at h <;> first | rfl | cases h

/-- A SEND_OPEN or CANCEL request names the transfer in the slot of its transaction
ID. -/
def Server.Names (s : Server) (buf : RecvBuf) (p : Ptr) : Prop :=
  ∃ txnid, (protUnmarshalSendOpen buf = some txnid ∨ protUnmarshalCancel buf = some txnid) ∧
    s.xfers.find txnid = some p

/-- A request for a file names no transfer. -/
theorem Server.not_names {s : Server} {buf : RecvBuf} {p : Ptr} {cmd : ProtCmdReq}
    (hcmd : ProtCmdReq.ofCode (sfdGetCmd buf) = some cmd) (hsend : cmd ≠ .sendOpen)
    (hcancel : cmd ≠ .cancel) : ¬ s.Names buf p := by
  rintro ⟨txnid, htxnid | htxnid, -⟩
  · rw [protUnmarshalTxnid_cmd htxnid] at hcmd
    exact hsend (Option.some.inj hcmd).symm
  · rw [protUnmarshalTxnid_cmd htxnid] at hcmd
    exact hcancel (Option.some.inj hcmd).symm

/-- A request does not name one transfer for SEND_OPEN and another for CANCEL. -/
theorem Server.Names.eq {s : Server} {buf : RecvBuf} {p q : Ptr} {txnid : Nat}
    (h : s.Names buf q)
    (htxnid : protUnmarshalSendOpen buf = some txnid ∨ protUnmarshalCancel buf = some txnid)
    (hp : s.xfers.find txnid = some p) : q = p := by
  obtain ⟨txnid', htxnid', hq⟩ := h
  have hsame : txnid' = txnid := by
    rcases htxnid with h₁ | h₁ <;> rcases htxnid' with h₂ | h₂
    · exact Option.some.inj (h₂.symm.trans h₁)
    · have hcodes := (protUnmarshalTxnid_cmd h₁).symm.trans (protUnmarshalTxnid_cmd h₂)
      cases hcodes
    · have hcodes := (protUnmarshalTxnid_cmd h₁).symm.trans (protUnmarshalTxnid_cmd h₂)
      cases hcodes
    · exact Option.some.inj (h₂.symm.trans h₁)
  rw [hsame, hp] at hq
  exact (Option.some.inj hq).symm

/-- What the request of a client may do in the world `w` in which it is handled, with
the descriptors `L` in hand. -/
inductive RequestMay (ans : Answers) (L : List Fd) (w : World) (buf : RecvBuf)
    (size clientPid : Nat) (fds : Fd × Fd) : Action → Config → Prop
  | free {a : Action} {c : Config} (ha : a.free = true) :
      RequestMay ans L w buf size clientPid fds a c
  | refuse {fd : Fd} {pdu : Pdu} {c : Config} (hfd : fd ∈ c.loose) :
      RequestMay ans L w buf size clientPid fds (.say none fd pdu) c
  | enroll {req : ProtRequest} {x : ResrcXfer} {c : Config}
      (hreq : protUnmarshalRequest buf size = some req)
      (hx : Created req clientPid fds.1 (req.destFd fds) x) (hc : x.file.fd :: L = c.loose)
      (hfile : ans.Supplies req c.world.kern x.file.fd)
      (hptr : c.world.srv.nextPtr = w.srv.nextPtr) :
      RequestMay ans L w buf size clientPid fds (.enroll x) c
  | greet {fd : Fd} {pdu : Pdu} {c : Config} :
      RequestMay ans L w buf size clientPid fds (.say (some w.srv.nextPtr) fd pdu) c
  | retire {req : ProtRequest} {x : ResrcXfer} {c : Config}
      (hreq : protUnmarshalRequest buf size = some req) (hpid : x.clientPid = clientPid)
      (hdefer : x.defer = .none) (hregs : x.destFd = -1 ∨ c.world.kern.regs = w.kern.regs)
      (htold : x.destFd = -1 ∨ Attempted w.srv.nextPtr x.statFd c.world.kern.trace)
      (hp : c.world.srv.xferAt w.srv.nextPtr = some x) :
      RequestMay ans L w buf size clientPid fds (.retire w.srv.nextPtr) c
  | expire {t : Ptr} {c : Config} (ht : w.srv.nextPtr < t) :
      RequestMay ans L w buf size clientPid fds (.expire t) c
  | botch {req : ProtRequest} {t : Ptr} {c : Config}
      (hreq : protUnmarshalRequest buf size = some req) (hcmd : req.cmd = .fileOpen)
      (ht : w.srv.nextPtr < t) (hrefused : ans.TimerRefused w.kern) :
      RequestMay ans L w buf size clientPid fds (.botch t) c
  | assign {txnid : Nat} {p : Ptr} {x : ResrcXfer}
      (htxnid : protUnmarshalSendOpen buf = some txnid)
      (hfind : w.srv.xfers.find txnid = some p) (hp : w.srv.xferAt p = some x)
      (hpid : pidMatches x clientPid = true) (hdefer : x.defer ≠ .cancel) :
      RequestMay ans L w buf size clientPid fds (.assign p fds.1) ⟨L, w⟩
  | apologize {txnid : Nat} {p : Ptr} {x : ResrcXfer} {e : Errno} {fd : Fd} {pdu : Pdu}
      {c : Config} (htxnid : protUnmarshalSendOpen buf = some txnid)
      (hfind : w.srv.xfers.find txnid = some p) (hp : w.srv.xferAt p = some x)
      (hpid : pidMatches x clientPid = true) (hdefer : x.defer ≠ .cancel)
      (herr : w.kern.epollAddError ans fds.1 = some e) :
      RequestMay ans L w buf size clientPid fds (.say (some p) fd pdu) c
  | reject {txnid : Nat} {p : Ptr} {x : ResrcXfer} {e : Errno} {c : Config}
      (htxnid : protUnmarshalSendOpen buf = some txnid)
      (hfind : w.srv.xfers.find txnid = some p) (hp : w.srv.xferAt p = some x)
      (hpid : pidMatches x clientPid = true) (hdefer : x.defer ≠ .cancel)
      (herr : w.kern.epollAddError ans fds.1 = some e)
      (hregs : c.world.kern.regs = w.kern.regs)
      (htold : Attempted p x.statFd c.world.kern.trace)
      (hc : c.world.srv.xferAt p = some { x with cmd := .send, destFd := fds.1 }) :
      RequestMay ans L w buf size clientPid fds (.retire p) c
  | reshut {txnid : Nat} {c : Config} (htxnid : protUnmarshalSendOpen buf = some txnid)
      (hnone : ∀ p x, w.srv.xfers.find txnid = some p → w.srv.xferAt p = some x →
        pidMatches x clientPid = true → x.defer = .cancel) :
      RequestMay ans L w buf size clientPid fds (.reshut fds.1) c
  | cancel {txnid : Nat} {p : Ptr} {x : ResrcXfer}
      (htxnid : protUnmarshalCancel buf = some txnid)
      (hfind : w.srv.xfers.find txnid = some p) (hp : w.srv.xferAt p = some x)
      (hpid : pidMatches x clientPid = true) :
      RequestMay ans L w buf size clientPid fds (.cancel p) ⟨L, w⟩

/-- A request concerns the transfer it creates and the one it names. -/
theorem RequestMay.away {L : List Fd} {w : World} {ans : Answers} {buf : RecvBuf}
    {size clientPid : Nat} {fds : Fd × Fd} {a : Action} {c : Config} {p : Ptr}
    (ha : RequestMay ans L w buf size clientPid fds a c) (hold : p < w.srv.nextPtr)
    (hp : ¬ w.srv.Names buf p) : a.concerns ≠ some p := by
  intro hconc
  cases ha with
  | free ha =>
      rw [Action.concerns_of_free ha] at hconc
      cases hconc
  | greet | retire =>
      cases hconc
      exact Nat.lt_irrefl _ hold
  | assign htxnid hfind | apologize htxnid hfind | reject htxnid hfind =>
      cases hconc
      exact hp ⟨_, Or.inl htxnid, hfind⟩
  | cancel htxnid hfind =>
      cases hconc
      exact hp ⟨_, Or.inr htxnid, hfind⟩
  | refuse | enroll | expire | botch | reshut => cases hconc

/-- Everything the request may do is permitted. -/
def Grants (A : Action → Config → Prop) (ans : Answers) (L : List Fd) (w : World)
    (buf : RecvBuf) (size clientPid : Nat) (fds : Fd × Fd) : Prop :=
  ∀ a c, RequestMay ans L w buf size clientPid fds a c → A a c

/-- Since the trace was `tr₀`, an error header was written to the descriptor, or at least
attempted.  Its status is an error: zero stands for success. -/
def Refusal (fd : Fd) (tr₀ : List Effect) (w : World) : Prop :=
  ∃ before after who stat result, tr₀ <+: before ∧ 0 < stat ∧
    w.kern.trace = before ++ .sent who fd (.hdr .fileInfo stat) result :: after

theorem Wrote.refusal {who : Option Ptr} {fd : Fd} {stat : Nat} {sent : Bool} {L : List Fd}
    {w w' : World} (h : Wrote who fd (.hdr .fileInfo stat) sent w w') (hstat : 0 < stat)
    (hacts : Acts A c₀ ⟨L, w⟩) : Refusal fd c₀.world.kern.trace w' :=
  ⟨w.kern.trace, [], who, stat, _, hacts.trace_prefix, hstat, h.trace⟩

theorem Refusal.append {fd : Fd} {tr₀ tr : List Effect} {w w' : World} (h : Refusal fd tr₀ w)
    (htr : w'.kern.trace = w.kern.trace ++ tr) : Refusal fd tr₀ w' := by
  obtain ⟨before, after, who, stat, result, hstart, hstat, hsent⟩ := h
  refine ⟨before, after ++ tr, who, stat, result, hstart, hstat, ?_⟩
  rw [htr, hsent, List.append_assoc, List.cons_append]

/-- What has become of a request that was accepted. -/
inductive Accepted (ans : Answers) (buf : RecvBuf) (size clientPid : Nat) (fds : Fd × Fd)
    (w w' : World) : Prop
  | created {req : ProtRequest} {x : ResrcXfer} {atime mtime ctime : Nat}
      {result : Except Errno Nat} (hreq : protUnmarshalRequest buf size = some req)
      (hx : Created req clientPid fds.1 (req.destFd fds) x) (hborn : w.srv.Bears x w'.srv)
      (hinfo : w'.kern.trace = w.kern.trace ++ [.sent (some w.srv.nextPtr) x.statFd
        (.fileInfo x.file.size.toNat atime mtime ctime x.txnid) result])
      (hready : (req.cmd = .fileOpen ∧ (w'.Armed x ∨ ∃ n, ans.timerfdCreate n ≠ none)) ∨
        (req.cmd ≠ .fileOpen ∧ ∃ f, ⟨x.destFd, f, .xfer w.srv.nextPtr⟩ ∈ w'.kern.regs))
  | assigned {txnid : Nat} {p : Ptr} {x : ResrcXfer}
      (htxnid : protUnmarshalSendOpen buf = some txnid)
      (hfind : w.srv.xfers.find txnid = some p) (hp : w.srv.xferAt p = some x)
      (hpid : pidMatches x clientPid = true) (hdefer : x.defer ≠ .cancel)
      (hsrv : w'.srv = w.srv.setXfer p { x with cmd := .send, destFd := fds.1 })
      (htrace : w'.kern.trace = w.kern.trace)
  | cancelled {txnid : Nat} {p : Ptr} {x : ResrcXfer}
      (htxnid : protUnmarshalCancel buf = some txnid)
      (hfind : w.srv.xfers.find txnid = some p) (hp : w.srv.xferAt p = some x)
      (hpid : pidMatches x clientPid = true) (hworld : w' = ⟨w.srv.cancel p x, w.kern⟩)

/-- What a request that was not accepted has done to the transfer it names. -/
def Declined (ans : Answers) (buf : RecvBuf) (w w' : World) : Prop :=
  ∀ p, w.srv.Names buf p → Touched ans p (w.view p) (w'.view p)

/-- What a request that was accepted has done to the transfer it names. -/
theorem Accepted.deed {ans : Answers} {buf : RecvBuf} {size clientPid : Nat} {fds : Fd × Fd}
    {w w' : World} (h : Accepted ans buf size clientPid fds w w') {p : Ptr}
    (hp : w.srv.Names buf p) : Touched ans p (w.view p) (w'.view p) := by
  cases h with
  | created hreq =>
      have hcmd := protUnmarshalRequest_fileCmd hreq
      refine absurd hp (Server.not_names (protUnmarshalRequest_cmd hreq) ?_ ?_)
      · rintro heq
        rw [heq] at hcmd
        exact absurd hcmd (by unfold fileCmd; split <;> simp_all)
      · rintro heq
        rw [heq] at hcmd
        exact absurd hcmd (by unfold fileCmd; split <;> simp_all)
  | @assigned txnid q x htxnid hfind hq _ hdefer hsrv htrace =>
      cases hp.eq (Or.inl htxnid) hfind
      have hview : w'.view p = (w.view p).set { x with cmd := .send, destFd := fds.1 } := by
        rw [← World.view_setXfer]
        exact World.view_congr (by rw [hsrv]) (by rw [hsrv]) (by rw [htrace])
      rw [hview]
      exact .single (.assigned hq hdefer)
  | @cancelled txnid q x htxnid hfind hq _ hworld =>
      cases hp.eq (Or.inr htxnid) hfind
      rw [hworld]
      have hview : World.view p ⟨w.srv.cancel p x, w.kern⟩ =
          (w.view p).set { x with defer := .cancel } :=
        World.view_setXfer p { x with defer := .cancel } w
      rw [hview]
      exact .single (.cancelled hq)

section Requests

variable {buf : RecvBuf} {size clientPid : Nat} {fds : Fd × Fd}
  (h : Acts A c₀ ⟨L, w⟩) (hG : Grants A ans L w buf size clientPid fds)

omit h in
include hG in
theorem Grants.permissive : Permissive A := fun a c ha => hG a c (.free ha)

include h hG

theorem wp_processFileOpen (h0 : (0 : Fd) ∈ w.kern.fds) (hfd : fds.1 ∈ L)
    (hclient : ∃ n, w.kern.fds.lookup fds.1 = some (.client n))
    (hcmd : ProtCmdReq.ofCode (sfdGetCmd buf) = some .fileOpen)
    {Q : Bool → World → Prop}
    (htrue : ∀ L' w', Accepted ans buf size clientPid fds w w' → Acts A c₀ ⟨L', w'⟩ →
      Q true w')
    (hfalse : ∀ L' w', (∀ fd ∈ L, fd ∈ L') → w.srv.Unborn w'.srv →
      (protUnmarshalRequest buf size ≠ none → Refusal fds.1 c₀.world.kern.trace w') →
      Acts A c₀ ⟨L', w'⟩ → Q false w') :
    wp (processFileOpen ans buf size clientPid fds) Q (Faulty A c₀) w := by
  have hA := hG.permissive
  unfold processFileOpen
  cases hreq : protUnmarshalRequest buf size with
  | none =>
      exact hfalse L w (fun fd hfd => hfd) (fun _ hq => hq) (fun hsome => absurd hreq hsome) h
  | some req =>
      have hkind : req.cmd = .fileOpen := by
        rw [protUnmarshalRequest_cmd hreq] at hcmd
        exact Option.some.inj hcmd
      have hdest : req.destFd fds = -1 := by simp [ProtRequest.destFd, hkind]
      simp only [wp_bind]
      refine wp_addOpenFile hA h h0 hfd hclient ?_ ?_ ?_ ?_ ?_ ?_
      · intro x c hx hc hfile hptr
        exact hG _ c (.enroll hreq (hdest ▸ hx) hc hfile hptr)
      · intro x c hx hp
        exact hG _ c (.retire hreq hx.clientPid hx.defer (Or.inl hx.destFd) (Or.inl hx.destFd) hp)
      · intro t c ht
        exact hG _ c (.expire ht)
      · intro t c ht hrefused
        exact hG _ c (.botch hreq hkind ht hrefused)
      · intro L' w' hL' hborn h'
        simp only [wp_bind, wp_getErrno, wp_pure]
        refine wp_sendReqErr hA h' (fun pdu => hG _ _ (.refuse (hL' _ hfd)))
          (fun _ hc => by cases hc) fun _ w'' hstat hwrote h'' => ?_
        exact hfalse L' w'' hL' (hwrote.srv ▸ hborn) (fun _ => hwrote.refusal hstat h') h''
      · intro t tm x info w' ht hborn htxnid hx hinfo htrace harmed h'
        simp only [wp_bind]
        refine wp_getTimer_live ht ?_
        rw [← hx.statFd]
        refine wp_sendFileInfo hA h' (fun pdu => hG _ _ .greet) hborn.xferAt rfl hinfo htxnid
          fun _ w'' hwrote h'' => ?_
        refine htrue _ w'' (.created hreq (hdest ▸ hx) (hwrote.srv ▸ hborn)
          (htrace ▸ hwrote.trace) (Or.inl ⟨hkind, harmed.imp_left ?_⟩)) h''
        rintro ⟨t', tm', ⟨ht', hpos, hreg⟩, howns⟩
        refine ⟨t', tm', ⟨hwrote.srv ▸ ht', hpos, ?_⟩, howns⟩
        rw [hwrote.fds, hwrote.regs]
        exact hreg

theorem wp_processReadSend (h0 : (0 : Fd) ∈ w.kern.fds) (hfd : fds.1 ∈ L)
    (hclient : ∃ n, w.kern.fds.lookup fds.1 = some (.client n))
    (hfd2 : fds.2 ∈ L ∨ fds.2 = 0)
    (hcmd : ProtCmdReq.ofCode (sfdGetCmd buf) = some .read ∨
      ProtCmdReq.ofCode (sfdGetCmd buf) = some .send)
    {Q : Bool → World → Prop}
    (htrue : ∀ L' w', Accepted ans buf size clientPid fds w w' → Acts A c₀ ⟨L', w'⟩ →
      Q true w')
    (hfalse : ∀ L' w', (∀ fd ∈ L, fd ∈ L') → w.srv.Unborn w'.srv →
      (protUnmarshalRequest buf size ≠ none → Refusal fds.1 c₀.world.kern.trace w') →
      Acts A c₀ ⟨L', w'⟩ → Q false w') :
    wp (processReadSend ans buf size clientPid fds) Q (Faulty A c₀) w := by
  have hA := hG.permissive
  unfold processReadSend
  cases hreq : protUnmarshalRequest buf size with
  | none =>
      exact hfalse L w (fun fd hfd => hfd) (fun _ hq => hq) (fun hsome => absurd hreq hsome) h
  | some req =>
      have hkind : req.cmd ≠ .fileOpen := by
        have hc := protUnmarshalRequest_cmd hreq
        rintro heq
        rw [heq] at hc
        rcases hcmd with hcmd | hcmd <;> simp [hcmd] at hc
      have hdest : (if req.cmd = .send then fds.2 else fds.1) = req.destFd fds := by
        unfold ProtRequest.destFd
        cases hc : req.cmd <;> simp_all
      simp only [wp_bind]
      refine wp_addXfer hA h h0 hfd hclient ?_ (fun heq => absurd heq hkind) ?_ ?_ ?_
      · split
        · exact hfd2.imp id Or.inr
        · exact Or.inl hfd
      · intro x c hx hc hfile hptr
        exact hG _ c (.enroll hreq (hdest ▸ hx) hc hfile hptr)
      · intro w' hborn h'
        simp only [wp_bind, wp_getErrno, wp_pure]
        refine wp_sendReqErr hA h' (fun pdu => hG _ _ (.refuse hfd)) (fun _ hc => by cases hc)
          fun _ w'' hstat hwrote h'' => ?_
        exact hfalse L w'' (fun fd hfd => hfd) (hwrote.srv ▸ hborn)
          (fun _ => hwrote.refusal hstat h') h''
      · intro x info w' hborn _ hregs htrace _ _ hx hinfo h'
        have hp := hborn.xferAt
        simp only [wp_bind]
        refine wp_registerXfer hA h' hp (hx.cmd ▸ hkind) ?_ ?_
        · intro w'' henlists h''
          have hp'' : w''.srv.xferAt w.srv.nextPtr = some x := henlists.srv ▸ hp
          simp only [if_true, wp_bind]
          refine wp_getXfer_live hp'' ?_
          refine wp_sendFileInfo hA h'' (fun pdu => hG _ _ .greet) hp'' rfl hinfo rfl
            fun _ w₃ hwrote h₃ => ?_
          obtain ⟨f, -, hmore⟩ := henlists.regs
          have htrace₃ := hwrote.trace
          rw [henlists.trace, htrace] at htrace₃
          refine htrue _ w₃ (.created hreq (hdest ▸ hx) (hwrote.srv ▸ henlists.srv ▸ hborn)
            htrace₃ (Or.inr ⟨hkind, f, ?_⟩)) h₃
          rw [hwrote.regs, hmore]
          exact List.mem_append_right _ List.mem_cons_self
        · intro e w'' hsrv hquiet _ h''
          have hp'' : w''.srv.xferAt w.srv.nextPtr = some x := hsrv ▸ hp
          simp only [Bool.false_eq_true, if_false, wp_bind, wp_getErrno]
          refine wp_getXfer_live hp'' ?_
          refine wp_sendReqErr hA h'' (fun pdu => hG _ _ .greet)
            (fun q hq => Option.some.inj hq ▸ ⟨x, hp'', rfl⟩) fun _ w₃ hstat hwrote h₃ => ?_
          have hp₃ : w₃.srv.xferAt w.srv.nextPtr = some x := hwrote.srv ▸ hp''
          refine wp_deleteUnregisteredXfer hp₃ ?_
          simp only [wp_pure]
          refine hfalse (x.channels ++ (L.erase x.statFd).erase x.destFd) _
            (fun fd hfd => mem_channels_append hfd) (fun q hq => ?_) (fun _ => ?_) ?_
          · by_cases hqp : q = w.srv.nextPtr
            · simp [hqp, Server.discard, Server.dropXfer, Server.release]
            · simp only [Server.discard, Server.dropXfer, Server.release, hwrote.srv, hsrv]
              rw [Function.update_of_ne hqp, hborn.others q hqp, hq]
          · obtain ⟨b, hclosed⟩ := Kernel.close_trace ans w₃.kern x.file.fd
            have hrefusal := hwrote.refusal hstat h''
            rw [hx.statFd] at hrefusal
            exact hrefusal.append hclosed
          · rw [← hx.destFd, ← hx.statFd] at h₃
            exact Acts.quietly (w := ⟨_, _⟩) hA
              (h₃.snoc (hG _ _ (.retire hreq hx.clientPid hx.defer
                (Or.inr (hwrote.regs.trans (hquiet.regs.trans hregs)))
                (Or.inr (hwrote.attempted rfl)) hp₃))
                (.retire ans hp₃ (by simp [hx.defer])))
              (List.Sublist.refl _) (Server.quiet_release _ _) rfl

omit hG in
/-- `get_open_file` finds the transfer in the slot of the transaction ID. -/
theorem wp_getOpenFile {txnid : Nat} {Q : Option Ptr → World → Prop}
    (hnone : (∀ p x, w.srv.xfers.find txnid = some p → w.srv.xferAt p = some x →
      ¬ pidMatches x clientPid = true) → Q none w)
    (hsome : ∀ p x, w.srv.xfers.find txnid = some p → w.srv.xferAt p = some x →
      pidMatches x clientPid = true → Q (some p) w) :
    wp (getOpenFile clientPid txnid) Q (Faulty A c₀) w := by
  simp only [getOpenFile, wp_bind, wp_gets]
  cases hfind : w.srv.xfers.find txnid with
  | none => exact hnone fun p x hp => by simp [hfind] at hp
  | some p =>
      simp only [wp_bind]
      rw [wp_getXfer]
      refine ⟨fun x hp => ?_, fun _ => h.faulty trivial⟩
      rw [wp_ite]
      refine ⟨fun hpid => hsome p x hfind hp hpid, fun hpid => hnone fun q y hq hy => ?_⟩
      rw [hfind] at hq
      cases hq
      rw [hp] at hy
      cases hy
      exact hpid

theorem wp_processSendOpen (hfd : fds.1 ∈ L) {Q : Bool → World → Prop}
    (htrue : ∀ L' w', Accepted ans buf size clientPid fds w w' → Acts A c₀ ⟨L', w'⟩ →
      Q true w')
    (hfalse : ∀ L' w', (∀ fd ∈ L, fd ∈ L' ∨ (fd ∉ w'.kern.fds ∧ ∀ c, A (.reshut fd) c)) →
      w.srv.Unborn w'.srv → Declined ans buf w w' → Acts A c₀ ⟨L', w'⟩ → Q false w') :
    wp (processSendOpen ans buf clientPid fds) Q (Faulty A c₀) w := by
  have hA := hG.permissive
  unfold processSendOpen
  cases htxnid : protUnmarshalSendOpen buf with
  | none =>
      exact hfalse L w (fun fd hfd => Or.inl hfd) (fun _ hq => hq)
        (fun _ _ => .refl) h
  | some txnid =>
      have hrefuse : (∀ p x, w.srv.xfers.find txnid = some p → w.srv.xferAt p = some x →
          pidMatches x clientPid = true → x.defer = .cancel) →
          wp (do close ans fds.1; pure false) Q (Faulty A c₀) w := by
        intro hnone
        simp only [wp_bind, wp_pure]
        refine wp_close hA h (Or.inl hfd) fun w' hsrv hkern h' => ?_
        have hfds : w'.kern.fds = w.kern.fds.erase fds.1 := by
          rw [hkern, Kernel.close_fds]
        have hview : ∀ q, w'.view q = w.view q := fun q =>
          World.view_congr (by rw [hsrv]) (by rw [hsrv]) (by rw [hkern, Kernel.historyOf_close])
        refine hfalse (L.erase fds.1) w' (fun fd hmem => ?_) (hsrv ▸ fun _ hq => hq)
          (fun q _ => (hview q).symm ▸ .refl) h'
        by_cases heq : fd = fds.1
        · subst heq
          refine Or.inr ⟨?_, fun c => hG _ c (.reshut htxnid hnone)⟩
          simp [hfds, AList.mem_erase]
        · exact Or.inl ((List.mem_erase_of_ne heq).mpr hmem)
      simp only [wp_bind]
      refine wp_getOpenFile h (fun hno => hrefuse fun p x hp hx hpid => ?_)
        fun p x hfind hp hpid => ?_
      · exact absurd hpid (hno p x hp hx)
      simp only [wp_bind]
      refine wp_getXfer_live hp ?_
      rw [wp_ite]
      refine ⟨fun hcancel => hrefuse fun q y hq hy _ => ?_, fun hdefer => ?_⟩
      · rw [hfind] at hq
        cases hq
        rw [hp] at hy
        cases hy
        exact hcancel
      have h₁ := h.snoc (hG _ _ (.assign htxnid hfind hp hpid hdefer)) (.assign hp hdefer hfd)
      have hp₁ : (w.srv.setXfer p { x with cmd := .send, destFd := fds.1 }).xferAt p =
          some { x with cmd := .send, destFd := fds.1 } := by simp [Server.setXfer]
      simp only [startOpenFile, wp_bind, wp_onSrv]
      refine wp_registerXfer hA h₁ hp₁ (by simp) ?_ ?_
      · exact fun w' henlists h' =>
          htrue _ w' (.assigned htxnid hfind hp hpid hdefer henlists.srv henlists.trace) h'
      · intro e w' hsrv hquiet herr h'
        simp only [Bool.false_eq_true, if_false, wp_bind, wp_getErrno]
        have hp' : w'.srv.xferAt p = some { x with cmd := .send, destFd := fds.1 } := hsrv ▸ hp₁
        refine wp_sendXferErr hA h'
          (fun pdu => hG _ _ (.apologize htxnid hfind hp hpid hdefer herr))
          (fun q hq => Option.some.inj hq ▸ ⟨_, hp', rfl⟩) fun _ w'' hwrote h'' => ?_
        have hp₂ : w''.srv.xferAt p = some { x with cmd := .send, destFd := fds.1 } :=
          hwrote.srv ▸ hp'
        refine wp_deleteUnregisteredXfer hp₂ ?_
        simp only [wp_pure]
        refine hfalse _ _ (fun fd hmem => Or.inl ?_) (fun q hq => ?_) (fun q hq => ?_)
          (Acts.quietly (w := ⟨_, _⟩) hA
            (h''.snoc (hG _ _ (.reject htxnid hfind hp hpid hdefer herr
              (hwrote.regs.trans hquiet.regs) (hwrote.attempted rfl) hp₂)) (.retire ans hp₂ hdefer))
            (List.Sublist.refl _) (Server.quiet_release _ _) rfl)
        · rw [List.mem_append]
          by_cases heq : fd = fds.1
          · left
            unfold ResrcXfer.channels
            split <;> simp_all
          · exact Or.inr ((List.mem_erase_of_ne heq).mpr hmem)
        · by_cases hqp : q = p
          · simp [hqp, Server.discard, Server.dropXfer, Server.release]
          · simpa [Server.discard, Server.dropXfer, Server.release, hwrote.srv, hsrv,
              Server.setXfer, hqp] using hq
        · cases hq.eq (Or.inl htxnid) hfind
          have hview' : w'.view p = (w.view p).set { x with cmd := .send, destFd := fds.1 } := by
            rw [World.view_congr (w := ⟨w.srv.setXfer p _, w.kern⟩) (by rw [hsrv]) (by rw [hsrv])
              (by rw [hquiet.trace])]
            exact World.view_setXfer p _ w
          have hgone : World.view p ⟨((w''.srv.discard p x.txnid).release x.addr),
              (w''.kern.close ans x.file.fd).2⟩ = (w''.view p).gone :=
            World.view_gone (by simp [Server.discard, Server.dropXfer, Server.release]) rfl
              (Kernel.historyOf_close ans x.file.fd w''.kern p)
          have hrejected : Touched ans p (w.view p) (w''.view p).gone := by
            rw [hwrote.view, hview']
            exact .single (.rejected hp hdefer)
          exact hgone ▸ hrejected

theorem wp_processCancel {Q : Bool → World → Prop}
    (htrue : ∀ L' w', Accepted ans buf size clientPid fds w w' → Acts A c₀ ⟨L', w'⟩ →
      Q true w')
    (hfalse : Q false w) :
    wp (processCancel buf clientPid) Q (Faulty A c₀) w := by
  unfold processCancel
  cases htxnid : protUnmarshalCancel buf with
  | none => exact hfalse
  | some txnid =>
      simp only [wp_bind]
      refine wp_getOpenFile h (fun _ => hfalse) fun p x hfind hp hpid => ?_
      simp only [wp_bind]
      exact wp_deferCancel h hp (hG _ _ (.cancel htxnid hfind hp hpid)) fun h' =>
        htrue L _ (.cancelled htxnid hfind hp hpid rfl) h'

theorem wp_processRequest
    (hfds : sfdGetCmd buf ≠ ProtCmdReq.cancel.code → (0 : Fd) ∈ w.kern.fds ∧ fds.1 ∈ L ∧
      (∃ n, w.kern.fds.lookup fds.1 = some (.client n)) ∧ (fds.2 ∈ L ∨ fds.2 = 0))
    {Q : Bool → World → Prop}
    (htrue : ∀ L' w', Accepted ans buf size clientPid fds w w' → Acts A c₀ ⟨L', w'⟩ →
      Q true w')
    (hfalse : ∀ L' w', (∀ fd ∈ L, fd ∈ L' ∨ (fd ∉ w'.kern.fds ∧ ∀ c, A (.reshut fd) c)) →
      w.srv.Unborn w'.srv → Declined ans buf w w' →
      (protUnmarshalRequest buf size ≠ none → Refusal fds.1 c₀.world.kern.trace w') →
      Acts A c₀ ⟨L', w'⟩ → Q false w') :
    wp (processRequest ans buf size clientPid fds) Q (Faulty A c₀) w := by
  have hrefuse : protUnmarshalRequest buf size = none → Q false w := fun hnone =>
    hfalse L w (fun fd hfd => Or.inl hfd) (fun _ hq => hq)
      (fun _ _ => .refl) (fun hsome => absurd hnone hsome) h
  -- a request that is no request for a file
  have hother : fileCmd (sfdGetCmd buf) = none → protUnmarshalRequest buf size = none := by
    intro hfile
    cases hreq : protUnmarshalRequest buf size with
    | none => rfl
    | some req =>
        rw [protUnmarshalRequest_fileCmd hreq] at hfile
        cases hfile
  -- a request that names no transaction does nothing to the transfers that exist
  have hback : ∀ cmd, ProtCmdReq.ofCode (sfdGetCmd buf) = some cmd → cmd ≠ .sendOpen →
      cmd ≠ .cancel → ∀ L' w', (∀ fd ∈ L, fd ∈ L') → w.srv.Unborn w'.srv →
      (protUnmarshalRequest buf size ≠ none → Refusal fds.1 c₀.world.kern.trace w') →
      Acts A c₀ ⟨L', w'⟩ → Q false w' := by
    intro cmd hcmd hsend hcancel L' w' hL' hborn hrefusal h'
    exact hfalse L' w' (fun fd hfd => Or.inl (hL' fd hfd)) hborn
      (fun p hp => absurd hp (Server.not_names hcmd hsend hcancel)) hrefusal h'
  unfold processRequest
  rw [wp_ite]
  refine ⟨fun hstat => hrefuse ?_, fun _ => ?_⟩
  · unfold protUnmarshalRequest
    repeat' split
    all_goals rfl
  rw [wp_ite]
  refine ⟨fun hnot => hrefuse (hother ?_), fun _ => ?_⟩
  · cases hcmd : ProtCmdReq.ofCode (sfdGetCmd buf) with
    | none => simp [fileCmd, hcmd]
    | some cmd =>
        rw [protIsRequest_of_ofCode hcmd] at hnot
        cases hnot
  have hnot : ∀ cmd, ProtCmdReq.ofCode (sfdGetCmd buf) = some cmd → cmd ≠ .cancel →
      (0 : Fd) ∈ w.kern.fds ∧ fds.1 ∈ L ∧
        (∃ n, w.kern.fds.lookup fds.1 = some (.client n)) ∧ (fds.2 ∈ L ∨ fds.2 = 0) := by
    intro cmd hcmd hne
    refine hfds fun hcode => hne ?_
    rw [hcode] at hcmd
    exact (Option.some.inj hcmd).symm
  cases hcmd : ProtCmdReq.ofCode (sfdGetCmd buf) with
  | none => exact hrefuse (hother (by simp [fileCmd, hcmd]))
  | some cmd =>
      cases cmd with
      | fileOpen =>
          obtain ⟨h0, hfd, hclient, -⟩ := hnot _ hcmd (by decide)
          exact wp_processFileOpen h hG h0 hfd hclient hcmd htrue
            (hback _ hcmd (by decide) (by decide))
      | read =>
          obtain ⟨h0, hfd, hclient, hfd2⟩ := hnot _ hcmd (by decide)
          exact wp_processReadSend h hG h0 hfd hclient hfd2 (Or.inl hcmd) htrue
            (hback _ hcmd (by decide) (by decide))
      | send =>
          obtain ⟨h0, hfd, hclient, hfd2⟩ := hnot _ hcmd (by decide)
          exact wp_processReadSend h hG h0 hfd hclient hfd2 (Or.inr hcmd) htrue
            (hback _ hcmd (by decide) (by decide))
      | sendOpen =>
          obtain ⟨-, hfd, -⟩ := hnot _ hcmd (by decide)
          have hnone := hother (by simp [fileCmd, hcmd])
          exact wp_processSendOpen h hG hfd htrue fun L' w' hL' hborn hdeclined h' =>
            hfalse L' w' hL' hborn hdeclined (fun hsome => absurd hnone hsome) h'
      | cancel => exact wp_processCancel h hG htrue (hrefuse (hother (by simp [fileCmd, hcmd])))

end Requests

/-- The descriptors that arrived with a datagram, the last one first. -/
def Received.arrived (r : Received) : List Fd :=
  match r.nfds with
  | 0 => []
  | 1 => [r.fds.1]
  | _ => [r.fds.2, r.fds.1]

/-- What is known of a datagram from its reception until it is handled. -/
structure Held (r : Received) (k : Kernel) : Prop where
  nfds_le : r.nfds ≤ protMaxFds
  zero_open : 0 < r.nfds → (0 : Fd) ∈ k.fds
  single : r.nfds = 1 → r.fds.2 = 0
  distinct : r.nfds = 2 → r.fds.2 ≠ r.fds.1
  clients : ∀ fd ∈ r.arrived, ∃ n, k.fds.lookup fd = some (.client n)

theorem mem_arrived_fst {r : Received} (h : 0 < r.nfds) : r.fds.1 ∈ r.arrived := by
  unfold Received.arrived
  split <;> simp_all

theorem mem_arrived_snd {r : Received} (h : r.nfds = 2) : r.fds.2 ∈ r.arrived := by
  simp [Received.arrived, h]

/-- At most two descriptors arrive, so the array holds all of them. -/
theorem arrived_eq_reverse {rights : List Fd} (hlen : rights.length ≤ protMaxFds) (old : Fd × Fd)
    (nread uid pid : Nat) :
    Received.arrived ⟨nread, rights.length, recvFds old rights, uid, pid⟩ = rights.reverse := by
  match rights with
  | [] | [_] | [_, _] => rfl
  | a :: b :: c :: rest =>
      simp only [List.length_cons, protMaxFds] at hlen
      omega

/-- What has become of a received datagram: a request of the server's own user was
accepted, or nothing was made of it and the descriptors it brought are closed. -/
inductive Served (ans : Answers) (r : Received) (tr₀ : List Effect) (w w' : World) : Prop
  | accepted (huid : r.uid = w.srv.uid)
      (h : Accepted ans w.srv.recvbuf r.nread r.pid r.fds w w')
  | refused (hgone : ∀ fd ∈ r.arrived, fd ∉ w'.kern.fds) (hunborn : w.srv.Unborn w'.srv)
      (hdeclined : Declined ans w.srv.recvbuf w w')
      (hrefusal : 0 < r.nfds → r.uid = w.srv.uid →
        protUnmarshalRequest w.srv.recvbuf r.nread ≠ none → ∃ w₁ tr, Refusal r.fds.1 tr₀ w₁ ∧
          w'.kern.trace = w₁.kern.trace ++ tr ∧ ClosedIn tr r.fds.1)

section Reception

variable (hA : Permissive A)

include hA

theorem wp_closeFds {r : Received} (h : Acts A c₀ ⟨L, w⟩) (hheld : r.nfds ≤ protMaxFds)
    (hdistinct : r.nfds = 2 → r.fds.2 ≠ r.fds.1)
    (hL : ∀ fd ∈ r.arrived, fd ∈ L ∨ (fd ∉ w.kern.fds ∧ ∀ c, A (.reshut fd) c))
    {Q : Unit → World → Prop}
    (hQ : ∀ w' tr, w'.srv = w.srv → w'.kern.trace = w.kern.trace ++ tr → OnlyCloses tr →
      (∀ fd ∈ r.arrived, fd ∉ w'.kern.fds ∧ ClosedIn tr fd) → Acts A c₀ ⟨[], w'⟩ → Q () w') :
    wp (closeFds ans r.fds r.nfds) Q (Faulty A c₀) w := by
  -- closing one of the descriptors, which may be closed already
  have hclose : ∀ fd L₁ w₁, (fd ∈ L₁ ∨ (fd ∉ w₁.kern.fds ∧ ∀ c, A (.reshut fd) c)) →
      Acts A c₀ ⟨L₁, w₁⟩ → ∀ {R : Unit → World → Prop},
      (∀ L₂ w₂ b, (∀ fd' ≠ fd, fd' ∈ L₁ → fd' ∈ L₂) → w₂.srv = w₁.srv →
        w₂.kern.trace = w₁.kern.trace ++ [.closed fd b] →
        w₂.kern.fds = w₁.kern.fds.erase fd → Acts A c₀ ⟨L₂, w₂⟩ → R () w₂) →
      wp (close ans fd) R (Faulty A c₀) w₁ := by
    intro fd L₁ w₁ hfd h₁ R hR
    obtain ⟨b, hb⟩ := Kernel.close_trace ans w₁.kern fd
    have hkernel : ∀ w₂ : World, w₂.kern = (w₁.kern.close ans fd).2 →
        w₂.kern.trace = w₁.kern.trace ++ [.closed fd b] ∧
          w₂.kern.fds = w₁.kern.fds.erase fd := fun w₂ hkern => by
      rw [hkern, Kernel.close_fds]
      exact ⟨hb, rfl⟩
    rcases hfd with hin | ⟨hgone, hreshut⟩
    · exact wp_close hA h₁ (Or.inl hin) fun w₂ hsrv hkern h₂ =>
        hR _ w₂ b (fun fd' hne hfd' => (List.mem_erase_of_ne hne).mpr hfd') hsrv
          (hkernel w₂ hkern).1 (hkernel w₂ hkern).2 h₂
    · exact wp_close_again h₁ hgone (hreshut _) fun w₂ hsrv hkern h₂ =>
        hR _ w₂ b (fun _ _ hfd' => hfd') hsrv (hkernel w₂ hkern).1 (hkernel w₂ hkern).2 h₂
  have hlose : ∀ L' w', Acts A c₀ ⟨L', w'⟩ → Acts A c₀ ⟨[], w'⟩ := fun L' w' h' =>
    h'.quietly hA (List.nil_sublist L') (Server.Quiet.refl _) (Kernel.Quiet.refl _)
  unfold closeFds
  rw [wp_ite]
  refine ⟨fun hpos => ?_, fun hzero => ?_⟩
  case refine_2 =>
    refine hQ w [] rfl (List.append_nil _).symm (by simp [OnlyCloses]) (fun fd hfd => ?_)
      (hlose L w h)
    have hnil : r.nfds = 0 := by omega
    simp [Received.arrived, hnil] at hfd
  simp only [wp_bind]
  refine hclose _ L w (hL _ (mem_arrived_fst hpos)) h
    fun L₁ w₁ b₁ hkept hsrv₁ htr₁ hfds₁ h₁ => ?_
  rw [wp_ite]
  refine ⟨fun htwo => ?_, fun hone => ?_⟩
  · have hne := hdistinct htwo
    refine hclose _ L₁ w₁ ?_ h₁ fun L₂ w₂ b₂ _ hsrv₂ htr₂ hfds₂ h₂ => ?_
    · refine (hL _ (mem_arrived_snd htwo)).imp (hkept _ hne) fun hgone => ⟨?_, hgone.2⟩
      rw [hfds₁, AList.mem_erase]
      exact fun hc => hgone.1 hc.2
    · refine hQ w₂ [.closed r.fds.1 b₁, .closed r.fds.2 b₂] (hsrv₂.trans hsrv₁)
        (by rw [htr₂, htr₁, List.append_assoc]; rfl)
        ((Kernel.onlyCloses_singleton _ _).append (Kernel.onlyCloses_singleton _ _))
        (fun fd hfd => ?_) (hlose L₂ w₂ h₂)
      simp only [Received.arrived, htwo, List.mem_cons, List.not_mem_nil, or_false] at hfd
      rw [hfds₂, hfds₁, AList.mem_erase, AList.mem_erase]
      rcases hfd with rfl | rfl
      · exact ⟨fun hc => hc.1 rfl, b₂, by simp⟩
      · exact ⟨fun hc => hc.2.1 rfl, b₁, by simp⟩
  · refine hQ w₁ [.closed r.fds.1 b₁] hsrv₁ htr₁ (Kernel.onlyCloses_singleton _ _)
      (fun fd hfd => ?_) (hlose L₁ w₁ h₁)
    have hnfds : r.nfds = 1 := by
      simp only [protMaxFds] at hheld
      omega
    simp only [Received.arrived, hnfds, List.mem_singleton] at hfd
    rw [hfds₁, AList.mem_erase, hfd]
    exact ⟨fun hc => hc.1 rfl, b₁, by simp⟩

theorem wp_handleReceived {r : Received} (h : Acts A c₀ ⟨r.arrived, w⟩)
    (hheld : Held r w.kern)
    (hdeny : r.uid ≠ w.srv.uid → ∀ pdu c, (r.fds.1 ∈ c.loose ∨
      (r.nfds = 0 ∧ sfdGetCmd w.srv.recvbuf = ProtCmdReq.cancel.code)) →
      A (.say none r.fds.1 pdu) c)
    (hG : r.uid = w.srv.uid →
      (sfdGetCmd w.srv.recvbuf ≠ ProtCmdReq.cancel.code → 0 < r.nfds) →
      Grants A ans r.arrived w w.srv.recvbuf r.nread r.pid r.fds)
    {Q : Unit → World → Prop}
    (hQ : ∀ w', Served ans r c₀.world.kern.trace w w' → Acts A c₀ ⟨[], w'⟩ → Q () w') :
    wp (handleReceived ans r) Q (Faulty A c₀) w := by
  have hclose : ∀ L' w', (∀ fd ∈ r.arrived, fd ∈ L' ∨ (fd ∉ w'.kern.fds ∧
      ∀ c, A (.reshut fd) c)) → w.srv.Unborn w'.srv → Declined ans w.srv.recvbuf w w' →
      (r.uid = w.srv.uid → protUnmarshalRequest w.srv.recvbuf r.nread ≠ none →
        Refusal r.fds.1 c₀.world.kern.trace w') →
      Acts A c₀ ⟨L', w'⟩ → wp (closeFds ans r.fds r.nfds) Q (Faulty A c₀) w' := by
    intro L' w' hL' hborn hdeclined hrefusal h'
    refine wp_closeFds hA h' hheld.nfds_le hheld.distinct hL'
      fun w'' tr hsrv htr honly hgone h'' => ?_
    refine hQ w'' (.refused (fun fd hfd => (hgone fd hfd).1) (hsrv ▸ hborn) (fun p hp => ?_)
      fun hpos huid hsome => ?_) h''
    · have hview : w''.view p = w'.view p := World.view_congr (by rw [hsrv]) (by rw [hsrv])
        (by rw [htr, historyOf_append, honly.historyOf, List.append_nil])
      exact hview.symm ▸ hdeclined p hp
    · exact ⟨w', tr, hrefusal huid hsome, htr, (hgone _ (mem_arrived_fst hpos)).2⟩
  simp only [handleReceived, wp_bind, wp_assert, wp_gets]
  refine ⟨fun _ => ?_, fun _ => h.faulty trivial⟩
  rw [wp_ite]
  refine ⟨fun hcount => ?_, fun hcount => ?_⟩
  · -- at most two descriptors can have arrived, so there are none
    have hzero : r.nfds = 0 := by
      have hle := hheld.nfds_le
      omega
    have hnil : r.arrived = [] := by simp [Received.arrived, hzero]
    rw [hnil] at h
    exact hQ w (.refused (by simp [hnil]) (fun _ hq => hq)
      (fun _ _ => .refl) fun hpos => by omega) h
  rw [wp_ite]
  refine ⟨fun hforeign => ?_, fun huid => ?_⟩
  · simp only [wp_bind]
    have hfd : r.fds.1 ∈ r.arrived ∨
        (r.nfds = 0 ∧ sfdGetCmd w.srv.recvbuf = ProtCmdReq.cancel.code) := by
      by_cases hpos : 0 < r.nfds
      · exact Or.inl (mem_arrived_fst hpos)
      · refine Or.inr ⟨by omega, ?_⟩
        by_contra hcmd
        exact hcount ⟨hcmd, Or.inl (by omega)⟩
    refine wp_sendXferErr hA h (fun pdu => hdeny hforeign pdu _ hfd) (fun _ hc => by cases hc)
      fun _ w' hwrote h' => ?_
    exact hclose _ w' (fun fd hfd => Or.inl hfd) (hwrote.srv ▸ fun _ hq => hq)
      (fun p _ => (hwrote.view_other p).symm ▸ .refl)
      (fun huid => absurd huid hforeign) h'
  · simp only [wp_bind]
    have huid' : r.uid = w.srv.uid := Decidable.not_not.mp huid
    have hsome : sfdGetCmd w.srv.recvbuf ≠ ProtCmdReq.cancel.code → 0 < r.nfds := by
      intro hcmd
      by_contra hzero
      exact hcount ⟨hcmd, Or.inl (by omega)⟩
    refine wp_processRequest h (hG huid' hsome) (fun hcmd => ?_) ?_
      fun L' w' hL' hborn hdeclined hrefusal h' =>
        hclose L' w' hL' hborn hdeclined (fun _ => hrefusal) h'
    · have hpos := hsome hcmd
      refine ⟨hheld.zero_open hpos, mem_arrived_fst hpos,
        hheld.clients _ (mem_arrived_fst hpos), ?_⟩
      have hle := hheld.nfds_le
      by_cases hone : r.nfds = 1
      · exact Or.inr (hheld.single hone)
      · exact Or.inl (mem_arrived_snd (by simp only [protMaxFds] at hle; omega))
    · intro L' w' haccepted h'
      exact hQ w' (.accepted huid' haccepted)
        (h'.quietly hA (List.nil_sublist L') (Server.Quiet.refl _) (Kernel.Quiet.refl _))

theorem Acts.installAll (files : List Nat) {s : Server} {k : Kernel}
    (h : Acts A c₀ ⟨L, ⟨s, k⟩⟩) :
    Acts A c₀ ⟨(Kernel.installAll files k).1.reverse ++ L,
      ⟨s, (Kernel.installAll files k).2⟩⟩ := by
  induction files generalizing L k with
  | nil => exact h
  | cons n rest ih =>
      have h₁ := ih (h.snoc (hA .arrive _ rfl) (.arrive (n := n)))
      simpa [Kernel.installAll] using h₁

omit hA in
theorem Kernel.installAll_length (files : List Nat) (k : Kernel) :
    (Kernel.installAll files k).1.length = files.length := by
  induction files generalizing k with
  | nil => rfl
  | cons n rest ih => simp [Kernel.installAll, ih]

omit hA in
theorem Kernel.installAll_extends (files : List Nat) (k : Kernel) :
    k.Extends (Kernel.installAll files k).2 := by
  induction files generalizing k with
  | nil => exact fun fd f hf => hf
  | cons n rest ih => exact fun fd f hf => ih _ fd f (Kernel.install_extends _ k fd f hf)

omit hA in
theorem Kernel.installAll_clients (files : List Nat) (k : Kernel) :
    ∀ fd ∈ (Kernel.installAll files k).1,
      ∃ n, (Kernel.installAll files k).2.fds.lookup fd = some (.client n) := by
  induction files generalizing k with
  | nil => simp [Kernel.installAll]
  | cons n rest ih =>
      intro fd hfd
      rcases List.mem_cons.mp hfd with rfl | hfd
      · exact ⟨n, Kernel.installAll_extends rest _ _ _ (Kernel.install_lookup _ k)⟩
      · exact ih _ fd hfd

omit hA in
theorem Kernel.installAll_fresh (files : List Nat) (k : Kernel) :
    ∀ fd ∈ (Kernel.installAll files k).1, fd ∉ k.fds := by
  induction files generalizing k with
  | nil => simp [Kernel.installAll]
  | cons n rest ih =>
      intro fd hfd
      rcases List.mem_cons.mp hfd with rfl | hfd
      · exact lowestFree_notMem k.fds.keys
      · intro hmem
        apply ih _ fd hfd
        exact (AList.mem_insert k.fds).mpr (Or.inr hmem)

omit hA in
theorem Kernel.installAll_nodup (files : List Nat) (k : Kernel) :
    (Kernel.installAll files k).1.Nodup := by
  induction files generalizing k with
  | nil => exact List.nodup_nil
  | cons n rest ih =>
      apply List.nodup_cons.mpr
      constructor
      · intro hmem
        apply Kernel.installAll_fresh rest _ _ hmem
        exact (AList.mem_insert k.fds).mpr (Or.inl rfl)
      · exact ih _

omit hA in
/-- Descriptors are given out lowest first, so none is left at zero. -/
theorem Kernel.installAll_zero (files : List Nat) (k : Kernel) (hfiles : files ≠ []) :
    (0 : Fd) ∈ (Kernel.installAll files k).2.fds := by
  cases files with
  | nil => exact absurd rfl hfiles
  | cons n rest =>
      have hext := Kernel.installAll_extends (n :: rest) k
      by_cases hzero : (0 : Fd) ∈ k.fds
      · obtain ⟨f, hf⟩ := Option.isSome_iff_exists.mp (AList.lookup_isSome.mpr hzero)
        exact AList.lookup_isSome.mp (by rw [hext 0 f hf]; rfl)
      · have hlow : lowestFree k.fds.keys = 0 := lowestFree_eq_zero hzero
        obtain ⟨m, hm⟩ := Kernel.installAll_clients (n :: rest) k _ List.mem_cons_self
        rw [hlow] at hm
        exact AList.lookup_isSome.mp (by rw [hm]; rfl)

theorem wp_usRecv (h : Acts A c₀ ⟨[], w⟩) {old : Fd × Fd} {d : Datagram}
    {Q : Option Received → World → Prop}
    (hnone : ∀ w', Acts A c₀ ⟨[], w'⟩ → Q none w')
    (hsome : ∀ r w', Held r w'.kern → Acts A c₀ ⟨r.arrived, w'⟩ → Q (some r) w') :
    wp (usRecv ans old d) Q (Faulty A c₀) w := by
  simp only [usRecv, wp_bind, wp_sys, wp_onSrv]
  rw [wp_ite]
  simp only [Kernel.recvmsg]
  have hlen : (w.kern.arriving ans d).length ≤ protMaxFds := by
    simp only [Kernel.arriving, List.length_take]
    omega
  generalize w.kern.arriving ans d = files at hlen ⊢
  have h₁ : Acts A c₀ ⟨(Kernel.installAll files w.kern).1.reverse,
      ⟨{ w.srv with recvbuf := w.srv.recvbuf.receive d.data },
        (Kernel.installAll files w.kern).2.succeed⟩⟩ := by
    have hinst := Acts.installAll hA files (k := w.kern) h
    rw [List.append_nil] at hinst
    exact Acts.quietly (w := ⟨_, _⟩) hA hinst (List.Sublist.refl _) rfl rfl
  have hlost : ∀ e, Acts A c₀ ⟨[],
      ⟨{ w.srv with recvbuf := w.srv.recvbuf.receive d.data },
        { (Kernel.installAll files w.kern).2.succeed with errno := e }⟩⟩ := fun e =>
    h₁.quietly hA (List.nil_sublist _) rfl rfl
  refine ⟨fun _ => hnone _ (hlost ERANGE), fun _ => ?_⟩
  cases hcreds : d.creds with
  | none => exact hnone _ (hlost EBADF)
  | some creds =>
      have hcount := Kernel.installAll_length files w.kern
      generalize hres : (Kernel.installAll files w.kern) = res at *
      have hclients := Kernel.installAll_clients files w.kern
      have hzero := Kernel.installAll_zero files w.kern
      have hnodup := Kernel.installAll_nodup files w.kern
      rw [hres] at hclients hzero hnodup
      obtain ⟨rights, k'⟩ := res
      have harrived := arrived_eq_reverse (hcount ▸ hlen) old
        (min d.data.length protReqMaxSize) creds.uid creds.pid
      refine hsome _ _ ⟨hcount ▸ hlen, fun hpos => hzero fun hnil => ?_, fun hone => ?_,
        fun htwo => ?_, ?_⟩ ?_
      · subst hnil
        exact absurd hcount (Nat.ne_of_gt hpos)
      · rcases rights with _ | ⟨a, _ | ⟨b, rest⟩⟩
        · cases hone
        · rfl
        · simp at hone
      · rcases rights with _ | ⟨a, _ | ⟨b, rest⟩⟩
        · cases htwo
        · cases htwo
        · intro heq
          have hba : b = a := heq
          exact (List.nodup_cons.mp hnodup).1 (hba ▸ List.mem_cons_self)
      · intro fd hfd
        rw [harrived, List.mem_reverse] at hfd
        exact hclients fd hfd
      · rw [harrived]
        exact h₁

end Reception

end Sendfiled
