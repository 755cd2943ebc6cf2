/-
Draining the request socket.  `handle_reqfd` receives datagrams until the socket would
block; here is exactly which datagrams end the server instead.
-/
import Sendfiled.Refusals
import Sendfiled.Datagrams

namespace Sendfiled

open Prog Transition

/-- The code runs to its end. -/
def Returns {α : Type} (m : M α) (w : World) : Prop :=
  wp m (fun _ _ => True) (fun _ _ => False) w

theorem returns_iff {α : Type} {m : M α} {w : World} :
    Returns m w ↔ ∃ a w', m w = .done a w' := by
  unfold Returns wp
  cases m w with
  | done a w' => exact ⟨fun _ => ⟨a, w', rfl⟩, fun _ => trivial⟩
  | fault e w' => exact ⟨fun h => h.elim, fun ⟨_, _, h⟩ => by cases h⟩

theorem not_returns {α : Type} {m : M α} {w : World}
    (h : wp m (fun _ _ => False) (fun _ _ => True) w) : ¬ Returns m w :=
  wp_not (wp_mono h (fun _ _ hno => hno.elim) fun _ _ _ hno => hno)

variable {ans : Answers} {w : World} {r : Received}

theorem returns_closeFds (fds : Fd × Fd) (nfds : Nat) (w : World) :
    Returns (closeFds ans fds nfds) w :=
  wp_closeFds_ignored fun _ _ => trivial

section Branches

variable {buf : RecvBuf} {size clientPid : Nat} {fds : Fd × Fd}

/-- The transfer a request names is there, and may be acted on by the client. -/
theorem wp_getOpenFile_live (hledger : Ledger w.srv) {txnid : Nat} {Q : Option Ptr → World → Prop}
    {E : Fault → World → Prop}
    (hnone : (∀ p x, w.srv.xfers.find txnid = some p → w.srv.xferAt p = some x →
      ¬ pidMatches x clientPid = true) → Q none w)
    (hsome : ∀ p x, w.srv.xfers.find txnid = some p → w.srv.xferAt p = some x →
      pidMatches x clientPid = true → Q (some p) w) :
    wp (getOpenFile clientPid txnid) Q E w := by
  simp only [getOpenFile, wp_bind, wp_gets]
  cases hfind : w.srv.xfers.find txnid with
  | none => exact hnone fun p x hp => by simp [hfind] at hp
  | some p =>
      obtain ⟨x, hp, -⟩ := hledger.of_find hfind
      simp only [wp_bind]
      refine wp_getXfer_live hp ?_
      rw [wp_ite]
      refine ⟨fun hpid => hsome p x hfind hp hpid, fun hpid => hnone fun q y hq hy => ?_⟩
      rw [hfind] at hq
      cases hq
      rw [hp] at hy
      cases hy
      exact hpid

/-- A CANCEL asks for a place in the deferred list, unless its transfer has one. -/
theorem returns_processCancel_iff (hledger : Ledger w.srv) :
    Returns (processCancel buf clientPid) w ↔
      ∀ txnid p x, protUnmarshalCancel buf = some txnid → w.srv.xfers.find txnid = some p →
        w.srv.xferAt p = some x → pidMatches x clientPid = true →
        x.defer = .ready ∨ w.srv.deferredXfers.length < w.srv.xfers.size := by
  unfold processCancel
  cases hcancel : protUnmarshalCancel buf with
  | none => exact ⟨fun _ _ _ _ => nofun, fun _ => trivial⟩
  | some t =>
      constructor
      · intro h txnid p x ht hfind hp hpid
        cases ht
        by_contra hfull
        refine not_returns ?_ h
        simp only [wp_bind]
        refine wp_getOpenFile_live hledger (fun hnone => absurd hpid (hnone p x hfind hp)) ?_
        intro q y hq hy _
        rw [hfind] at hq
        cases hq
        rw [hp] at hy
        cases hy
        simp only [wp_bind, deferCancel]
        refine wp_getXfer_live hp ?_
        simp only [wp_gets, wp_assert]
        exact ⟨fun hroom => absurd hroom hfull, fun _ => trivial⟩
      · intro h
        simp only [Returns, wp_bind]
        refine wp_getOpenFile_live hledger (fun _ => trivial) fun p x hfind hp hpid => ?_
        simp only [wp_bind, deferCancel]
        refine wp_getXfer_live hp ?_
        simp only [wp_gets, wp_assert]
        refine ⟨fun _ => ?_, fun hfull => hfull (h t p x rfl hfind hp hpid)⟩
        rw [wp_ite]
        refine ⟨fun _ => ?_, fun _ => wp_setDefer hp trivial⟩
        simp only [pushDeferred, wp_bind, wp_onSrv]
        exact wp_setDefer (by exact hp) trivial

/-- A SEND_OPEN is served, or answered and dropped. -/
theorem wp_processSendOpen_torn (hledger : Ledger w.srv) :
    wp (processSendOpen ans buf clientPid fds) (fun _ _ => True) (fun e _ => ans.Torn e) w := by
  have hrefuse : wp (do close ans fds.1; pure false) (fun (_ : Bool) _ => True)
      (fun e _ => ans.Torn e) w := by
    simp only [wp_bind]
    exact wp_close_ignored fun _ _ => trivial
  unfold processSendOpen
  cases protUnmarshalSendOpen buf with
  | none => trivial
  | some t =>
      simp only [wp_bind]
      refine wp_getOpenFile_live hledger (fun _ => hrefuse) fun p x hfind hp hpid => ?_
      simp only [wp_bind]
      refine wp_getXfer_live hp ?_
      rw [wp_ite]
      refine ⟨fun _ => hrefuse, fun _ => ?_⟩
      simp only [startOpenFile, registerXfer, wp_bind, wp_onSrv]
      have hp' : (w.srv.setXfer p { x with cmd := .send, destFd := fds.1 }).xferAt p =
          some { x with cmd := .send, destFd := fds.1 } := Function.update_self ..
      refine wp_getXfer_live (by exact hp') ?_
      refine wp_syspollRegister_cases (fun e _ => ?_) fun _ _ _ => trivial
      simp only [Bool.false_eq_true, if_false, wp_bind, wp_getErrno, sendXferErr]
      refine wp_sendPdu_whole (fun _ k _ _ => ?_) fun htorn _ => ⟨rfl, htorn⟩
      exact wp_deleteUnregisteredXfer (by exact hp') trivial

theorem returns_processSendOpen (hledger : Ledger w.srv) (hwhole : ans.Whole) :
    Returns (processSendOpen ans buf clientPid fds) w :=
  wp_mono (wp_processSendOpen_torn hledger) (fun _ _ h => h) fun _ _ htorn => htorn.2 hwhole

/-- Where a table has no room, `errno` is asserted to be a status. -/
theorem not_returns_of_tableTaken (hledger : Ledger w.srv) (hnum : w.kern.Numbered)
    {req : ProtRequest} (hreq : protUnmarshalRequest buf size = some req)
    (htaken : TableTaken ans req clientPid fds w)
    (hrange : ¬ (0 < w.kern.errno ∧ w.kern.errno ≤ 255)) :
    ¬ Returns (processRequest ans buf size clientPid fds) w := by
  refine not_returns ?_
  have hassert : ∀ w' : World, w'.kern.errno = w.kern.errno →
      wp (do let _ ← sendReqErr ans none fds.1 (← getErrno); pure false)
        (fun (_ : Bool) _ => False) (fun _ _ => True) w' := by
    intro w' herrno
    simp only [sendReqErr, wp_bind, wp_getErrno, wp_assert, herrno]
    exact ⟨fun hgood => absurd hgood hrange, fun _ => trivial⟩
  rw [processRequest_file hreq, wp_ite]
  refine ⟨fun hcmd => ?_, fun hcmd => ?_⟩
  · have hadd : wp (addOpenFile ans req clientPid fds.1)
        (fun o w' => o = none ∧ w'.kern.errno = w.kern.errno) (fun _ _ => False) w := by
      rcases htaken with hslot | ⟨-, hslot⟩
      · exact hslot.wp_addOpenFile hnum
      · exact hslot.wp_addOpenFile hledger hnum
    simp only [processFileOpen, hreq, wp_bind]
    refine wp_mono hadd (fun o w' h => ?_) fun _ _ hno => hno.elim
    obtain ⟨rfl, herrno⟩ := h
    simpa only [wp_bind] using hassert w' herrno
  · have hslot : SlotTaken ans req w := htaken.resolve_right fun h => hcmd h.1
    simp only [processReadSend, hreq, wp_bind]
    refine wp_mono (hslot.wp_addXfer hnum) (fun o w' h => ?_) fun _ _ hno => hno.elim
    obtain ⟨rfl, herrno⟩ := h
    simpa only [wp_bind] using hassert w' herrno

/-- A request for a file is served or refused, unless a table has no room and `errno` is no
status. -/
theorem returns_file_iff (hledger : Ledger w.srv) (hnum : w.kern.Numbered) (hcoded : ans.Coded)
    (hwhole : ans.Whole) {req : ProtRequest} (hreq : protUnmarshalRequest buf size = some req) :
    Returns (processRequest ans buf size clientPid fds) w ↔
      (TableTaken ans req clientPid fds w → 0 < w.kern.errno ∧ w.kern.errno ≤ 255) := by
  constructor
  · intro h htaken
    by_contra hrange
    exact not_returns_of_tableTaken hledger hnum hreq htaken hrange h
  · intro h
    refine wp_mono (wp_processRequest_steps hledger hnum hreq) (fun _ _ _ => trivial) ?_
    intro f w' haborts
    cases haborts with
    | torn htorn => exact htorn hwhole
    | status hrange hstated =>
        rcases hstated with ⟨htaken, rfl⟩ | hfails
        · exact hrange (h htaken)
        · exact hrange (hfails.coded hcoded)

end Branches

/-- The server gets over a received datagram: it is not empty, it cancels no transfer that
has no place in the deferred list when the list is full, and `errno` is a status where a
table has no room for what it asks for. -/
structure Digestible (ans : Answers) (r : Received) (w : World) : Prop where
  nonempty : r.nread ≠ 0
  cancel : ∀ p x, w.srv.namedBy .cancel r = some (p, x) →
    x.defer = .ready ∨ w.srv.deferredXfers.length < w.srv.xfers.size
  status : r.uid = w.srv.uid → 0 < r.nfds → ∀ req,
    protUnmarshalRequest w.srv.recvbuf r.nread = some req →
    TableTaken ans req r.pid r.fds w → 0 < w.kern.errno ∧ w.kern.errno ≤ 255

/-- What the branches of `process_request` need. -/
theorem returns_processRequest_iff (hledger : Ledger w.srv) (hnum : w.kern.Numbered)
    (hcoded : ans.Coded) (hwhole : ans.Whole) {buf : RecvBuf} {size clientPid : Nat}
    {fds : Fd × Fd} :
    Returns (processRequest ans buf size clientPid fds) w ↔
      (∀ txnid p x, protUnmarshalCancel buf = some txnid → w.srv.xfers.find txnid = some p →
        w.srv.xferAt p = some x → pidMatches x clientPid = true →
        x.defer = .ready ∨ w.srv.deferredXfers.length < w.srv.xfers.size) ∧
      ∀ req, protUnmarshalRequest buf size = some req → TableTaken ans req clientPid fds w →
        0 < w.kern.errno ∧ w.kern.errno ≤ 255 := by
  cases hreq : protUnmarshalRequest buf size with
  | some req =>
      rw [returns_file_iff hledger hnum hcoded hwhole hreq]
      have hcancel : protUnmarshalCancel buf = none := by
        cases hc : protUnmarshalCancel buf with
        | none => rfl
        | some t =>
            have hcode : sfdGetCmd buf = ProtCmdReq.cancel.code := protUnmarshalTxnid_cmd hc
            have hfile := protUnmarshalRequest_fileCmd hreq
            rw [hcode] at hfile
            cases hfile
      rw [hcancel]
      refine ⟨fun h => ⟨nofun, fun req' heq => ?_⟩, fun h => h.2 req rfl⟩
      cases heq
      exact h
  | none =>
      refine Iff.trans ?_ (and_iff_left nofun).symm
      cases ht : protUnmarshalCancel buf with
      | some t =>
          rw [processRequest_txn (Or.inl rfl) ht, if_pos rfl, returns_processCancel_iff hledger, ht]
      | none =>
          refine ⟨fun _ => nofun, fun _ => ?_⟩
          unfold processRequest
          split
          · trivial
          · rename_i hstat
            split
            · trivial
            · cases hcode : ProtCmdReq.ofCode (sfdGetCmd buf) with
              | none => trivial
              | some cmd =>
                  cases cmd with
                  | read | send =>
                      simp only [processReadSend, hreq]
                      trivial
                  | fileOpen =>
                      simp only [processFileOpen, hreq]
                      trivial
                  | sendOpen => exact returns_processSendOpen hledger hwhole
                  | cancel =>
                      simp only [processCancel, ht]
                      trivial

/-- A request that names a transfer was decoded. -/
theorem Server.namedBy_txnid {s : Server} {cmd : ProtCmdReq} {p : Ptr} {x : ResrcXfer}
    (h : s.namedBy cmd r = some (p, x)) : ∃ t, protUnmarshalTxnid cmd s.recvbuf = some t := by
  unfold Server.namedBy at h
  split at h
  · cases h
  · obtain ⟨t, ht, -⟩ := Option.bind_eq_some_iff.mp h
    exact ⟨t, ht⟩

/-- A datagram that is handed to `process_request` is digestible if the request is. -/
theorem digestible_iff (hread : r.nread ≠ 0) (huid : r.uid = w.srv.uid)
    (hcount : ¬ (sfdGetCmd w.srv.recvbuf ≠ ProtCmdReq.cancel.code ∧
      (r.nfds < 1 ∨ protMaxFds < r.nfds))) :
    Digestible ans r w ↔
      (∀ txnid p x, protUnmarshalCancel w.srv.recvbuf = some txnid →
        w.srv.xfers.find txnid = some p → w.srv.xferAt p = some x →
        pidMatches x r.pid = true →
        x.defer = .ready ∨ w.srv.deferredXfers.length < w.srv.xfers.size) ∧
      ∀ req, protUnmarshalRequest w.srv.recvbuf r.nread = some req →
        TableTaken ans req r.pid r.fds w → 0 < w.kern.errno ∧ w.kern.errno ≤ 255 := by
  constructor
  · intro h
    refine ⟨fun t p x ht hfind hp hpid => h.cancel p x ?_, fun req hreq => ?_⟩
    · exact Server.namedBy_eq huid (fun hne => absurd rfl hne) ht hfind hp hpid
    · refine h.status huid ?_ req hreq
      by_contra hzero
      refine hcount ⟨fun hcode => ?_, Or.inl (by omega)⟩
      have hfile := protUnmarshalRequest_fileCmd hreq
      rw [hcode] at hfile
      cases hfile
  · rintro ⟨hcancel, hstatus⟩
    refine ⟨hread, fun p x hnamed => ?_, fun _ _ => hstatus⟩
    obtain ⟨t, ht⟩ := Server.namedBy_txnid hnamed
    obtain ⟨-, -, hfind, hp, hpid⟩ := Server.namedBy_eq_some hnamed ht
    exact hcancel t p x ht hfind hp hpid

theorem returns_handleReceived_iff (hledger : Ledger w.srv) (hnum : w.kern.Numbered)
    (hcoded : ans.Coded) (hwhole : ans.Whole) (hmax : r.nfds ≤ protMaxFds) :
    Returns (handleReceived ans r) w ↔ Digestible ans r w := by
  by_cases hread : r.nread = 0
  · refine ⟨fun h => absurd h (not_returns ?_), fun h => absurd hread h.nonempty⟩
    simp [handleReceived, hread]
  simp only [handleReceived, Returns, wp_bind, wp_assert, wp_gets, ne_eq, hread, not_false_eq_true,
    forall_const, not_true_eq_false, false_implies, and_true]
  by_cases hcount : sfdGetCmd w.srv.recvbuf ≠ ProtCmdReq.cancel.code ∧
      (r.nfds < 1 ∨ protMaxFds < r.nfds)
  · rw [if_pos hcount]
    refine ⟨fun _ => ⟨hread, fun p x hnamed => ?_, fun _ hpos => ?_⟩, fun _ => trivial⟩
    · obtain ⟨t, ht⟩ := Server.namedBy_txnid hnamed
      exact absurd (protUnmarshalTxnid_cmd ht) hcount.1
    · omega
  rw [if_neg hcount]
  by_cases huid : r.uid = w.srv.uid
  · rw [if_neg (not_not.mpr huid), digestible_iff hread huid hcount,
      ← returns_processRequest_iff hledger hnum hcoded hwhole]
    simp only [wp_bind]
    have hrest : ∀ b w', wp (if b = true then pure () else closeFds ans r.fds r.nfds)
        (fun _ _ => True) (fun _ _ => False) w' := by
      intro b w'
      rw [wp_ite]
      exact ⟨fun _ => trivial, fun _ => returns_closeFds r.fds r.nfds w'⟩
    exact wp_congr fun b w' => ⟨fun _ => trivial, fun _ => hrest b w'⟩
  · rw [if_pos huid]
    refine ⟨fun _ => ⟨hread, fun p x hnamed => ?_, fun heq => absurd heq huid⟩, fun _ => ?_⟩
    · obtain ⟨t, ht⟩ := Server.namedBy_txnid hnamed
      exact absurd (Server.namedBy_eq_some hnamed ht).1 huid
    · simp only [wp_bind, sendXferErr]
      refine wp_sendPdu_whole (fun _ k _ _ => ?_) fun htorn => absurd hwhole htorn
      exact returns_closeFds r.fds r.nfds _

section Queue

variable {old : Fd × Fd} {d : Datagram} {ds : List Datagram}

/-- What fits into the buffers of `us_recv`. -/
def Datagram.Fits (d : Datagram) : Prop :=
  d.data.length ≤ protReqMaxSize ∧ d.files.length ≤ protMaxFds

/-- The datagram as `us_recv` hands it over. -/
def World.received (ans : Answers) (old : Fd × Fd) (d : Datagram) (creds : Ucred) (w : World) :
    Received where
  nread := min d.data.length protReqMaxSize
  nfds := (w.kern.arrivals ans d).length
  fds := recvFds old (w.kern.arrivals ans d)
  uid := creds.uid
  pid := creds.pid

/-- All descriptors of the datagram can be installed, and it has credentials. -/
def Receivable (ans : Answers) (d : Datagram) (k : Kernel) : Prop :=
  d.files.length ≤ (k.arriving ans d).length ∧ d.creds ≠ none

/-- `us_recv` fails for the other datagrams. -/
theorem wp_usRecv_fits (hfits : d.Fits) :
    wp (usRecv ans old d) (fun o w' => (o = none ∧ ¬ Receivable ans d w.kern) ∨
      (Receivable ans d w.kern ∧ ∃ creds, d.creds = some creds ∧
        o = some (w.received ans old d creds) ∧ w' = w.receive ans d)) (fun _ _ => False) w := by
  have hshort : ¬ protReqMaxSize < d.data.length := Nat.not_lt.mpr hfits.1
  simp only [usRecv, Kernel.recvmsg, wp_bind, wp_sys, wp_onSrv, decide_eq_false hshort]
  rw [wp_ite]
  refine ⟨fun htrunc => ?_, fun hsame => ?_⟩
  · refine Or.inl ⟨rfl, fun h => htrunc ?_⟩
    exact (decide_eq_false (Nat.not_lt.mpr h.1)).symm
  · have hall : d.files.length ≤ (w.kern.arriving ans d).length :=
      Nat.not_lt.mp (of_decide_eq_false (not_not.mp hsame).symm)
    cases hcreds : d.creds with
    | none => exact Or.inl ⟨rfl, fun h => h.2 hcreds⟩
    | some creds => exact Or.inr ⟨⟨hall, by simp [hcreds]⟩, creds, rfl, rfl, rfl⟩

/-- The server gets over a queue of datagrams: each can be received, and is digestible in
the state in which it is received. -/
def Manageable (ans : Answers) : Fd × Fd → List Datagram → World → Prop
  | _, [], _ => True
  | old, d :: ds, w =>
      (Receivable ans d w.kern ∧ ∀ creds, d.creds = some creds →
        Digestible ans (w.received ans old d creds) (w.receive ans d)) ∧
      ∀ fds w', handleDatagram ans old d w = .done (some fds) w' → Manageable ans fds ds w'

/-- The loop of `handle_reqfd` receives and handles every datagram of the queue. -/
inductive Drains (ans : Answers) : Fd × Fd → List Datagram → World → World → Prop
  | nil {old : Fd × Fd} {w : World} : Drains ans old [] w w
  | cons {old fds : Fd × Fd} {d : Datagram} {ds : List Datagram} {w w₁ w' : World}
      (h : handleDatagram ans old d w = .done (some fds) w₁) (hrest : Drains ans fds ds w₁ w') :
      Drains ans old (d :: ds) w w'

/-- One call of `handle_reqfd` handles the whole queue, and returns true when the socket
would block. -/
def Drained (ans : Answers) (old : Fd × Fd) (ds : List Datagram) (w : World) : Prop :=
  ∃ w₁ w', Drains ans old ds w w₁ ∧ handleReqfd ans EAGAIN old ds w = .done true w'

theorem drained_nil : Drained ans old [] w :=
  ⟨w, withErrno EAGAIN w, .nil, rfl⟩

theorem drained_cons_iff : Drained ans old (d :: ds) w ↔
    ∃ fds w₁, handleDatagram ans old d w = .done (some fds) w₁ ∧ Drained ans fds ds w₁ := by
  constructor
  · rintro ⟨w₂, w', hdrains, hdone⟩
    cases hdrains with
    | cons h hrest =>
        obtain ⟨o, w₁, h', hloop⟩ := bind_eq_done_iff.mp hdone
        rw [h] at h'
        cases h'
        exact ⟨_, _, h, w₂, w', hrest, hloop⟩
  · rintro ⟨fds, w₁, h, w₂, w', hrest, hdone⟩
    exact ⟨w₂, w', .cons h hrest, bind_eq_done_iff.mpr ⟨_, _, h, hdone⟩⟩

/-- The two parts of a round. -/
theorem handleDatagram_eq_some_iff {fds : Fd × Fd} {w' : World} :
    handleDatagram ans old d w = .done (some fds) w' ↔
      ∃ r w₁, usRecv ans old d w = .done (some r) w₁ ∧ handleReceived ans r w₁ = .done () w' ∧
        fds = r.fds := by
  constructor
  · intro h
    obtain ⟨o, w₁, hrecv, h⟩ := bind_eq_done_iff.mp h
    cases o with
    | none => cases h
    | some r =>
        obtain ⟨⟨⟩, w₂, hhandle, h⟩ := bind_eq_done_iff.mp h
        cases h
        exact ⟨r, w₁, hrecv, hhandle, rfl⟩
  · rintro ⟨r, w₁, hrecv, hhandle, rfl⟩
    exact bind_eq_done_iff.mpr ⟨_, _, hrecv, bind_eq_done_iff.mpr ⟨_, _, hhandle, rfl⟩⟩

section Reached

variable {s : State} {rest : List PollEvent} (hr : server.Reachable System.always s)
  (hphase : s.phase = .receiving old rest)
include hr hphase

/-- What is received and what is handled are steps of the server. -/
theorem reachable_received {r : Received} {w₁ : World}
    (h : usRecv ans old d s.world = .done (some r) w₁) :
    server.Reachable System.always ⟨w₁, .requested r rest⟩ := by
  obtain ⟨w, phase⟩ := s
  subst hphase
  refine hr.step (l := (ans, .receive d)) trivial ?_
  change some (settle (usRecv ans old d w) _) = _
  rw [h]
  rfl

theorem reachable_handled {fds : Fd × Fd} {w' : World}
    (h : handleDatagram ans old d s.world = .done (some fds) w') :
    server.Reachable System.always ⟨w', .receiving fds rest⟩ := by
  obtain ⟨r, w₁, hrecv, hhandle, rfl⟩ := handleDatagram_eq_some_iff.mp h
  refine (reachable_received hr hphase hrecv).step (l := (ans, .request)) trivial ?_
  change some (settle (handleReceived ans r w₁) _) = _
  rw [hhandle]
  rfl

/-- One datagram is received and handled if it can be received and is digestible. -/
theorem handleDatagram_iff (hcoded : ans.Coded) (hwhole : ans.Whole) (hfits : d.Fits) :
    (∃ fds w', handleDatagram ans old d s.world = .done (some fds) w') ↔
      Receivable ans d s.world.kern ∧ ∀ creds, d.creds = some creds →
        Digestible ans (s.world.received ans old d creds) (s.world.receive ans d) := by
  obtain ⟨o, w₁, hrecv⟩ : ∃ o w₁, usRecv ans old d s.world = .done o w₁ :=
    returns_iff.mp (wp_mono (wp_usRecv_fits hfits) (fun _ _ _ => trivial) fun _ _ h => h)
  simp only [handleDatagram_eq_some_iff]
  rcases wp_done (wp_usRecv_fits hfits) hrecv with ⟨rfl, hnot⟩ | ⟨hcan, creds, hcreds, rfl, rfl⟩
  · refine iff_of_false ?_ fun h => hnot h.1
    rintro ⟨fds, w', r, w₂, hsome, -⟩
    rw [hrecv] at hsome
    cases hsome
  · have hr₁ := reachable_received hr hphase hrecv
    have hmax : (s.world.received ans old d creds).nfds ≤ protMaxFds := by
      change (s.world.kern.arrivals ans d).length ≤ protMaxFds
      rw [Kernel.arrivals, Kernel.installAll_length, Kernel.arriving]
      simp only [List.length_take]
      omega
    have hiff := returns_handleReceived_iff (reachable_ledger hr₁).1
      (reachable_numbered hr₁ (by simp)) hcoded hwhole hmax
    constructor
    · rintro ⟨fds, w', r, w₂, hsome, hhandle, -⟩
      rw [hrecv] at hsome
      cases hsome
      refine ⟨hcan, fun creds' heq => ?_⟩
      rw [hcreds] at heq
      cases heq
      exact hiff.mp (returns_iff.mpr ⟨(), w', hhandle⟩)
    · rintro ⟨-, hdigest⟩
      obtain ⟨⟨⟩, w', hhandle⟩ := returns_iff.mp (hiff.mpr (hdigest creds hcreds))
      exact ⟨_, w', _, _, hrecv, hhandle, rfl⟩

end Reached

end Queue

section Runs

open Scenario

/-- Whether every datagram of a queue is handled. -/
def drainsAll (ans : Answers) : Fd × Fd → List Datagram → World → Bool
  | _, [], _ => true
  | old, d :: ds, w =>
      match handleDatagram ans old d w with
      | .done (some fds) w' => drainsAll ans fds ds w'
      | _ => false

theorem drained_of_drainsAll {old : Fd × Fd} {ds : List Datagram}
    (h : drainsAll ans old ds w = true) : Drained ans old ds w := by
  induction ds generalizing old w with
  | nil => exact drained_nil
  | cons d ds ih =>
      rw [drainsAll] at h
      split at h
      · exact drained_cons_iff.mpr ⟨_, _, ‹_›, ih h⟩
      · cases h

theorem answers_whole {node : FileNode} : (answers node).Whole := by
  intro t size n h
  cases h
  rfl

/-- The request socket has become readable. -/
def socketReady : List (Answers × Label) :=
  [(answers tenBytes, .wait [readable]), (answers tenBytes, .event (-1, -1))]

/-- A property of the world in which the queue is received. -/
def State.receives (P : Fd × Fd → World → Bool) (s : State) : Bool :=
  match s.phase with
  | .receiving old _ => P old s.world
  | _ => false

theorem State.of_receives {P : Fd × Fd → World → Bool} {s : State} (h : s.receives P = true) :
    ∃ old rest, s.phase = .receiving old rest ∧ P old s.world = true := by
  unfold State.receives at h
  split at h
  · exact ⟨_, _, ‹_›, h⟩
  · cases h

/-- Bytes that are no request, from another user, and behind them a READ. -/
def strayThenRead : List Datagram :=
  [⟨[255, 1, 2], [7], some stranger⟩, ⟨fileRequest .read 0 0, [1], some client⟩]

end Runs

end Sendfiled
