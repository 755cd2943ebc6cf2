/-
The calls of the client library (sendfiled.c) that make requests.  A call that fails leaves
nothing behind and says why; one that succeeds has sent one message and leaves the read end
of a new pipe, whose write end is on its way to the server.
-/
import Sendfiled.Client.Process

namespace Sendfiled.Client

open Prog
open Startup (Os CString)

variable (os : Os) (ans : Answers)

/-- `REQ_IOVS`. -/
def reqParts (filename : Option CString) (req : ProtRequestPdu) : List Iov :=
  [some req.base, filename.map fun _ => req.filename.take (req.filenameLen + 1)]

/-- The request is marshalled and sent with the write end of the pipe. -/
def sendRequest (marshal : Option (List UInt8) → BitVec 64 → BitVec 64 →
    Except Errno ProtRequestPdu) (dest : List Fd) (sock : Fd) (filename : Option CString)
    (offset len : BitVec 64) (fds : Fd × Fd) : C (Option Fd) := do
  match marshal (filename.map CString.mem) offset len with
  | .error e =>
      setErrno e
      closeBoth ans fds
  | .ok req =>
      if ← usSendv os ans sock (reqParts filename req) (fds.2 :: dest) then
        close ans fds.2
        pure (some fds.1)
      else closeBoth ans fds

/-- The body that `sfd_read`, `sfd_open` and `sfd_send` share.  They differ in the command and
in the descriptors that are sent after the write end of the pipe. -/
def requestCall (marshal : Option (List UInt8) → BitVec 64 → BitVec 64 →
    Except Errno ProtRequestPdu) (dest : List Fd) (sock : Fd) (filename : Option CString)
    (offset len : BitVec 64) (nonblock : Bool) : C (Option Fd) := do
  match ← sfdPipe os ans true true with
  | none => pure none
  | some fds =>
      let ready ← if nonblock then pure true else setNonblock os ans fds.1 false
      if ready then sendRequest os ans marshal dest sock filename offset len fds
      else closeBoth ans fds

/-- `sfd_read`. -/
def sfdRead (sockfd : Fd) (filename : Option CString) (offset len : BitVec 64)
    (destFdNonblock : Bool) : C (Option Fd) :=
  requestCall os ans protMarshalRead [] sockfd filename offset len destFdNonblock

/-- `sfd_open`. -/
def sfdOpen (srvSockfd : Fd) (filename : Option CString) (offset len : BitVec 64)
    (statFdNonblock : Bool) : C (Option Fd) :=
  requestCall os ans protMarshalFileOpen [] srvSockfd filename offset len statFdNonblock

/-- `sfd_send`. -/
def sfdSend (srvSockfd : Fd) (filename : Option CString) (destFd : Fd) (offset len : BitVec 64)
    (statFdNonblock : Bool) : C (Option Fd) :=
  requestCall os ans protMarshalSend [destFd] srvSockfd filename offset len statFdNonblock

/-- `sfd_send_open`. -/
def sfdSendOpen (srvSockfd : Fd) (txnid : BitVec 64) (destFd : Fd) : C Bool :=
  usSendv os ans srvSockfd [some (protMarshalSendOpen txnid).bytes] [destFd]

/-- `sfd_cancel`. -/
def sfdCancel (srvSockfd : Fd) (txnid : BitVec 64) : C Bool :=
  usSendv os ans srvSockfd [some (protMarshalCancel txnid).bytes] []

section Specs

variable {os ans} {s s' : Process} {sock : Fd}

/-- What a descriptor that is sent refers to.  One that is not open may be taken for an end
of the pipe that was just made. -/
def Refers (s : Process) (fd : Fd) (f : File) : Prop :=
  (∃ d, s.fds.lookup fd = some d ∧ d.file = f) ∨
    (s.fds.lookup fd = none ∧ (f = .readEnd s.nextPipe ∨ f = .writeEnd s.nextPipe))

/-- What is left of a call that failed: nothing but `errno`, which is the error of the first
system call that failed.  If none failed, the name was too long. -/
structure Failed (e : Option Errno) (s s' : Process) : Prop where
  fds : ∀ fd, s'.fds.lookup fd = s.fds.lookup fd
  held : ∀ n, s'.flags (.held n) = s.flags (.held n)
  sent : s'.sent = s.sent
  calls : ∃ calls, s'.calls = s.calls ++ calls ∧ firstError calls = e
  errno : s'.errno = e.getD ENAMETOOLONG

/-- A call that asks for a file has failed, or the request is sent: the process has the read
end of a pipe, closed on `exec` and blocking unless it is not to be, and nothing else that it
did not have; the server is sent the write end, which does not block. -/
inductive Asked (os : Os) (s : Process) (cmd : ProtCmdReq) (dest : List Fd) (sock : Fd)
    (filename : Option CString) (offset len : BitVec 64) (nonblock : Bool) :
    Option Fd → Process → Prop
  | failed {s' : Process} {e : Option Errno} (h : Failed e s s')
      (hlong : e = none →
        marshalReq cmd offset len (filename.map CString.mem) = .error ENAMETOOLONG) :
      Asked os s cmd dest sock filename offset len nonblock none s'
  | sent {s' : Process} {fd : Fd} {n : Nat} {name : CString} {req : ProtRequestPdu}
      {rights : List File} (hnew : s.fds.lookup fd = none)
      (hfds : ∀ fd', s'.fds.lookup fd' =
        if fd' = fd then some ⟨.readEnd s.nextPipe, true⟩ else s.fds.lookup fd')
      (hread : s'.flags (.readEnd s.nextPipe) = if nonblock then oNonblock os else 0)
      (hwrite : s'.flags (.writeEnd s.nextPipe) = oWronly ||| oNonblock os)
      (hheld : ∀ n, s'.flags (.held n) = s.flags (.held n))
      (hname : filename = some name)
      (hreq : marshalReq cmd offset len (some name.mem) = .ok req)
      (hsock : ∃ d, s.fds.lookup sock = some d ∧ d.file = .held n)
      (hrights : List.Forall₂ (Refers s) dest rights)
      (hsent : s'.sent = s.sent ++ [⟨.held n, reqIovs req, .writeEnd s.nextPipe :: rights⟩]) :
      Asked os s cmd dest sock filename offset len nonblock (some fd) s'

/-- A message about a transaction was not sent and nothing changed but `errno`, or it was. -/
inductive Told (s : Process) (data : List UInt8) (rights : List Fd) (sock : Fd) :
    Bool → Process → Prop
  | failed {s' : Process} {e : Errno} (h : Failed (some e) s s') :
      Told s data rights sock false s'
  | sent {s' : Process} {n : Nat} {fs : List File} (hfds : s'.fds = s.fds)
      (hflags : s'.flags = s.flags) (hsock : ∃ d, s.fds.lookup sock = some d ∧ d.file = .held n)
      (hrights : List.Forall₂ (fun fd f => ∃ d, s.fds.lookup fd = some d ∧ d.file = f) rights fs)
      (hsent : s'.sent = s.sent ++ [⟨.held n, data, fs⟩]) : Told s data rights sock true s'

/-- What `sendmsg` accepts. -/
theorem sendmsgError_eq_none {iovs : List Iov} {rights : List Fd}
    (h : sendmsgError os sock iovs rights s = none) :
    (∃ d n, s.fds.lookup sock = some d ∧ d.file = .held n) ∧ (∀ iov ∈ iovs, iov.isSome = true) ∧
      ∀ fd ∈ rights, fd ∈ s.fds := by
  unfold sendmsgError at h
  split at h
  · cases h
  · rename_i n b hsock
    split at h
    · rename_i hiovs
      split at h
      · rename_i hrights
        refine ⟨⟨_, n, hsock, rfl⟩, List.all_eq_true.mp hiovs, fun fd hfd => ?_⟩
        simpa using List.all_eq_true.mp hrights fd hfd
      · cases h
    · cases h
  · cases h

theorem wp_usSendv {iovs : List Iov} {rights : List Fd} {Q : Bool → Process → Prop}
    {E : Empty → Process → Prop}
    (hfail : ∀ calls e, firstError calls = some e → Q false (s.after calls e))
    (hdone : ∀ calls, firstError calls = none → sendmsgError os sock iovs rights s = none →
      Q true { (s.send sock iovs rights).2 with calls := s.calls ++ calls }) :
    wp (usSendv os ans sock iovs rights) Q E s := by
  have hcalled : ∀ (t : Process) (calls : List (Syscall × Option Errno)),
      t = { s with calls := s.calls ++ calls } → (t.send sock iovs rights).2.called .sendmsg none =
        { (s.send sock iovs rights).2 with calls := s.calls ++ (calls ++ [(.sendmsg, none)]) } := by
    rintro t calls rfl
    unfold Process.send Process.called
    dsimp only
    split <;> simp only [List.append_assoc]
  cases os with
  | linux =>
      simp only [usSendv, sendmsg, wp_bind]
      refine wp_syscall (by decide) hfail fun hnone => ?_
      have hsent := hdone _ (firstError_ok .sendmsg) hnone
      rw [← List.nil_append [_], ← hcalled s [] (by rw [List.append_nil])] at hsent
      exact hsent
  | freebsd =>
      simp only [usSendv, wp_bind]
      refine wp_syscall (by decide) hfail fun _ => ?_
      simp only [sendmsg, wp_bind]
      refine wp_syscall (by decide) (fun calls e he => ?_) fun hnone => ?_
      · have hcalls : firstError ([(.calloc, none)] ++ calls) = some e := by
          rw [firstError_append, firstError_ok, he]
          rfl
        have hfailed := hfail _ e hcalls
        rw [Process.after, ← List.append_assoc] at hfailed
        exact hfailed
      · have hsent := hdone ([(.calloc, none)] ++ [(.sendmsg, none)]) rfl hnone
        rw [← hcalled (s.called .calloc none) _ rfl] at hsent
        exact hsent

/-- The descriptors of a message and what they refer to. -/
theorem forall₂_files {rights : List Fd} (h : ∀ fd ∈ rights, fd ∈ s.fds) :
    List.Forall₂ (fun fd f => ∃ d, s.fds.lookup fd = some d ∧ d.file = f) rights
      (rights.filterMap fun fd => (s.fds.lookup fd).map Descriptor.file) := by
  induction rights with
  | nil => exact .nil
  | cons fd rights ih =>
      obtain ⟨d, hd⟩ :=
        Option.isSome_iff_exists.mp (AList.lookup_isSome.mpr (h fd List.mem_cons_self))
      rw [List.filterMap_cons_some (by rw [hd]; rfl)]
      exact .cons ⟨d, hd, rfl⟩ (ih fun fd' hfd' => h fd' (List.mem_cons_of_mem fd hfd'))

/-- A message that needs no pipe. -/
theorem wp_tell (data : List UInt8) (rights : List Fd) :
    wp (usSendv os ans sock [some data] rights) (fun ok s' => Told s data rights sock ok s')
      (fun _ _ => False) s := by
  refine wp_usSendv (fun calls e he => ?_) fun calls hcalls hnone => ?_
  · exact .failed ⟨fun _ => rfl, fun _ => rfl, rfl, ⟨calls, rfl, he⟩, rfl⟩
  · obtain ⟨⟨d, n, hsock, hd⟩, -, hrights⟩ := sendmsgError_eq_none hnone
    have hsend : (s.send sock [some data] rights).2 = { s with sent := s.sent ++
        [⟨.held n, data, rights.filterMap fun fd => (s.fds.lookup fd).map Descriptor.file⟩] } := by
      unfold Process.send
      rw [hsock]
      simp [hd]
    rw [hsend]
    exact .sent rfl rfl ⟨d, hsock, hd⟩ (forall₂_files hrights) rfl

/-- A pipe has been made since `s`, whose ends have these descriptor flags and status flags;
`e` is the first error since then. -/
structure Piped (s : Process) (r w : Fd) (cr cw : Bool) (fr fw : BitVec 32) (e : Option Errno)
    (s' : Process) : Prop where
  distinct : r ≠ w
  readNew : s.fds.lookup r = none
  writeNew : s.fds.lookup w = none
  fds : ∀ fd, s'.fds.lookup fd =
    if fd = r then some ⟨.readEnd s.nextPipe, cr⟩
    else if fd = w then some ⟨.writeEnd s.nextPipe, cw⟩ else s.fds.lookup fd
  readFlags : s'.flags (.readEnd s.nextPipe) = fr
  writeFlags : s'.flags (.writeEnd s.nextPipe) = fw
  held : ∀ n, s'.flags (.held n) = s.flags (.held n)
  sent : s'.sent = s.sent
  calls : ∃ calls, s'.calls = s.calls ++ calls ∧ firstError calls = e

theorem lowestFree_new (fds : AList (fun _ : Fd => Descriptor)) :
    fds.lookup (lowestFree fds.keys) = none :=
  AList.lookup_eq_none.mpr fun h => lowestFree_notMem fds.keys (AList.mem_keys.mp h)

theorem piped_openPipe (s : Process) (fl : BitVec 32) (cloexec : Bool) :
    Piped s (s.openPipe fl cloexec).1.1 (s.openPipe fl cloexec).1.2 cloexec cloexec fl
      (oWronly ||| fl) none ((s.openPipe fl cloexec).2.called .pipe none) := by
  have hr := lowestFree_new s.fds
  generalize hrdef : lowestFree s.fds.keys = r at hr
  have hw := lowestFree_new (s.fds.insert r ⟨.readEnd s.nextPipe, cloexec⟩)
  generalize hwdef : lowestFree (s.fds.insert r ⟨.readEnd s.nextPipe, cloexec⟩).keys = w at hw
  have hne : r ≠ w := by
    rintro rfl
    rw [AList.lookup_insert] at hw
    cases hw
  rw [AList.lookup_insert_ne (Ne.symm hne)] at hw
  have hopen : s.openPipe fl cloexec = ((r, w), { s with
      fds := (s.fds.insert r ⟨.readEnd s.nextPipe, cloexec⟩).insert w
        ⟨.writeEnd s.nextPipe, cloexec⟩
      flags := Function.update (Function.update s.flags (.readEnd s.nextPipe) fl)
        (.writeEnd s.nextPipe) (oWronly ||| fl)
      nextPipe := s.nextPipe + 1 }) := by
    rw [Process.openPipe, hrdef, hwdef]
  rw [hopen]
  refine ⟨hne, hr, hw, fun fd => ?_, ?_, ?_, fun n => ?_, rfl, _, rfl, firstError_ok .pipe⟩
  · dsimp only [Process.called]
    by_cases hfdw : fd = w
    · rw [hfdw, AList.lookup_insert, if_neg (Ne.symm hne), if_pos rfl]
    rw [AList.lookup_insert_ne hfdw, if_neg hfdw]
    by_cases hfdr : fd = r
    · rw [hfdr, AList.lookup_insert, if_pos rfl]
    · rw [AList.lookup_insert_ne hfdr, if_neg hfdr]
  · simp [Process.called]
  · simp [Process.called]
  · simp [Process.called]

namespace Piped

variable {r w : Fd} {cr cw : Bool} {fr fw : BitVec 32}

theorem lookup_read {e : Option Errno} (h : Piped s r w cr cw fr fw e s') :
    s'.fds.lookup r = some ⟨.readEnd s.nextPipe, cr⟩ := by
  rw [h.fds, if_pos rfl]

theorem lookup_write {e : Option Errno} (h : Piped s r w cr cw fr fw e s') :
    s'.fds.lookup w = some ⟨.writeEnd s.nextPipe, cw⟩ := by
  rw [h.fds, if_neg (Ne.symm h.distinct), if_pos rfl]

/-- Further calls that change nothing the library cares about. -/
theorem after {e : Option Errno} (h : Piped s r w cr cw fr fw none s')
    {calls : List (Syscall × Option Errno)} (hcalls : firstError calls = e) {errno : Errno} :
    Piped s r w cr cw fr fw e (s'.after calls errno) := by
  obtain ⟨before, hbefore, hnone⟩ := h.calls
  refine ⟨h.distinct, h.readNew, h.writeNew, h.fds, h.readFlags, h.writeFlags, h.held, h.sent,
    before ++ calls, ?_, ?_⟩
  · rw [Process.after, hbefore, List.append_assoc]
  · rw [firstError_append, hnone, hcalls]
    rfl

section Flags

variable (h : Piped s r w cr cw fr fw none s') {enabled : Bool} {Q : Bool → Process → Prop}
  {E : Empty → Process → Prop}
  (hfail : ∀ s'' e, Piped s r w cr cw fr fw (some e) s'' → s''.errno = e → Q false s'')

include h hfail

theorem wp_setNonblock_read
    (hdone : ∀ s'', Piped s r w cr cw (withNonblock os enabled fr) fw none s'' → Q true s'') :
    wp (setNonblock os ans r enabled) Q E s' := by
  refine wp_setNonblock h.lookup_read (fun calls e he => hfail _ e (h.after he) rfl) ?_
  intro calls hcalls
  have hafter : Piped s r w cr cw fr fw none (s'.after calls s'.errno) := h.after hcalls
  refine hdone _ ⟨h.distinct, h.readNew, h.writeNew, h.fds, ?_, ?_, fun n => ?_, h.sent,
    hafter.calls⟩
  · simp [h.readFlags]
  · simpa using h.writeFlags
  · simpa using h.held n

theorem wp_setNonblock_write
    (hdone : ∀ s'', Piped s r w cr cw fr (withNonblock os enabled fw) none s'' → Q true s'') :
    wp (setNonblock os ans w enabled) Q E s' := by
  refine wp_setNonblock h.lookup_write (fun calls e he => hfail _ e (h.after he) rfl) ?_
  intro calls hcalls
  have hafter : Piped s r w cr cw fr fw none (s'.after calls s'.errno) := h.after hcalls
  refine hdone _ ⟨h.distinct, h.readNew, h.writeNew, h.fds, ?_, ?_, fun n => ?_, h.sent,
    hafter.calls⟩
  · simpa using h.readFlags
  · simp [h.writeFlags]
  · simpa using h.held n

theorem wp_setCloexec_read
    (hdone : ∀ s'', Piped s r w enabled cw fr fw none s'' → Q true s'') :
    wp (setCloexec ans r enabled) Q E s' := by
  refine wp_setCloexec h.lookup_read (fun calls e he => hfail _ e (h.after he) rfl) ?_
  intro calls hcalls
  have hafter : Piped s r w cr cw fr fw none (s'.after calls s'.errno) := h.after hcalls
  refine hdone _ ⟨h.distinct, h.readNew, h.writeNew, fun fd => ?_, h.readFlags, h.writeFlags,
    h.held, h.sent, hafter.calls⟩
  by_cases hfd : fd = r
  · rw [hfd, AList.lookup_insert, if_pos rfl]
  · rw [AList.lookup_insert_ne hfd, h.fds, if_neg hfd, if_neg hfd]

theorem wp_setCloexec_write
    (hdone : ∀ s'', Piped s r w cr enabled fr fw none s'' → Q true s'') :
    wp (setCloexec ans w enabled) Q E s' := by
  refine wp_setCloexec h.lookup_write (fun calls e he => hfail _ e (h.after he) rfl) ?_
  intro calls hcalls
  have hafter : Piped s r w cr cw fr fw none (s'.after calls s'.errno) := h.after hcalls
  refine hdone _ ⟨h.distinct, h.readNew, h.writeNew, fun fd => ?_, h.readFlags, h.writeFlags,
    h.held, h.sent, hafter.calls⟩
  by_cases hfd : fd = w
  · rw [hfd, AList.lookup_insert, if_neg (Ne.symm h.distinct), if_pos rfl]
  · rw [AList.lookup_insert_ne hfd, h.fds, if_neg hfd, if_neg hfd]

end Flags

/-- Closing both ends on the way out leaves nothing behind. -/
theorem wp_closeBoth {e : Option Errno} (h : Piped s r w cr cw fr fw e s')
    (herrno : s'.errno = e.getD ENAMETOOLONG) {α : Type} {Q : Option α → Process → Prop}
    {E : Empty → Process → Prop} (hQ : ∀ s'', Failed e s s'' → Q none s'') :
    wp (closeBoth ans (r, w)) Q E s' := by
  have hr : r ∈ s'.fds := AList.lookup_isSome.mp (by rw [h.lookup_read]; rfl)
  have hw : w ∈ s'.fds.erase r := by
    refine AList.lookup_isSome.mp ?_
    rw [AList.lookup_erase_ne (Ne.symm h.distinct), h.lookup_write]
    rfl
  simp only [closeBoth, wp_bind, wp_pure]
  refine wp_preserveErrno_close hr fun e₁ => ?_
  refine wp_preserveErrno_close hw fun e₂ => hQ _ ?_
  obtain ⟨calls, hcalls, hfirst⟩ := h.calls
  refine ⟨fun fd => ?_, h.held, h.sent, ⟨calls ++ [(.close, e₁)] ++ [(.close, e₂)], ?_, ?_⟩,
    herrno⟩
  · dsimp only
    by_cases hfdw : fd = w
    · rw [hfdw, AList.lookup_erase, h.writeNew]
    rw [AList.lookup_erase_ne hfdw]
    by_cases hfdr : fd = r
    · rw [hfdr, AList.lookup_erase, h.readNew]
    · rw [AList.lookup_erase_ne hfdr, h.fds, if_neg hfdr, if_neg hfdw]
  · simp only [hcalls, List.append_assoc]
  · rw [firstError_append, firstError_append, firstError_close, firstError_close, hfirst,
      Option.or_none, Option.or_none]

end Piped

/-- The pipe of a request: closed on `exec` and not blocking at either end. -/
theorem wp_sfdPipe {Q : Option (Fd × Fd) → Process → Prop} {E : Empty → Process → Prop}
    (hfail : ∀ s' e, Failed (some e) s s' → Q none s')
    (hdone : ∀ r w s', Piped s r w true true (oNonblock os) (oWronly ||| oNonblock os) none s' →
      Q (some (r, w)) s') : wp (sfdPipe os ans true true) Q E s := by
  have hfirst : ∀ calls e, firstError calls = some e → Q none (s.after calls e) :=
    fun calls e he => hfail _ e ⟨fun _ => rfl, fun _ => rfl, rfl, ⟨calls, rfl, he⟩, rfl⟩
  cases os with
  | linux =>
      unfold sfdPipe
      exact wp_syscall (by decide) hfirst fun _ =>
        hdone _ _ _ (piped_openPipe s (oNonblock .linux) true)
  | freebsd =>
      simp only [sfdPipe, wp_bind]
      refine wp_syscall (by decide) hfirst fun _ => ?_
      have hpiped := piped_openPipe s 0 false
      generalize (s.openPipe 0 false).1 = fds at hpiped
      obtain ⟨r, w⟩ := fds
      generalize (s.openPipe 0 false).2.called .pipe none = s₁ at hpiped
      -- after a call that failed
      have hclose : ∀ {cr cw : Bool} {fr fw : BitVec 32} (s'' : Process) (e : Errno),
          Piped s r w cr cw fr fw (some e) s'' → s''.errno = e →
          wp (closeBoth ans (r, w)) Q E s'' :=
        fun s'' e h he => h.wp_closeBoth he fun s' => hfail s' e
      simp only [if_true, andThen, wp_bind]
      refine hpiped.wp_setNonblock_read hclose fun s₂ h₂ => ?_
      simp only [if_true]
      refine h₂.wp_setNonblock_write hclose fun s₃ h₃ => ?_
      simp only [if_true, wp_bind]
      refine h₃.wp_setCloexec_read hclose fun s₄ h₄ => ?_
      simp only [if_true]
      refine h₄.wp_setCloexec_write hclose fun s₅ h₅ => ?_
      exact hdone r w s₅ h₅

/-- The descriptors that were open before the pipe was made. -/
theorem Piped.refers {r w fd : Fd} {cr cw : Bool} {fr fw : BitVec 32} {e : Option Errno}
    {d : Descriptor} (h : Piped s r w cr cw fr fw e s') (hd : s'.fds.lookup fd = some d) :
    Refers s fd d.file := by
  rw [h.fds] at hd
  split_ifs at hd with hr hw
  · cases hd
    exact Or.inr ⟨hr ▸ h.readNew, Or.inl rfl⟩
  · cases hd
    exact Or.inr ⟨hw ▸ h.writeNew, Or.inr rfl⟩
  · exact Or.inl ⟨d, hd, rfl⟩

/-- The only error of `marshal_req`. -/
theorem marshalReq_error {cmd : ProtCmdReq} {offset len : BitVec 64}
    {filename : Option (List UInt8)} {e : Errno}
    (h : marshalReq cmd offset len filename = .error e) : e = ENAMETOOLONG := by
  unfold marshalReq at h
  split at h
  · cases h
    rfl
  · cases h

/-- The message is on its way, and the process closes its copy of the write end. -/
theorem Piped.asked {r w : Fd} {cmd : ProtCmdReq} {dest : List Fd} {filename : Option CString}
    {offset len : BitVec 64} {nonblock : Bool} {req : ProtRequestPdu}
    {calls : List (Syscall × Option Errno)}
    (h : Piped s r w true true (if nonblock then oNonblock os else 0) (oWronly ||| oNonblock os)
      none s')
    (hreq : marshalReq cmd offset len (filename.map CString.mem) = .ok req)
    (hnone : sendmsgError os sock (reqParts filename req) (w :: dest) s' = none) :
    wp (do close ans w; pure (some r))
      (fun o s'' => Asked os s cmd dest sock filename offset len nonblock o s'')
      (fun _ _ => False)
      { (s'.send sock (reqParts filename req) (w :: dest)).2 with calls := s'.calls ++ calls } := by
  obtain ⟨⟨d, n, hsock, hd⟩, hiovs, hrights⟩ := sendmsgError_eq_none hnone
  obtain ⟨name, rfl⟩ : ∃ name, filename = some name := by
    cases filename with
    | some name => exact ⟨name, rfl⟩
    | none => exact absurd (hiovs none (by simp [reqParts])) (by simp)
  obtain ⟨rights, hfiles, hrefers⟩ : ∃ rights,
      (w :: dest).filterMap (fun fd => (s'.fds.lookup fd).map Descriptor.file) =
        .writeEnd s.nextPipe :: rights ∧ List.Forall₂ (Refers s) dest rights := by
    refine ⟨_, List.filterMap_cons_some (by rw [h.lookup_write]; rfl), ?_⟩
    refine (forall₂_files fun fd hfd => hrights fd (List.mem_cons_of_mem w hfd)).imp ?_
    rintro fd f ⟨d', hd', rfl⟩
    exact h.refers hd'
  have hsend : (s'.send sock (reqParts (some name) req) (w :: dest)).2 =
      { s' with sent := s'.sent ++ [⟨.held n, reqIovs req, .writeEnd s.nextPipe :: rights⟩] } := by
    unfold Process.send
    rw [hsock]
    simp only [hd, hfiles]
    simp [reqParts, reqIovs]
  have hsocket : ∃ d, s.fds.lookup sock = some d ∧ d.file = .held n := by
    rcases h.refers hsock with hopen | ⟨-, hend | hend⟩
    · rwa [hd] at hopen
    · rw [hd] at hend
      cases hend
    · rw [hd] at hend
      cases hend
  have hw : w ∈ s'.fds := AList.lookup_isSome.mp (by rw [h.lookup_write]; rfl)
  rw [hsend]
  have hfds : ∀ fd, (s'.fds.erase w).lookup fd =
      if fd = r then some ⟨.readEnd s.nextPipe, true⟩ else s.fds.lookup fd := by
    intro fd
    by_cases hfdw : fd = w
    · rw [hfdw, AList.lookup_erase, if_neg (Ne.symm h.distinct), h.writeNew]
    · rw [AList.lookup_erase_ne hfdw, h.fds, if_neg hfdw]
  simp only [close, wp_bind, wp_modify, wp_pure, if_pos hw]
  split
  · exact .sent h.readNew hfds h.readFlags h.writeFlags h.held rfl hreq hsocket hrefers
      (by simp only [Process.called, h.sent])
  · exact .sent h.readNew hfds h.readFlags h.writeFlags h.held rfl hreq hsocket hrefers
      (by simp only [Process.called, h.sent])

/-- What all the calls that ask for a file come to. -/
theorem wp_requestCall (cmd : ProtCmdReq)
    {marshal : Option (List UInt8) → BitVec 64 → BitVec 64 → Except Errno ProtRequestPdu}
    (hmarshal : ∀ name offset len, marshal name offset len = marshalReq cmd offset len name)
    (dest : List Fd) (filename : Option CString) (offset len : BitVec 64) (nonblock : Bool) :
    wp (requestCall os ans marshal dest sock filename offset len nonblock)
      (fun o s' => Asked os s cmd dest sock filename offset len nonblock o s')
      (fun _ _ => False) s := by
  simp only [requestCall, wp_bind]
  refine wp_sfdPipe (fun s' e h => .failed h (by simp)) fun r w s₁ h₁ => ?_
  -- after a call that failed
  have hclose : ∀ {fr fw : BitVec 32} (s₂ : Process) (e : Errno),
      Piped s r w true true fr fw (some e) s₂ → s₂.errno = e →
      wp (closeBoth ans (r, w))
        (fun o s' => Asked os s cmd dest sock filename offset len nonblock o s')
        (fun _ _ => False) s₂ :=
    fun s₂ e h he => h.wp_closeBoth he fun s' hfailed => .failed hfailed (by simp)
  -- once the read end is as it is to be
  have hready : ∀ s₂, Piped s r w true true (if nonblock then oNonblock os else 0)
      (oWronly ||| oNonblock os) none s₂ →
      wp (sendRequest os ans marshal dest sock filename offset len (r, w))
        (fun o s' => Asked os s cmd dest sock filename offset len nonblock o s')
        (fun _ _ => False) s₂ := by
    intro s₂ h₂
    unfold sendRequest
    rw [hmarshal]
    cases hreq : marshalReq cmd offset len (filename.map CString.mem) with
    | error e =>
        cases marshalReq_error hreq
        simp only [setErrno, wp_bind, wp_modify]
        have hlong : Piped s r w true true (if nonblock then oNonblock os else 0)
            (oWronly ||| oNonblock os) none { s₂ with errno := ENAMETOOLONG } :=
          ⟨h₂.distinct, h₂.readNew, h₂.writeNew, h₂.fds, h₂.readFlags, h₂.writeFlags, h₂.held,
            h₂.sent, h₂.calls⟩
        exact hlong.wp_closeBoth rfl fun s' h => .failed h fun _ => hreq
    | ok req =>
        simp only [wp_bind]
        refine wp_usSendv (fun calls e he => ?_) fun calls hcalls hnone => ?_
        · exact hclose _ e (h₂.after he) rfl
        · exact h₂.asked hreq hnone
  cases nonblock with
  | true => exact hready s₁ h₁
  | false =>
      simp only [Bool.false_eq_true, if_false, wp_bind]
      refine h₁.wp_setNonblock_read ?_ fun s₂ h₂ => ?_
      · exact fun s₂ e h he => hclose s₂ e h he
      have hflags : withNonblock os false (oNonblock os) = 0 := by cases os <;> decide
      rw [hflags] at h₂
      exact hready s₂ h₂

end Specs

/-- Every call of the library has an effect that is whole or none at all: a call that asks for
a file has sent the request and left the read end of a pipe, or has left nothing but its
error, and a call about a transaction has sent its message or has changed nothing. -/
theorem calls_whole_or_nothing (s : Process) (sock : Fd) :
    (∀ filename offset len nonblock, wp (sfdRead os ans sock filename offset len nonblock)
      (fun o s' => Asked os s .read [] sock filename offset len nonblock o s')
      (fun _ _ => False) s) ∧
    (∀ filename offset len nonblock, wp (sfdOpen os ans sock filename offset len nonblock)
      (fun o s' => Asked os s .fileOpen [] sock filename offset len nonblock o s')
      (fun _ _ => False) s) ∧
    (∀ filename dest offset len nonblock,
      wp (sfdSend os ans sock filename dest offset len nonblock)
        (fun o s' => Asked os s .send [dest] sock filename offset len nonblock o s')
        (fun _ _ => False) s) ∧
    (∀ txnid dest, wp (sfdSendOpen os ans sock txnid dest)
      (fun ok s' => Told s (protMarshalSendOpen txnid).bytes [dest] sock ok s')
      (fun _ _ => False) s) ∧
    ∀ txnid, wp (sfdCancel os ans sock txnid)
      (fun ok s' => Told s (protMarshalCancel txnid).bytes [] sock ok s') (fun _ _ => False) s := by
  refine ⟨fun filename offset len nonblock => ?_, fun filename offset len nonblock => ?_,
    fun filename dest offset len nonblock => ?_, fun txnid dest => ?_, fun txnid => ?_⟩
  · exact wp_requestCall .read (fun _ _ _ => rfl) [] filename offset len nonblock
  · exact wp_requestCall .fileOpen (fun _ _ _ => rfl) [] filename offset len nonblock
  · exact wp_requestCall .send (fun _ _ _ => rfl) [dest] filename offset len nonblock
  · exact wp_tell (protMarshalSendOpen txnid).bytes [dest]
  · exact wp_tell (protMarshalCancel txnid).bytes []

end Sendfiled.Client
