/-
Notices that are not held back.  The end of an open file that expires, or whose destination
the poller refuses, is told once, whatever becomes of the message.  Every other notice that
cannot be written for the moment becomes a pending response, and it stays one until its message
went out or its channel failed.
-/
import Sendfiled.Leaks
import Sendfiled.Notices
import Sendfiled.OpenFiles
import Sendfiled.RespRegs

namespace Sendfiled

open Prog Transition

variable {ans : Answers} {l : Label} {s s' : State} {a : Action} {c c' : Config} {p : Ptr}
  {x : ResrcXfer} {w w' : World} {pdu : Pdu} {fd : Fd}

/-- At the time `t`, a header cannot be written for the moment. -/
def Answers.stalls (ans : Answers) (t : Nat) : Bool :=
  match ans.write t 2 with
  | .error e => !errnoIsFatal e
  | .ok _ => false

/-- The next step tells a client of the end of its transfer by a message that is not retried,
and it cannot be written for the moment: an open file expires, or the poller refuses the
destination of a SEND_OPEN. -/
def State.dropsNotice (l : Answers × Label) (s : State) : Bool :=
  match l.2 with
  | .event _ => (s.cancels l.2).isSome && l.1.stalls s.world.kern.tick
  | .request => s.refusesDest l.1 && l.1.stalls (s.world.kern.tick + 1)
  | _ => false

/-- The steps in which every SEND brings its destination, and no notice is dropped. -/
def KeepsNotices (l : Answers × Label) (s : State) : Prop := Brings l s ∧ s.dropsNotice l = false

instance (l : Answers × Label) (s : State) : Decidable (KeepsNotices l s) :=
  inferInstanceAs (Decidable (_ ∧ _))

theorem Kernel.write_stalls {k : Kernel} {xfer : Option Ptr} {cmd : SfdCmdId} {stat : Nat}
    {e : Errno} (h : (k.write ans xfer fd (.hdr cmd stat)).1 = .error e)
    (he : errnoIsFatal e = false) : ans.stalls k.tick = true := by
  unfold Kernel.write at h
  cases hf : k.fds.lookup fd with
  | none =>
      rw [hf] at h
      cases h
      exact absurd he (by decide)
  | some f =>
      rw [hf] at h
      cases hw : ans.write k.tick 2 with
      | ok n => simp [Pdu.size, hw] at h
      | error e' =>
          simp only [Pdu.size, hw] at h
          cases h
          simp [Answers.stalls, hw, he]

/-! A live transfer has no pending response. -/

/-- Nothing is held back for a transfer that is live. -/
def View.Unanswered (v : View) : Prop := v.xfer ≠ none → ∀ r, v.resp r = none

theorem Deed.unanswered {v v' : View} (h : Deed ans p v v') (hv : v.Unanswered) :
    v'.Unanswered := by
  intro hlive r
  cases h with
  | served hx _ htransferred =>
      have hnone := hv (by simp [hx]) r
      cases htransferred with
      | full => exact hnone
      | faltered _ _ hfaltered =>
          cases hfaltered with
          | paused | stalled => exact hnone
  | ended | errored | shut | buried | rejected => exact absurd rfl hlive
  | cancelled hx | assigned hx => exact hv (by simp [hx]) r
  | dropped hr | settled hr | retried hr =>
      rw [hv hlive _] at hr
      cases hr

theorem reachable_unanswered (hr : server.Reachable System.always s)
    (hx : s.world.srv.xferAt p = some x) : ∀ r resp, s.world.srv.respAt r = some resp →
    resp.xfer ≠ p := by
  have hview : (s.world.view p).Unanswered := by
    refine view_invariant (V := View.Unanswered) ?_ ?_ ?_ ?_ hr
    · exact fun v hnone hlive => absurd hnone hlive
    · rintro x v ⟨-, -⟩ - r
      rfl
    · exact fun _ _ _ _ _ _ hdeed hv => hdeed.unanswered hv
    · intro w w' hexpired hv hlive r
      cases hexpired with
      | @intro x _ _ _ hx _ _ _ hview _ =>
          rw [hview]
          exact hv (by simp [World.view, hx]) r
  intro r resp hresp heq
  have hnone := hview (by simp [World.view, hx]) r
  simp [World.view, hresp, heq] at hnone

/-! What a step says for a transfer. -/

/-- A live transfer is spoken for by its own event and by the pass over the deferred
transfers, when it expires, and when the poller refuses its destination. -/
theorem StepMay.say_cases (h : StepMay ans l s (.say (some p) fd pdu) c)
    (hlt : p < s.world.srv.nextPtr)
    (hnone : ∀ r resp, s.world.srv.respAt r = some resp → resp.xfer ≠ p) :
    (∃ garbage ev rest, l = .event garbage ∧ s.phase = .events (ev :: rest) ∧
      ev.udata = .xfer p) ∨
    (l = .deferred ∧ s.phase = .events []) ∨
    (∃ garbage ev rest t tm x, l = .event garbage ∧ s.phase = .events (ev :: rest) ∧
      ev.udata = .timer t ∧ s.world.srv.timerAt t = some tm ∧
      s.world.srv.xfers.find tm.txnid = some p ∧ s.world.srv.xferAt p = some x ∧
      x.addr = tm.xferAddr ∧ x.nbytesLeft = x.file.size) ∨
    ∃ r rest txnid x e, l = .request ∧ s.phase = .requested r rest ∧
      r.uid = s.world.srv.uid ∧
      (sfdGetCmd s.world.srv.recvbuf ≠ ProtCmdReq.cancel.code → 0 < r.nfds) ∧
      protUnmarshalSendOpen s.world.srv.recvbuf = some txnid ∧
      s.world.srv.xfers.find txnid = some p ∧ s.world.srv.xferAt p = some x ∧
      pidMatches x r.pid = true ∧ x.defer ≠ .cancel ∧
      s.world.kern.epollAddError ans r.fds.1 = some e := by
  cases h with
  | free ha => cases ha
  | event hl hphase ha =>
      cases ha with
      | free ha => cases ha
      | xfer hu _ _ ha =>
          cases ha with
          | free ha => cases ha
          | speak ha =>
              cases ha
              exact Or.inl ⟨_, _, _, hl, hphase, hu⟩
      | timeout hu ht hfind hp haddr hleft =>
          exact Or.inr (Or.inr (Or.inl ⟨_, _, _, _, _, _, hl, hphase, hu, ht, hfind, hp, haddr,
            hleft⟩))
      | answer _ hr => exact absurd rfl (hnone _ _ hr)
  | request hl hphase huid hnfds ha =>
      cases ha with
      | free ha => cases ha
      | greet => exact absurd hlt (Nat.lt_irrefl _)
      | apologize htxnid hfind hp hpid hdefer herr =>
          exact Or.inr (Or.inr (Or.inr ⟨_, _, _, _, _, hl, hphase, huid, hnfds, htxnid, hfind,
            hp, hpid, hdefer, herr⟩))
  | deferred hl hphase => exact Or.inr (Or.inl ⟨hl, hphase⟩)

/-- Since `w`, no notice of the end of `p` was postponed. -/
def NonePostponed (p : Ptr) (w w' : World) : Prop :=
  ∃ tr, w'.kern.trace = w.kern.trace ++ tr ∧ ∀ fd pdu, ¬ Postponed p fd pdu tr

theorem NonePostponed.noticesHeld (h : NonePostponed p w w') : NoticesHeld p w w' := by
  obtain ⟨tr, htr, hnone⟩ := h
  exact ⟨tr, htr, fun fd pdu hpost => absurd hpost (hnone fd pdu)⟩

/-- Actions that do not speak for `p` postpone no notice of it. -/
theorem Acts.nonePostponed {A : Action → Config → Prop} (h : Acts A c c')
    (hA : ∀ a c, A a c → ∀ fd pdu, a ≠ .say (some p) fd pdu) :
    NonePostponed p c.world c'.world := by
  have hentries : ∃ tr, c'.world.kern.trace = c.world.kern.trace ++ tr ∧
      ∀ fd pdu result, Effect.sent (some p) fd pdu result ∉ tr := by
    refine h.keeps (I := fun d => ∃ tr, d.world.kern.trace = c.world.kern.trace ++ tr ∧
      ∀ fd pdu result, Effect.sent (some p) fd pdu result ∉ tr) ?_
      ⟨[], (List.append_nil _).symm, by simp⟩
    rintro a d d' ha hp ⟨tr, htr, hnone⟩
    obtain ⟨R, hR, hwrites⟩ := hp.records
    refine ⟨tr ++ R.map Prod.fst, by rw [hR.trace, htr, List.append_assoc], ?_⟩
    intro fd pdu result hmem
    rcases List.mem_append.mp hmem with hmem | hmem
    · exact hnone fd pdu result hmem
    obtain ⟨⟨e, f⟩, hentry, heq⟩ := List.mem_map.mp hmem
    cases heq
    rcases hwrites _ hentry with ⟨_, _, hclosed⟩ | hwrites
    · cases hclosed
    · cases hwrites
      exact hA _ _ ha _ _ rfl
  obtain ⟨tr, htr, hnone⟩ := hentries
  refine ⟨tr, htr, ?_⟩
  rintro fd pdu ⟨-, e, -, hmem⟩
  exact hnone fd pdu _ hmem

/-- A single message whose write does not fail for the moment. -/
theorem nonePostponed_of_said {cmd : SfdCmdId} {stat : Nat} {result : Except Errno Nat}
    {xfd : Fd} {k : Kernel} {tr : List Effect}
    (htrace : w'.kern.trace = w.kern.trace ++ .sent (some p) xfd (.hdr cmd stat) result :: tr)
    (hresult : result = (k.write ans (some p) xfd (.hdr cmd stat)).1)
    (hstalls : ans.stalls k.tick = false) (htr : ∀ e ∈ tr, e.onBehalf = none) :
    NonePostponed p w w' := by
  refine ⟨_, htrace, ?_⟩
  rintro fd pdu ⟨-, e, he, hmem⟩
  rcases List.mem_cons.mp hmem with heq | hmem
  · cases heq
    rw [Kernel.write_stalls hresult.symm he] at hstalls
    cases hstalls
  · cases htr _ hmem

/-- The expiry of an open file, told at once. -/
theorem wp_processTimer_told {t : Ptr} {tm : ResrcTimer} (ht : w.srv.timerAt t = some tm)
    (hfind : w.srv.xfers.find tm.txnid = some p) (hx : w.srv.xferAt p = some x)
    (hhit : x.addr = tm.xferAddr ∧ x.nbytesLeft = x.file.size)
    (hstalls : ans.stalls w.kern.tick = false) :
    wp (processTimer ans t) (fun _ w' => NonePostponed p w w') (fun _ _ => True) w := by
  apply wp_processTimer_hit ht hfind hx hhit
  · intro srv k result hresult hk _
    obtain ⟨closed, hclosed⟩ := Kernel.close_trace ans k tm.ident
    have htrace : (k.close ans tm.ident).2.trace = w.kern.trace ++
        .sent (some p) x.statFd (.hdr .xferStat ETIMEDOUT) result ::
          [.closed tm.ident closed] := by
      rw [hclosed, hk.trace, Kernel.log, List.append_assoc]
      rfl
    refine nonePostponed_of_said htrace hresult hstalls fun e he => ?_
    rw [List.mem_singleton.mp he]
    rfl
  · exact fun _ _ _ _ _ => trivial

section Steps

/-- One step of a run in which no notice is dropped. -/
theorem next_noticesHeld (hr : server.Reachable KeepsNotices s) (hg : KeepsNotices (ans, l) s)
    (hx : s.world.srv.xferAt p = some x) (hdup : ∀ w, s.TurnsTo ans p l w → Duplicates ans p w)
    (hn : next (ans, l) s = some (.ok s')) (hrun : s'.phase ≠ .stopped) :
    NoticesHeld p s.world s'.world := by
  have hb : server.Reachable Brings s := hr.mono fun _ _ h => h.1
  have hra : server.Reachable System.always s := hr.mono fun _ _ _ => trivial
  obtain ⟨hledger, hok⟩ := reachable_ledger hra
  have hlt := hledger.xfer_lt p x hx
  have hserved : Serves ans p l s → NoticesHeld p s.world s'.world := fun h =>
    h.noticesHeld hledger (Minted.reachable hra)
      (reachable_channeled hb (running_of_next hn)).descriptors hlt hn hrun
  by_cases hspeaks : ∃ fd pdu c, StepMay ans l s (.say (some p) fd pdu) c
  · obtain ⟨fd, pdu, c, hsay⟩ := hspeaks
    have hdrops := hg.2
    rcases hsay.say_cases hlt (reachable_unanswered hra hx) with
      ⟨garbage, ev, rest, rfl, hphase, hu⟩ | ⟨rfl, hphase⟩ |
      ⟨garbage, ev, rest, t, tm, y, rfl, hphase, hu, ht, hfind, hy, hhit⟩ |
      ⟨r, rest, txnid, y, e, rfl, hphase, huid, hnfds, htxnid, hfind, hy, hpid, hdefer, herr⟩
    · obtain ⟨w, phase⟩ := s
      subst hphase
      exact hserved (.event hu (hdup w (.event hu)))
    · obtain ⟨w, phase⟩ := s
      subst hphase
      exact hserved (.deferred fun vs i w₁ hbegun hi => hdup w₁ (.round hbegun hi))
    · -- the file expires
      have hcancels : s.cancels (.event garbage) = some (p, y) := by
        obtain ⟨udata, err, inp, out⟩ := ev
        simp only at hu
        subst hu
        simp [State.cancels, hphase, ht, hfind, hy, hhit]
      have hstalls : ans.stalls s.world.kern.tick = false := by
        simpa [State.dropsNotice, hcancels] using hdrops
      obtain ⟨w, phase⟩ := s
      subst hphase
      refine next_event_of_wp (wp_dispatchEvent_either ?_ ?_ (fun _ _ _ => trivial) fun err => ?_)
        hn hrun
      · rw [hu]
        exact Udata.noConfusion
      · exact NonePostponed.noticesHeld ⟨[], (List.append_nil _).symm, by simp [Postponed]⟩
      · rw [hu]
        exact wp_mono (wp_processTimer_told ht hfind hy hhit hstalls)
          (fun _ _ h => h.noticesHeld) fun _ _ he => he
    · -- the destination is refused
      have hpos : 0 < r.nfds := by
        refine hnfds ?_
        rw [protUnmarshalTxnid_cmd htxnid]
        decide
      have hresumed := next_resumed hok hphase huid hpos htxnid hfind hy hpid hdefer hn
      cases hresumed with
      | started _ _ _ _ htrace =>
          exact NonePostponed.noticesHeld ⟨[], by rw [htrace, List.append_nil], by simp [Postponed]⟩
      | rejected herr' hresult _ htrace hquiet =>
          have hstalls : ans.stalls (s.world.kern.tick + 1) = false := by
            have hnamed := Server.namedBy_eq huid (fun _ => Nat.ne_of_gt hpos)
              htxnid hfind hy hpid
            simpa [State.dropsNotice, State.refusesDest, hphase, hnamed, hdefer, herr] using hdrops
          exact (nonePostponed_of_said htrace hresult hstalls hquiet).noticesHeld
  · have hends := next_ends (A := StepMay ans l s) (fun a c ha => ha) hok hledger.nodup hn
    generalize hres : Except.ok s' = res at hends
    cases hends with
    | fault => cases hres
    | shut hacts =>
        obtain ⟨a, w', hstop⟩ := settle_ok hres.symm
        cases hstop
        exact absurd rfl hrun
    | next _ hacts =>
        cases hres
        exact (hacts.nonePostponed fun a c ha fd pdu heq =>
          hspeaks ⟨fd, pdu, c, heq ▸ ha⟩).noticesHeld

/-- The message is held back in `s'` for the transfer `p` of `s`, with a descriptor of its own
for the file behind the status channel; and from then on it is pending until the step in which
it goes out or its channel fails. -/
def Survives (p : Ptr) (fd : Fd) (pdu : Pdu) (s s' : State) : Prop :=
  ∃ x r resp f, s.world.srv.xferAt p = some x ∧ fd = x.statFd ∧
    s.world.kern.fds.lookup fd = some f ∧ s'.world.Retains r resp f ∧ resp.pdu = pdu ∧
    resp.xfer = p ∧ ∀ t, server.Steps KeepsNotices s' t → t.phase ≠ .stopped →
      PendingSince s' r resp t ∨ FreedSince KeepsNotices s' r resp t

end Steps

section Runs

open Scenario

/-- The client's pipe is full. -/
def clogged : Answers := { answers tenBytes with write := fun _ _ => .error EAGAIN }

/-- The timer of an open file has expired, and its client's pipe is full; the notice is lost,
although it could be duplicated and registered. -/
def expiryLost (s : State) : Bool :=
  s.phase == .events [expiring 1] && (s.world.srv.xferAt 0).any (fun x => x.statFd == 6) &&
    s.world.kern.regs.all (fun reg => reg.fd != s.world.kern.fileFd) &&
    match server.next (clogged, .event (-1, -1)) s with
    | some (.ok s') => s'.phase == .events [] &&
        s'.world.kern.trace == s.world.kern.trace ++
          [.sent (some 0) 6 (.hdr .xferStat ETIMEDOUT) (.error EAGAIN), .closed 8 true] &&
        s'.world.kern.regs.all fun reg => reg.udata.resp?.isNone
    | _ => false

end Runs

end Sendfiled
