/-
The transfers that are registered with the poller.  A transfer is registered
under its destination, so a request that replaces the destination of a running
transfer leaves a registration behind; without such requests no registration and
no event outlives its transfer.
-/
import Sendfiled.Descriptors
import Sendfiled.DeferredList

namespace Sendfiled

open Prog Transition Ownership

/-- The next request replaces the destination of a transfer that has one. -/
def State.redirects (s : State) : Bool :=
  match s.phase with
  | .requested r _ => (s.world.srv.namedBy .sendOpen r).any fun named =>
      named.2.defer != .cancel && named.2.destFd != -1
  | _ => false

/-- The next request is a SEND with a single descriptor, so that the destination is
the zero behind it in the descriptor array. -/
def State.lacksDest (s : State) : Bool :=
  match s.phase with
  | .requested r _ => r.uid == s.world.srv.uid && r.nfds == 1 &&
      (protUnmarshalRequest s.world.srv.recvbuf r.nread).any fun req => req.cmd == .send
  | _ => false

/-- The steps after which every transfer still has the destination it was
registered with, and has it for itself. -/
def keepsDest : Answers × Label → State → Bool
  | (_, .request), s => !s.redirects && !s.lacksDest
  | _, _ => true

def KeepsDest (l : Answers × Label) (s : State) : Prop := keepsDest l s = true

instance (l : Answers × Label) (s : State) : Decidable (KeepsDest l s) :=
  inferInstanceAs (Decidable (_ = true))

/-- The transfer a registration or an event refers to. -/
def Udata.xfer? : Udata → Option Ptr
  | .xfer p => some p
  | _ => none

theorem Udata.xfer?_eq_some {u : Udata} {p : Ptr} : u.xfer? = some p ↔ u = .xfer p := by
  cases u <;> simp [Udata.xfer?]

/-- The transfers that are registered, once for each registration. -/
def Kernel.registered (k : Kernel) : List Ptr := k.regs.filterMap fun r => r.udata.xfer?

/-- Every registered transfer is live, and registered once, under its destination. -/
structure Registered (c : Config) : Prop where
  current : ∀ reg ∈ c.world.kern.regs, ∀ p, reg.udata = .xfer p →
    ∃ x, c.world.srv.xferAt p = some x ∧ x.destFd = reg.fd ∧
      c.world.kern.fds.lookup reg.fd = some reg.file
  once : c.world.kern.registered.Nodup

/-- What the poller and the descriptor table have to agree on. -/
structure Watched (c : Config) : Prop where
  descriptors : Descriptors (0 ≤ ·) c
  registered : Registered c

/-- Transfers are deleted without being deregistered only if they are not
registered, a destination is given only to transfers that have none, and a new
transfer gets descriptors in hand only. -/
def settled : Action → Config → Prop
  | .retire p, c => ∀ x, c.world.srv.xferAt p = some x →
      x.destFd = -1 ∨ ∀ reg ∈ c.world.kern.regs, reg.udata ≠ .xfer p
  | .assign p _, c => ∀ x, c.world.srv.xferAt p = some x → x.destFd = -1
  | .enroll x, c => ∀ L, c.loose = x.file.fd :: L → 0 ≤ x.destFd → x.destFd ∈ L
  | _, _ => True

theorem settled.entitled {a : Action} {c : Config} (h : settled a c) :
    Descriptors.Entitled (0 ≤ ·) a c := by
  rintro x L rfl hL hgood
  exact h L hL hgood

namespace Kernel

variable (ans : Answers) (k : Kernel)

/-- What was registered under a descriptor that is open is not any more. -/
theorem notMem_epollDel {reg : Reg} (h : k.fds.lookup reg.fd = some reg.file) :
    reg ∉ (k.epollDel reg.fd).2.regs := by
  unfold epollDel
  simp only [h]
  split
  · simp [succeed]
  · rename_i hany
    intro hin
    exact hany (List.any_eq_true.mpr ⟨reg, hin, by simp⟩)

end Kernel

/-- The actions that delete a transfer or give it a destination. -/
def Action.unsettles : Action → Option Ptr
  | .retire p | .discard p | .bury p | .assign p _ => some p
  | _ => none

/-- All other actions leave a live transfer its destination. -/
theorem Performs.keeps_dest {a : Action} {c c' : Config} (h : Performs a c c')
    (hc : Ledger c.world.srv) {p : Ptr} {x : ResrcXfer} (hp : c.world.srv.xferAt p = some x)
    (ha : a.unsettles ≠ some p) :
    ∃ y, c'.world.srv.xferAt p = some y ∧ y.destFd = x.destFd := by
  by_cases hsubject : a.subject = some p
  · cases h with
    | quiet | say | openFile | seek | openTimer | arrive | dup | shut | reshut | register
    | forget | enroll | skip | balk | addTimer | skipTimer | arm | expire | botch | addResp
    | skipResp | dropResp => cases hsubject
    | retire | discard | bury | assign => exact absurd hsubject ha
    | cancel hx | ready hx =>
        cases hsubject
        rw [hp] at hx
        cases hx
        exact ⟨_, Function.update_self _ _ _, rfl⟩
    | release _ hx | move _ hx =>
        cases hsubject
        rw [hp] at hx
        cases hx
        exact ⟨_, Function.update_self _ _ _, rfl⟩
  · exact ⟨x, (h.frame (hc.xfer_lt p x hp) hsubject).trans hp, rfl⟩

namespace Registered

variable {a : Action} {c c' : Config}

/-- A registration is removed before its transfer is deleted or gets another
destination. -/
theorem keep (h : Registered c) (hd : Descriptors (0 ≤ ·) c) (hp : Performs a c c')
    (hregs : c'.world.kern.regs.Sublist c.world.kern.regs)
    (hlive : ∀ reg ∈ c'.world.kern.regs, ∀ p x, reg.udata = .xfer p →
      c.world.srv.xferAt p = some x → x.destFd = reg.fd →
      c.world.kern.fds.lookup reg.fd = some reg.file →
      ∃ y, c'.world.srv.xferAt p = some y ∧ y.destFd = x.destFd) : Registered c' where
  current := by
    intro reg hreg p hu
    obtain ⟨x, hx, hdest, hfile⟩ := h.current reg (hregs.subset hreg) p hu
    obtain ⟨y, hy, hsame⟩ := hlive reg hreg p x hu hx hdest hfile
    refine ⟨y, hy, hsame.trans hdest, ?_⟩
    have hspared := Descriptors.spares hp hd (o := .channel p)
      (hd.nonneg _ (Kernel.mem_of_lookup hfile)) ⟨x, hx, Or.inr hdest.symm⟩
      ⟨y, hy, Or.inr (hsame.trans hdest).symm⟩
    exact hspared.lookup.trans hfile
  once := (hregs.filterMap _).nodup h.once

/-- A transfer without a destination is not registered. -/
theorem not_registered (h : Registered c) (hd : Descriptors (0 ≤ ·) c) {p : Ptr} {x : ResrcXfer}
    (hx : c.world.srv.xferAt p = some x) (hdest : x.destFd = -1) :
    ∀ reg ∈ c.world.kern.regs, reg.udata ≠ .xfer p := by
  intro reg hreg hu
  obtain ⟨y, hy, hfd, hfile⟩ := h.current reg hreg p hu
  rw [hx] at hy
  cases hy
  have hnonneg := hd.nonneg _ (Kernel.mem_of_lookup hfile)
  rw [← hfd, hdest] at hnonneg
  exact absurd hnonneg (by decide)

/-- After a transfer was taken apart it is not registered any more. -/
theorem dismantle (h : Registered c) {ans : Answers} {p : Ptr} {x : ResrcXfer}
    (hx : c.world.srv.xferAt p = some x) :
    ∀ reg ∈ (c.world.kern.dismantle ans x).regs, reg.udata ≠ .xfer p := by
  intro reg hreg hu
  have hdel := (Kernel.dismantle_regs ans c.world.kern x).subset hreg
  obtain ⟨y, hy, hfd, hfile⟩ :=
    h.current reg ((Kernel.epollDel_regs _ _).subset hdel) p hu
  rw [hx] at hy
  cases hy
  rw [hfd] at hdel
  exact Kernel.notMem_epollDel _ hfile hdel

theorem performs (hc : Ledger c.world.srv) (hd : Descriptors (0 ≤ ·) c) (ha : settled a c)
    (hp : Performs a c c') (h : Registered c) : Registered c' := by
  rcases hp.regs with hregs | ⟨new, hnew, -⟩
  case inr =>
    obtain ⟨hident, hfile', hunlisted, hmore, hxfers, hfds⟩ := hnew
    constructor
    · intro reg hmem p hu
      rw [hmore] at hmem
      rw [hxfers, hfds]
      rcases List.mem_append.mp hmem with hold | hin
      · exact h.current reg hold p hu
      · cases List.mem_singleton.mp hin
        rw [hu] at hident
        obtain ⟨x, hx, hdest, -⟩ := hident
        exact ⟨x, hxfers ▸ hx, hdest, hfile'⟩
    · unfold Kernel.registered
      rw [hmore, List.filterMap_append, List.filterMap_cons, List.filterMap_nil]
      cases hxfer : new.udata.xfer? with
      | none => simpa [Kernel.registered] using h.once
      | some p =>
          rw [Udata.xfer?_eq_some.mp hxfer] at hident
          apply List.Nodup.append h.once (List.nodup_singleton p)
          simp only [List.disjoint_singleton]
          intro hin
          obtain ⟨reg, hreg, hu⟩ := List.mem_filterMap.mp hin
          obtain ⟨x, hx, hdest, hfile⟩ := h.current reg hreg p (Udata.xfer?_eq_some.mp hu)
          obtain ⟨y, hy, hfd, -⟩ := hident
          rw [hxfers, hx] at hy
          cases hy
          have hsame : reg.fd = new.fd := hdest.symm.trans hfd
          apply hunlisted reg hreg
          rw [hsame] at hfile
          exact ⟨hsame, Option.some.inj (hfile.symm.trans hfile')⟩
  case inl =>
    refine h.keep hd hp hregs fun reg hmem p x hu hx hdest hfile => ?_
    by_cases hun : a.unsettles = some p
    · -- the transfer is not registered where it is deleted or gets a destination
      exfalso
      have hmem' := hregs.subset hmem
      cases hp with
      | retire _ hy =>
          cases hun
          rcases ha _ hy with hnone | hnone
          · exact h.not_registered hd hy hnone reg hmem' hu
          · exact hnone reg hmem' hu
      | assign hy =>
          cases hun
          exact h.not_registered hd hy (ha _ hy) reg hmem' hu
      | discard ans hy | bury ans _ hy =>
          cases hun
          exact h.dismantle hy reg hmem hu
      | quiet | say | openFile | seek | openTimer | arrive | dup | shut | reshut | register
      | forget | enroll | skip | addTimer | skipTimer | arm | expire | botch | addResp
      | skipResp | dropResp | cancel | ready | release | move | balk => cases hun
    · exact hp.keeps_dest hc hx hun

end Registered

/-- The transfer named by a SEND_OPEN request that keeps destinations has none yet. -/
theorem KeepsDest.named {ans : Answers} {s : State} {r : Received} {rest : List PollEvent}
    (hg : KeepsDest (ans, .request) s) (hphase : s.phase = .requested r rest)
    (huid : r.uid = s.world.srv.uid) {txnid : Nat} {p : Ptr} {x : ResrcXfer}
    (hfds : sfdGetCmd s.world.srv.recvbuf ≠ ProtCmdReq.cancel.code → 0 < r.nfds)
    (htxnid : protUnmarshalSendOpen s.world.srv.recvbuf = some txnid)
    (hfind : s.world.srv.xfers.find txnid = some p) (hx : s.world.srv.xferAt p = some x)
    (hpid : pidMatches x r.pid = true) (hcancel : x.defer ≠ .cancel) : x.destFd = -1 := by
  have hcmd := protUnmarshalTxnid_cmd htxnid
  have hnamed := Server.namedBy_eq huid
    (fun _ => Nat.ne_of_gt (hfds (by rw [hcmd]; decide))) htxnid hfind hx hpid
  have hkept : s.redirects = false := by
    unfold KeepsDest keepsDest at hg
    simp only [Bool.and_eq_true, Bool.not_eq_true'] at hg
    exact hg.1
  by_contra hdest
  simp [State.redirects, hphase, hnamed, hcancel, hdest] at hkept

/-- The destination of a new transfer is one of the descriptors that arrived, unless it is a
SEND without a destination. -/
theorem State.destination {s : State} {r : Received} {rest : List PollEvent}
    (hbrings : s.lacksDest = false) (hphase : s.phase = .requested r rest)
    (hok : PhaseOk s) (huid : r.uid = s.world.srv.uid) (hfds : 0 < r.nfds) {req : ProtRequest}
    (hreq : protUnmarshalRequest s.world.srv.recvbuf r.nread = some req)
    (hopen : req.cmd ≠ .fileOpen) : req.destFd r.fds ∈ r.arrived := by
  simp only [PhaseOk, hphase] at hok
  unfold ProtRequest.destFd
  split
  · exact absurd ‹_› hopen
  · rename_i hcmd
    have hne : r.nfds ≠ 1 := by
      intro hone
      simp [State.lacksDest, hphase, huid, hone, hreq, hcmd] at hbrings
    have hle := hok.nfds_le
    exact mem_arrived_snd (by simp only [protMaxFds] at hle; omega)
  · exact mem_arrived_fst hfds

/-- Without such a SEND every new transfer gets descriptors in hand only. -/
theorem StepMay.entitled {ans : Answers} {l : Label} {s : State} {a : Action} {c : Config}
    (hbrings : l = .request → s.lacksDest = false) (hok : PhaseOk s) (ha : StepMay ans l s a c) :
    Descriptors.Entitled (0 ≤ ·) a c := by
  rintro x L rfl hL hnonneg
  obtain ⟨r, rest, req, rfl, hphase, huid, hpos, hreq, hx, hc, -⟩ := ha.enroll_cases
  rw [hc] at hL
  cases hL
  rw [hx.destFd] at hnonneg ⊢
  refine State.destination (hbrings rfl) hphase hok huid hpos hreq fun hopen => ?_
  simp [ProtRequest.destFd, hopen] at hnonneg

theorem KeepsDest.brings {ans : Answers} {s : State} (hg : KeepsDest (ans, .request) s) :
    s.lacksDest = false := by
  unfold KeepsDest keepsDest at hg
  simp only [Bool.and_eq_true, Bool.not_eq_true'] at hg
  exact hg.2

/-- A step that keeps destinations leaves no registration behind. -/
theorem KeepsDest.grants {ans : Answers} {l : Label} {s : State} (hg : KeepsDest (ans, l) s)
    (hledger : Ledger s.world.srv) (hok : PhaseOk s) (hd : Descriptors (0 ≤ ·) s.config)
    (h : Registered s.config) : ∀ a c, StepMay ans l s a c → settled a c := by
  intro a c ha
  cases a with
  | enroll x =>
      have hbrings : l = .request → s.lacksDest = false := by
        rintro rfl
        exact hg.brings
      exact fun L hL hnonneg => ha.entitled hbrings hok x L rfl hL hnonneg
  | retire p =>
      intro y hy
      obtain ⟨r, rest, rfl, hphase, huid, hfds, hwhy⟩ := ha.retire_cases
      rcases hwhy with ⟨rfl, x, hx, -, -, hregs, -⟩ |
        ⟨txnid, x, e, htxnid, hfind, hx, hpid, hcancel, -, hregs, -⟩
      · rw [hx] at hy
        cases hy
        refine hregs.imp id fun hregs reg hreg hu => ?_
        rw [hregs] at hreg
        obtain ⟨z, hz, -⟩ := h.current reg hreg _ hu
        rw [show s.config.world.srv = s.world.srv from rfl, hledger.fresh] at hz
        cases hz
      · right
        intro reg hreg
        rw [hregs] at hreg
        have hnone := hg.named hphase huid hfds htxnid hfind hx hpid hcancel
        exact h.not_registered hd hx hnone reg hreg
  | assign p fd =>
      obtain ⟨r, rest, txnid, x, rfl, hphase, huid, hfds, htxnid, hfind, hx, hpid, hcancel, -,
        hc⟩ := ha.assign_cases
      intro y hy
      rw [hc, show s.world.srv.xferAt p = some x from hx] at hy
      cases hy
      exact hg.named hphase huid hfds htxnid hfind hx hpid hcancel
  | _ => trivial

theorem watched_kept : Kept settled KeepsDest Watched where
  grants := fun _ _ _ hg hledger hok h => hg.grants hledger hok h.descriptors h.registered
  acts := fun _ _ _ hc ha hp h =>
    ⟨h.descriptors.performs (fun _ hgood => hgood) ha.entitled hp,
      h.registered.performs hc h.descriptors ha hp⟩

theorem watched_initial (s : State) (h : Initial s) : Watched s.config := by
  obtain ⟨-, reqfd, -, -, -, -, -, -, hkern⟩ := id h
  have hregs : ∀ reg ∈ s.config.world.kern.regs, ∀ p, reg.udata ≠ .xfer p := by
    intro reg hreg p hu
    rcases hkern.regs reg hreg with heq | heq <;> rw [hu] at heq <;> cases heq
  refine ⟨h.descriptors _, fun reg hreg p hu => absurd hu (hregs reg hreg p), ?_⟩
  have hnil : s.config.world.kern.registered = [] := by
    refine List.filterMap_eq_nil_iff.mpr fun reg hreg => ?_
    cases hu : reg.udata.xfer? with
    | none => rfl
    | some p => exact absurd (Udata.xfer?_eq_some.mp hu) (hregs reg hreg p)
  rw [hnil]
  exact List.nodup_nil

/-! The events of a batch. -/

/-- The events of the current batch that have not been handled yet. -/
def State.pending (s : State) : List PollEvent :=
  match s.phase with
  | .events rest | .receiving _ rest | .requested _ rest => rest
  | .waiting | .stopped => []

/-- The transfers these events refer to. -/
def State.pendingXfers (s : State) : List Ptr := s.pending.filterMap fun ev => ev.udata.xfer?

/-- What a step leaves of a batch. -/
def Label.leaves : Label → List PollEvent → List PollEvent
  | .event _, evs => evs.tail
  | .deferred, _ => []
  | _, evs => evs

theorem settle_ok {α : Type} {o : Outcome Fault World α} {f : α → World → Except Fault State}
    {s' : State} (h : settle o f = .ok s') : ∃ a w', f a w' = .ok s' := by
  unfold settle at h
  split at h
  · exact ⟨_, _, h⟩
  · cases h

theorem shutdown_pending {ans : Answers} {w : World} {s' : State}
    (h : shutdown ans w = .ok s') : s'.pending = [] := by
  obtain ⟨a, w', hw⟩ := settle_ok h
  cases hw
  rfl

/-- A step takes events off the batch, or it is the one that waits for a new one. -/
theorem next_pending {ans : Answers} {l : Label} {s s' : State}
    (hn : next (ans, l) s = some (.ok s')) :
    (s.phase = .waiting ∧
      ∃ evs, ValidBatch s.world.kern.regs evs ∧ s' = ⟨s.world, .events evs⟩) ∨
      s'.pending.Sublist (l.leaves s.pending) := by
  have hstop : ∀ w, shutdown ans w = .ok s' → s'.pending.Sublist (l.leaves s.pending) := by
    intro w hw
    rw [shutdown_pending hw]
    exact List.nil_sublist _
  obtain ⟨w, phase⟩ := s
  cases l with
  | wait evs =>
      cases phase <;> simp only [next, reduceCtorEq] at hn
      split at hn
      · rename_i hvalid
        cases hn
        exact Or.inl ⟨rfl, evs, hvalid, rfl⟩
      · cases hn
  | waitFailed e =>
      cases phase <;> simp only [next, reduceCtorEq] at hn
      right
      split at hn
      · exact hstop _ (Option.some.inj hn)
      · cases hn
        exact List.nil_sublist _
  | event garbage =>
      cases phase with
      | events evs =>
          cases evs with
          | nil => cases hn
          | cons ev rest =>
              right
              simp only [next, Option.some.injEq] at hn
              obtain ⟨a, w', hw⟩ := settle_ok hn
              cases a with
              | stop => exact hstop _ hw
              | request | handled =>
                  cases hw
                  exact List.Sublist.refl _
      | waiting | receiving | requested | stopped => cases hn
  | receive d =>
      cases phase <;> simp only [next, reduceCtorEq, Option.some.injEq] at hn
      right
      obtain ⟨a, w', hw⟩ := settle_ok hn
      cases a with
      | none =>
          dsimp only at hw
          split at hw
          · exact hstop _ hw
          · cases hw
            exact List.Sublist.refl _
      | some r =>
          cases hw
          exact List.Sublist.refl _
  | receiveFailed e =>
      cases phase <;> simp only [next, reduceCtorEq] at hn
      right
      split at hn
      · exact hstop _ (Option.some.inj hn)
      · cases hn
        exact List.Sublist.refl _
  | request =>
      cases phase <;> simp only [next, reduceCtorEq, Option.some.injEq] at hn
      right
      obtain ⟨a, w', hw⟩ := settle_ok hn
      cases hw
      exact List.Sublist.refl _
  | deferred =>
      cases phase with
      | events evs =>
          cases evs with
          | cons ev rest => cases hn
          | nil =>
              right
              simp only [next, Option.some.injEq] at hn
              obtain ⟨a, w', hw⟩ := settle_ok hn
              cases hw
              exact List.nil_sublist _
      | waiting | receiving | requested | stopped => cases hn
  | clientCloses n =>
      simp only [next] at hn
      right
      split at hn
      · cases hn
      · cases hn
        exact List.Sublist.refl _

theorem Label.leaves_sublist (l : Label) (evs : List PollEvent) : (l.leaves evs).Sublist evs := by
  cases l with
  | event => exact List.tail_sublist evs
  | deferred => exact List.nil_sublist evs
  | wait | waitFailed | receive | receiveFailed | request | clientCloses =>
      exact List.Sublist.refl evs

/-- A live transfer that has a destination. -/
def Server.Bound (s : Server) (q : Ptr) : Prop := ∃ x, s.xferAt q = some x ∧ 0 ≤ x.destFd

/-- The transfer `q` is not deleted and keeps its destination. -/
def sparing (q : Ptr) : Action → Config → Prop := fun a _ => a.unsettles ≠ some q

theorem Acts.bound {q : Ptr} {c c' : Config} (h : Acts (sparing q) c c')
    (hc : Ledger c.world.srv) (hq : c.world.srv.Bound q) : c'.world.srv.Bound q := by
  refine (h.keeps (I := fun c => Ledger c.world.srv ∧ c.world.srv.Bound q) ?_ ⟨hc, hq⟩).2
  rintro a c c' ha hp ⟨hc, x, hx, hdest⟩
  obtain ⟨y, hy, hsame⟩ := hp.keeps_dest hc hx ha
  exact ⟨hc.performs hp, y, hy, hsame ▸ hdest⟩

/-- The events of a batch refer to different live transfers. -/
structure Outstanding (s : State) : Prop where
  distinct : s.pendingXfers.Nodup
  bound : ∀ q ∈ s.pendingXfers, s.world.srv.Bound q

/-- A step that keeps destinations spares the transfers of the events after it. -/
theorem Outstanding.grants {ans : Answers} {l : Label} {s : State} (h : Outstanding s)
    (hg : KeepsDest (ans, l) s) (hledger : Ledger s.world.srv) {q : Ptr}
    (hq : q ∈ (l.leaves s.pending).filterMap fun ev => ev.udata.xfer?) :
    ∀ a c, StepMay ans l s a c → sparing q a c := by
  obtain ⟨y, hy, hdest⟩ := h.bound q (((l.leaves_sublist s.pending).filterMap _).subset hq)
  -- a SEND_OPEN that keeps destinations names a transfer that has none
  have hnamed : ∀ {r rest txnid x}, l = .request → s.phase = .requested r rest →
      r.uid = s.world.srv.uid →
      (sfdGetCmd s.world.srv.recvbuf ≠ ProtCmdReq.cancel.code → 0 < r.nfds) →
      protUnmarshalSendOpen s.world.srv.recvbuf = some txnid →
      s.world.srv.xfers.find txnid = some q → s.world.srv.xferAt q = some x →
      pidMatches x r.pid = true → x.defer ≠ .cancel → False := by
    intro r rest txnid x hl hphase huid hfds htxnid hfind hx hpid hcancel
    subst hl
    have hnone := hg.named hphase huid hfds htxnid hfind hx hpid hcancel
    rw [hy] at hx
    cases hx
    rw [hnone] at hdest
    exact absurd hdest (by decide)
  intro a c ha hun
  cases a with
  | discard p =>
      cases hun
      obtain ⟨garbage, ev, rest, rfl, hphase, hu, -⟩ := ha.discard_cases
      have hdistinct := h.distinct
      have hpending : s.pending = ev :: rest := by simp only [State.pending, hphase]
      have hhead : ev.udata.xfer? = some q := by rw [hu]; rfl
      rw [State.pendingXfers, hpending,
        List.filterMap_cons_some (f := fun ev : PollEvent => ev.udata.xfer?) hhead,
        List.nodup_cons] at hdistinct
      rw [hpending] at hq
      exact hdistinct.1 hq
  | retire p =>
      cases hun
      obtain ⟨r, rest, hl, hphase, huid, hfds, hwhy⟩ := ha.retire_cases
      rcases hwhy with ⟨heq, -⟩ | ⟨txnid, x, e, htxnid, hfind, hx, hpid, hcancel, -⟩
      · exact absurd (heq ▸ hledger.xfer_lt q y hy) (Nat.lt_irrefl _)
      · exact hnamed hl hphase huid hfds htxnid hfind hx hpid hcancel
  | assign p fd =>
      cases hun
      obtain ⟨r, rest, txnid, x, hl, hphase, huid, hfds, htxnid, hfind, hx, hpid, hcancel, -⟩ :=
        ha.assign_cases
      exact hnamed hl hphase huid hfds htxnid hfind hx hpid hcancel
  | bury p =>
      obtain ⟨rfl, -⟩ := ha.bury_cases
      cases hq
  | _ => cases hun

/-- What the poller returns refers to registered transfers, each at most once. -/
theorem Watched.outstanding {w : World} {evs : List PollEvent} (h : Watched ⟨[], w⟩)
    (hvalid : ValidBatch w.kern.regs evs) : Outstanding ⟨w, .events evs⟩ := by
  obtain ⟨us, hperm, hsub⟩ := hvalid.1
  have hus : (us.filterMap Udata.xfer?).Perm (State.pendingXfers ⟨w, .events evs⟩) := by
    refine (hperm.filterMap _).trans (List.Perm.of_eq ?_)
    rw [List.filterMap_map]
    rfl
  have hregs : (us.filterMap Udata.xfer?).Sublist w.kern.registered := by
    have hmap := hsub.filterMap Udata.xfer?
    rw [List.filterMap_map] at hmap
    exact hmap
  refine ⟨hus.nodup (hregs.nodup h.registered.once), fun q hq => ?_⟩
  obtain ⟨reg, hreg, hu⟩ := List.mem_filterMap.mp (hregs.subset (hus.mem_iff.mpr hq))
  obtain ⟨x, hx, hdest, hfile⟩ := h.registered.current reg hreg q (Udata.xfer?_eq_some.mp hu)
  exact ⟨x, hx, hdest ▸ h.descriptors.nonneg _ (Kernel.mem_of_lookup hfile)⟩

theorem Outstanding.next {ans : Answers} {l : Label} {s s' : State}
    (hs : Sound Watched s) (h : Outstanding s)
    (hg : KeepsDest (ans, l) s) (hn : next (ans, l) s = some (.ok s')) : Outstanding s' := by
  rcases next_pending hn with ⟨hphase, evs, hvalid, rfl⟩ | hsub
  · have hinv := hs.inv
    rw [show s.config = ⟨[], s.world⟩ by simp [State.config, hphase]] at hinv
    exact hinv.outstanding hvalid
  have hsub' := hsub.filterMap fun ev => ev.udata.xfer?
  refine ⟨hsub'.nodup (((l.leaves_sublist _).filterMap _).nodup h.distinct), fun q hq => ?_⟩
  have hbound := h.bound q (((l.leaves_sublist _).filterMap _).subset (hsub'.subset hq))
  have hends := next_ends (h.grants hg hs.ledger (hsub'.subset hq))
    hs.phase hs.ledger.nodup hn
  generalize hr : Except.ok s' = r at hends
  cases hends with
  | next _ hacts _ =>
      cases hr
      exact hacts.bound hs.ledger hbound
  | shut hacts =>
      have hnil := shutdown_pending hr.symm
      rw [State.pendingXfers, hnil] at hq
      cases hq
  | fault => cases hr

/-- What the poller knows of transfers: its registrations and the events it returned
refer to live transfers, and the registrations to their destinations. -/
structure PollerSound (s : State) : Prop where
  registered : ∀ reg ∈ s.world.kern.regs, ∀ p, reg.udata = .xfer p →
    s.world.srv.Live p ∧ ∃ x, s.world.srv.xferAt p = some x ∧ x.destFd = reg.fd
  returned : ∀ ev ∈ s.pending, ∀ p, ev.udata = .xfer p → s.world.srv.Live p

/-- In every run whose steps keep destinations, the poller refers to live transfers
only. -/
theorem registrations_current {s : State} (hr : server.Reachable KeepsDest s) :
    PollerSound s := by
  have hinv : (Sound Watched s ∨ Halted Watched s) ∧ Outstanding s := by
    refine hr.invariant (I := fun s => (Sound Watched s ∨ Halted Watched s) ∧ Outstanding s) ?_ ?_
    · intro s h
      have hnil : s.pendingXfers = [] := by
        simp [State.pendingXfers, State.pending, h.1]
      refine ⟨Or.inl ⟨h.ledger, h.phaseOk, watched_initial s h⟩, ?_, ?_⟩
      · rw [hnil]
        exact List.nodup_nil
      · rw [hnil]
        exact fun q hq => absurd hq List.not_mem_nil
    · rintro ⟨ans, l⟩ s s' ⟨hs | hs, hout⟩ hg hn
      · exact ⟨watched_kept.next hs hg hn, hout.next hs hg hn⟩
      · have hnone : server.next (ans, l) s = none := next_stopped hs.1 _
        rw [hnone] at hn
        cases hn
  obtain ⟨hs | ⟨hphase, w, -, -, hcleared, -⟩, hout⟩ := hinv
  · refine ⟨fun reg hreg p hu => ?_, fun ev hev p hu => ?_⟩
    · obtain ⟨x, hx, hdest, -⟩ := hs.inv.registered.current reg hreg p hu
      exact ⟨hs.ledger.live_iff.mpr ⟨x, hx⟩, x, hx, hdest⟩
    · have hmem : p ∈ s.pendingXfers :=
        List.mem_filterMap.mpr ⟨ev, hev, Udata.xfer?_eq_some.mpr hu⟩
      obtain ⟨x, hx, -⟩ := hout.bound p hmem
      exact hs.ledger.live_iff.mpr ⟨x, hx⟩
  · refine ⟨fun reg hreg => ?_, fun ev hev => ?_⟩
    · rw [hcleared.regs] at hreg
      cases hreg
    · simp [State.pending, hphase] at hev

section Runs

open Scenario

/-- A file that is opened and then sent; its destination has become writable. -/
def openAndSend : List (Answers × Label) :=
  let ans := answers tenBytes
  serve ans [⟨fileRequest .fileOpen 0 0, [1], some client⟩,
    ⟨txnRequest .sendOpen 1, [2], some client⟩] ++ [(ans, .wait [writable 0])]

theorem registrations_current_of_openAndSend : ∃ s, server.Reachable KeepsDest s ∧
    s.world.kern.registered = [0] ∧ s.pending = [writable 0] ∧ PollerSound s := by
  obtain ⟨s, hr, hP⟩ := exists_reachable KeepsDest 4 100 openAndSend
    (fun s => s.world.kern.registered == [0] && s.pending == [writable 0]) (by decide +kernel)
  rw [Bool.and_eq_true, beq_iff_eq, beq_iff_eq] at hP
  exact ⟨s, hr, hP.1, hP.2, registrations_current hr⟩

/-- A registered transfer has been freed. -/
def State.dangles (s : State) : Bool :=
  s.world.kern.registered.any fun p => (s.world.srv.xferAt p).isNone

theorem State.dangles_unsound {s : State} (h : s.dangles = true) : ¬ PollerSound s := by
  intro hsound
  obtain ⟨p, hp, hnone⟩ := List.any_eq_true.mp h
  obtain ⟨reg, hreg, hu⟩ := List.mem_filterMap.mp hp
  obtain ⟨-, x, hx, -⟩ := hsound.registered reg hreg p (Udata.xfer?_eq_some.mp hu)
  simp [hx] at hnone

/-- A SEND_OPEN for a transfer that is already running: when the transfer ends, its
first destination stays registered. -/
theorem registrations_dangle : ∃ s, server.Reachable System.always s ∧ ¬ PollerSound s := by
  obtain ⟨s, hr, hP⟩ := exists_reachable System.always 4 100
    (serve (answers tenBytes) [⟨fileRequest .read 0 0, [1], some client⟩,
      ⟨txnRequest .sendOpen 1, [2], some client⟩] ++ handle (answers tenBytes) (writable 0))
    State.dangles (by decide +kernel)
  exact ⟨s, hr, State.dangles_unsound hP⟩

/-- Requests that bring no destination do the same without a SEND_OPEN: the second
one takes the status channel of an open file for its destination, and when the open
file is cancelled it is closed. -/
theorem registrations_dangle_of_singleSend : ∃ s,
    server.Reachable (fun _ s => s.redirects = false) s ∧ ¬ PollerSound s := by
  let ans := answers tenBytes
  obtain ⟨s, hr, hP⟩ := exists_reachable (fun _ s => s.redirects = false) 4 100
    (serve ans [⟨fileRequest .send 0 0, [1], some client⟩] ++ handle ans (writable 0) ++
      serve ans [⟨fileRequest .fileOpen 0 0, [2], some client⟩,
        ⟨fileRequest .send 0 0, [3], some client⟩, ⟨txnRequest .cancel 2, [], some client⟩] ++
      handle ans (writable 3))
    State.dangles (by decide +kernel)
  exact ⟨s, hr, State.dangles_unsound hP⟩

end Runs

end Sendfiled
