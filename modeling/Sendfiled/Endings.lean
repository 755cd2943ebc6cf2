/-
How transfers end.  Except after an error event, and after a progress message that could
not be written, a transfer with a status channel is not deleted before its end was
reported there: the message went to the file that its client had sent for the channel, and
only then was the channel closed.
-/
import Sendfiled.Life
import Sendfiled.Refusals

namespace Sendfiled

open Prog Transition

/-- The next event reports an error on the destination of the transfer. -/
def State.reportsError (p : Ptr) (l : Label) (s : State) : Bool :=
  match l, s.phase with
  | .event _, .events (ev :: _) => ev.udata == .xfer p && ev.err
  | _, _ => false

/-- The next request is a CANCEL for the transfer. -/
def State.revokes (p : Ptr) (l : Label) (s : State) : Bool :=
  match l, s.phase with
  | .request, .requested r _ => (s.world.srv.namedBy .cancel r).any fun named => named.1 == p
  | _, _ => false

/-- The steps that neither cancel a transfer on behalf of its client nor hear of an error
on its destination. -/
def Spares (p : Ptr) (l : Answers × Label) (s : State) : Prop :=
  s.reportsError p l.2 = false ∧ s.revokes p l.2 = false

instance (p : Ptr) (l : Answers × Label) (s : State) : Decidable (Spares p l s) :=
  inferInstanceAs (Decidable (_ ∧ _))

section Reports

variable {ans : Answers} {l : Label} {s s' : State} {p : Ptr} {x y : ResrcXfer} {a : Action}
  {c c' : Config}

theorem Attempted.mono {fd : Fd} {tr tr' : List Effect} (h : Attempted p fd tr)
    (hsub : ∀ e ∈ tr, e ∈ tr') : Attempted p fd tr' := by
  obtain ⟨pdu, result, hpdu, hmem⟩ := h
  exact ⟨pdu, result, hpdu, hsub _ hmem⟩

theorem ProgressLost.mono {tr tr' : List Effect} (h : ProgressLost p tr)
    (hsub : ∀ e ∈ tr, e ∈ tr') : ProgressLost p tr' := by
  obtain ⟨fd, size, e, hsize, he, hmem⟩ := h
  exact ⟨fd, size, e, hsize, he, hsub _ hmem⟩

/-- A transfer is marked CANCEL after its end was reported. -/
def tells (p : Ptr) (a : Action) (c : Config) : Prop :=
  a = .cancel p → ∃ x, c.world.srv.xferAt p = some x ∧ Attempted p x.statFd c.world.kern.trace

/-- The end of a transfer that is marked CANCEL was reported. -/
def Told (p : Ptr) (c : Config) : Prop :=
  ∀ x, c.world.srv.xferAt p = some x → x.defer = .cancel →
    Attempted p x.statFd c.world.kern.trace

theorem Told.performs (h : Told p c) (ha : tells p a c) (hp : Performs a c c') : Told p c' := by
  obtain ⟨tr, htr, -⟩ := hp.trace
  have hmore : ∀ e ∈ c.world.kern.trace, e ∈ c'.world.kern.trace := by
    intro e he
    rw [htr]
    exact List.mem_append_left _ he
  intro y hy hcancel
  rcases hp.evolves hy with ⟨-, rfl⟩ | ⟨x, hx, hevolves⟩
  · cases hp with
    | enroll _ _ _ hdefer =>
        rw [hcancel] at hdefer
        cases hdefer
  · rw [hevolves.statFd]
    rcases hevolves.defer with hd | ⟨hd, -⟩ | ⟨-, rfl⟩ | ⟨hd, -⟩
    · exact (h x hx (hd ▸ hcancel)).mono hmore
    · rw [hd] at hcancel
      cases hcancel
    · obtain ⟨z, hz, htold⟩ := ha rfl
      rw [hx] at hz
      cases hz
      exact htold.mono hmore
    · rw [hd] at hcancel
      cases hcancel

/-- Apart from its client, only its timer marks a transfer CANCEL. -/
theorem Spares.tells (hg : Spares p (ans, l) s) (ha : StepMay ans l s a c) :
    Sendfiled.tells p a c := by
  rintro rfl
  rcases ha.cancel_cases with
    ⟨-, -, -, -, -, x, -, -, -, -, -, hx, -, -, hsrv, htold⟩ |
    ⟨r, rest, txnid, x, rfl, hphase, huid, htxnid, hfind, hx, hpid, -⟩
  · exact ⟨x, hsrv ▸ hx, htold⟩
  · have hnamed := Server.namedBy_eq huid (fun hne => absurd rfl hne) htxnid hfind hx hpid
    have hspared := hg.2
    simp [State.revokes, hphase, hnamed] at hspared

theorem told_preserved (p : Ptr) : Preserved (tells p) (Spares p) (Told p) where
  grants := fun _ _ _ hg _ _ _ _ _ ha => hg.tells ha
  acts := fun _ _ _ _ ha hp h => h.performs ha hp
  stop := by
    intro w w' _ hcleared _ x hx
    rw [show (Config.mk [] w').world.srv.xferAt p = none from hcleared.xferAt p] at hx
    cases hx

/-- The end of the transfer was reported on its status channel, the file `f`, which was open
all the time since the record was `R₀`, and after that the channel was closed.  A request
that is refused leaves the channel open. -/
def Dismissed (p : Ptr) (x : ResrcXfer) (f : OpenFile) (l : Label) (R₀ : List Entry)
    (w : World) : Prop :=
  ∃ before after, w.kern.record = R₀ ++ before ++ after ∧
    Reserved Effect.isUse x.statFd f before ∧
    (∃ pdu result, pdu.terminal = true ∧
      (Effect.sent (some p) x.statFd pdu result, some f) ∈ before) ∧
    (l ≠ .request → (Effect.closed x.statFd true, some f) ∈ after)

theorem Dismissed.more {f : OpenFile} {R₀ R : List Entry} {w w' : World}
    (h : Dismissed p x f l R₀ w) (hR : w.kern.Records R w'.kern) : Dismissed p x f l R₀ w' := by
  obtain ⟨before, after, hrecord, hreserved, htold, hclosed⟩ := h
  refine ⟨before, after ++ R, ?_, hreserved, htold, fun hl => List.mem_append_left _ (hclosed hl)⟩
  rw [hR.record, hrecord, List.append_assoc]

/-- The transfer has not said its last word. -/
def Speechless (p : Ptr) (R : List Entry) : Prop :=
  ∀ e ∈ R, ∀ fd pdu result, e.1 = .sent (some p) fd pdu result → pdu.terminal = false

/-- Within a step: the transfer is still there with its channel, or it was dismissed. -/
structure Ending (s : State) (l : Label) (p : Ptr) (x : ResrcXfer) (f : OpenFile)
    (R₀ : List Entry) (c : Config) : Prop where
  ledger : Ledger c.world.srv
  typed : Typed c
  told : Told p c
  tenant : StatTenant Effect.isUse p x.statFd f R₀ c
  recorded : c.world.kern.record.map Prod.fst = c.world.kern.trace
  started : ∀ ev ∈ s.pending, ev.udata = .xfer p → c.world.srv.Started p
  state : (∃ y, c.world.srv.xferAt p = some y ∧ (l ≠ .request → y.destFd = x.destFd)) ∨
    (c.world.srv.xferAt p = none ∧
      (Dismissed p x f l R₀ c.world ∨ ProgressLost p c.world.kern.trace))

variable {f : OpenFile} {R₀ : List Entry}

/-- What is known of a transfer at the moment it is deleted. -/
theorem Ending.reported (h : Ending s l p x f R₀ c) (hg : Spares p (ans, l) s)
    (hx : s.world.srv.xferAt p = some x) (hlt : p < s.world.srv.nextPtr)
    (hchannel : x.statFd ≠ x.destFd)
    (ha : StepMay ans l s a c) (hp : Performs a c c') (hy : c.world.srv.xferAt p = some y)
    (hdest : l ≠ .request → y.destFd = x.destFd)
    (hdel : a = .retire p ∨ a = .discard p ∨ a = .bury p) :
    Attempted p x.statFd c.world.kern.trace ∨ ProgressLost p c.world.kern.trace := by
  have hstat := h.tenant.stat y hy
  have hend : l ≠ .request → Concluded p y c.world.kern.trace → y.cmd ≠ .fileOpen →
      Attempted p x.statFd c.world.kern.trace ∨ ProgressLost p c.world.kern.trace := by
    intro hl hend hcmd
    rw [← hstat]
    apply hend.reported
    · rcases h.typed.kind p y hy with hkind | hkind
      · exact absurd hkind hcmd
      · exact hkind
    · rw [hstat, hdest hl]
      exact hchannel
  rcases hdel with rfl | rfl | rfl
  · left
    obtain ⟨r, rest, -, -, -, -, hwhy⟩ := ha.retire_cases
    rcases hwhy with ⟨hnew, -⟩ | ⟨txnid, z, e, -, -, hz, -, -, -, -, htold, -⟩
    · exact absurd hlt (by rw [hnew]; exact Nat.lt_irrefl _)
    · rw [hx] at hz
      cases hz
      exact htold
  · obtain ⟨garbage, ev, rest, rfl, hphase, hu, hwhy⟩ := ha.discard_cases
    rcases hwhy with ⟨z, hz, -, hconcluded⟩ | ⟨z, k, herr, -⟩
    · rw [hy] at hz
      cases hz
      have hpending : ev ∈ s.pending := by simp [State.pending, hphase]
      exact hend (by simp) hconcluded ((h.started ev hpending hu).2 y hy)
    · have hspared := hg.1
      simp [State.reportsError, hphase, hu, herr] at hspared
  · obtain ⟨rfl, hphase, z, hz, hwhy⟩ := ha.bury_cases
    rw [hy] at hz
    cases hz
    rcases hwhy with hcancel | hconcluded
    · left
      rw [← hstat]
      exact h.told y hy hcancel
    · cases hp with
      | bury _ hi _ =>
          have hlisted := (h.ledger.listed p y hy).mp (List.mem_of_getElem? hi)
          cases hd : y.defer with
          | none => exact absurd hd hlisted
          | cancel =>
              left
              rw [← hstat]
              exact h.told y hy hd
          | ready => exact hend (by simp) hconcluded (h.typed.ready p y hy hd)

/-- What was attempted on the status channel reached its file, and so does the `close` that
follows. -/
theorem Ending.dismissed (h : Ending s l p x f R₀ c) (hfresh : Speechless p R₀)
    (ha : StepMay ans l s a c) (hp : Performs a c c') (hy : c.world.srv.xferAt p = some y)
    (hdel : a = .retire p ∨ a = .discard p ∨ a = .bury p)
    (htold : Attempted p x.statFd c.world.kern.trace) : Dismissed p x f l R₀ c'.world := by
  obtain ⟨R, R', hrecord, hreserved, -, hlive⟩ := h.tenant.tenure
  obtain ⟨rfl, hf⟩ := hlive y hy
  rw [List.append_nil] at hrecord
  obtain ⟨pdu, result, hpdu, hmem⟩ := htold
  rw [← h.recorded, hrecord] at hmem
  obtain ⟨e, he, hsent⟩ := List.mem_map.mp hmem
  have hin : e ∈ R := by
    rcases List.mem_append.mp he with hold | hin
    · have hsilent := hfresh e hold _ _ _ hsent
      rw [hpdu] at hsilent
      cases hsilent
    · exact hin
  have htold : ∃ pdu result, pdu.terminal = true ∧
      (Effect.sent (some p) x.statFd pdu result, some f) ∈ R := by
    have hfile := (hreserved e hin (by rw [hsent]; rfl)).2
    exact ⟨pdu, result, hpdu, by rwa [← hsent, ← hfile]⟩
  by_cases hl : l = .request
  · obtain ⟨T, hT, -⟩ := hp.records
    exact ⟨R, T, by rw [hT.record, hrecord], hreserved, htold, fun hnot => absurd hl hnot⟩
  · have hbury : a = .discard p ∨ a = .bury p := by
      refine hdel.resolve_left ?_
      rintro rfl
      obtain ⟨r, rest, hreq, -⟩ := ha.retire_cases
      exact hl hreq
    obtain ⟨T, hT, hclosing⟩ := hp.records_buries hbury hy
    refine ⟨R, T, by rw [hT.record, hrecord], hreserved, htold, fun _ => ?_⟩
    rw [h.tenant.stat y hy] at hclosing
    unfold Kernel.closing at hclosing
    rwa [hf] at hclosing

theorem Ending.performs (h : Ending s l p x f R₀ c) (hg : Spares p (ans, l) s)
    (hx : s.world.srv.xferAt p = some x) (hlt : p < s.world.srv.nextPtr)
    (hchannel : x.statFd ≠ x.destFd) (hfresh : Speechless p R₀)
    (ha : StepMay ans l s a c) (hentitled : Descriptors.Entitled (0 ≤ ·) a c)
    (hp : Performs a c c') : Ending s l p x f R₀ c' := by
  obtain ⟨R, hR, -⟩ := hp.records
  have hmore : ∀ e ∈ c.world.kern.trace, e ∈ c'.world.kern.trace := by
    intro e he
    rw [hR.trace]
    exact List.mem_append_left _ he
  have hrecorded : c'.world.kern.record.map Prod.fst = c'.world.kern.trace := by
    rw [hR.record, hR.trace, List.map_append, h.recorded]
  refine ⟨h.ledger.performs hp, h.typed.performs h.ledger ha.fileKind hp,
    h.told.performs (hg.tells ha) hp,
    h.tenant.performs hp hentitled (fun e => Effect.isUse_of_onBehalf) fun _ _ _ _ he => he,
    hrecorded, fun ev hev hu => (h.started ev hev hu).performs hp, ?_⟩
  rcases h.state with ⟨y, hy, hdest⟩ | ⟨hnone, hend⟩
  · cases hz : c'.world.srv.xferAt p with
    | some z =>
        left
        refine ⟨z, rfl, fun hl => ?_⟩
        rcases hp.evolves hz with ⟨hnew, -⟩ | ⟨y', hy', hevolves⟩
        · exact absurd h.tenant.known (by rw [hnew]; exact Nat.lt_irrefl _)
        · rw [hy] at hy'
          cases hy'
          rcases hevolves.cmd with ⟨-, hsame⟩ | ⟨-, rfl⟩
          · exact hsame.trans (hdest hl)
          · obtain ⟨r, rest, txnid, x', hreq, -⟩ := ha.assign_cases
            exact absurd hreq hl
    | none =>
        right
        refine ⟨rfl, ?_⟩
        have hdel := hp.deletes h.tenant.known hy hz
        rcases h.reported hg hx hlt hchannel ha hp hy hdest hdel with htold | hlost
        · exact Or.inl (h.dismissed hfresh ha hp hy hdel htold)
        · exact Or.inr (hlost.mono hmore)
  · right
    constructor
    · cases hz : c'.world.srv.xferAt p with
      | none => rfl
      | some z =>
          rcases hp.evolves hz with ⟨hnew, -⟩ | ⟨y, hy, -⟩
          · exact absurd h.tenant.known (by rw [hnew]; exact Nat.lt_irrefl _)
          · rw [hnone] at hy
            cases hy
    · exact hend.imp (fun hend => hend.more hR) fun hlost => hlost.mono hmore

/-- The steps that leave the end of a transfer to itself, in a run in which every SEND brings
its destination. -/
def LetsEnd (p : Ptr) (l : Answers × Label) (s : State) : Prop := Spares p l s ∧ Brings l s

instance (p : Ptr) (l : Answers × Label) (s : State) : Decidable (LetsEnd p l s) :=
  inferInstanceAs (Decidable (_ ∧ _))

/-- The transfer `p` was accepted in the step to `s`, as `x`. -/
def AcceptedIn (guard : Answers × Label → State → Prop) (p : Ptr) (x : ResrcXfer)
    (s : State) : Prop :=
  ∃ s₀ l, server.Reachable guard s₀ ∧ guard l s₀ ∧ server.next l s₀ = some (.ok s) ∧
    s₀.world.srv.xferAt p = none ∧ s.world.srv.xferAt p = some x

section Acceptance

variable {guard : Answers × Label → State → Prop}

theorem AcceptedIn.reachable (h : AcceptedIn guard p x s) : server.Reachable guard s := by
  obtain ⟨s₀, l, hr, hg, hn, -⟩ := h
  exact hr.step hg hn

/-- A new transfer has said one thing, and that does not end it. -/
theorem AcceptedIn.speechless (h : AcceptedIn guard p x s) :
    Speechless p s.world.kern.record := by
  have hra : server.Reachable System.always s := h.reachable.mono fun _ _ _ => trivial
  obtain ⟨s₀, ⟨ans, l⟩, hr, hg, hn, hnone, hx⟩ := h
  have hr₀ : server.Reachable System.always s₀ := hr.mono fun _ _ _ => trivial
  obtain ⟨hledger, hok⟩ := reachable_ledger hr₀
  obtain ⟨-, -, -, -, -, -, hborn, -⟩ :=
    next_born hledger (Minted.reachable hr₀) hok hn hnone hx
  intro e he fd pdu result hsent
  have hmem : Effect.sent (some p) fd pdu result ∈ (s.world.view p).history := by
    refine List.mem_filter.mpr ⟨?_, by simp [Effect.onBehalf]⟩
    rw [← reachable_record hra, ← hsent]
    exact List.mem_map_of_mem he
  generalize s.world.view p = v at hborn hmem
  cases hborn with
  | intro =>
      cases List.mem_singleton.mp hmem
      rfl

end Acceptance

/-- A transfer with a status channel that a step deletes, in a run that leaves its end to
itself, was dismissed first. -/
theorem dismissed_of_gone (hr : server.Reachable (LetsEnd p) s)
    (hg : LetsEnd p (ans, l) s) (hn : next (ans, l) s = some (.ok s'))
    (hrun : s'.phase ≠ .stopped) (hx : s.world.srv.xferAt p = some x)
    (hchannel : x.statFd ≠ x.destFd)
    (htenant : StatTenant Effect.isUse p x.statFd f R₀ s.config) (hfresh : Speechless p R₀)
    (hgone : s'.world.srv.xferAt p = none) :
    Dismissed p x f l R₀ s'.world ∨ ProgressLost p s'.world.kern.trace := by
  have hr' : server.Reachable System.always s := hr.mono fun _ _ _ => trivial
  have htold := (told_preserved p).reachable (fun s hinit y hy => by
    rw [show s.config.world.srv.xferAt p = none from hinit.empty.1 p] at hy
    cases hy) (hr.mono fun _ _ hg => hg.1)
  have htyped := reachable_typed hr'
  have hstart : Ending s l p x f R₀ s.config :=
    ⟨htold.ledger, htyped.typed, htold.inv, htenant, reachable_record hr',
      fun ev hev hu => htyped.events ev hev p hu, Or.inl ⟨x, hx, fun _ => rfl⟩⟩
  have hends := next_ends (A := StepMay ans l s) (fun a c ha => ha) htold.phase
    htold.ledger.nodup hn
  generalize hres : Except.ok s' = res at hends
  cases hends with
  | fault => cases hres
  | next _ hacts =>
      cases hres
      have hend := hacts.keeps (fun a c c' ha hp h => h.performs hg.1 hx
        (htold.ledger.xfer_lt p x hx) hchannel hfresh ha (ha.entitled hg.2 htold.phase) hp) hstart
      rcases hend.state with ⟨y, hy, -⟩ | ⟨-, hend⟩
      · rw [show s'.config.world.srv.xferAt p = none from hgone] at hy
        cases hy
      · exact hend
  | shut hacts =>
      obtain ⟨w', hw', -⟩ := shutdown_cleared ans (hacts.ledger htold.ledger)
      rw [hw'] at hres
      cases hres
      exact absurd rfl hrun

/-- An error header was written to the descriptor, the file `f`, or at least attempted; after
that the descriptor was closed. -/
def Answered (fd : Fd) (f : OpenFile) (w w' : World) : Prop :=
  ∃ before after who stat result, w'.kern.record = w.kern.record ++ before ++
      (.sent who fd (.hdr .fileInfo stat) result, some f) :: after ∧
    Reserved Effect.isUse fd f before ∧ (.closed fd true, some f) ∈ after

/-- `process_request` has answered a request that it refused, and the descriptor is still
what it was. -/
theorem Refused.answers {req : ProtRequest} {clientPid : Nat} {fds : Fd × Fd} {w w' : World}
    (h : Refused ans req clientPid fds w w') (hf : w.kern.fds.lookup fds.1 = some f) :
    w'.kern.fds.lookup fds.1 = some f ∧ ∃ before after who stat result,
      w'.kern.record = w.kern.record ++ before ++
        (.sent who fds.1 (.hdr .fileInfo stat) result, some f) :: after ∧
      Reserved Effect.isUse fds.1 f before := by
  obtain ⟨tr, xfer, e, result, hundone, -, hsent, -⟩ := h
  obtain ⟨R, hR, hkept⟩ := hundone.kern.intact
  have htr : R.map Prod.fst = tr :=
    List.append_cancel_left (hR.trace.symm.trans hundone.kern.trace)
  have hmem : Effect.sent xfer fds.1 (.hdr .fileInfo e) result ∈ R.map Prod.fst := by
    rw [htr]
    exact (List.mem_filter.mp (hsent ▸ List.mem_singleton_self _)).1
  obtain ⟨entry, hentry, hfst⟩ := List.mem_map.mp hmem
  have hfile := (hkept fds.1 f hf entry hentry (by rw [hfst]; rfl)).2
  obtain ⟨before, after, rfl⟩ := List.append_of_mem hentry
  have hsame : entry = (.sent xfer fds.1 (.hdr .fileInfo e) result, some f) := by
    rw [← hfst, ← hfile]
  refine ⟨(hundone.kern.lookup _).trans hf, before, after, xfer, e, result, ?_, fun e' he' =>
    hkept fds.1 f hf e' (List.mem_append_left _ he')⟩
  rw [hR.record, ← hsame, List.append_assoc]

/-- The descriptors of a request are closed, the first one first. -/
theorem wp_closeFds_closing {fds : Fd × Fd} {nfds : Nat} {w : World} {Q : Unit → World → Prop}
    {E : Fault → World → Prop} (hpos : 0 < nfds)
    (hQ : ∀ w' R, w'.srv = w.srv → w'.kern.record = w.kern.record ++ w.kern.closing fds.1 :: R →
      Q () w') : wp (closeFds ans fds nfds) Q E w := by
  have hfirst := Kernel.records_close ans w.kern fds.1
  unfold closeFds
  rw [if_pos hpos]
  simp only [close, wp_bind, wp_sys, wp_pure]
  rw [wp_ite]
  refine ⟨fun _ => ?_, fun _ => hQ _ [] rfl hfirst.record⟩
  simp only [wp_bind, wp_sys, wp_pure]
  exact hQ _ _ rfl (hfirst.trans (Kernel.records_close ans _ fds.2)).record

theorem wp_handleReceived_answered {r : Received} {req : ProtRequest} {w : World}
    (hledger : Ledger w.srv) (hnum : w.kern.Numbered) (hheld : Held r w.kern) (hpos : 0 < r.nfds)
    (huid : r.uid = w.srv.uid) (hreq : protUnmarshalRequest w.srv.recvbuf r.nread = some req)
    (hf : w.kern.fds.lookup r.fds.1 = some f) :
    wp (handleReceived ans r) (fun _ w' => w'.srv.xferAt w.srv.nextPtr = none →
      Answered r.fds.1 f w w') (fun _ _ => True) w := by
  simp only [handleReceived, wp_bind, wp_assert, wp_gets]
  refine ⟨fun _ => ?_, fun _ => trivial⟩
  have hle := hheld.nfds_le
  rw [if_neg (fun hcount => hcount.2.elim (by omega) (by omega)), if_neg (not_not.mpr huid)]
  simp only [wp_bind]
  refine wp_mono (wp_and (wp_processRequest_born hheld hpos hreq)
    (wp_processRequest_steps hledger hnum hreq)) ?_ fun _ _ _ => trivial
  rintro ok w₁ ⟨hlive, hrefused⟩
  rw [wp_ite]
  refine ⟨fun hok hgone => absurd hgone (hlive hok), fun hno => ?_⟩
  refine wp_closeFds_closing hpos fun w₂ R _ hrecord _ => ?_
  obtain ⟨hf₁, before, after, who, stat, result, hanswered, hreserved⟩ :=
    (hrefused (Bool.eq_false_iff.mpr hno)).answers hf
  refine ⟨before, after ++ w₁.kern.closing r.fds.1 :: R, who, stat, result, ?_, hreserved, ?_⟩
  · rw [hrecord, hanswered]
    simp
  · refine List.mem_append_right _ ?_
    unfold Kernel.closing
    rw [hf₁]
    exact List.mem_cons_self

/-- A request for a file that is not accepted is answered, also when its transfer was
created and could not be registered. -/
theorem answered_of_refused {r : Received} {rest : List PollEvent} {req : ProtRequest}
    (hr : server.Reachable System.always s) (hphase : s.phase = .requested r rest)
    (hn : next (ans, .request) s = some (.ok s')) (hpos : 0 < r.nfds)
    (huid : r.uid = s.world.srv.uid)
    (hreq : protUnmarshalRequest s.world.srv.recvbuf r.nread = some req)
    (hgone : s'.world.srv.xferAt s.world.srv.nextPtr = none) :
    ∃ f, s.world.kern.fds.lookup r.fds.1 = some f ∧ Answered r.fds.1 f s.world s'.world := by
  obtain ⟨hledger, hok⟩ := reachable_ledger hr
  have hnum := reachable_numbered hr (by rw [hphase]; exact Phase.noConfusion)
  obtain ⟨w, phase⟩ := s
  subst hphase
  obtain ⟨n, hf⟩ := Held.clients hok r.fds.1 (mem_arrived_fst hpos)
  refine ⟨_, hf, ?_⟩
  simp only [next, Option.some.injEq] at hn
  revert hn
  refine settle_of_wp (P := fun res => res = .ok s' → _)
    (wp_handleReceived_answered hledger hnum hok hpos huid hreq hf) ?_ fun _ _ _ hc => by cases hc
  intro _ w' h heq
  cases heq
  exact h hgone

/-- In every run without an error event for the transfer, its end is reported before its
status channel is closed, unless the client asked for it or a progress message could not
be written; and a request that does not get as far as a transfer is answered before its
descriptor is closed.  What is written reaches the file that the client has sent for the
channel. -/
theorem abnormal_end_reported (hr : server.Reachable (LetsEnd p) s)
    (hg : LetsEnd p (ans, l) s) (hn : next (ans, l) s = some (.ok s'))
    (hrun : s'.phase ≠ .stopped) :
    (∀ s₁ x₁ x, AcceptedIn (LetsEnd p) p x₁ s₁ → server.Steps (LetsEnd p) s₁ s →
      s.world.srv.xferAt p = some x → x.statFd ≠ x.destFd → s'.world.srv.xferAt p = none →
      ¬ ProgressLost p s'.world.kern.trace → x.statFd = x₁.statFd ∧
        ∃ f, s₁.world.kern.fds.lookup x₁.statFd = some f ∧
          Dismissed p x f l s₁.world.kern.record s'.world) ∧
    ∀ r rest req, l = .request → s.phase = .requested r rest → 0 < r.nfds →
      r.uid = s.world.srv.uid →
      protUnmarshalRequest s.world.srv.recvbuf r.nread = some req →
      s'.world.srv.xferAt s.world.srv.nextPtr = none →
      ∃ f, s.world.kern.fds.lookup r.fds.1 = some f ∧ Answered r.fds.1 f s.world s'.world := by
  constructor
  · intro s₁ x₁ x haccepted hsteps hx hchannel hgone hprogress
    have hr₁ := haccepted.reachable
    have hra₁ : server.Reachable System.always s₁ := hr₁.mono fun _ _ _ => trivial
    obtain ⟨-, -, -, -, -, -, hx₁⟩ := id haccepted
    obtain ⟨hledger, hok⟩ := reachable_ledger hra₁
    have hchanneled := reachable_channeled (hr₁.mono fun _ _ hg => hg.2)
      (running_of_live hra₁ hx₁)
    obtain ⟨f, hf, (htenant : StatTenant Effect.isUse p x₁.statFd f s₁.world.kern.record _)⟩ :=
      hchanneled.statTenant hledger hx₁
    have hkept : Kept (Descriptors.Entitled (0 ≤ ·)) (LetsEnd p)
        (StatTenant Effect.isUse p x₁.statFd f s₁.world.kern.record) :=
      ⟨fun _ _ _ hg _ hok _ _ _ ha => ha.entitled hg.2 hok, fun _ _ _ _ ha hp h =>
        h.performs hp ha (fun e => Effect.isUse_of_onBehalf) fun _ _ _ _ he => he⟩
    rcases hkept.steps hsteps (Or.inl ⟨hledger, hok, htenant⟩) with hs | hs
    · have hstat := hs.inv.stat x hx
      refine ⟨hstat, f, hf, ?_⟩
      rcases dismissed_of_gone hr hg hn hrun hx hchannel (hstat ▸ hs.inv) haccepted.speechless
        hgone with hend | hlost
      · exact hend
      · exact absurd hlost hprogress
    · obtain ⟨-, w, -, -, hcleared, -⟩ := hs
      rw [hcleared.xferAt] at hx
      cases hx
  · rintro r rest req rfl hphase hpos huid hreq hgone
    exact answered_of_refused (hr.mono fun _ _ _ => trivial) hphase hn hpos huid hreq hgone

end Reports

section Runs

open Scenario

/-- No terminal message for the transfer, and no progress message that was lost. -/
def Effect.silent (p : Ptr) : Effect → Bool
  | .sent (some q) _ pdu _ => q != p || !pdu.terminal
  | _ => true

def Effect.kept (p : Ptr) : Effect → Bool
  | .sent (some q) _ (.xferStat _) (.error e) => q != p || !errnoIsFatal e
  | _ => true

theorem not_attempted_of_silent {p : Ptr} {trace : List Effect}
    (h : trace.all (Effect.silent p) = true) (fd : Fd) : ¬ Attempted p fd trace := by
  rintro ⟨pdu, result, hpdu, hmem⟩
  have hsilent := List.all_eq_true.mp h _ hmem
  simp [Effect.silent, hpdu] at hsilent

theorem not_progressLost_of_kept {p : Ptr} {trace : List Effect}
    (h : trace.all (Effect.kept p) = true) : ¬ ProgressLost p trace := by
  rintro ⟨fd, size, e, -, he, hmem⟩
  have hkept := List.all_eq_true.mp h _ hmem
  simp [Effect.kept, he] at hkept

/-- A SEND has been received. -/
def sendInHand : List (Answers × Label) :=
  [(answers tenBytes, .wait [readable]), (answers tenBytes, .event (-1, -1)),
    (answers tenBytes, .receive ⟨fileRequest .send 0 0, [1, 2], some client⟩)]

/-- What follows until its destination has become writable. -/
def sendWritable : List (Answers × Label) :=
  [(answers tenBytes, .receiveFailed EAGAIN), (answers tenBytes, .deferred),
    (answers tenBytes, .wait [writable 0])]

theorem abnormal_end_reported_of_sendWritable : ∃ s₁ s s' x₁ x f,
    AcceptedIn (LetsEnd 0) 0 x₁ s₁ ∧ server.Steps (LetsEnd 0) s₁ s ∧
    server.Steps (LetsEnd 0) s s' ∧ s.world.srv.xferAt 0 = some x ∧
    s'.world.srv.xferAt 0 = none ∧
    Dismissed 0 x f (.event (-1, -1)) s₁.world.kern.record s'.world := by
  obtain ⟨s₀, hr₀, hP⟩ := exists_reachable (LetsEnd 0) 4 100 sendInHand
    (fun s₀ => (s₀.world.srv.xferAt 0).isNone &&
      (server.run (LetsEnd 0) [(answers tenBytes, .request)] s₀).any fun s₁ =>
        (s₁.world.srv.xferAt 0).isSome &&
        (server.run (LetsEnd 0) sendWritable s₁).any fun s =>
          ((s.world.srv.xferAt 0).any fun x => x.statFd != x.destFd) &&
          (server.run (LetsEnd 0) [(answers tenBytes, .event (-1, -1))] s).any fun s' =>
            (s'.world.srv.xferAt 0).isNone && (s'.phase != .stopped) &&
              s'.world.kern.trace.all (Effect.kept 0))
    (by decide +kernel)
  simp only [Bool.and_eq_true, Option.any_eq_true, Option.isNone_iff_eq_none,
    Option.isSome_iff_exists, bne_iff_ne] at hP
  obtain ⟨hnone, s₁, hrun₁, ⟨x₁, hx₁⟩, s, hruns, ⟨x, hx, hchannel⟩, s', hrun', ⟨hgone, hgoes⟩,
    hkept⟩ := hP
  obtain ⟨_, hg₀, hn₀, hend⟩ := System.run_cons hrun₁
  cases hend
  obtain ⟨_, hg, hn, hend⟩ := System.run_cons hrun'
  cases hend
  have haccepted : AcceptedIn (LetsEnd 0) 0 x₁ s₁ := ⟨s₀, _, hr₀, hg₀, hn₀, hnone, hx₁⟩
  have hsteps := System.steps_of_run hruns
  have hr := haccepted.reachable.steps hsteps
  obtain ⟨hreported, -⟩ := abnormal_end_reported hr hg hn hgoes
  obtain ⟨-, f, -, hdismissed⟩ := hreported s₁ x₁ x haccepted hsteps hx hchannel hgone
    (not_progressLost_of_kept hkept)
  exact ⟨s₁, s, s', x₁, x, f, haccepted, hsteps, System.steps_of_run hrun', hx, hgone, hdismissed⟩

/-- A SEND, and the poller reports an error on its destination. -/
def sendFailing : List (Answers × Label) :=
  serve (answers tenBytes) [⟨fileRequest .send 0 0, [1, 2], some client⟩] ++
    [(answers tenBytes, .wait [failing 0])]

/-- The transfer is deleted and its status channel closed without a word. -/
theorem error_event_not_reported : ∃ s s' x,
    server.Reachable (fun l s => s.revokes 0 l.2 = false) s ∧
    next (answers tenBytes, .event (-1, -1)) s = some (.ok s') ∧ s'.phase ≠ .stopped ∧
    s.world.srv.xferAt 0 = some x ∧ x.statFd ≠ x.destFd ∧ s'.world.srv.xferAt 0 = none ∧
    ClosedIn s'.world.kern.trace x.statFd ∧
    ¬ Attempted 0 x.statFd s'.world.kern.trace := by
  obtain ⟨s, hr, hP⟩ := exists_reachable (fun l s => s.revokes 0 l.2 = false) 4 100 sendFailing
    (fun s => (s.world.srv.xferAt 0).any fun x => (x.statFd != x.destFd) &&
      (server.run System.always [(answers tenBytes, .event (-1, -1))] s).any fun s' =>
        (s'.world.srv.xferAt 0).isNone && (s'.phase != .stopped) &&
          s'.world.kern.trace.all (Effect.silent 0) &&
          s'.world.kern.trace.contains (.closed x.statFd true))
    (by decide +kernel)
  simp only [Bool.and_eq_true, Option.any_eq_true, Option.isNone_iff_eq_none, bne_iff_ne,
    List.contains_iff_mem] at hP
  obtain ⟨x, hx, hchannel, s', hrun, ⟨⟨hgone, hgoes⟩, hsilent⟩, hclosed⟩ := hP
  obtain ⟨s₁, -, hn, hend⟩ := System.run_cons hrun
  cases hend
  exact ⟨s, s', x, hr, hn, hgoes, hx, hchannel, hgone, ⟨true, hclosed⟩,
    not_attempted_of_silent hsilent x.statFd⟩

end Runs

end Sendfiled
