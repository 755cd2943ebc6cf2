/-
Progress messages.  A client adds up their sizes; each message counts what one call of
`transfer_file` has written.
-/
import Sendfiled.Channels
import Sendfiled.DeferredPass

namespace Sendfiled

open Prog Transition

variable {ans : Answers} {l : Label} {s s' : State} {p : Ptr} {x y : ResrcXfer} {v v' : View}
  {tr tr' : List Effect} {e : Effect} {pdu : Pdu}

/-- The size in a progress message that was written on behalf of the transfer. -/
def Effect.progress (p : Ptr) : Effect → Option Nat
  | .sent (some q) _ (.xferStat size) (.ok _) =>
      if q = p ∧ size ≠ protXferComplete then some size else none
  | _ => none

/-- The sizes of the progress messages, added up. -/
def reported (p : Ptr) (tr : List Effect) : Nat := (tr.filterMap (Effect.progress p)).sum

/-- Right after every progress message the sizes so far add up to what was written so far. -/
def Accounted (p : Ptr) (tr : List Effect) : Prop :=
  ∀ pre e post, tr = pre ++ e :: post → e.progress p ≠ none →
    reported p (pre ++ [e]) = (movedBy p pre).length

/-- Every message for the transfer was written. -/
def Written (p : Ptr) (tr : List Effect) : Prop :=
  ∀ fd pdu result, Effect.sent (some p) fd pdu result ∈ tr → ∃ n, result = .ok n

section Lists

theorem Written.left (h : Written p (tr ++ tr')) : Written p tr :=
  fun fd pdu result hmem => h fd pdu result (List.mem_append_left _ hmem)

theorem reported_append (p : Ptr) (tr tr' : List Effect) :
    reported p (tr ++ tr') = reported p tr + reported p tr' := by
  simp [reported]

theorem reported_quiet (h : ∀ e ∈ tr, e.progress p = none) : reported p tr = 0 := by
  rw [reported, List.filterMap_eq_nil_iff.mpr h]
  rfl

theorem reported_progress {fd : Fd} {size n : Nat} (hsize : size ≠ protXferComplete) :
    reported p [.sent (some p) fd (.xferStat size) (.ok n)] = size := by
  simp [reported, Effect.progress, hsize]

/-- One more call. -/
theorem Accounted.snoc (h : Accounted p tr)
    (he : e.progress p ≠ none → reported p (tr ++ [e]) = (movedBy p tr).length) :
    Accounted p (tr ++ [e]) := by
  intro pre e' post heq he'
  rcases List.eq_nil_or_concat' post with rfl | ⟨rest, last, rfl⟩
  · obtain ⟨rfl, hlast⟩ := List.append_inj' heq rfl
    cases hlast
    exact he he'
  · rw [← List.cons_append, ← List.append_assoc] at heq
    obtain ⟨rfl, -⟩ := List.append_inj' heq rfl
    exact h pre e' rest rfl he'

/-- More calls, none of them a progress message. -/
theorem Accounted.append (h : Accounted p tr) (hquiet : ∀ e ∈ tr', e.progress p = none) :
    Accounted p (tr ++ tr') := by
  induction tr' generalizing tr with
  | nil => rwa [List.append_nil]
  | cons e rest ih =>
      rw [List.append_cons]
      refine ih (h.snoc fun he => absurd (hquiet e List.mem_cons_self) he) fun e' he' => ?_
      exact hquiet e' (List.mem_cons_of_mem _ he')

end Lists

section Deeds

/-- As long as all messages can be written: the messages add up and none is held back. -/
structure Spoken (p : Ptr) (v : View) : Prop where
  accounted : Accounted p v.history
  resp : ∀ r, v.resp r = none

/-- A transfer that is not deferred has reported everything. -/
structure Tally (p : Ptr) (v : View) : Prop extends Spoken p v where
  balanced : ∀ x, v.xfer = some x → x.defer = .none →
    reported p v.history = (movedBy p v.history).length

theorem Moves.quiet (h : Moves p x y tr) : ∀ e ∈ tr, e.progress p = none := by
  intro e he
  obtain ⟨bytes, rfl⟩ := h.entries e he
  rfl

theorem Moves.quiet_failed (h : Moves p x y tr) (fd : Fd) (e : Errno) :
    ∀ e' ∈ tr ++ [.failed p fd e], e'.progress p = none := by
  intro e' he'
  rcases List.mem_append.mp he' with he' | he'
  · exact h.quiet e' he'
  · rw [List.mem_singleton.mp he']
    rfl

namespace Spoken

theorem gone (h : Spoken p v) : Tally p v.gone := ⟨⟨h.accounted, h.resp⟩, nofun⟩

theorem set (h : Spoken p v) (y : ResrcXfer) : Spoken p (v.set y) := ⟨h.accounted, h.resp⟩

/-- A deferred transfer. -/
theorem deferred (h : Spoken p v) (hy : y.defer ≠ .none) : Tally p (v.set y) := by
  refine ⟨h.set y, fun z hz hnone => ?_⟩
  cases hz
  exact absurd hnone hy

theorem say (h : Spoken p v) (hquiet : ∀ e ∈ tr, e.progress p = none) : Spoken p (v.say tr) :=
  ⟨h.accounted.append hquiet, h.resp⟩

theorem say_hdr (h : Spoken p v) {fd : Fd} {id : SfdCmdId} {stat : Nat}
    {result : Except Errno Nat} : Spoken p (v.say [.sent (some p) fd (.hdr id stat) result]) := by
  refine h.say fun e he => ?_
  rw [List.mem_singleton.mp he]
  rfl

/-- A last message that could be written. -/
theorem report (h : Spoken p v) (hpdu : pdu.terminal = true)
    (hreport : Reported ans p x pdu v v') (hwritten : Written p v'.history) :
    Tally p v'.gone := by
  have hquiet : ∀ fd result, (Effect.sent (some p) fd pdu result).progress p = none := by
    intro fd result
    cases pdu with
    | xferStat size =>
        have hsize : size = protXferComplete := by simpa [Pdu.terminal] using hpdu
        cases result <;> simp [Effect.progress, hsize]
    | hdr | fileInfo => rfl
  have hlost : ∀ fd e, Effect.sent (some p) fd pdu (.error e) ∉ v'.history := by
    intro fd e hmem
    obtain ⟨n, hn⟩ := hwritten fd pdu _ hmem
    cases hn
  cases hreport with
  | silent => exact h.gone
  | notified _ _ hnote =>
      cases hnote with
      | sent =>
          refine Spoken.gone (h.say fun e he => ?_)
          rw [List.mem_singleton.mp he]
          exact hquiet ..
      | lost | refused | kept =>
          exact absurd (List.mem_append_right _ List.mem_cons_self) (hlost _ _)

/-- The transfer is at its end. -/
theorem ended (h : Spoken p v) (htransferred : Transferred ans p x v false v')
    (hwritten : Written p v'.history) : Tally p v'.gone := by
  cases htransferred with
  | completed hmoves _ hreport =>
      exact ((h.say hmoves.quiet).set _).report (by simp [Pdu.terminal]) hreport hwritten
  | @faltered y tr e _ _ hmoves _ hend =>
      have hspoken := (h.say (hmoves.quiet_failed x.destFd e)).set y
      cases hend with
      | muted =>
          obtain ⟨n, hn⟩ := hwritten _ _ _ (List.mem_append_right _ List.mem_cons_self)
          cases hn
      | completed _ hreport =>
          exact hspoken.report (by simp [Pdu.terminal]) hreport hwritten
      | broken _ hreport => exact hspoken.report rfl hreport hwritten
  | idle => exact h.gone

end Spoken

namespace Tally

/-- A call after which the transfer goes on.  If it is blocked, then what it has written is
all that was not reported before: it did not begin with the transfer READY. -/
theorem served (h : Tally p v) (hx : v.xfer = some x) (hdefer : x.defer ≠ .cancel)
    (hchannel : x.statFd ≠ x.destFd)
    (hclear : x.defer = .ready → ∀ tr fd e, v'.history = v.history ++ tr →
      Effect.failed p fd e ∈ tr → errnoIsFatal e = true)
    (htransferred : Transferred ans p x v true v') (hwritten : Written p v'.history) :
    Tally p v' := by
  cases htransferred with
  | full hmoves _ _ =>
      refine (h.toSpoken.say hmoves.quiet).deferred ?_
      exact nofun
  | @faltered y tr e _ _ hmoves _ hend =>
      have hspoken := h.toSpoken.say (hmoves.quiet_failed x.destFd e)
      cases hend with
      | paused _ _ hshared =>
          rw [hmoves.statFd, hmoves.destFd] at hshared
          exact absurd hshared hchannel
      | @stalled result he _ _ hsize _ =>
          obtain ⟨n, rfl⟩ := hwritten _ _ _ (List.mem_append_right _ List.mem_cons_self)
          have hnone : x.defer = .none := by
            cases hd : x.defer with
            | none => rfl
            | cancel => exact absurd hd hdefer
            | ready =>
                have hfatal := hclear hd _ x.destFd e (List.append_assoc ..) (by simp)
                rw [he] at hfatal
                cases hfatal
          -- the message reports what the call has written
          have hsum : reported p (v.history ++ (tr ++ [.failed p x.destFd e]) ++
              [.sent (some p) y.statFd (.xferStat (movedBy p tr).length) (.ok n)]) =
              (movedBy p (v.history ++ (tr ++ [.failed p x.destFd e]))).length := by
            rw [reported_append, reported_append, reported_quiet (hmoves.quiet_failed _ _),
              reported_progress hsize, h.balanced x hx hnone, movedBy_append,
              movedBy_append p tr, List.length_append, List.length_append]
            rfl
          refine ⟨⟨hspoken.accounted.snoc fun _ => hsum, h.resp⟩, fun z _ _ => ?_⟩
          have hsame : movedBy p (v.history ++ (tr ++ [.failed p x.destFd e]) ++
              [.sent (some p) y.statFd (.xferStat (movedBy p tr).length) (.ok n)]) =
              movedBy p (v.history ++ (tr ++ [.failed p x.destFd e])) := by
            rw [movedBy_append]
            exact List.append_nil _
          exact hsum.trans (congrArg List.length hsame.symm)

/-- What the server does to the transfer keeps the tally. -/
theorem deed (h : Tally p v) (hchannel : ∀ x, v.xfer = some x → x.statFd ≠ x.destFd)
    (hclear : ∀ x, v.xfer = some x → x.defer = .ready → ∀ tr fd e,
      v'.history = v.history ++ tr → Effect.failed p fd e ∈ tr → errnoIsFatal e = true)
    (hdeed : Deed ans p v v') (hwritten : Written p v'.history) : Tally p v' := by
  cases hdeed with
  | served hx hdefer htransferred =>
      exact h.served hx hdefer (hchannel _ hx) (hclear _ hx) htransferred hwritten
  | ended _ _ htransferred => exact h.toSpoken.ended htransferred hwritten
  | errored | shut | buried => exact h.toSpoken.gone
  | cancelled => exact h.toSpoken.deferred nofun
  | @assigned x fd hx _ =>
      refine ⟨h.toSpoken.set _, fun z hz hnone => ?_⟩
      cases hz
      exact h.balanced x hx hnone
  | rejected => exact h.toSpoken.say_hdr.gone
  | dropped hr | settled hr | retried hr =>
      rw [h.resp] at hr
      cases hr

end Tally

end Deeds

section Runs

/-- A write on behalf of the transfer would block in a step that begins with it READY: the
call that filled the pipe has reported nothing. -/
def State.BlocksReady (p : Ptr) (l : Answers × Label) (s : State) : Prop :=
  s.world.Ready p ∧ ∃ s' tr fd e, next l s = some (.ok s') ∧
    (s'.world.view p).history = (s.world.view p).history ++ tr ∧
    Effect.failed p fd e ∈ tr ∧ errnoIsFatal e = false

/-- The transfer has a status channel. -/
def State.HasChannel (p : Ptr) (s : State) : Prop :=
  ∀ x, s.world.srv.xferAt p = some x → x.statFd ≠ x.destFd

/-- The transfer has a status channel and is not blocked while it is READY. -/
def Tallies (p : Ptr) (l : Answers × Label) (s : State) : Prop :=
  s.HasChannel p ∧ ¬ s.BlocksReady p l

/-- One step. -/
theorem next_tally (hr : server.Reachable System.always s) (hg : Tallies p (ans, l) s)
    (hn : next (ans, l) s = some (.ok s')) (hknown : p < s.world.srv.nextPtr)
    (h : Written p (s.world.view p).history → Tally p (s.world.view p))
    (hwritten : Written p (s'.world.view p).history) : Tally p (s'.world.view p) := by
  obtain ⟨hc, hok⟩ := reachable_ledger hr
  obtain ⟨tr, htrace⟩ := next_trace_prefix hc hok hn
  have hhistory : (s'.world.view p).history = (s.world.view p).history ++ historyOf p tr := by
    rw [World.view, World.view, ← htrace, historyOf_append]
  have htally : Tally p (s.world.view p) := h (Written.left (hhistory ▸ hwritten))
  rcases next_turn hc (Minted.reachable hr) hok hn hknown with ⟨v, htouched, hend⟩ | hexpired
  · have hsame : (s'.world.view p).history = v.history := by
      rcases hend with hend | hend
      · rw [hend]
      · rw [hend]
        rfl
    have hv : Tally p v := by
      cases htouched with
      | refl => exact htally
      | single hdeed =>
          refine htally.deed hg.1 (fun x hx hready tr fd e htr hmem => ?_) hdeed (hsame ▸ hwritten)
          by_contra hfatal
          exact hg.2 ⟨⟨x, hx, hready⟩, s', tr, fd, e, hn, hsame.trans htr, hmem,
            Bool.eq_false_iff.mpr hfatal⟩
    rcases hend with hend | hend <;> rw [hend]
    · exact hv
    · exact hv.toSpoken.gone
  · obtain ⟨hx, -, -, -, hview, -⟩ := hexpired
    rw [hview]
    exact htally.toSpoken.say_hdr.deferred (by simp)

/-- The steps after the transfer was accepted. -/
theorem steps_tally (hr : server.Reachable System.always s) (hknown : p < s.world.srv.nextPtr)
    (h : Written p (s.world.view p).history → Tally p (s.world.view p))
    (hsteps : server.Steps (Tallies p) s s') :
    Written p (s'.world.view p).history → Tally p (s'.world.view p) := by
  have hall : server.Reachable System.always s' ∧ p < s'.world.srv.nextPtr ∧
      (Written p (s'.world.view p).history → Tally p (s'.world.view p)) := by
    refine hsteps.keeps (I := fun s => server.Reachable System.always s ∧
      p < s.world.srv.nextPtr ∧
      (Written p (s.world.view p).history → Tally p (s.world.view p))) ?_ ⟨hr, hknown, h⟩
    rintro ⟨ans, l⟩ s₁ s₂ ⟨hr₁, hknown₁, h₁⟩ hg hn
    obtain ⟨hc, hok⟩ := reachable_ledger hr₁
    exact ⟨hr₁.step trivial hn, Nat.lt_of_lt_of_le hknown₁ (next_nextPtr_le hc hok hn),
      next_tally hr₁ hg hn hknown₁ h₁⟩
  exact hall.2.2

theorem Born.tally (h : Born p x v) : Tally p v := by
  cases h with
  | intro _ _ =>
      have hempty : Accounted p [] := by
        intro pre e post heq
        simp at heq
      refine ⟨⟨hempty.append fun e he => ?_, fun _ => rfl⟩, fun _ _ _ => ?_⟩
      · rw [List.mem_singleton.mp he]
        rfl
      · rfl

/-- A progress message for the transfer shows in its history. -/
theorem Effect.onBehalf_of_progress (he : e.progress p ≠ none) : e.onBehalf = some p := by
  unfold Effect.progress at he
  split at he
  · split at he
    · rename_i hq
      rw [Effect.onBehalf, hq.1]
    · exact absurd rfl he
  · exact absurd rfl he

theorem reported_historyOf (p : Ptr) (tr : List Effect) :
    reported p (historyOf p tr) = reported p tr := by
  unfold reported historyOf
  rw [List.filterMap_filter]
  congr 2
  funext e
  by_cases he : e.progress p = none
  · simp [he]
  · simp [Effect.onBehalf_of_progress he]

theorem Accounted.of_historyOf (h : Accounted p (historyOf p tr)) : Accounted p tr := by
  rintro pre e post rfl he
  have hown : historyOf p [e] = [e] := by
    simp [historyOf, Effect.onBehalf_of_progress he]
  have hsum := h (historyOf p pre) e (historyOf p post) (by
    rw [List.append_cons, historyOf_append, historyOf_append, hown, List.append_assoc,
      List.singleton_append]) he
  rw [← hown, ← historyOf_append, reported_historyOf, movedBy_historyOf] at hsum
  exact hsum

/-- From the acceptance of a transfer with a status channel on, as long as it is not blocked
while it is READY: whenever a progress message was written, the sizes in the messages so far
add up to what was written to the destination so far. -/
theorem progress_accounted {s₀ s₁ : State} (hr : server.Reachable System.always s₀)
    (hn : next (ans, l) s₀ = some (.ok s₁)) (hnone : s₀.world.srv.xferAt p = none)
    (hx : s₁.world.srv.xferAt p = some x) (hsteps : server.Steps (Tallies p) s₁ s)
    (hwritten : Written p s.world.kern.trace) : Accounted p s.world.kern.trace := by
  obtain ⟨hc, hok⟩ := reachable_ledger hr
  obtain ⟨-, -, -, -, -, -, hborn, -⟩ := next_born hc (Minted.reachable hr) hok hn hnone hx
  have hr₁ : server.Reachable System.always s₁ := hr.step trivial hn
  have hknown := (reachable_ledger hr₁).1.xfer_lt p x hx
  have htally := steps_tally hr₁ hknown (fun _ => hborn.tally) hsteps
    fun fd pdu result hmem => hwritten fd pdu result (World.mem_history hmem)
  exact htally.accounted.of_historyOf

end Runs

section Examples

open Scenario

/-- A SEND is accepted, and its destination becomes writable. -/
def sendStarts (ans : Answers) : List (Answers × Label) :=
  [(answers tenBytes, .request), (answers tenBytes, .receiveFailed EAGAIN),
    (answers tenBytes, .deferred), (ans, .wait [writable 0]), (ans, .event (-1, -1))]

/-- Three bytes are written, and then the destination is full. -/
def threeBytes : Answers :=
  { answers tenBytes with io := fun _ n => if n = 10 then .ok 3 else .error EAGAIN }

/-- Transfer 0 has a status channel, if it exists. -/
def State.channelled (s : State) : Bool :=
  (s.world.srv.xferAt 0).all fun x => x.statFd != x.destFd

theorem State.hasChannel_of_channelled (h : s.channelled = true) : s.HasChannel 0 := by
  intro x hx
  rw [State.channelled, hx] at h
  exact bne_iff_ne.mp h

/-- Transfer 0 is not READY. -/
def State.unready (s : State) : Bool := (s.world.srv.xferAt 0).all fun x => x.defer != .ready

theorem State.tallies_of_unready {l : Answers × Label} (hchannel : s.channelled = true)
    (h : s.unready = true) : Tallies 0 l s := by
  refine ⟨State.hasChannel_of_channelled hchannel, ?_⟩
  rintro ⟨⟨x, hx, hready⟩, -⟩
  rw [State.unready, hx] at h
  exact bne_iff_ne.mp h hready

/-- No message for the transfer has failed. -/
def allWritten (p : Ptr) (tr : List Effect) : Bool :=
  tr.all fun
    | .sent (some q) _ _ (.error _) => q != p
    | _ => true

theorem written_of_allWritten (h : allWritten p tr = true) : Written p tr := by
  intro fd pdu result hmem
  have hone := List.all_eq_true.mp h _ hmem
  cases result with
  | ok n => exact ⟨n, rfl⟩
  | error e => exact absurd rfl (bne_iff_ne.mp hone)

/-- A SEND of which three bytes are written before its destination is full. -/
theorem progress_accounted_of_threeBytes : ∃ s, server.Reachable System.always s ∧
    reported 0 s.world.kern.trace = 3 ∧ Accounted 0 s.world.kern.trace := by
  obtain ⟨s₀, hr, hP⟩ := exists_reachable System.always 4 100 statusSend
    (fun s₀ => (s₀.world.srv.xferAt 0).isNone &&
      (server.run System.always ((sendStarts threeBytes).take 1) s₀).any fun s₁ =>
        (s₁.world.srv.xferAt 0).isSome &&
        (server.run (fun _ s => s.channelled = true ∧ s.unready = true)
          ((sendStarts threeBytes).drop 1) s₁).any fun s =>
          allWritten 0 s.world.kern.trace && (reported 0 s.world.kern.trace == 3))
    (by decide +kernel)
  simp only [Bool.and_eq_true, Option.any_eq_true, Option.isNone_iff_eq_none,
    Option.isSome_iff_exists, beq_iff_eq] at hP
  obtain ⟨hnone, s₁, hrun₁, ⟨x, hx⟩, s, hrun, hwritten, hsum⟩ := hP
  obtain ⟨s₁', -, hn, hend⟩ := System.run_cons hrun₁
  cases hend
  have hsteps : server.Steps (Tallies 0) s₁ s :=
    System.steps_of_run_forall hrun fun _ _ _ h => State.tallies_of_unready h.1 h.2
  obtain ⟨s', h₀, hsteps₀⟩ := hr.step trivial hn
  exact ⟨s, ⟨s', h₀, hsteps₀.trans (hsteps.mono fun _ _ _ => trivial)⟩, hsum,
    progress_accounted hr hn hnone hx hsteps (written_of_allWritten hwritten)⟩

/-- A SEND of ten bytes into a pipe with room for four: the call that fills the pipe reports
nothing, and the next one is blocked and reports that it has written nothing. -/
theorem progress_not_accounted : ∃ ans l s₀ s₁ s x, server.Reachable System.always s₀ ∧
    next (ans, l) s₀ = some (.ok s₁) ∧ s₀.world.srv.xferAt 0 = none ∧
    s₁.world.srv.xferAt 0 = some x ∧ server.Steps (fun _ s => s.HasChannel 0) s₁ s ∧
    Written 0 s.world.kern.trace ∧ ¬ Accounted 0 s.world.kern.trace := by
  obtain ⟨s₀, hr, hP⟩ := exists_reachable System.always 4 4 statusSend
    (fun s₀ => (s₀.world.srv.xferAt 0).isNone &&
      (server.run System.always ((sendStarts (answers tenBytes)).take 1) s₀).any fun s₁ =>
        (s₁.world.srv.xferAt 0).isSome &&
        (server.run (fun _ s => s.channelled = true)
          ((sendStarts (answers tenBytes)).drop 1 ++ [(threeBytes, .deferred)]) s₁).any fun s =>
          allWritten 0 s.world.kern.trace && (reported 0 s.world.kern.trace == 0) &&
          ((movedBy 0 s.world.kern.trace.dropLast).length == 4) &&
          s.world.kern.trace.getLast?.any fun e => (e.progress 0).isSome)
    (by decide +kernel)
  simp only [Bool.and_eq_true, Option.any_eq_true, Option.isNone_iff_eq_none,
    Option.isSome_iff_exists, beq_iff_eq] at hP
  obtain ⟨hnone, s₁, hrun₁, ⟨x, hx⟩, s, hrun, ⟨⟨hwritten, hsum⟩, hmoved⟩, e, hlast, size, he⟩ := hP
  obtain ⟨s₁', -, hn, hend⟩ := System.run_cons hrun₁
  cases hend
  refine ⟨_, _, s₀, s₁, s, x, hr, hn, hnone, hx, System.steps_of_run_forall hrun
    fun _ _ _ h => State.hasChannel_of_channelled h, written_of_allWritten hwritten, ?_⟩
  intro haccounted
  have htrace : s.world.kern.trace.dropLast ++ [e] = s.world.kern.trace :=
    List.dropLast_append_getLast? e hlast
  have hwrong := haccounted _ e [] htrace.symm (by simp [he])
  rw [htrace, hsum, hmoved] at hwrong
  cases hwrong

end Examples

end Sendfiled
