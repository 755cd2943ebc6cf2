/-
The loop of `srv_run` as the code has it, and the runs of the transition system.
The two come to the same: every outcome of the loop is the outcome of a run, and
every run between two polls is an execution of the loop.
-/
import Sendfiled.Run

namespace Sendfiled

open Prog Transition

variable {ans : Answers}

/-- What `syspoll_wait` and `syspoll_poll` give: an error, or events with what the
request socket has to offer when its own event is handled. -/
inductive Ready where
  | failed (e : Errno)
  | events (batch : List (PollEvent × Inbox))

def Ready.Valid (regs : List Reg) : Ready → Prop
  | .failed _ => True
  | .events batch => ValidBatch regs (batch.map Prod.fst)

/-- One call of the poller.  What it returns suits the registrations it finds. -/
structure Poll where
  ready : Kernel → Ready
  valid : ∀ k, (ready k).Valid k.regs

section Code

variable (ans)

/-- One iteration of the loop of `srv_run`; false when the loop is left. -/
def runOnce (poll : Poll) : M Bool := do
  match ← gets fun w => poll.ready w.kern with
  | .failed e =>
      setErrno e
      if e ≠ EINTR ∧ errnoIsFatal e then pure false
      else
        processDeferred ans
        pure true
  | .events batch =>
      if ← processEvents ans batch then
        processDeferred ans
        pure true
      else pure false

/-- The loop for as many polls as the list has, and what follows it.  True while the loop
goes on, false when the server was deleted. -/
def srvLoop : List Poll → M Bool
  | [] => pure true
  | poll :: rest => do
      if ← runOnce ans poll then srvLoop rest
      else
        srvDelete ans
        pure false

end Code

/-- The steps the server takes by itself, with the given answers. -/
def Alone (ans : Answers) (l : Answers × Label) (_ : State) : Prop :=
  l.1 = ans ∧ ∀ n, l.2 ≠ .clientCloses n

/-- What the loop leaves behind: the server waits again, or it has stopped. -/
def left (again : Bool) (w : World) : Except Fault State :=
  .ok ⟨w, if again then .waiting else .stopped⟩

section Settle

variable {α β : Type} {w : World}

@[simp] theorem settle_pure (a : α) (f : α → World → Except Fault State) :
    settle ((pure a : M α) w) f = f a w := rfl

theorem settle_eq_iff {m : M α} {f : α → World → Except Fault State} {r : Except Fault State} :
    settle (m w) f = r ↔ wp m (fun a w' => f a w' = r) (fun e _ => .error e = r) w := by
  unfold settle wp
  cases m w <;> rfl

@[simp] theorem settle_bind (m : M α) (n : α → M β) (f : β → World → Except Fault State) :
    settle ((m >>= n) w) f = settle (m w) fun a w' => settle (n a w') f := by
  rw [settle_eq_iff, wp_bind]
  refine wp_mono (settle_eq_iff.mp rfl) (fun a w' h => ?_) fun e w' h => h
  exact settle_eq_iff.mp h

@[simp] theorem settle_done (a : α) (f : α → World → Except Fault State) :
    settle (.done a w) f = f a w := rfl

@[simp] theorem settle_fault (e : Fault) (f : α → World → Except Fault State) :
    settle (.fault e w) f = .error e := rfl

@[simp] theorem settle_gets (g : World → α) (f : α → World → Except Fault State) :
    settle ((gets g : M α) w) f = f (g w) w := rfl

@[simp] theorem settle_setErrno (e : Errno) (f : Unit → World → Except Fault State) :
    settle (setErrno e w) f = f () (withErrno e w) := rfl

theorem settle_ite {c : Prop} [Decidable c] {m n : M α} {f : α → World → Except Fault State} :
    settle ((if c then m else n) w) f = if c then settle (m w) f else settle (n w) f := by
  split <;> rfl

end Settle

theorem alone {l : Label} {s : State} (h : ∀ n, l ≠ .clientCloses n) : Alone ans (ans, l) s :=
  ⟨rfl, h⟩

section Soundness

variable (ans) (w : World) (rest : List PollEvent)

/-- The end of the loop of `process_events`. -/
def afterEvents (ans : Answers) (again : Bool) (w : World) : Except Fault State :=
  if again then .ok ⟨w, .events []⟩ else shutdown ans w

/-- The end of the loop of `handle_reqfd`. -/
def afterReqfd (ans : Answers) (rest : List PollEvent) (again : Bool) (w : World) :
    Except Fault State :=
  if again then .ok ⟨w, .events rest⟩ else shutdown ans w

theorem next_receiveFailed_eq (last : Errno) (old : Fd × Fd) :
    server.next (ans, .receiveFailed last) ⟨w, .receiving old rest⟩ =
      some (afterReqfd ans rest (!errnoIsFatal last) (withErrno last w)) := by
  cases hfatal : errnoIsFatal last <;> simp [server, next, afterReqfd, hfatal]

/-- Where a reception leads. -/
def afterRecv (ans : Answers) (rest : List PollEvent) : Option Received → World →
    Except Fault State
  | none, w => afterReqfd ans rest (!errnoIsFatal w.kern.errno) w
  | some r, w => .ok ⟨w, .requested r rest⟩

theorem next_receive_eq (old : Fd × Fd) (d : Datagram) :
    server.next (ans, .receive d) ⟨w, .receiving old rest⟩ =
      some (settle (usRecv ans old d w) (afterRecv ans rest)) := by
  change some (settle (usRecv ans old d w) _) = _
  congr 2
  funext r w'
  cases r with
  | none => cases hfatal : errnoIsFatal w'.kern.errno <;> simp [afterRecv, afterReqfd, hfatal]
  | some r => rfl

/-- One call of `handle_reqfd` is a run. -/
theorem handleReqfd_leads (last : Errno) (old : Fd × Fd) (ds : List Datagram) :
    server.Leads (Alone ans) ⟨w, .receiving old rest⟩
      (settle (handleReqfd ans last old ds w) (afterReqfd ans rest)) := by
  induction ds generalizing old w with
  | nil =>
      refine System.Leads.single (alone (by simp)) (l := (ans, .receiveFailed last)) ?_
      rw [next_receiveFailed_eq]
      rfl
  | cons d ds ih =>
      simp only [handleReqfd, handleDatagram, settle_bind]
      have hrecv := next_receive_eq ans w rest old d
      cases hr : usRecv ans old d w with
      | fault e w₁ =>
          rw [hr] at hrecv
          exact System.Leads.single (alone (by simp)) hrecv
      | done r w₁ =>
          rw [hr] at hrecv
          cases r with
          | none => exact System.Leads.single (alone (by simp)) hrecv
          | some r =>
              refine System.Leads.head (alone (by simp)) hrecv ?_
              have hreq : server.next (ans, .request) ⟨w₁, .requested r rest⟩ =
                some (settle (handleReceived ans r w₁) fun _ w' =>
                  .ok ⟨w', .receiving r.fds rest⟩) := rfl
              simp only [settle_done, settle_bind]
              cases hh : handleReceived ans r w₁ with
              | fault e w₂ =>
                  rw [hh] at hreq
                  exact System.Leads.single (alone (by simp)) hreq
              | done _ w₂ =>
                  rw [hh] at hreq
                  refine System.Leads.head (alone (by simp)) hreq ?_
                  exact ih w₂ r.fds

/-- Where the handling of one event leads. -/
def afterDispatch (ans : Answers) (garbage : Fd × Fd) (rest : List PollEvent) : Dispatch → World →
    Except Fault State
  | .stop, w => shutdown ans w
  | .request, w => .ok ⟨w, .receiving garbage rest⟩
  | .handled, w => .ok ⟨w, .events rest⟩

theorem next_event_eq (garbage : Fd × Fd) (ev : PollEvent) :
    server.next (ans, .event garbage) ⟨w, .events (ev :: rest)⟩ =
      some (settle (dispatchEvent ans ev w) (afterDispatch ans garbage rest)) := by
  rfl

/-- One call of `process_events` is a run. -/
theorem processEvents_leads (batch : List (PollEvent × Inbox)) :
    server.Leads (Alone ans) ⟨w, .events (batch.map Prod.fst)⟩
      (settle (processEvents ans batch w) (afterEvents ans)) := by
  induction batch generalizing w with
  | nil => exact System.Leads.refl _
  | cons entry batch ih =>
      obtain ⟨ev, inbox⟩ := entry
      simp only [processEvents, settle_bind]
      have hevent := next_event_eq ans w (batch.map Prod.fst) inbox.garbage ev
      cases hd : dispatchEvent ans ev w with
      | fault e w₁ =>
          rw [hd] at hevent
          exact System.Leads.single (alone (by simp)) hevent
      | done d w₁ =>
          rw [hd] at hevent
          simp only [settle_done]
          cases d with
          | stop => exact System.Leads.single (alone (by simp)) hevent
          | handled => exact System.Leads.head (alone (by simp)) hevent (ih w₁)
          | request =>
              refine System.Leads.head (alone (by simp)) hevent ?_
              simp only [settle_bind]
              have hreqfd := handleReqfd_leads ans w₁ (batch.map Prod.fst) inbox.last
                inbox.garbage inbox.datagrams
              cases hh : handleReqfd ans inbox.last inbox.garbage inbox.datagrams w₁ with
              | fault e w₂ =>
                  rw [hh] at hreqfd
                  exact hreqfd
              | done again w₂ =>
                  rw [hh] at hreqfd
                  cases again with
                  | false => exact hreqfd
                  | true => exact System.Steps.leads hreqfd (ih w₂)

/-- The secondary loop is a step. -/
theorem next_deferred_eq : server.next (ans, .deferred) ⟨w, .events []⟩ =
    some (settle (processDeferred ans w) fun _ w' => .ok ⟨w', .waiting⟩) := rfl

/-- The end of an iteration. -/
def afterOnce (ans : Answers) (again : Bool) (w : World) : Except Fault State :=
  if again then .ok ⟨w, .waiting⟩ else shutdown ans w

theorem next_waitFailed_eq (e : Errno) :
    server.next (ans, .waitFailed e) ⟨w, .waiting⟩ =
      some (if e ≠ EINTR ∧ errnoIsFatal e then shutdown ans (withErrno e w)
        else .ok ⟨withErrno e w, .events []⟩) := by
  simp only [server, next]
  split <;> rfl

theorem next_wait_eq {evs : List PollEvent} (h : ValidBatch w.kern.regs evs) :
    server.next (ans, .wait evs) ⟨w, .waiting⟩ = some (.ok ⟨w, .events evs⟩) :=
  if_pos h

/-- One iteration of the loop is a run. -/
theorem runOnce_leads (poll : Poll) :
    server.Leads (Alone ans) ⟨w, .waiting⟩ (settle (runOnce ans poll w) (afterOnce ans)) := by
  have hdeferred : ∀ w, server.Leads (Alone ans) ⟨w, .events []⟩
      (settle (processDeferred ans w) fun _ w' => .ok ⟨w', .waiting⟩) := fun w =>
    System.Leads.single (alone (by simp)) (next_deferred_eq ans w)
  have hvalid := poll.valid w.kern
  simp only [runOnce, settle_bind, settle_gets]
  cases hready : poll.ready w.kern with
  | failed e =>
      have hfail := next_waitFailed_eq ans w e
      simp only [settle_bind, settle_setErrno, settle_ite, settle_pure]
      by_cases hfatal : e ≠ EINTR ∧ errnoIsFatal e
      · rw [if_pos hfatal] at hfail ⊢
        exact System.Leads.single (alone (by simp)) hfail
      · rw [if_neg hfatal] at hfail ⊢
        exact System.Leads.head (alone (by simp)) hfail (hdeferred _)
  | events batch =>
      rw [hready] at hvalid
      refine System.Leads.head (alone (l := .wait _) (by simp)) (next_wait_eq ans w hvalid) ?_
      have hevents := processEvents_leads ans w batch
      simp only [settle_bind, settle_ite, settle_pure]
      cases hrun : processEvents ans batch w with
      | fault e w₁ =>
          rw [hrun] at hevents
          exact hevents
      | done again w₁ =>
          rw [hrun] at hevents
          cases again with
          | false => exact hevents
          | true => exact System.Steps.leads hevents (hdeferred w₁)

/-- The whole loop is a run. -/
theorem srvLoop_leads (polls : List Poll) :
    server.Leads (Alone ans) ⟨w, .waiting⟩ (settle (srvLoop ans polls w) left) := by
  induction polls generalizing w with
  | nil => exact System.Leads.refl _
  | cons poll rest ih =>
      have honce := runOnce_leads ans w poll
      simp only [srvLoop, settle_bind, settle_ite, settle_pure]
      cases hrun : runOnce ans poll w with
      | fault e w₁ =>
          rw [hrun] at honce
          exact honce
      | done again w₁ =>
          rw [hrun] at honce
          cases again with
          | false => exact honce
          | true => exact System.Steps.leads honce (ih w₁)

end Soundness

section Completeness

variable {w : World} {o : Except Fault State}

/-- The rest of an iteration and of the loop, after `process_events`. -/
def afterBatch (ans : Answers) (polls : List Poll) (again : Bool) : M Bool :=
  if again then do
    processDeferred ans
    srvLoop ans polls
  else do
    srvDelete ans
    pure false

/-- The rest after `handle_reqfd`, with some events of the batch still to come. -/
def afterSocket (ans : Answers) (batch : List (PollEvent × Inbox)) (polls : List Poll)
    (again : Bool) : M Bool := do
  let again ← if again then processEvents ans batch else pure false
  afterBatch ans polls again

/-- The code can go on from a state so that it comes to an outcome: with some polls, with
something on the request socket. -/
inductive Resumes (ans : Answers) (o : Except Fault State) : State → Prop
  | waiting {w : World} (polls : List Poll) (h : settle (srvLoop ans polls w) left = o) :
      Resumes ans o ⟨w, .waiting⟩
  | events {w : World} (batch : List (PollEvent × Inbox)) (polls : List Poll)
      (h : settle ((processEvents ans batch >>= afterBatch ans polls) w) left = o) :
      Resumes ans o ⟨w, .events (batch.map Prod.fst)⟩
  | receiving {w : World} {fds : Fd × Fd} (last : Errno) (ds : List Datagram)
      (batch : List (PollEvent × Inbox)) (polls : List Poll)
      (h : settle ((handleReqfd ans last fds ds >>= afterSocket ans batch polls) w) left = o) :
      Resumes ans o ⟨w, .receiving fds (batch.map Prod.fst)⟩
  | requested {w : World} {r : Received} (last : Errno) (ds : List Datagram)
      (batch : List (PollEvent × Inbox)) (polls : List Poll)
      (h : settle ((do
        handleReceived ans r
        handleReqfd ans last r.fds ds >>= afterSocket ans batch polls) w) left = o) :
      Resumes ans o ⟨w, .requested r (batch.map Prod.fst)⟩
  | stopped {w : World} (h : .ok ⟨w, .stopped⟩ = o) : Resumes ans o ⟨w, .stopped⟩

/-- A poll that gives the batch to the kernels it suits. -/
def Poll.batch (b : List (PollEvent × Inbox)) : Poll where
  ready := fun k => if ValidBatch k.regs (b.map Prod.fst) then .events b else .failed EINTR
  valid := by
    intro k
    split
    · assumption
    · trivial

def Poll.failed (e : Errno) : Poll where
  ready := fun _ => .failed e
  valid := fun _ => trivial

theorem srvLoop_batch {b : List (PollEvent × Inbox)} {polls : List Poll}
    (h : ValidBatch w.kern.regs (b.map Prod.fst)) :
    settle (srvLoop ans (Poll.batch b :: polls) w) left =
      settle ((processEvents ans b >>= afterBatch ans polls) w) left := by
  have hready : (Poll.batch b).ready w.kern = .events b := if_pos h
  simp only [srvLoop, runOnce, settle_bind, settle_gets, hready]
  cases processEvents ans b w with
  | fault e w₁ => rfl
  | done again w₁ => cases again <;> simp [afterBatch, settle_bind]

theorem srvLoop_failed {e : Errno} {polls : List Poll} :
    settle (srvLoop ans (Poll.failed e :: polls) w) left =
      if e ≠ EINTR ∧ errnoIsFatal e then shutdown ans (withErrno e w)
      else settle (afterBatch ans polls true (withErrno e w)) left := by
  simp only [srvLoop, runOnce, Poll.failed, settle_bind, settle_gets, settle_setErrno,
    settle_ite, settle_pure]
  split <;> simp [afterBatch, settle_bind, shutdown, left]

/-- What a step leads to is where the code can go on, or its outcome. -/
def Onward (ans : Answers) (o : Except Fault State) : Except Fault State → Prop
  | .ok s => Resumes ans o s
  | .error e => o = .error e

theorem settle_onward {α : Type} {m : M α} {f : α → World → Except Fault State}
    (h : Onward ans o (settle (m w) f)) :
    (∃ e w₁, m w = .fault e w₁ ∧ o = .error e) ∨
      ∃ a w₁, m w = .done a w₁ ∧ Onward ans o (f a w₁) := by
  cases hm : m w with
  | fault e w₁ =>
      rw [hm] at h
      exact Or.inl ⟨e, w₁, rfl, h⟩
  | done a w₁ =>
      rw [hm] at h
      exact Or.inr ⟨a, w₁, rfl, h⟩

theorem afterBatch_false (polls : List Poll) (h : Onward ans o (shutdown ans w)) :
    settle (afterBatch ans polls false w) left = o := by
  have hcode : settle (afterBatch ans polls false w) left =
      settle (srvDelete ans w) fun _ w' => .ok ⟨w', .stopped⟩ := by
    simp [afterBatch, settle_bind, left]
  rw [hcode]
  obtain ⟨e, w₁, hm, rfl⟩ | ⟨a, w₁, hm, hon⟩ := settle_onward h
  · rw [hm]
    rfl
  · rw [hm]
    cases hon with
    | stopped heq => exact heq

/-- Some batch for the events of a batch that is not handled any more. -/
def unhandled (evs : List PollEvent) : List (PollEvent × Inbox) :=
  evs.map fun ev => (ev, ⟨[], EAGAIN, (-1, -1)⟩)

theorem map_unhandled (evs : List PollEvent) : (unhandled evs).map Prod.fst = evs := by
  simp [unhandled, Function.comp_def]

theorem Resumes.wait {evs : List PollEvent} (hvalid : ValidBatch w.kern.regs evs)
    (h : Onward ans o (.ok ⟨w, .events evs⟩)) : Resumes ans o ⟨w, .waiting⟩ := by
  cases h with
  | events batch polls h =>
      refine .waiting (Poll.batch batch :: polls) ?_
      rw [srvLoop_batch hvalid]
      exact h

theorem Resumes.waitFailed {e : Errno}
    (h : Onward ans o (if e ≠ EINTR ∧ errnoIsFatal e then shutdown ans (withErrno e w)
      else .ok ⟨withErrno e w, .events []⟩)) : Resumes ans o ⟨w, .waiting⟩ := by
  by_cases hfatal : e ≠ EINTR ∧ errnoIsFatal e
  · rw [if_pos hfatal] at h
    refine .waiting [Poll.failed e] ?_
    rw [srvLoop_failed, if_pos hfatal]
    have hstop := afterBatch_false [] h
    simpa [afterBatch, settle_bind, shutdown, left] using hstop
  · rw [if_neg hfatal] at h
    generalize hevs : ([] : List PollEvent) = evs at h
    cases h with
    | events batch polls h =>
        have hnil : batch = [] := List.map_eq_nil_iff.mp hevs.symm
        subst hnil
        refine .waiting (Poll.failed e :: polls) ?_
        rw [srvLoop_failed, if_neg hfatal]
        simpa [processEvents, settle_bind] using h

theorem Resumes.event {garbage : Fd × Fd} {ev : PollEvent} {rest : List PollEvent}
    (h : Onward ans o (settle (dispatchEvent ans ev w) (afterDispatch ans garbage rest))) :
    Resumes ans o ⟨w, .events (ev :: rest)⟩ := by
  obtain ⟨e, w₁, hm, rfl⟩ | ⟨d, w₁, hm, hon⟩ := settle_onward h
  · rw [← map_unhandled (ev :: rest)]
    refine .events _ [] ?_
    simp [unhandled, processEvents, settle_bind, hm]
  cases d with
  | stop =>
      rw [← map_unhandled (ev :: rest)]
      refine .events _ [] ?_
      simpa [unhandled, processEvents, settle_bind, hm] using afterBatch_false [] hon
  | handled =>
      cases hon with
      | events batch polls hcode =>
          refine .events ((ev, ⟨[], EAGAIN, garbage⟩) :: batch) polls ?_
          simpa [processEvents, settle_bind, hm] using hcode
  | request =>
      cases hon with
      | receiving last ds batch polls hcode =>
          refine .events ((ev, ⟨ds, last, garbage⟩) :: batch) polls ?_
          simp only [processEvents, settle_bind, hm, settle_done] at hcode ⊢
          rw [← hcode]
          cases handleReqfd ans last garbage ds w₁ with
          | fault e w₂ => rfl
          | done again w₂ => cases again <;> simp [afterSocket, settle_bind]

theorem Resumes.receiveFailed {e : Errno} {old : Fd × Fd} {rest : List PollEvent}
    (h : Onward ans o (afterReqfd ans rest (!errnoIsFatal e) (withErrno e w))) :
    Resumes ans o ⟨w, .receiving old rest⟩ := by
  cases hfatal : errnoIsFatal e with
  | true =>
      simp only [afterReqfd, hfatal] at h
      rw [← map_unhandled rest]
      refine .receiving e [] _ [] ?_
      simpa [handleReqfd, afterSocket, settle_bind, hfatal]
        using afterBatch_false [] h
  | false =>
      simp only [afterReqfd, hfatal] at h
      cases h with
      | events batch polls hcode =>
          refine .receiving e [] batch polls ?_
          simpa [handleReqfd, afterSocket, settle_bind, hfatal] using hcode

theorem Resumes.receive {d : Datagram} {old : Fd × Fd} {rest : List PollEvent}
    (h : Onward ans o (settle (usRecv ans old d w) (afterRecv ans rest))) :
    Resumes ans o ⟨w, .receiving old rest⟩ := by
  obtain ⟨e, w₁, hm, rfl⟩ | ⟨r, w₁, hm, hon⟩ := settle_onward h
  · rw [← map_unhandled rest]
    refine .receiving EAGAIN [d] _ [] ?_
    simp [handleReqfd, handleDatagram, settle_bind, hm]
  cases r with
  | none =>
      cases hfatal : errnoIsFatal w₁.kern.errno with
      | true =>
          simp only [afterRecv, afterReqfd, hfatal] at hon
          rw [← map_unhandled rest]
          refine .receiving EAGAIN [d] _ [] ?_
          simpa [handleReqfd, handleDatagram, getErrno, afterSocket, settle_bind, hm, hfatal]
            using afterBatch_false [] hon
      | false =>
          simp only [afterRecv, afterReqfd, hfatal] at hon
          cases hon with
          | events batch polls hcode =>
              refine .receiving EAGAIN [d] batch polls ?_
              simpa [handleReqfd, handleDatagram, getErrno, afterSocket, settle_bind, hm, hfatal]
                using hcode
  | some r =>
      cases hon with
      | requested last ds batch polls hcode =>
          refine .receiving last (d :: ds) batch polls ?_
          simpa [handleReqfd, handleDatagram, settle_bind, hm] using hcode

theorem Resumes.request {r : Received} {rest : List PollEvent}
    (h : Onward ans o (settle (handleReceived ans r w) fun _ w' =>
      .ok ⟨w', .receiving r.fds rest⟩)) : Resumes ans o ⟨w, .requested r rest⟩ := by
  obtain ⟨e, w₁, hm, rfl⟩ | ⟨_, w₁, hm, hon⟩ := settle_onward h
  · rw [← map_unhandled rest]
    refine .requested EAGAIN [] _ [] ?_
    simp [settle_bind, hm]
  · cases hon with
    | receiving last ds batch polls hcode =>
        refine .requested last ds batch polls ?_
        simpa [settle_bind, hm] using hcode

theorem Resumes.deferred
    (h : Onward ans o (settle (processDeferred ans w) fun _ w' => .ok ⟨w', .waiting⟩)) :
    Resumes ans o ⟨w, .events []⟩ := by
  obtain ⟨e, w₁, hm, rfl⟩ | ⟨_, w₁, hm, hon⟩ := settle_onward h
  · refine .events [] [] ?_
    simp [processEvents, afterBatch, settle_bind, hm]
  · cases hon with
    | waiting polls hcode =>
        refine .events [] polls ?_
        simpa [processEvents, afterBatch, settle_bind, hm] using hcode

/-- A step of the server alone is a step of the code. -/
theorem Resumes.step {l : Answers × Label} {s : State} {r : Except Fault State}
    (hg : Alone ans l s) (hn : server.next l s = some r) (h : Onward ans o r) :
    Resumes ans o s := by
  obtain ⟨ans', l⟩ := l
  obtain ⟨hans, hcloses⟩ := hg
  cases hans
  obtain ⟨w, phase⟩ := s
  cases l with
  | clientCloses n => exact absurd rfl (hcloses n)
  | wait evs =>
      cases phase with
      | waiting =>
          by_cases hvalid : ValidBatch w.kern.regs evs
          · rw [next_wait_eq _ w hvalid] at hn
            cases hn
            exact .wait hvalid h
          · simp [server, next, hvalid] at hn
      | _ => cases hn
  | waitFailed e =>
      cases phase with
      | waiting =>
          rw [next_waitFailed_eq] at hn
          cases hn
          exact .waitFailed h
      | _ => cases hn
  | event garbage =>
      cases phase with
      | events evs =>
          cases evs with
          | nil => cases hn
          | cons ev rest =>
              rw [next_event_eq] at hn
              cases hn
              exact .event h
      | _ => cases hn
  | receive d =>
      cases phase with
      | receiving old rest =>
          rw [next_receive_eq] at hn
          cases hn
          exact .receive h
      | _ => cases hn
  | receiveFailed e =>
      cases phase with
      | receiving old rest =>
          rw [next_receiveFailed_eq] at hn
          cases hn
          exact .receiveFailed h
      | _ => cases hn
  | request =>
      cases phase with
      | requested r rest =>
          cases hn
          exact .request h
      | _ => cases hn
  | deferred =>
      cases phase with
      | events evs =>
          cases evs with
          | nil =>
              cases hn
              exact .deferred h
          | cons ev rest => cases hn
      | _ => cases hn

end Completeness

/-- The server stands at the poll, or it has stopped. -/
def State.between (s : State) : Prop := s.phase = .waiting ∨ s.phase = .stopped

theorem srvLoop_iff (w : World) (o : Except Fault State) (ho : ∀ s, o = .ok s → s.between) :
    (∃ polls, settle (srvLoop ans polls w) left = o) ↔
      server.Leads (Alone ans) ⟨w, .waiting⟩ o := by
  constructor
  · rintro ⟨polls, rfl⟩
    exact srvLoop_leads ans w polls
  · intro h
    have hresume : Resumes ans o ⟨w, .waiting⟩ := by
      refine h.head_induction ?_ ?_
      · intro s heq
        obtain ⟨w', phase⟩ := s
        obtain rfl | rfl := ho _ heq
        · exact .waiting [] heq.symm
        · exact .stopped heq.symm
      · intro l s r hg hn hok herr
        refine Resumes.step hg hn ?_
        cases r with
        | ok s₁ => exact hok s₁ rfl
        | error e => exact herr e rfl
    cases hresume with
    | waiting polls hcode => exact ⟨polls, hcode⟩

theorem settle_left_eq_ok {m : M Bool} {w : World} {s : State} :
    settle (m w) left = .ok s ↔
      ∃ again, m w = .done again s.world ∧ s.phase = if again then .waiting else .stopped := by
  obtain ⟨w', phase⟩ := s
  cases m w with
  | fault e w₁ => simp
  | done again w₁ =>
      simp only [settle_done, left, Except.ok.injEq, State.mk.injEq, Outcome.done.injEq]
      constructor
      · rintro ⟨rfl, rfl⟩
        exact ⟨again, ⟨rfl, rfl⟩, rfl⟩
      · rintro ⟨_, ⟨rfl, rfl⟩, rfl⟩
        exact ⟨rfl, rfl⟩

theorem settle_left_eq_error {m : M Bool} {w : World} {e : Fault} :
    settle (m w) left = .error e ↔ ∃ w', m w = .fault e w' := by
  cases m w with
  | fault e' w₁ => simp
  | done b w₁ => simp [left]

/-- What the loop of `srv_run` comes to, for some results of its polls and for what the
request socket then offers, is exactly what the runs of the server alone come to: the states
in which it polls again, those it stops in, and the faults. -/
theorem srvLoop_runs (ans : Answers) (w : World) :
    (∀ w', (∃ polls, srvLoop ans polls w = .done true w') ↔
      server.Steps (Alone ans) ⟨w, .waiting⟩ ⟨w', .waiting⟩) ∧
    (∀ w', (∃ polls, srvLoop ans polls w = .done false w') ↔
      server.Steps (Alone ans) ⟨w, .waiting⟩ ⟨w', .stopped⟩) ∧
    ∀ e, (∃ polls w', srvLoop ans polls w = .fault e w') ↔
      ∃ s l, server.Steps (Alone ans) ⟨w, .waiting⟩ s ∧ Alone ans l s ∧
        server.next l s = some (.error e) := by
  refine ⟨fun w' => ?_, fun w' => ?_, fun e => ?_⟩
  · refine Iff.trans ?_ (srvLoop_iff w (.ok ⟨w', .waiting⟩) fun s heq => ?_)
    · simp [settle_left_eq_ok]
    · cases heq
      exact Or.inl rfl
  · refine Iff.trans ?_ (srvLoop_iff w (.ok ⟨w', .stopped⟩) fun s heq => ?_)
    · simp [settle_left_eq_ok]
    · cases heq
      exact Or.inr rfl
  · refine Iff.trans ?_ (srvLoop_iff w (.error e) fun s heq => by cases heq)
    simp [settle_left_eq_error]

end Sendfiled
