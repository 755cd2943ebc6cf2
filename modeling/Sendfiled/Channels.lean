/-
The file behind a status channel.  As long as every request brings the descriptors it needs,
all that is written for a transfer reaches the file its client has sent for the status
channel, whether it is written through the channel or through the descriptor of a pending
response, and nobody else writes through either of them.
-/
import Sendfiled.StatusChannel
import Sendfiled.Records

namespace Sendfiled

open Prog Transition

section Files

variable {ans : Answers} {l : Label} {s s' : State} {a : Action} {c c' : Config} {p r : Ptr}
  {x y : ResrcXfer} {resp : ResrcResp} {fd : Fd} {f : OpenFile} {R₀ : List Entry}

/-- Every message that was written for the transfer `p`, or attempted, went to `f`. -/
def Relayed (p : Ptr) (f : OpenFile) (R : List Entry) : Prop :=
  ∀ e ∈ R, ∀ fd pdu result, e.1 = .sent (some p) fd pdu result → e.2 = some f

/-- The message of a pending response could not be written to `fd`.  The descriptor of the
response is open on the same file, and since then only calls for the transfer went through
it. -/
def HeldOn (p : Ptr) (fd : Fd) (f : OpenFile) (resp : ResrcResp) (k : Kernel) : Prop :=
  k.fds.lookup resp.statFd = some f ∧ ∃ R e R',
    k.record = R ++ (.sent (some p) fd resp.pdu (.error e), some f) :: R' ∧
    Reserved (Effect.isFor p) resp.statFd f R'

/-- A response that stays pending keeps its descriptor. -/
theorem HeldOn.performs (h : HeldOn p fd f resp c.world.kern) (hd : Descriptors (0 ≤ ·) c)
    (hd' : Descriptors (0 ≤ ·) c') (hp : Performs a c c') (hin : answersInHand a c)
    (hr : c.world.srv.respAt r = some resp) (hr' : c'.world.srv.respAt r = some resp)
    (hxfer : resp.xfer = p) : HeldOn p fd f resp c'.world.kern := by
  obtain ⟨hf, R, e, R', hrecord, hreserved⟩ := h
  have hgood : 0 ≤ resp.statFd := hd.nonneg _ (Kernel.mem_of_lookup hf)
  have ho : c.world.srv.Owns c.loose (.resp r) resp.statFd := ⟨resp, hr, rfl⟩
  obtain ⟨hf', T, hT, hmine⟩ := hd.reserved hd' hp hgood ho ⟨resp, hr', rfl⟩ ⟨resp, hr, hxfer⟩ hf
    (fun _ he => he) fun pdu hsay => absurd hsay (hin.elsewhere hd hgood ho Owner.noConfusion pdu)
  refine ⟨hf', R, e, R' ++ T, ?_, hreserved.append hmine⟩
  rw [hT.record, hrecord, List.append_assoc, List.cons_append]

/-- The transfer `p` speaks to the file `f`, through its status channel `fd` and through its
pending responses. -/
structure Speaking (p : Ptr) (fd : Fd) (f : OpenFile) (R₀ : List Entry) (c : Config) : Prop
    extends StatTenant (Effect.isFor p) p fd f R₀ c where
  relayed : Relayed p f c.world.kern.record
  held : ∀ r resp, c.world.srv.respAt r = some resp → resp.xfer = p →
    HeldOn p fd f resp c.world.kern

namespace Speaking

/-- What may be written for the transfer goes to the file. -/
theorem through (h : Speaking p fd f R₀ c) {fd' : Fd} (hfd : c.world.srv.Through p fd') :
    c.world.kern.fds.lookup fd' = some f := by
  rcases hfd with ⟨x, hx, rfl⟩ | ⟨r, resp, hr, hxfer, rfl⟩
  · obtain ⟨_, _, -, -, -, hlive⟩ := h.tenure
    rw [h.stat x hx]
    exact (hlive x hx).2
  · exact (h.held r resp hr hxfer).1

theorem performs_relayed (h : Speaking p fd f R₀ c) (hp : Performs a c c') :
    Relayed p f c'.world.kern.record := by
  obtain ⟨T, hT, hwrites⟩ := hp.records
  intro e he fd' pdu result hsent
  rw [hT.record] at he
  rcases List.mem_append.mp he with he | he
  · exact h.relayed e he fd' pdu result hsent
  rcases hwrites e he with ⟨_, _, hclosed⟩ | hw
  · rw [hclosed] at hsent
    cases hsent
  · cases hw with
    | say _ hfd =>
        cases hsent
        exact h.through (hfd p rfl)
    | move | balk => cases hsent

theorem performs_held (h : Speaking p fd f R₀ c) (hd' : Descriptors (0 ≤ ·) c')
    (hp : Performs a c c') (hin : answersInHand a c) (hr : c'.world.srv.respAt r = some resp)
    (hxfer : resp.xfer = p) : HeldOn p fd f resp c'.world.kern := by
  have hold : c.world.srv.respAt r = some resp → HeldOn p fd f resp c'.world.kern := fun hlive =>
    (h.held r resp hlive hxfer).performs h.descriptors hd' hp hin hlive hr hxfer
  rcases hp.respAt_cases with ⟨hsame, -⟩ | ⟨new, rfl, hset, -⟩ | ⟨-, hset⟩ | ⟨q, -, -, -, hset⟩
  · exact hold (hsame ▸ hr)
  · by_cases hnew : r = c.world.srv.nextPtr
    · -- the response has just been created, after an attempt that failed
      subst hnew
      rw [hset, Function.update_self] at hr
      cases hr
      cases hp with
      | @addResp L s k _ g hfd hg _ _ _ _ htried =>
          obtain ⟨x, e, hx, hlast⟩ := htried
          rw [hxfer] at hx hlast
          obtain ⟨R, hR⟩ := List.getLast?_eq_some_iff.mp hlast
          have hmem : (Effect.sent (some p) x.statFd resp.pdu (.error e), some g) ∈ k.record := by
            rw [hR]
            exact List.mem_append_right _ List.mem_cons_self
          have hfile : some g = some f := h.relayed _ hmem _ _ _ rfl
          refine ⟨hg.trans hfile, R, e, [], ?_, fun e he => by cases he⟩
          rw [← hfile, ← h.stat x hx]
          exact hR
    · rw [hset, Function.update_of_ne hnew] at hr
      exact hold hr
  · rw [hset] at hr
    exact hold (of_update_none hr).2
  · rw [hset] at hr
    exact hold (of_update_none hr).2

theorem performs (h : Speaking p fd f R₀ c) (ha : Descriptors.Entitled (0 ≤ ·) a c)
    (hin : answersInHand a c) (hp : Performs a c c') : Speaking p fd f R₀ c' := by
  have htenant := h.toStatTenant.performs_own hp ha hin
  exact ⟨htenant, h.performs_relayed hp, fun r resp hr hxfer =>
    h.performs_held htenant.descriptors hp hin hr hxfer⟩

end Speaking

theorem speaking_kept : Kept (fun a c => Descriptors.Entitled (0 ≤ ·) a c ∧ answersInHand a c)
    Proper (Speaking p fd f R₀) where
  grants := fun _ _ _ hg _ hok _ _ _ ha => ⟨ha.entitled hg.1 hok, hg.inHand ha⟩
  acts := fun _ _ _ _ ha hp h => h.performs ha.1 ha.2 hp

/-- A transfer that was just accepted has spoken once, to its status channel. -/
theorem Born.speaking (h : Born p x (s.world.view p)) (hr : server.Reachable Brings s)
    (hx : s.world.srv.xferAt p = some x) : ∃ f, s.world.kern.fds.lookup x.statFd = some f ∧
      Speaking p x.statFd f s.world.kern.record s.config := by
  have hra : server.Reachable System.always s := hr.mono fun _ _ _ => trivial
  obtain ⟨f, hf, htenant⟩ := (reachable_channeled hr (running_of_live hra hx)).statTenant
    (reachable_ledger hra).1 hx
  refine ⟨f, hf, htenant, fun e he fd' pdu result hsent => ?_, fun r resp hresp hxfer => ?_⟩
  · have hfor : e.1.isFor p := by rw [hsent]; rfl
    have hmem : e.1 ∈ (s.world.view p).history := by
      refine List.mem_filter.mpr ⟨?_, decide_eq_true hfor⟩
      rw [← reachable_record hra]
      exact List.mem_map_of_mem he
    have hfd : e.1.fd = x.statFd := by
      generalize s.world.view p = v at h hmem
      cases h with
      | intro =>
          rw [List.mem_singleton.mp hmem]
          rfl
    exact (reached_of_live hr hx e he hfor hfd).trans hf
  · have hnone : (s.world.view p).resp r = none := by
      generalize s.world.view p = v at h
      cases h
      rfl
    change (s.world.srv.respAt r).filter _ = none at hnone
    rw [show s.world.srv.respAt r = some resp from hresp] at hnone
    simp [Option.filter, hxfer] at hnone

/-- All that was written for the transfer `p` reached the file `f` behind its status channel
`fd`.  Since the record was `R₀` and until the transfer is deleted nobody else has used the
channel, nor, from the attempt that failed on, the descriptor of a pending response. -/
structure OnChannel (p : Ptr) (fd : Fd) (f : OpenFile) (R₀ : List Entry) (s : State) : Prop where
  relayed : Relayed p f s.world.kern.record
  channel : Tenure (Effect.isFor p) p fd f R₀ s.world
  held : s.phase ≠ .stopped → ∀ r resp, s.world.srv.respAt r = some resp → resp.xfer = p →
    HeldOn p fd f resp s.world.kern

theorem Speaking.onChannel (h : Speaking p fd f R₀ s.config)
    (hr : server.Reachable System.always s) (hsteps : server.Steps Proper s s') :
    OnChannel p fd f R₀ s' := by
  obtain ⟨hledger, hok⟩ := reachable_ledger hr
  rcases speaking_kept.steps hsteps (Or.inl ⟨hledger, hok, h⟩) with
    hs | ⟨hstop, w, -, hend, hcleared, -⟩
  · exact ⟨hs.inv.relayed, hs.inv.tenure, fun _ => hs.inv.held⟩
  · refine ⟨?_, hend.tenure.cleared hcleared, fun hrun => absurd hstop hrun⟩
    obtain ⟨T, hT, honly⟩ := hcleared.closings
    intro e he fd' pdu result hsent
    rw [hT.record] at he
    rcases List.mem_append.mp he with he | he
    · exact hend.relayed e he fd' pdu result hsent
    · obtain ⟨_, _, hclosed⟩ := honly e he
      rw [hclosed] at hsent
      cases hsent

/-- The protocol of the status channel, from the acceptance of a transfer on: whatever
the results of the writes after the first one, whatever else the server does, the messages
follow it, and they reach the file that the client has sent for the channel, which nobody
else writes to in the meantime. -/
theorem status_channel_protocol {s₀ s₁ : State} (hr : server.Reachable Proper s₀)
    (hg : Proper (ans, l) s₀) (hn : next (ans, l) s₀ = some (.ok s₁))
    (hnone : s₀.world.srv.xferAt p = none) (hx : s₁.world.srv.xferAt p = some x)
    (hinfo : delivered p s₁.world.kern.trace ≠ []) (hsteps : server.Steps Proper s₁ s) :
    FollowsProtocol p x s.world.kern.trace ∧
    (∀ y, s.world.srv.xferAt p = some y →
      y.nbytesLeft.toNat + (movedBy p s.world.kern.trace).length = x.file.size.toNat) ∧
    ∃ f, s₁.world.kern.fds.lookup x.statFd = some f ∧
      OnChannel p x.statFd f s₁.world.kern.record s := by
  have hra : server.Reachable System.always s₀ := hr.mono fun _ _ _ => trivial
  obtain ⟨hc, hok⟩ := reachable_ledger hra
  obtain ⟨-, -, -, -, -, -, hborn, -⟩ := next_born hc (Minted.reachable hra) hok hn hnone hx
  have hra₁ : server.Reachable System.always s₁ := hra.step trivial hn
  have hknown := (reachable_ledger hra₁).1.xfer_lt p x hx
  obtain ⟨atime, mtime, ctime, n, hchat⟩ := hborn.chat hknown hinfo
  have hend := hchat.steps hra₁ (hsteps.mono fun _ _ _ => trivial)
  refine ⟨hend.followsProtocol, fun y hy => ?_, ?_⟩
  · rw [← movedBy_historyOf]
    exact hend.counted.left y hy
  · have hr₁ : server.Reachable Proper s₁ := hr.step hg hn
    obtain ⟨f, hf, hspeaking⟩ := hborn.speaking (hr₁.mono fun _ _ hg => hg.1) hx
    exact ⟨f, hf, hspeaking.onChannel hra₁ hsteps⟩

end Files

section Examples

open Scenario

/-- The request for a SEND has been received. -/
def statusSend : List (Answers × Label) :=
  [(answers tenBytes, .wait [readable]), (answers tenBytes, .event (-1, -1)),
    (answers tenBytes, .receive ⟨fileRequest .send 0 0, [1, 2], some client⟩)]

/-- What follows: the request is handled, the destination is full at first, and then
the file is sent. -/
def statusSendEnd : List (Answers × Label) :=
  [(answers tenBytes, .request), (answers tenBytes, .receiveFailed EAGAIN),
    (answers tenBytes, .deferred)] ++
    handle { answers tenBytes with io := fun _ _ => .error EAGAIN } (writable 0) ++
    handle (answers tenBytes) (writable 0)

theorem status_channel_protocol_of_statusSend : ∃ (s₁ s : State) (x : ResrcXfer) (f : OpenFile),
    server.Reachable Proper s ∧
    delivered 0 s.world.kern.trace =
      [.fileInfo 10 1 2 3 1, .xferStat 0, .xferStat protXferComplete] ∧
    FollowsProtocol 0 x s.world.kern.trace ∧
    OnChannel 0 x.statFd f s₁.world.kern.record s := by
  obtain ⟨s₀, hr, hP⟩ := exists_reachable Proper 4 100 statusSend
    (fun s₀ => (s₀.world.srv.xferAt 0).isNone &&
      (server.run Proper (statusSendEnd.take 1) s₀).any fun s₁ =>
        (s₁.world.srv.xferAt 0).isSome && (delivered 0 s₁.world.kern.trace != []) &&
        (server.run Proper (statusSendEnd.drop 1) s₁).any fun s =>
          delivered 0 s.world.kern.trace ==
            [.fileInfo 10 1 2 3 1, .xferStat 0, .xferStat protXferComplete])
    (by decide +kernel)
  simp only [Bool.and_eq_true, Option.any_eq_true, Option.isNone_iff_eq_none,
    Option.isSome_iff_exists, beq_iff_eq, bne_iff_ne] at hP
  obtain ⟨hnone, s₁, hrun₁, ⟨⟨x, hx⟩, hinfo⟩, s, hrun, hmessages⟩ := hP
  obtain ⟨s₁', hg, hn, hend⟩ := System.run_cons hrun₁
  cases hend
  have hsteps := System.steps_of_run hrun
  obtain ⟨hprotocol, -, f, -, hchannel⟩ := status_channel_protocol hr hg hn hnone hx hinfo hsteps
  exact ⟨s₁, s, x, f, (hr.step hg hn).steps hsteps, hmessages, hprotocol, hchannel⟩

/-- A first SEND with one descriptor ends, and descriptor zero is closed.  The status channel of
the second SEND then has that number, and a third one, which has one descriptor again, takes it
for its destination and closes it at its end.  A fourth SEND has been received, with two
descriptors. -/
def sharedChannel : List (Answers × Label) :=
  serve (answers tenBytes) [⟨fileRequest .send 0 0, [1], some client⟩] ++
    handle (answers tenBytes) (writable 0) ++
    serve (answers tenBytes) [⟨fileRequest .send 0 0, [2, 3], some client⟩] ++
    serve (answers tenBytes) [⟨fileRequest .send 0 0, [4], some client⟩] ++
    handle (answers tenBytes) (writable 2) ++
    [(answers tenBytes, .wait [readable]), (answers tenBytes, .event (-1, -1)),
      (answers tenBytes, .receive ⟨fileRequest .send 0 0, [5, 6], some client⟩)]

/-- The fourth SEND is accepted, with descriptor zero for its status channel, and the second one
completes. -/
def sharedChannelEnd : List (Answers × Label) :=
  [(answers tenBytes, .request), (answers tenBytes, .receiveFailed EAGAIN),
    (answers tenBytes, .deferred), (answers tenBytes, .wait [writable 1]),
    (answers tenBytes, .event (-1, -1))]

/-- A client is told on its status channel that its transfer is complete, before any byte of it
was written. -/
theorem foreign_message_delivered : ∃ s₀ s₁ s x R f, server.Reachable System.always s₀ ∧
    s₀.world.srv.xferAt 3 = none ∧ server.Steps System.always s₀ s₁ ∧
    s₁.world.srv.xferAt 3 = some x ∧ x.statFd ≠ x.destFd ∧
    delivered 3 s₁.world.kern.trace ≠ [] ∧ server.Steps System.always s₁ s ∧
    s.world.srv.xferAt 3 = some x ∧ x.nbytesLeft = 10 ∧
    s₁.world.kern.fds.lookup x.statFd = some f ∧
    s.world.kern.record = s₁.world.kern.record ++ R ∧
    (Effect.sent (some 1) x.statFd (.xferStat protXferComplete) (.ok 16), some f) ∈ R := by
  obtain ⟨s₀, hr, hP⟩ := exists_reachable System.always 8 100 sharedChannel
    (fun s₀ => (s₀.world.srv.xferAt 3).isNone &&
      (server.run System.always (sharedChannelEnd.take 1) s₀).any fun s₁ =>
        (s₁.world.srv.xferAt 3).any fun x => x.statFd != x.destFd && x.nbytesLeft == 10 &&
        (delivered 3 s₁.world.kern.trace != []) &&
        (s₁.world.kern.fds.lookup x.statFd).any fun f =>
          (server.run System.always (sharedChannelEnd.drop 1) s₁).any fun s =>
            s.world.srv.xferAt 3 == some x &&
              s₁.world.kern.record.isPrefixOf s.world.kern.record &&
              (s.world.kern.record.drop s₁.world.kern.record.length).contains
                (.sent (some 1) x.statFd (.xferStat protXferComplete) (.ok 16), some f))
    (by decide +kernel)
  simp only [Bool.and_eq_true, Option.any_eq_true, Option.isNone_iff_eq_none, beq_iff_eq,
    bne_iff_ne, List.contains_iff_mem, List.isPrefixOf_iff_prefix] at hP
  obtain ⟨hnone, s₁, hrun₁, x, hx, ⟨⟨hchannel, hleft⟩, hinfo⟩, f, hf, s, hrun, ⟨hlive, hold⟩,
    hmem⟩ := hP
  exact ⟨s₀, s₁, s, x, _, f, hr, hnone, System.steps_of_run hrun₁, hx, hchannel, hinfo,
    System.steps_of_run hrun, hlive, hleft, hf,
    (List.prefix_iff_eq_append.mp hold).symm, hmem⟩

end Examples

end Sendfiled
