/-
The list of deferred transfers, and the assertions of `defer_xfer` that rest on
it.  Two paths of the code delete a transfer that is still in the list; without
them every entry is live.
-/
import Sendfiled.Steps

namespace Sendfiled

open Prog Transition

/-- The transfer that a SEND_OPEN or CANCEL request acts on, if there is one. -/
def Server.namedBy (s : Server) (cmd : ProtCmdReq) (r : Received) : Option (Ptr × ResrcXfer) :=
  if r.uid ≠ s.uid ∨ (cmd ≠ .cancel ∧ r.nfds = 0) then none
  else do
    let txnid ← protUnmarshalTxnid cmd s.recvbuf
    let p ← s.xfers.find txnid
    let x ← s.xferAt p
    if pidMatches x r.pid then some (p, x) else none

theorem Server.namedBy_eq {s : Server} {cmd : ProtCmdReq} {r : Received} {txnid : Nat}
    {p : Ptr} {x : ResrcXfer} (huid : r.uid = s.uid) (hfds : cmd ≠ .cancel → r.nfds ≠ 0)
    (htxnid : protUnmarshalTxnid cmd s.recvbuf = some txnid)
    (hfind : s.xfers.find txnid = some p) (hp : s.xferAt p = some x)
    (hpid : pidMatches x r.pid = true) : s.namedBy cmd r = some (p, x) := by
  have hnot : ¬ (r.uid ≠ s.uid ∨ (cmd ≠ .cancel ∧ r.nfds = 0)) := by
    rintro (hne | ⟨hcmd, hzero⟩)
    · exact hne huid
    · exact hfds hcmd hzero
  simp [Server.namedBy, if_neg hnot, htxnid, hfind, hp, hpid]

theorem Server.namedBy_eq_some {s : Server} {cmd : ProtCmdReq} {r : Received} {q : Ptr}
    {y : ResrcXfer} (h : s.namedBy cmd r = some (q, y)) {t : Nat}
    (ht : protUnmarshalTxnid cmd s.recvbuf = some t) :
    r.uid = s.uid ∧ (cmd ≠ .cancel → r.nfds ≠ 0) ∧ s.xfers.find t = some q ∧
      s.xferAt q = some y ∧ pidMatches y r.pid = true := by
  unfold Server.namedBy at h
  split at h
  · cases h
  · rename_i hnot
    rw [not_or, not_and] at hnot
    simp only [ht, Option.bind_eq_bind, Option.bind_some] at h
    obtain ⟨p, hp, h⟩ := Option.bind_eq_some_iff.mp h
    obtain ⟨x, hx, h⟩ := Option.bind_eq_some_iff.mp h
    split at h
    · rename_i hpid
      cases h
      exact ⟨Decidable.not_not.mp hnot.1, hnot.2, hp, hx, hpid⟩
    · cases h

/-- The next event is an error on a transfer that waits in the deferred list. -/
def State.errorOnReady (s : State) : Bool :=
  match s.phase with
  | .events (ev :: _) =>
      match ev.udata with
      | .xfer p => ev.err && (s.world.srv.xferAt p).any fun x => x.defer == .ready
      | _ => false
  | _ => false

/-- The next request is a SEND_OPEN for a transfer that waits in the deferred list,
and the poller refuses the descriptor it brings. -/
def State.refusedOnReady (ans : Answers) (s : State) : Bool :=
  match s.phase with
  | .requested r _ => (s.world.srv.namedBy .sendOpen r).any fun named =>
      named.2.defer == .ready && (s.world.kern.epollAddError ans r.fds.1).isSome
  | _ => false

/-- The steps that do not delete a transfer behind the deferred list's back. -/
def mindsList : Answers × Label → State → Bool
  | (_, .event _), s => !s.errorOnReady
  | (ans, .request), s => !s.refusedOnReady ans
  | _, _ => true

def MindsList (l : Answers × Label) (s : State) : Prop := mindsList l s = true

instance (l : Answers × Label) (s : State) : Decidable (MindsList l s) :=
  inferInstanceAs (Decidable (_ = true))

/-- Transfers are deleted outside the secondary loop only if they are not
deferred. -/
def unlisted : Action → Config → Prop
  | .discard p, c | .retire p, c => ∀ x, c.world.srv.xferAt p = some x → x.defer = .none
  | _, _ => True

/-- Every entry of the deferred list is live. -/
def ListLive (c : Config) : Prop :=
  ∀ p ∈ c.world.srv.deferredXfers, ∃ x, c.world.srv.xferAt p = some x

namespace ListLive

variable {s : Server} {p : Ptr} {x y : ResrcXfer}

/-- Deleting a transfer that is not listed. -/
theorem drop (h : ∀ q ∈ s.deferredXfers, ∃ y, s.xferAt q = some y)
    (hp : p ∉ s.deferredXfers) :
    ∀ q ∈ s.deferredXfers, ∃ y, Function.update s.xferAt p none q = some y := by
  intro q hq
  obtain ⟨y, hy⟩ := h q hq
  have hne : q ≠ p := fun heq => hp (heq ▸ hq)
  exact ⟨y, by simpa [hne] using hy⟩

/-- Changing a transfer. -/
theorem set (h : ∀ q ∈ s.deferredXfers, ∃ y, s.xferAt q = some y) {ds : List Ptr}
    (hds : ∀ q ∈ ds, q = p ∨ q ∈ s.deferredXfers) :
    ∀ q ∈ ds, ∃ y, Function.update s.xferAt p (some x) q = some y := by
  intro q hq
  by_cases hqp : q = p
  · exact ⟨x, by simp [hqp]⟩
  · obtain ⟨y, hy⟩ := h q ((hds q hq).resolve_left hqp)
    exact ⟨y, by simpa [hqp] using hy⟩

theorem performs {a : Action} {c c' : Config} (hc : Ledger c.world.srv) (ha : unlisted a c)
    (hp : Performs a c c') (h : ListLive c) : ListLive c' := by
  have hout : ∀ p x, c.world.srv.xferAt p = some x → x.defer = .none →
      p ∉ c.world.srv.deferredXfers := fun p x hx hnone hin => (hc.listed p x hx).mp hin hnone
  cases hp with
  | quiet _ hs _ =>
      rw [ListLive, hs]
      exact h
  | say | openFile | seek | openTimer | arrive | dup | shut | reshut | register | forget | balk
  | addTimer | skipTimer | arm | expire | botch | addResp | skipResp | dropResp => exact h
  | enroll =>
      intro q hq
      obtain ⟨y, hy⟩ := h q hq
      have hne : q ≠ _ := Nat.ne_of_lt (hc.xfer_lt q y hy)
      exact ⟨y, by simpa [Server.enroll, Server.newXfer, Server.setXfer, hne] using hy⟩
  | skip =>
      intro q hq
      obtain ⟨y, hy⟩ := h q hq
      have hne : q ≠ _ := Nat.ne_of_lt (hc.xfer_lt q y hy)
      exact ⟨y, by simpa [Server.skip, hne] using hy⟩
  | retire _ hx _ => exact drop h (hout _ _ hx (ha _ hx))
  | discard _ hx => exact drop h (hout _ _ hx (ha _ hx))
  | bury _ hi hx =>
      intro q hq
      obtain ⟨hmem, hne⟩ := (List.mem_swapRemove hc.nodup hi q).mp hq
      obtain ⟨y, hy⟩ := h q hmem
      exact ⟨y, by simpa [Server.discard, Server.dropXfer, Server.unlist, hne] using hy⟩
  | cancel hx _ =>
      refine set h fun q hq => ?_
      simp only [Server.cancel] at hq
      split at hq
      · rcases List.mem_append.mp hq with hq | hq
        · exact Or.inr hq
        · exact Or.inl (List.mem_singleton.mp hq)
      · exact Or.inr hq
  | ready hx _ _ =>
      refine set h fun q hq => ?_
      rcases List.mem_append.mp hq with hq | hq
      · exact Or.inr hq
      · exact Or.inl (List.mem_singleton.mp hq)
  | release hi hx _ =>
      exact set h fun q hq => Or.inr ((List.mem_swapRemove hc.nodup hi q).mp hq).1
  | assign hx _ _ => exact set h fun q hq => Or.inr hq
  | move _ hx => exact set h fun q hq => Or.inr hq

end ListLive

/-- A step that minds the list deletes no listed transfer. -/
theorem MindsList.grants {ans : Answers} {l : Label} {s : State} (hg : MindsList (ans, l) s) :
    ∀ a c, StepMay ans l s a c → unlisted a c := by
  intro a c ha
  cases a with
  | discard p =>
      intro y hy
      obtain ⟨garbage, ev, rest, hl, hphase, hu, hwhy⟩ := ha.discard_cases
      rcases hwhy with ⟨x, hx, hnone, -⟩ | ⟨x, k, herr, hx, hcancel, -, hc⟩
      · rw [hx] at hy
        exact Option.some.inj hy ▸ hnone
      · subst hl
        rw [hc, hx] at hy
        have hxy : x = y := Option.some.inj hy
        subst hxy
        have hsafe : s.errorOnReady = false := by
          simpa [MindsList, mindsList] using hg
        simp only [State.errorOnReady, hphase, hu, herr, Bool.true_and, hx] at hsafe
        cases hd : x.defer with
        | none => rfl
        | cancel => exact absurd hd hcancel
        | ready => simp [hd] at hsafe
  | retire p =>
      intro y hy
      obtain ⟨r, rest, hl, hphase, huid, hfds, hwhy⟩ := ha.retire_cases
      rcases hwhy with ⟨-, x, hx, hnone, -⟩ |
        ⟨txnid, x, e, htxnid, hfind, hx, hpid, hcancel, herr, -, -, hc⟩
      · rw [hx] at hy
        exact Option.some.inj hy ▸ hnone
      · subst hl
        rw [hc] at hy
        cases hy
        have hcmd := protUnmarshalTxnid_cmd htxnid
        have hnamed := Server.namedBy_eq huid
          (fun _ => Nat.ne_of_gt (hfds (by rw [hcmd]; decide))) htxnid hfind hx hpid
        have hsafe : s.refusedOnReady ans = false := by
          simpa [MindsList, mindsList] using hg
        cases hd : x.defer with
        | none => rfl
        | cancel => exact absurd hd hcancel
        | ready => simp [State.refusedOnReady, hphase, hnamed, hd, herr] at hsafe
  | _ => trivial

/-- The transfer is stored in the table and has not been freed. -/
def Server.Live (s : Server) (p : Ptr) : Prop :=
  p ∈ s.xfers.stored ∧ ∃ x, s.xferAt p = some x

/-- What the deferred list promises. -/
structure ListSound (s : Server) : Prop where
  distinct : s.deferredXfers.Nodup
  live : ∀ p ∈ s.deferredXfers, s.Live p
  listed : ∀ p x, s.Live p → s.xferAt p = some x →
    (p ∈ s.deferredXfers ↔ x.defer ≠ .none)
  bounded : s.deferredXfers.length ≤ s.xfers.size

theorem Ledger.live_iff {s : Server} (h : Ledger s) {p : Ptr} :
    s.Live p ↔ ∃ x, s.xferAt p = some x :=
  ⟨fun hp => hp.2, fun hp => ⟨h.mem_stored.mpr hp, hp⟩⟩

theorem ListLive.sound {c : Config} (h : ListLive c) (hc : Ledger c.world.srv) :
    ListSound c.world.srv where
  distinct := hc.nodup
  live := fun p hp => hc.live_iff.mpr (h p hp)
  listed := fun p x _ hx => hc.listed p x hx
  bounded := by
    rw [hc.xfers.size]
    have hsub : c.world.srv.deferredXfers ⊆ c.world.srv.xfers.stored := fun p hp =>
      hc.mem_stored.mpr (h p hp)
    exact (hc.nodup.subperm hsub).length_le

/-- A transfer that is not listed leaves room in the list. -/
theorem ListSound.room {s : Server} (h : ListSound s) (hsize : s.xfers.size = s.xfers.stored.length)
    {p : Ptr} {x : ResrcXfer} (hlive : s.Live p) (hx : s.xferAt p = some x)
    (hnone : x.defer = .none) : s.deferredXfers.length < s.xfers.size := by
  have hout : p ∉ s.deferredXfers := fun hin => (h.listed p x hlive hx).mp hin hnone
  have hsub : p :: s.deferredXfers ⊆ s.xfers.stored := by
    intro q hq
    rcases List.mem_cons.mp hq with rfl | hq
    · exact hlive.1
    · exact (h.live q hq).1
  have hlen := ((List.nodup_cons.mpr ⟨hout, h.distinct⟩).subperm hsub).length_le
  rw [List.length_cons] at hlen
  omega

theorem ListLive.room {c : Config} (h : ListLive c) (hc : Ledger c.world.srv) {p : Ptr}
    {x : ResrcXfer} (hx : c.world.srv.xferAt p = some x) (hnone : x.defer = .none) :
    c.world.srv.deferredXfers.length < c.world.srv.xfers.size :=
  (h.sound hc).room hc.xfers.size (hc.live_iff.mpr ⟨x, hx⟩) hx hnone

theorem listLive_preserved : Preserved unlisted MindsList ListLive where
  grants := fun _ _ _ hg _ _ _ => hg.grants
  acts := fun _ _ _ hc ha hp h => h.performs hc ha hp
  stop := fun w w' _ hcleared _ p hp => by
    rw [hcleared.deferredXfers] at hp
    cases hp

theorem listLive_initial (s : State) (h : Initial s) : ListLive s.config := by
  intro p hp
  have hnil : s.world.srv.deferredXfers = [] := h.deferredXfers
  rw [show s.config.world = s.world from rfl, hnil] at hp
  cases hp

/-- In every run whose steps mind the list, the list is sound in every state. -/
theorem deferredXfers_sound {s : State} (hr : server.Reachable MindsList s) :
    ListSound s.world.srv := by
  have hsound := listLive_preserved.reachable listLive_initial hr
  exact hsound.inv.sound hsound.ledger

section Runs

open Scenario

/-- A READ whose destination fills up, so that the transfer is deferred. -/
def deferredRead : List (Answers × Label) :=
  serve (answers tenBytes) [⟨fileRequest .read 0 0, [1], some client⟩] ++
    handle (answers tenBytes) (writable 0)

theorem deferredXfers_sound_of_deferredRead : ∃ s, server.Reachable MindsList s ∧
    s.world.srv.deferredXfers = [0] ∧ ListSound s.world.srv := by
  obtain ⟨s, hr, hP⟩ := exists_reachable MindsList 4 4 deferredRead
    (fun s => s.world.srv.deferredXfers == [0]) (by decide +kernel)
  exact ⟨s, hr, by simpa using hP, deferredXfers_sound hr⟩

/-- An error event on a deferred transfer frees it and leaves it in the list. -/
theorem deferredXfers_dangling : ∃ s, server.Reachable System.always s ∧
    ¬ ListSound s.world.srv := by
  obtain ⟨s, hr, hP⟩ := exists_reachable System.always 4 4
    (deferredRead ++ [(answers tenBytes, .wait [failing 0]),
      (answers tenBytes, .event (-1, -1))])
    (fun s => s.world.srv.deferredXfers.any fun p => (s.world.srv.xferAt p).isNone)
    (by decide +kernel)
  obtain ⟨p, hp, hnone⟩ := List.any_eq_true.mp hP
  refine ⟨s, hr, fun hsound => ?_⟩
  obtain ⟨x, hx⟩ := (hsound.live p hp).2
  simp [hx] at hnone

end Runs

/-! The assertions of `defer_xfer`. -/

/-- The transfer the next step marks CANCEL, if it marks one: the one named by a
CANCEL request, or the one whose timer has expired before its first byte. -/
def State.cancels (s : State) : Label → Option (Ptr × ResrcXfer)
  | .request =>
      match s.phase with
      | .requested r _ => s.world.srv.namedBy .cancel r
      | _ => none
  | .event _ =>
      match s.phase with
      | .events (⟨.timer t, _, _, _⟩ :: _) => do
          let tm ← s.world.srv.timerAt t
          let p ← s.world.srv.xfers.find tm.txnid
          let x ← s.world.srv.xferAt p
          if x.addr = tm.xferAddr ∧ x.nbytesLeft = x.file.size then some (p, x) else none
      | _ => none
  | _ => none

/-- The step marks a transfer CANCEL that is marked already, while every live
transfer is in the deferred list. -/
def State.repeatsCancel (s : State) (l : Label) : Bool :=
  (s.cancels l).any fun named => named.2.defer == .cancel &&
    s.world.srv.xfers.size ≤ s.world.srv.deferredXfers.length

/-- The steps that mind the list and cancel no transfer again while the list is
full. -/
def MindsCancel (l : Answers × Label) (s : State) : Prop :=
  MindsList l s ∧ s.repeatsCancel l.2 = false

instance (l : Answers × Label) (s : State) : Decidable (MindsCancel l s) :=
  inferInstanceAs (Decidable (_ ∧ _))

/-- A transfer that is marked CANCEL already is marked again only if there is
room in the list. -/
def roomToCancel : Action → Config → Prop
  | .cancel p, c => ∀ x, c.world.srv.xferAt p = some x → x.defer = .cancel →
      c.world.srv.deferredXfers.length < c.world.srv.xfers.size
  | a, c => unlisted a c

theorem MindsCancel.grants {ans : Answers} {l : Label} {s : State}
    (hg : MindsCancel (ans, l) s) : ∀ a c, StepMay ans l s a c → roomToCancel a c := by
  obtain ⟨hlist, hrepeat⟩ := hg
  have hroom : ∀ p x, s.cancels l = some (p, x) → x.defer = .cancel →
      s.world.srv.deferredXfers.length < s.world.srv.xfers.size := by
    intro p x hnamed hcancel
    simpa [State.repeatsCancel, hnamed, hcancel] using hrepeat
  intro a c ha
  cases a with
  | cancel p =>
      intro y hy
      rcases ha.cancel_cases with
        ⟨garbage, ⟨u, err, inp, out⟩, rest, t, tm, x, hl, hphase, hu, ht, hfind, hx, haddr, hleft,
          hsrv, -⟩ | ⟨r, rest, txnid, x, hl, hphase, huid, htxnid, hfind, hx, hpid, hc⟩
      · rw [hsrv, hx] at hy
        cases hy
        subst hl
        simp only at hu
        subst hu
        rw [hsrv]
        apply hroom p y
        simp [State.cancels, hphase, ht, hfind, hx, haddr, hleft]
      · subst hc
        rw [hx] at hy
        cases hy
        subst hl
        apply hroom p y
        simp only [State.cancels, hphase]
        exact Server.namedBy_eq huid (fun hne => absurd rfl hne) htxnid hfind hx hpid
  | discard p => exact hlist.grants _ c ha
  | retire p => exact hlist.grants _ c ha
  | _ => trivial

theorem mindsCancel_preserved : Preserved roomToCancel MindsCancel ListLive where
  grants := fun _ _ _ hg _ _ _ => hg.grants
  acts := fun a c c' hc ha hp h => by
    refine h.performs hc ?_ hp
    cases a <;> first | exact ha | trivial
  stop := listLive_preserved.stop

/-- The assertions that `defer_xfer` makes. -/
def Assertion.ofDeferXfer : Assertion → Bool
  | .deferCancel | .deferReadyNotCancel | .deferReadyRoom => true
  | _ => false

/-- In every run whose steps meet the guard, no step that meets it fails an
assertion of `defer_xfer`. -/
theorem deferXfer_assertions_hold {s : State} {ans : Answers} {l : Label} {a : Assertion}
    (hr : server.Reachable MindsCancel s) (hg : MindsCancel (ans, l) s)
    (ha : a.ofDeferXfer = true) : next (ans, l) s ≠ some (.error (.assertion a)) := by
  intro hn
  have hsound := mindsCancel_preserved.reachable listLive_initial hr
  obtain ⟨c, hledger, hlive, hblames⟩ := mindsCancel_preserved.fault hsound hg hn
  cases a with
  | deferCancel =>
      obtain ⟨p, x, hx, hready, hroom, hfull⟩ := hblames
      have hlt : c.world.srv.deferredXfers.length < c.world.srv.xfers.size := by
        cases hd : x.defer with
        | none => exact hlive.room hledger hx hd
        | cancel => exact hroom x hx hd
        | ready => exact absurd hd hready
      omega
  | deferReadyRoom =>
      obtain ⟨p, x, hx, hnone, hfull⟩ := hblames
      have hlt := hlive.room hledger hx hnone
      omega
  | deferReadyNotCancel => exact hblames
  | _ => cases ha

section Runs

open Scenario

/-- An open file and a request to cancel it. -/
def openAndCancel : List (Answers × Label) :=
  [(answers tenBytes, .wait [readable]), (answers tenBytes, .event (-1, -1)),
    (answers tenBytes, .receive ⟨fileRequest .fileOpen 0 0, [1], some client⟩),
    (answers tenBytes, .request),
    (answers tenBytes, .receive ⟨txnRequest .cancel 1, [], some client⟩)]

theorem deferXfer_assertions_hold_of_openAndCancel : ∃ s, server.Reachable MindsCancel s ∧
    MindsCancel (answers tenBytes, .request) s ∧ (s.cancels .request).isSome ∧
    next (answers tenBytes, .request) s ≠ some (.error (.assertion .deferCancel)) := by
  obtain ⟨s, hr, hP⟩ := exists_reachable MindsCancel 4 4 openAndCancel
    (fun s => decide (MindsCancel (answers tenBytes, .request) s) && (s.cancels .request).isSome)
    (by decide +kernel)
  obtain ⟨hg, hcancels⟩ : MindsCancel (answers tenBytes, .request) s ∧
      (s.cancels .request).isSome := by simpa using hP
  exact ⟨s, hr, hg, hcancels, deferXfer_assertions_hold hr hg rfl⟩

/-- A client that cancels its only transfer twice aborts the server. -/
theorem deferXfer_assertion_fails : ∃ s, server.Reachable System.always s ∧
    ∃ l, next l s = some (.error (.assertion .deferCancel)) := by
  obtain ⟨s, hr, hP⟩ := exists_reachable System.always 4 4
    (openAndCancel ++ [(answers tenBytes, .request),
      (answers tenBytes, .receive ⟨txnRequest .cancel 1, [], some client⟩)])
    (fun s => failsWith (.assertion .deferCancel) (next (answers tenBytes, .request) s))
    (by decide +kernel)
  exact ⟨s, hr, (answers tenBytes, .request), eq_of_failsWith hP⟩

end Runs

end Sendfiled
