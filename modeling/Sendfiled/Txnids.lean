/-
Transaction IDs.  They are counted up from one, and a transfer gets an ID only if the slot of
that ID in the table is free.  So an ID that a client was told is the transfer's for good, and
until as many IDs have been given out after it as the table has slots it finds nothing else.
-/
import Sendfiled.Delivery
import Sendfiled.Isolation

namespace Sendfiled

open Prog Transition

variable {ans : Answers} {s s' : State} {a : Action} {c c' : Config} {w w' : World}
  {p q : Ptr} {t u : Nat} {x y : ResrcXfer}

/-- The transaction ID of a transfer, which its record gives or which was told its client. -/
def World.Identifies (w : World) (t : Nat) (p : Ptr) : Prop :=
  (∃ x, w.srv.xferAt p = some x ∧ x.txnid = t) ∨
    ∃ fd size atime mtime ctime result,
      Effect.sent (some p) fd (.fileInfo size atime mtime ctime t) result ∈ w.kern.trace

theorem World.identifies_of_live (hx : w.srv.xferAt p = some x) : w.Identifies x.txnid p :=
  Or.inl ⟨x, hx, rfl⟩

theorem Evolves.txnid (h : Evolves a p x y) : y.txnid = x.txnid := by
  rw [h.record]

/-- The counter and the pointers move on together when an ID is given out. -/
theorem Performs.counter (h : Performs a c c') :
    c'.world.srv.nextTxnid = c.world.srv.nextTxnid ∨
      (c'.world.srv.nextTxnid = (c.world.srv.nextTxnid + 1) % 2 ^ 64 ∧
        c'.world.srv.nextPtr = c.world.srv.nextPtr + 1) := by
  cases h with
  | quiet _ hs => exact Or.inl (by rw [show _ = _ from hs])
  | enroll | skip => exact Or.inr ⟨rfl, rfl⟩
  | say | openFile | seek | openTimer | arrive | dup | shut | reshut | register | forget | retire
  | discard | bury | cancel | ready | release | assign | move | balk | addTimer | skipTimer | arm
  | expire | botch | addResp | skipResp | dropResp => exact Or.inl rfl

/-- A new transfer gets the ID that the counter shows, if no live transfer has its slot. -/
theorem Performs.enrolled (h : Performs (.enroll x) c c') :
    x.txnid = c.world.srv.nextTxnid ∧ c.world.srv.xfers.find x.txnid = none ∧
      c'.world.srv.nextPtr = c.world.srv.nextPtr + 1 ∧
      c'.world.srv.nextTxnid = (c.world.srv.nextTxnid + 1) % 2 ^ 64 := by
  cases h with
  | enroll _ hfree htxnid => exact ⟨htxnid, hfree, rfl, rfl⟩

/-- The responses that are held back are about other things than the file's information. -/
def Plain (c : Config) : Prop :=
  ∀ r resp, c.world.srv.respAt r = some resp →
    ∀ size atime mtime ctime txnid, resp.pdu ≠ .fileInfo size atime mtime ctime txnid

theorem Plain.performs (h : Plain c) (hp : Performs a c c') : Plain c' := by
  intro r resp hr
  rcases hp.respAt_cases with ⟨hsame, -⟩ | ⟨new, rfl, hset, -⟩ | ⟨-, hset⟩ | ⟨q, -, -, -, hset⟩
  · exact h r resp (hsame ▸ hr)
  · rw [hset] at hr
    by_cases heq : r = c.world.srv.nextPtr
    · rw [heq, Function.update_self] at hr
      cases hr
      cases hp with
      | addResp _ _ _ _ _ hkind => exact hkind
    · rw [Function.update_of_ne heq] at hr
      exact h r resp hr
  · rw [hset] at hr
    exact h r resp (of_update_none hr).2
  · rw [hset] at hr
    exact h r resp (of_update_none hr).2

/-- An ID was given before, or it has just been. -/
theorem Performs.identifies (hp : Performs a c c') (hplain : Plain c)
    (h : c'.world.Identifies t p) : c.world.Identifies t p ∨
      ∃ x, a = .enroll x ∧ x.txnid = t ∧ p = c.world.srv.nextPtr := by
  rcases h with ⟨y, hy, rfl⟩ | ⟨fd, size, atime, mtime, ctime, result, hmem⟩
  · rcases hp.evolves hy with ⟨rfl, rfl⟩ | ⟨x, hx, hevolves⟩
    · exact Or.inr ⟨y, rfl, rfl, rfl⟩
    · rw [hevolves.txnid]
      exact Or.inl (World.identifies_of_live hx)
  · left
    obtain ⟨tr, htr, hspoken⟩ := hp.spoken
    rw [htr] at hmem
    rcases List.mem_append.mp hmem with hold | hnew
    · exact Or.inr ⟨fd, size, atime, mtime, ctime, result, hold⟩
    · cases (hspoken _ hnew).2 _ _ _ _ rfl
      cases hp with
      | say hsay =>
          rcases hsay with ⟨x, hx, -, rfl⟩ | ⟨r, resp, hr, -, hpdu⟩
          · exact World.identifies_of_live hx
          · exact absurd hpdu.symm (hplain r resp hr _ _ _ _ _)

/-- The IDs of transfers. -/
structure Ticketed (c : Config) : Prop where
  plain : Plain c
  counter : c.world.srv.nextTxnid < 2 ^ 64
  known : ∀ t p, c.world.Identifies t p → p < c.world.srv.nextPtr ∧ t < 2 ^ 64
  unique : ∀ t u p, c.world.Identifies t p → c.world.Identifies u p → t = u

theorem Ticketed.performs (h : Ticketed c) (hp : Performs a c c') : Ticketed c' := by
  have hknown : ∀ t p, c'.world.Identifies t p → p < c'.world.srv.nextPtr ∧ t < 2 ^ 64 := by
    intro t p hid
    rcases hp.identifies h.plain hid with hold | ⟨x, rfl, rfl, rfl⟩
    · obtain ⟨hlt, hsmall⟩ := h.known t p hold
      exact ⟨Nat.lt_of_lt_of_le hlt hp.nextPtr_le, hsmall⟩
    · obtain ⟨htxnid, -, hnext, -⟩ := hp.enrolled
      rw [hnext, htxnid]
      exact ⟨Nat.lt_succ_self _, h.counter⟩
  refine ⟨h.plain.performs hp, ?_, hknown, fun t u p hid hid' => ?_⟩
  · rcases hp.counter with hsame | ⟨hnext, -⟩
    · rw [hsame]
      exact h.counter
    · rw [hnext]
      exact Nat.mod_lt _ (by decide)
  · have hnot : ∀ v, ¬ c.world.Identifies v c.world.srv.nextPtr :=
      fun v hv => Nat.lt_irrefl _ (h.known v _ hv).1
    rcases hp.identifies h.plain hid with hold | ⟨x, hx, rfl, rfl⟩ <;>
      rcases hp.identifies h.plain hid' with hold' | ⟨x', hx', rfl, hp'⟩
    · exact h.unique t u p hold hold'
    · exact absurd hold (hp' ▸ hnot t)
    · exact absurd hold' (hnot u)
    · cases hx.symm.trans hx'
      rfl

/-- As long as the counter has not come round, IDs are given out in the order of the transfers,
and what has the slot of an old ID came after it. -/
structure Ordered (c : Config) : Prop where
  ticketed : Ticketed c
  counter : c.world.srv.nextTxnid ≤ c.world.srv.nextPtr + 1
  below : ∀ t p, c.world.Identifies t p → t < c.world.srv.nextTxnid
  order : ∀ t u p q, c.world.Identifies t p → c.world.Identifies u q → p < q → t < u
  slot : ∀ t p q y, c.world.Identifies t p → c.world.srv.xferAt q = some y → q ≠ p →
    c.world.srv.xfers.indexof y.txnid = c.world.srv.xfers.indexof t → p < q

/-- No live transfer has the slot of the ID of a new one. -/
theorem Performs.slot_free (h : Performs (.enroll x) c c') (hledger : Ledger c.world.srv)
    (hy : c.world.srv.xferAt q = some y) :
    c.world.srv.xfers.indexof y.txnid ≠ c.world.srv.xfers.indexof x.txnid := by
  intro heq
  have hfind : c.world.srv.xfers.find x.txnid = some q := by
    rw [XferTable.find, ← heq]
    exact hledger.find hy
  rw [h.enrolled.2.1] at hfind
  cases hfind

theorem Ordered.performs (h : Ordered c) (hledger : Ledger c.world.srv) (hp : Performs a c c')
    (hfew : c'.world.srv.nextPtr + 1 < 2 ^ 64) : Ordered c' := by
  have hids := fun {t p} => hp.identifies (t := t) (p := p) h.ticketed.plain
  have hcounter : c.world.srv.nextTxnid ≤ c'.world.srv.nextTxnid ∧
      c'.world.srv.nextTxnid ≤ c'.world.srv.nextPtr + 1 := by
    have hle := hp.nextPtr_le
    have hold := h.counter
    rcases hp.counter with hsame | ⟨hnext, hptr⟩
    · rw [hsame]
      exact ⟨Nat.le_refl _, Nat.le_trans hold (Nat.succ_le_succ hle)⟩
    · rw [hptr] at hfew
      rw [hnext, hptr, Nat.mod_eq_of_lt (Nat.lt_of_le_of_lt (Nat.succ_le_succ hold) hfew)]
      exact ⟨Nat.le_succ _, Nat.succ_le_succ hold⟩
  -- the ID of a new transfer is the last that was given out
  have hnew : ∀ x, a = .enroll x → x.txnid < c'.world.srv.nextTxnid ∧
      ∀ t p, c.world.Identifies t p → t < x.txnid := by
    rintro x rfl
    obtain ⟨htxnid, -, hptr, hnext⟩ := hp.enrolled
    have hold := h.counter
    rw [hptr] at hfew
    rw [Nat.mod_eq_of_lt (Nat.lt_of_le_of_lt (Nat.succ_le_succ hold) hfew)] at hnext
    refine ⟨?_, fun t p hid => htxnid ▸ h.below t p hid⟩
    rw [hnext, htxnid]
    exact Nat.lt_succ_self _
  refine ⟨h.ticketed.performs hp, hcounter.2, fun t p hid => ?_, fun t u p q hid hid' hlt => ?_,
    fun t p q y hid hy hne hslot => ?_⟩
  · rcases hids hid with hold | ⟨x, hx, rfl, -⟩
    · exact Nat.lt_of_lt_of_le (h.below t p hold) hcounter.1
    · exact (hnew x hx).1
  · rcases hids hid with hold | ⟨x, -, -, hx⟩ <;> rcases hids hid' with hold' | ⟨x', hx', rfl, hq⟩
    · exact h.order t u p q hold hold' hlt
    · exact (hnew x' hx').2 t p hold
    · exact absurd (h.ticketed.known u q hold').1 (Nat.not_lt_of_gt (hx ▸ hlt))
    · rw [hx, hq] at hlt
      exact absurd hlt (Nat.lt_irrefl _)
  · have hindex := XferTable.indexof_congr hp.xfers_order
    rw [hindex, hindex] at hslot
    rcases hids hid with hold | ⟨x, rfl, rfl, rfl⟩
    · have hlt := (h.ticketed.known t p hold).1
      rcases hp.evolves hy with ⟨rfl, -⟩ | ⟨z, hz, hevolves⟩
      · exact hlt
      · rw [hevolves.txnid] at hslot
        exact h.slot t p q z hold hz hne hslot
    · rcases hp.evolves hy with ⟨rfl, -⟩ | ⟨z, hz, hevolves⟩
      · exact absurd rfl hne
      · rw [hevolves.txnid] at hslot
        exact absurd hslot (hp.slot_free hledger hz)

theorem ordered_kept : Kept anything System.always
    (fun c => c.world.srv.nextPtr + 1 < 2 ^ 64 → Ordered c) where
  grants := fun _ _ _ _ _ _ _ _ _ _ => trivial
  acts := fun _ _ _ hledger _ hp h hfew =>
    (h (Nat.lt_of_le_of_lt (Nat.succ_le_succ hp.nextPtr_le) hfew)).performs hledger hp hfew

/-- After the shutdown the IDs are those that clients were told. -/
theorem Cleared.identifies (hcleared : Cleared w w') (h : w'.Identifies t p) :
    w.Identifies t p := by
  rcases h with ⟨x, hx, -⟩ | ⟨fd, size, atime, mtime, ctime, result, hmem⟩
  · rw [hcleared.xferAt] at hx
    cases hx
  · obtain ⟨tr, htr, honly, -⟩ := hcleared.trace
    rw [htr] at hmem
    rcases List.mem_append.mp hmem with hold | hnew
    · exact Or.inr ⟨fd, size, atime, mtime, ctime, result, hold⟩
    · obtain ⟨_, _, hclosed⟩ := honly _ hnew
      cases hclosed

theorem ordered_initial (s : State) (h : Initial s) : Ordered s.config := by
  have hempty := h.empty
  obtain ⟨-, reqfd, maxfds, uid, cap, -, -, hnew, hkern⟩ := h
  have htxnid : s.world.srv.nextTxnid = 1 := by
    unfold srvNew at hnew
    split at hnew
    · rw [← Option.some.inj hnew]
    · cases hnew
  have hnone : ∀ t p, ¬ s.config.world.Identifies t p := by
    rintro t p (⟨x, hx, -⟩ | ⟨fd, size, atime, mtime, ctime, result, hmem⟩)
    · rw [show s.config.world.srv.xferAt p = none from hempty.1 p] at hx
      cases hx
    · rw [show s.config.world.kern.trace = [] from hkern.trace] at hmem
      cases hmem
  refine ⟨⟨fun r resp hr => ?_, ?_, fun t p hid => absurd hid (hnone t p),
    fun t u p hid => absurd hid (hnone t p)⟩, ?_, fun t p hid => absurd hid (hnone t p),
    fun t u p q hid => absurd hid (hnone t p), fun t p q y hid => absurd hid (hnone t p)⟩
  · rw [show s.config.world.srv.respAt r = none from hempty.2.2 r] at hr
    cases hr
  · rw [show s.config.world.srv.nextTxnid = 1 from htxnid]
    decide
  · rw [show s.config.world.srv.nextTxnid = 1 from htxnid]
    exact Nat.le_add_left 1 _

/-- The IDs of transfers are words. -/
theorem reachable_ticketed (hr : server.Reachable System.always s) (hrun : s.phase ≠ .stopped) :
    Ticketed s.config := by
  have hkept : Kept anything System.always Ticketed :=
    ⟨fun _ _ _ _ _ _ _ _ _ _ => trivial, fun _ _ _ _ _ hp h => h.performs hp⟩
  rcases hkept.reachable (fun s h => (ordered_initial s h).ticketed) hr with hs | hs
  · exact hs.inv
  · exact absurd hs.1 hrun

theorem reachable_ordered (hr : server.Reachable System.always s)
    (hfew : s.world.srv.nextPtr + 1 < 2 ^ 64) :
    ∃ c, Ordered c ∧ (∀ t p, s.world.Identifies t p → c.world.Identifies t p) ∧
      (c = s.config ∨ ∀ q, s.world.srv.xferAt q = none) := by
  rcases ordered_kept.reachable (fun s h _ => ordered_initial s h) hr with hs | hs
  · exact ⟨s.config, hs.inv hfew, fun _ _ hid => hid, Or.inl rfl⟩
  · obtain ⟨-, w, -, hinv, hcleared, -⟩ := hs
    exact ⟨⟨[], w⟩, hinv (hcleared.nextPtr ▸ hfew), fun _ _ hid => hcleared.identifies hid,
      Or.inr hcleared.xferAt⟩

/-- What the slot of an old ID holds came later by the number of slots at least. -/
theorem Ordered.later (h : Ordered c) (hledger : Ledger c.world.srv)
    (hid : c.world.Identifies t p) (hgone : c.world.srv.xferAt p = none)
    (hfind : c.world.srv.xfers.find t = some q) (hy : c.world.srv.xferAt q = some y) :
    t + c.world.srv.xfers.capacity ≤ y.txnid := by
  obtain ⟨z, hz, hslot⟩ := hledger.of_find hfind
  cases hy.symm.trans hz
  have hne : q ≠ p := by
    rintro rfl
    rw [hy] at hgone
    cases hgone
  have hlater := h.slot t p q y hid hy hne hslot
  have hlt : t < y.txnid := h.order t y.txnid p q hid (World.identifies_of_live hy) hlater
  rw [XferTable.indexof_eq_mod, XferTable.indexof_eq_mod] at hslot
  have hpos : 0 < y.txnid - t := Nat.sub_pos_of_lt hlt
  have hdvd : c.world.srv.xfers.capacity ∣ y.txnid - t :=
    Nat.dvd_of_mod_eq_zero (Nat.sub_mod_eq_zero_of_mod_eq hslot)
  have hle := Nat.le_of_dvd hpos hdvd
  omega

/-- A request that names an ID whose transfer is over. -/
structure Stale (cmd : ProtCmdReq) (t : Nat) (p : Ptr) (s : State) : Prop where
  kind : cmd = .cancel ∨ cmd = .sendOpen
  identifies : s.world.Identifies t p
  gone : s.world.srv.xferAt p = none
  names : protUnmarshalTxnid cmd s.world.srv.recvbuf = some t

/-- A request with an ID that finds nothing does nothing. -/
theorem next_ignored {cmd : ProtCmdReq} {r : Received} {rest : List PollEvent}
    (hledger : Ledger s.world.srv) (hphase : s.phase = .requested r rest)
    (hcmd : cmd = .cancel ∨ cmd = .sendOpen)
    (ht : protUnmarshalTxnid cmd s.world.srv.recvbuf = some t)
    (hnone : s.world.srv.xfers.find t = none) (hn : next (ans, .request) s = some (.ok s')) :
    Ignored s.world s'.world := by
  obtain ⟨w, phase⟩ := s
  subst hphase
  simp only [next, Option.some.injEq] at hn
  have hread : r.nread ≠ 0 := by
    intro hempty
    revert hn
    refine settle_of_wp (P := fun res => res = .ok s' → False) (Q := fun _ _ => False)
      (E := fun _ _ => True) ?_ (fun _ _ hno _ => hno.elim) fun _ _ _ heq => by cases heq
    simp only [handleReceived, wp_bind, wp_assert]
    exact ⟨fun hread => absurd hempty hread, fun _ => trivial⟩
  revert hn
  refine settle_of_wp (P := fun res => res = .ok s' → _)
    (wp_handleReceived_ignored hledger hread hcmd ht fun q y hnamed => ?_) ?_ ?_
  · have hfind := (Server.namedBy_eq_some hnamed ht).2.2.1
    rw [hnone] at hfind
    cases hfind
  · intro _ w' h heq
    cases heq
    exact h
  · intro _ _ _ heq
    cases heq

/-- What is known of the IDs as long as fewer than 2 ^ 64 - 1 resources were allocated: they
were given out in the order of the transfers, once each; an ID whose transfer is over finds
only a transfer that has got its own at least as many IDs later as the table has slots; so
until then a SEND_OPEN or a CANCEL that names it is ignored. -/
theorem txnids_once (hr : server.Reachable System.always s)
    (hfew : s.world.srv.nextPtr + 1 < 2 ^ 64) :
    (∀ t u p q, s.world.Identifies t p → s.world.Identifies u q →
      (t < u ↔ p < q) ∧ (t = u ↔ p = q)) ∧
    (∀ t p q y, s.world.Identifies t p → s.world.srv.xferAt p = none →
      s.world.srv.xfers.find t = some q → s.world.srv.xferAt q = some y →
      t + s.world.srv.xfers.capacity ≤ y.txnid) ∧
    ∀ cmd t p ans s', Stale cmd t p s →
      s.world.srv.nextTxnid ≤ t + s.world.srv.xfers.capacity →
      next (ans, .request) s = some (.ok s') → Ignored s.world s'.world := by
  obtain ⟨hledger, -⟩ := reachable_ledger hr
  obtain ⟨c, hordered, hids, hc⟩ := reachable_ordered hr hfew
  have hlt : ∀ t u p q, s.world.Identifies t p → s.world.Identifies u q → p < q → t < u :=
    fun t u p q hid hid' => hordered.order t u p q (hids t p hid) (hids u q hid')
  have hone : ∀ t u p, s.world.Identifies t p → s.world.Identifies u p → t = u :=
    fun t u p hid hid' => hordered.ticketed.unique t u p (hids t p hid) (hids u p hid')
  refine ⟨fun t u p q hid hid' => ?_, fun t p q y hid hgone hfind hy => ?_,
    fun cmd t p ans s' hstale hlast hn => ?_⟩
  · rcases Nat.lt_trichotomy p q with hpq | rfl | hpq
    · have h := hlt t u p q hid hid' hpq
      exact ⟨iff_of_true h hpq, iff_of_false (Nat.ne_of_lt h) (Nat.ne_of_lt hpq)⟩
    · have h := hone t u p hid hid'
      exact ⟨iff_of_false (h ▸ Nat.lt_irrefl _) (Nat.lt_irrefl _), iff_of_true h rfl⟩
    · have h := hlt u t q p hid' hid hpq
      exact ⟨iff_of_false (Nat.not_lt_of_gt h) (Nat.not_lt_of_gt hpq),
        iff_of_false (Nat.ne_of_gt h) (Nat.ne_of_gt hpq)⟩
  · rcases hc with rfl | hnone
    · exact hordered.later hledger hid hgone hfind hy
    · rw [hnone] at hy
      cases hy
  · obtain ⟨r, rest, hphase⟩ := requested_of_next hn
    have hnone : s.world.srv.xfers.find t = none := by
      by_contra hsome
      obtain ⟨q, hfind⟩ := Option.ne_none_iff_exists'.mp hsome
      obtain ⟨y, hy, -⟩ := hledger.of_find hfind
      rcases hc with rfl | hnone
      · have hlater := hordered.later hledger hstale.identifies hstale.gone hfind hy
        have hbelow := hordered.below y.txnid q (World.identifies_of_live hy)
        exact absurd hbelow (Nat.not_lt_of_ge (Nat.le_trans hlast hlater))
      · rw [hnone] at hy
        cases hy
    exact next_ignored hledger hphase hstale.kind hstale.names hnone hn

section Runs

open Scenario

/-- A file is read to its end, and then its transfer is cancelled. -/
def lateCancel : List (Answers × Label) :=
  serve (answers tenBytes) [⟨fileRequest .read 0 0, [1], some client⟩] ++
    handle (answers tenBytes) (writable 0) ++
    [(answers tenBytes, .wait [readable]), (answers tenBytes, .event (-1, -1)),
      (answers tenBytes, .receive ⟨txnRequest .cancel 1, [], some client⟩)]

/-- The file's information, with this ID, on behalf of the transfer. -/
def Effect.tellsTxnid (t : Nat) (p : Ptr) : Effect → Bool
  | .sent who _ (.fileInfo _ _ _ _ txnid) _ => who == some p && txnid == t
  | _ => false

/-- A client was told the ID of a transfer that is over, and no other ID was given out. -/
def State.outlived (t : Nat) (p : Ptr) (s : State) : Bool :=
  s.asksFor .cancel t && (s.world.srv.xferAt p).isNone && s.world.srv.nextTxnid == t + 1 &&
    decide (s.world.srv.nextPtr + 1 < 2 ^ 64) &&
    s.world.kern.trace.any (Effect.tellsTxnid t p)

theorem World.identifies_of_any (h : w.kern.trace.any (Effect.tellsTxnid t p) = true) :
    w.Identifies t p := by
  obtain ⟨e, hmem, he⟩ := List.any_eq_true.mp h
  unfold Effect.tellsTxnid at he
  split at he
  · obtain ⟨rfl, rfl⟩ : _ = some p ∧ _ = t := by simpa using he
    exact Or.inr ⟨_, _, _, _, _, _, hmem⟩
  · cases he

theorem txnids_once_of_lateCancel : ∃ s, server.Reachable System.always s ∧
    Stale .cancel 1 0 s ∧ ∀ ans s', next (ans, .request) s = some (.ok s') →
      Ignored s.world s'.world := by
  obtain ⟨s, hr, hP⟩ := exists_reachable System.always 4 100 lateCancel (State.outlived 1 0)
    (by decide +kernel)
  simp only [State.outlived, Bool.and_eq_true, Option.isNone_iff_eq_none, beq_iff_eq,
    decide_eq_true_eq] at hP
  obtain ⟨⟨⟨⟨hasks, hgone⟩, hlast⟩, hfew⟩, htold⟩ := hP
  obtain ⟨r, rest, hphase, -, ht⟩ := State.of_asksFor hasks
  have hstale : Stale .cancel 1 0 s := ⟨Or.inl rfl, World.identifies_of_any htold, hgone, ht⟩
  refine ⟨s, hr, hstale, fun ans s' hn => ?_⟩
  apply (txnids_once hr hfew).2.2 .cancel 1 0 ans s' hstale ?_ hn
  rw [hlast]
  exact Nat.add_le_add_left s.world.srv.xfers.capacity_pos 1

end Runs

end Sendfiled
