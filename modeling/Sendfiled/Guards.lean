/-
The timers of open files.  An open file that waits for its SEND_OPEN has a timer of its
own which the poller watches, as long as `timerfd_create` does not fail: the code takes
its failure for success.
-/
import Sendfiled.Kinds
import Sendfiled.Life
import Sendfiled.Expiry
import Sendfiled.Cancellation

namespace Sendfiled

open Prog Transition

variable {ans : Answers} {l : Label} {s s' : State} {a : Action} {c c' : Config} {p t : Ptr}
  {x y : ResrcXfer} {tm : ResrcTimer}

theorem ProtCmdReq.code_of_ofCode {n : Nat} {cmd : ProtCmdReq}
    (h : ProtCmdReq.ofCode n = some cmd) : n = cmd.code := by
  unfold ProtCmdReq.ofCode at h
  split at h <;> cases h <;> rfl

/-- The steps in which no timer of a FILE_OPEN request fails to be created. -/
def TimersCreated (l : Answers × Label) (s : State) : Prop :=
  l.2 = .request → sfdGetCmd s.world.srv.recvbuf = ProtCmdReq.fileOpen.code →
    ∀ n, l.1.timerfdCreate n = none

/-- A transfer that waits for its SEND_OPEN. -/
def ResrcXfer.Waits (x : ResrcXfer) : Prop := x.cmd = .fileOpen ∧ x.defer ≠ .cancel

/-- No action changes a transfer that waits for its SEND_OPEN and goes on waiting. -/
theorem Performs.waits (h : Performs a c c') (htyped : Typed c)
    (hy : c'.world.srv.xferAt p = some y) (hwaits : y.Waits) :
    p = c.world.srv.nextPtr ∨ c.world.srv.xferAt p = some y := by
  obtain ⟨hopen, hcancel⟩ := hwaits
  rcases h.evolves hy with ⟨hnew, -⟩ | ⟨x, hx, hevolves⟩
  · exact Or.inl hnew
  right
  rcases hevolves.cmd with ⟨hcmd, hdest⟩ | ⟨hcmd, -⟩
  case inr =>
    rw [hopen] at hcmd
    cases hcmd
  have hx' : x.cmd = .fileOpen := hcmd.symm.trans hopen
  have hleft : y.nbytesLeft = x.nbytesLeft := by
    rcases hevolves.left with hleft | ⟨-, hkind⟩
    · exact hleft
    · rw [hx'] at hkind
      rcases hkind with hkind | hkind <;> cases hkind
  have hdefer : y.defer = x.defer := by
    rcases hevolves.defer with hdefer | ⟨-, rfl⟩ | ⟨hdefer, -⟩ | ⟨-, -, hkind⟩
    · exact hdefer
    · cases h with
      | release _ hz hready =>
          rw [hx] at hz
          cases hz
          exact absurd hx' (htyped.ready p x hx hready)
    · exact absurd hdefer hcancel
    · rw [hx'] at hkind
      rcases hkind with hkind | hkind <;> cases hkind
  have hsame : y = x := by
    rw [hevolves.record, hcmd, hdest, hleft, hdefer]
  rw [hsame]
  exact hx

/-- A timer that has its descriptor stays as it is until it is deleted. -/
theorem Performs.timer (h : Performs a c c') (hc : Ledger c.world.srv)
    (ht : c.world.srv.timerAt t = some tm) (hident : tm.ident ≠ -1)
    (hexpire : a ≠ .expire t) (hbotch : a ≠ .botch t) :
    c'.world.srv.timerAt t = some tm := by
  have hne : ∀ u v, u ≠ t → Function.update c.world.srv.timerAt u v t = some tm := by
    intro u v hut
    rw [Function.update_of_ne (Ne.symm hut), ht]
  have hlt := hc.timer_lt t tm ht
  cases h with
  | quiet _ hs _ => exact hs.timerAt ▸ ht
  | say | openFile | seek | openTimer | arrive | dup | shut | reshut | register | forget
  | enroll | skip | retire | discard | bury | cancel | ready | release | assign | move | balk
  | addResp | skipResp | dropResp => exact ht
  | addTimer | skipTimer => exact hne _ _ (Nat.ne_of_gt hlt)
  | arm hu hnone =>
      apply hne
      rintro rfl
      rw [ht] at hu
      cases hu
      exact hident hnone
  | expire =>
      apply hne
      rintro rfl
      exact hexpire rfl
  | botch =>
      apply hne
      rintro rfl
      exact hbotch rfl

/-- An action that does not delete a watched timer leaves it watched. -/
theorem World.Watches.performs (h : c.world.Watches t tm) (hp : Performs a c c')
    (hc : Ledger c.world.srv) (hd : Descriptors (0 < ·) c)
    (hexpire : a ≠ .expire t) (hbotch : a ≠ .botch t) : c'.world.Watches t tm := by
  have hident : tm.ident ≠ -1 := by
    intro hneg
    have hpos := h.pos
    rw [hneg] at hpos
    exact absurd hpos (by decide)
  have ht := hp.timer hc h.timer hident hexpire hbotch
  obtain ⟨f, hf, hreg⟩ := h.reg
  have hspared := Descriptors.spares hp hd (o := .timer t) h.pos ⟨tm, h.timer, rfl⟩ ⟨tm, ht, rfl⟩
  exact ⟨ht, h.pos, f, hspared.lookup.trans hf, hspared.regs _ hreg rfl hf⟩

/-- All actions keep the ownership of the descriptors other than zero exclusive. -/
theorem Descriptors.performs_pos (h : Descriptors (0 < ·) c) (hp : Performs a c c') :
    Descriptors (0 < ·) c' := by
  apply h.performs (fun fd hpos => Int.le_of_lt hpos) _ hp
  rintro z L rfl hL hpos
  cases hp with
  | enroll _ _ _ _ _ _ hdest =>
      cases hL
      rcases hdest with hin | hneg | hzero
      · exact hin
      · rw [hneg] at hpos
        exact absurd hpos (by decide)
      · rw [hzero] at hpos
        exact absurd hpos (by decide)

theorem descriptors_kept : Kept anything System.always (Descriptors (0 < ·)) where
  grants := fun _ _ _ _ _ _ _ _ _ _ => trivial
  acts := fun _ _ _ _ _ hp h => h.performs_pos hp

/-- In a state in which the server can take a step, the descriptors other than zero have
exclusive owners. -/
theorem reachable_descriptors (hr : server.Reachable System.always s)
    {l : Answers × Label} {r : Except Fault State} (hn : next l s = some r) :
    Descriptors (0 < ·) s.config := by
  rcases descriptors_kept.reachable (fun s hinit => hinit.descriptors _) hr with hs | hs
  · exact hs.inv
  · rw [next_stopped hs.1] at hn
    cases hn

/-- What is known during a step of an open file that waits: it waited before, and its
timer is still watched. -/
structure Guarding (s : State) (p : Ptr) (c : Config) : Prop where
  ledger : Ledger c.world.srv
  typed : Typed c
  descriptors : Descriptors (0 < ·) c
  known : p < c.world.srv.nextPtr
  watched : ∀ y, c.world.srv.xferAt p = some y → y.Waits →
    s.world.srv.xferAt p = some y ∧ ∀ t tm, s.world.Watches t tm → tm.txnid = y.txnid →
      tm.xferAddr = y.addr → c.world.Watches t tm

theorem Guarding.performs (h : Guarding s p c) (hledger : Ledger s.world.srv)
    (htyped : Typed s.config) (ha : StepMay ans l s a c) (hp : Performs a c c') :
    Guarding s p c' := by
  refine ⟨h.ledger.performs hp, h.typed.performs h.ledger ha.fileKind hp,
    h.descriptors.performs_pos hp, Nat.lt_of_lt_of_le h.known hp.nextPtr_le, fun y hy hwaits => ?_⟩
  rcases hp.waits h.typed hy hwaits with hnew | hold
  · exact absurd h.known (by rw [hnew]; exact Nat.lt_irrefl _)
  obtain ⟨hx, hwatched⟩ := h.watched y hold hwaits
  refine ⟨hx, fun t tm hw htxnid haddr => ?_⟩
  have hknown := hledger.timer_lt t tm hw.timer
  apply (hwatched t tm hw htxnid haddr).performs hp h.ledger h.descriptors
  · rintro rfl
    rcases ha.expire_cases with hlater | ⟨tm', ht', hdone⟩
    · exact Nat.lt_asymm hlater hknown
    · rw [hw.timer] at ht'
      cases ht'
      -- the timer would have marked its file CANCEL before
      obtain ⟨z, hz, hcancel⟩ := hdone p y (htxnid ▸ hledger.find hx) hx haddr.symm
        (htyped.whole p y hx hwaits.1)
      rw [hold] at hz
      cases hz
      exact hwaits.2 hcancel
  · rintro rfl
    obtain ⟨-, -, -, -, -, -, -, -, -, hlater, -⟩ := ha.botch_cases
    exact Nat.lt_asymm hlater hknown

/-- A step leaves the timer of a file that goes on waiting as it is. -/
theorem next_guarded (hr : server.Reachable System.always s)
    (hn : next (ans, l) s = some (.ok s')) (hknown : p < s.world.srv.nextPtr)
    (harmed : ∀ x, s.world.srv.xferAt p = some x → x.Waits → s.world.Armed x)
    (hy : s'.world.srv.xferAt p = some y) (hwaits : y.Waits) : s'.world.Armed y := by
  obtain ⟨hledger, hok⟩ := reachable_ledger hr
  have htyped := (reachable_typed hr).typed
  have hstart : Guarding s p s.config :=
    ⟨hledger, htyped, reachable_descriptors hr hn, hknown,
      fun x hx _ => ⟨hx, fun t tm hw _ _ => hw⟩⟩
  have hends := next_ends (A := StepMay ans l s) (fun a c ha => ha) hok hledger.nodup hn
  generalize hres : Except.ok s' = res at hends
  cases hends with
  | fault => cases hres
  | next _ hacts =>
      cases hres
      have hend := hacts.keeps (fun a c c' ha hp h => h.performs hledger htyped ha hp) hstart
      obtain ⟨hx, hwatched⟩ := hend.watched y hy hwaits
      obtain ⟨t, tm, hw, htxnid, haddr⟩ := harmed y hx hwaits
      exact ⟨t, tm, hwatched t tm hw htxnid haddr, htxnid, haddr⟩
  | shut hacts =>
      obtain ⟨w', hw', hcleared⟩ := shutdown_cleared ans (hacts.ledger hledger)
      rw [hw'] at hres
      cases hres
      rw [hcleared.xferAt] at hy
      cases hy

/-- In every run in which no timer of a FILE_OPEN fails to be created, every file that
waits for its SEND_OPEN has a timer which the poller watches. -/
theorem reachable_armed (hr : server.Reachable TimersCreated s)
    (hx : s.world.srv.xferAt p = some x) (hwaits : x.Waits) : s.world.Armed x := by
  have hboth : server.Reachable System.always s ∧
      ∀ p x, s.world.srv.xferAt p = some x → x.Waits → s.world.Armed x := by
    refine hr.invariant (I := fun s => server.Reachable System.always s ∧
      ∀ p x, s.world.srv.xferAt p = some x → x.Waits → s.world.Armed x) ?_ ?_
    · intro s hinit
      refine ⟨⟨s, hinit, Relation.ReflTransGen.refl⟩, fun p x hx => ?_⟩
      rw [hinit.empty.1 p] at hx
      cases hx
    · rintro ⟨ans, l⟩ s s' ⟨hr, harmed⟩ hg hn
      refine ⟨hr.step trivial hn, fun p y hy hwaits => ?_⟩
      by_cases hknown : p < s.world.srv.nextPtr
      · exact next_guarded hr hn hknown (harmed p) hy hwaits
      · obtain ⟨hledger, hok⟩ := reachable_ledger hr
        have hnone : s.world.srv.xferAt p = none := by
          cases hx : s.world.srv.xferAt p with
          | none => rfl
          | some x => exact absurd (hledger.xfer_lt p x hx) hknown
        obtain ⟨r, rest, rfl, -, -, -, -, haccepted⟩ :=
          next_born hledger (Minted.reachable hr) hok hn hnone hy
        obtain ⟨req, hreq, hcreated, hready⟩ := haccepted.of_born hnone hy
        have hcmd := hcreated.cmd.symm.trans hwaits.1
        rcases hready with ⟨-, harmed' | ⟨n, hfailed⟩⟩ | ⟨hother, -⟩
        · exact harmed'
        · refine absurd (hg rfl ?_ n) hfailed
          apply ProtCmdReq.code_of_ofCode
          rw [protUnmarshalRequest_cmd hreq, hcmd]
        · exact absurd hcmd hother
  exact hboth.2 p x hx hwaits

/-- The expiry of the timer `t` marks the transfer `p` CANCEL, and however the server
goes on from there, the transfer is gone with its descriptors closed when it waits again
or has shut down.  Only an assertion can keep the server from getting there. -/
def ExpiryCloses (ans : Answers) (t p : Ptr) (x : ResrcXfer) (w : World) : Prop :=
  wp (processTimer ans t)
    (fun _ w' => w'.srv.xferAt p = some { x with defer := .cancel } ∧
      ∀ rest s', server.Steps System.always ⟨w', .events rest⟩ s' →
        s'.phase = .waiting ∨ s'.phase = .stopped →
        Gone p { x with defer := .cancel } w'.kern.trace s'.world)
    (fun e _ => e = .assertion .sendPduWhole ∨ e = .assertion .deferCancel) w

theorem expiryCloses_of_hit {w : World} (hledger : Ledger w.srv) (ht : w.srv.timerAt t = some tm)
    (hx : w.srv.xferAt p = some x) (htxnid : tm.txnid = x.txnid) (haddr : tm.xferAddr = x.addr)
    (hleft : x.nbytesLeft = x.file.size) : ExpiryCloses ans t p x w := by
  have hfind : w.srv.xfers.find tm.txnid = some p := htxnid ▸ hledger.find hx
  have hmarks : wp (processTimer ans t)
      (fun _ w' => w'.srv.xferAt p = some { x with defer := .cancel })
      (fun e _ => e = .assertion .sendPduWhole ∨ e = .assertion .deferCancel) w := by
    apply wp_processTimer_hit ht hfind hx ⟨haddr.symm, hleft⟩
    · intro s k result _ _ hmarked
      rw [show (World.mk s _).srv.xferAt = _ from hmarked]
      exact Function.update_self ..
    · exact fun e k result _ he => he
  have hbooks : wp (processTimer ans t) (fun _ w' => Ledger w'.srv)
      (Faulty anything ⟨[], w⟩) w :=
    wp_processTimer (A := anything) (fun _ _ _ => trivial) Acts.refl
      (fun _ _ _ _ _ _ _ _ _ _ _ => trivial) (fun _ _ _ _ _ _ _ _ _ _ _ => trivial)
      (fun _ _ _ _ => trivial) fun w' _ hacts => hacts.ledger hledger
  refine wp_mono (wp_and hmarks hbooks) ?_ fun e w' he => he.1
  rintro - w' ⟨hmarked, hledger'⟩
  refine ⟨hmarked, fun rest s' hsteps hidle => ?_⟩
  have hdoomed := doomed_of_steps (s := ⟨w', .events rest⟩) hledger' trivial hmarked rfl hsteps
  exact gone_of_idle rfl hdoomed hidle

/-- In every run in which no timer of a FILE_OPEN fails to be created: every file that
waits for its SEND_OPEN has a timer in the table, with its transaction ID and address,
which the poller watches and whose expiry closes the file. -/
theorem open_file_guarded (hr : server.Reachable TimersCreated s)
    (hx : s.world.srv.xferAt p = some x) (hopen : x.cmd = .fileOpen)
    (hcancel : x.defer ≠ .cancel) :
    ∃ t tm, s.world.srv.xferTimers.find x.txnid = some t ∧ s.world.Watches t tm ∧
      tm.txnid = x.txnid ∧ tm.xferAddr = x.addr ∧
      ∀ ans, ExpiryCloses ans t p x s.world := by
  have hr' : server.Reachable System.always s := hr.mono fun _ _ _ => trivial
  have hledger := (reachable_ledger hr').1
  obtain ⟨t, tm, hw, htxnid, haddr⟩ := reachable_armed hr hx ⟨hopen, hcancel⟩
  refine ⟨t, tm, ?_, hw, htxnid, haddr, fun ans => ?_⟩
  · apply hledger.timers.find
    simp [Server.timerKey, hw.timer, htxnid]
  · have hleft := (reachable_typed hr').typed.whole p x hx hopen
    exact expiryCloses_of_hit hledger hw.timer hx htxnid haddr hleft

section Runs

open Scenario

theorem openFileOnly_timersCreated :
    ∀ l ∈ openFileOnly, ∀ s, System.always l s → TimersCreated l s := by
  intro l hl s _ _ _ n
  have hans : l.1 = answers tenBytes := by
    simp only [openFileOnly, serve, List.cons_append, List.nil_append, List.mem_cons,
      List.flatMap_cons, List.flatMap_nil, List.not_mem_nil, or_false] at hl
    rcases hl with rfl | rfl | rfl | rfl | rfl | rfl <;> rfl
  rw [hans]
  rfl

theorem open_file_guarded_of_openFileOnly : ∃ s x t tm, server.Reachable TimersCreated s ∧
    s.world.srv.xferAt 0 = some x ∧ x.cmd = .fileOpen ∧ x.defer ≠ .cancel ∧
    s.world.srv.xferTimers.find x.txnid = some t ∧ s.world.Watches t tm ∧
    ExpiryCloses (answers tenBytes) t 0 x s.world := by
  obtain ⟨s, hr, hP⟩ := exists_reachable_forall System.always 4 4 openFileOnly
    (fun s => (s.world.srv.xferAt 0).any fun x => x.cmd == .fileOpen && x.defer != .cancel)
    openFileOnly_timersCreated (by decide +kernel)
  obtain ⟨x, hx, hwaits⟩ := (Option.any_eq_true _ _).mp hP
  simp only [Bool.and_eq_true, beq_iff_eq, bne_iff_ne] at hwaits
  obtain ⟨t, tm, hfind, hw, -, -, hcloses⟩ := open_file_guarded hr hx hwaits.1 hwaits.2
  exact ⟨s, x, t, tm, hr, hx, hwaits.1, hwaits.2, hfind, hw, hcloses _⟩

/-- When `timerfd_create` fails, the request is answered as if it had succeeded, and the
open file has no timer that could expire. -/
theorem open_file_unguarded : ∃ s x, server.Reachable System.always s ∧ s.phase = .waiting ∧
    s.world.srv.xferAt 0 = some x ∧ x.cmd = .fileOpen ∧ x.defer ≠ .cancel ∧
    ∀ reg ∈ s.world.kern.regs, ∀ t, reg.udata ≠ .timer t := by
  obtain ⟨s, hr, hP⟩ := exists_reachable System.always 4 4
    (serve { answers tenBytes with timerfdCreate := fun _ => some EMFILE }
      [⟨fileRequest .fileOpen 0 0, [1], some client⟩])
    (fun s => (s.phase == .waiting) && ((s.world.srv.xferAt 0).any fun x =>
        x.cmd == .fileOpen && x.defer != .cancel) &&
      (s.world.kern.regs.map Reg.udata == [.sigfd, .reqfd]))
    (by decide +kernel)
  simp only [Bool.and_eq_true, beq_iff_eq, bne_iff_ne, Option.any_eq_true] at hP
  obtain ⟨⟨hwait, x, hx, hopen, hcancel⟩, hregs⟩ := hP
  refine ⟨s, x, hr, hwait, hx, hopen, hcancel, fun reg hreg t hu => ?_⟩
  have hmem : Udata.timer t ∈ s.world.kern.regs.map Reg.udata := hu ▸ List.mem_map_of_mem hreg
  rw [hregs] at hmem
  simp at hmem

end Runs

end Sendfiled
