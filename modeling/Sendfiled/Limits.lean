/-
The limits of the two tables.  Their capacity is the number of transfers asked for,
rounded up to a power of two, and the slot of a new transfer or timer is fixed by its
transaction ID alone.
-/
import Sendfiled.Isolation
import Sendfiled.StatusChannel
import Sendfiled.Refusals
import Mathlib.Data.Set.Card

namespace Sendfiled

open Prog Transition

/-- `srv_run` has just reached its loop with the given number of transfers. -/
def InitialWith (maxfiles : Nat) (s : State) : Prop :=
  s.phase = .waiting ∧
    ∃ reqfd uid pipeCapacity, 1 ≤ maxfiles ∧ maxfiles < 2 ^ 31 ∧
      srvNew reqfd maxfiles uid pipeCapacity = some s.world.srv ∧
      FreshKernel reqfd s.world.kern

/-- The states of the runs of a server started with `maxfiles`. -/
def RunOf (maxfiles : Nat) (s : State) : Prop :=
  ∃ s₀, InitialWith maxfiles s₀ ∧ server.Steps System.always s₀ s

/-- The transfers that exist. -/
def Server.live (s : Server) : Set Ptr := { p | ∃ x, s.xferAt p = some x }

/-- Nothing has happened but that an error was reported on a descriptor on behalf of no
transfer, after which descriptors were closed. -/
def TurnedAway (fd : Fd) (e : Errno) (w w' : World) : Prop :=
  w'.srv = w.srv ∧ ∃ result tr, w'.kern.trace =
    w.kern.trace ++ Effect.sent none fd (.hdr .fileInfo e) result :: tr ∧ OnlyCloses tr

/-- What is documented of the limit: there are never more transfers, and a request for one
more is turned away. -/
structure LimitRespected (maxfiles : Nat) (s : State) : Prop where
  atMost : s.world.srv.live.encard ≤ maxfiles
  refuses : ∀ ans r rest req, s.phase = .requested r rest → r.uid = s.world.srv.uid →
    1 ≤ r.nfds → protUnmarshalRequest s.world.srv.recvbuf r.nread = some req →
    s.world.srv.live.encard = maxfiles →
    TurnedAway r.fds.1 EMFILE s.world (handleReceived ans r s.world).state

section Capacity

/-- The loop of `clp2` stops at the exponent of a power of two. -/
theorem clp2Order_two_pow {k : Nat} (hk : k < 32) (fuel i : Nat) (hi : i ≤ k)
    (hfuel : k < i + fuel) : clp2Order (2 ^ k) fuel i = some k := by
  induction fuel generalizing i with
  | zero => omega
  | succ fuel ih =>
      have hshift : (1 <<< i) % 2 ^ 32 = 2 ^ i := by
        rw [Nat.one_shiftLeft]
        apply Nat.mod_eq_of_lt
        exact Nat.pow_lt_pow_right (by decide) (by omega)
      rw [clp2Order, hshift]
      by_cases hik : i = k
      · subst hik
        rw [if_neg (Nat.lt_irrefl _)]
      · have hlt : 2 ^ i < 2 ^ k := Nat.pow_lt_pow_right (by decide) (by omega)
        rw [if_pos hlt]
        exact ih (i + 1) (by omega) (by omega)

theorem InitialWith.initial {n : Nat} {s : State} (h : InitialWith n s) : Initial s := by
  obtain ⟨hphase, reqfd, uid, cap, hpos, hlt, hnew, hkern⟩ := h
  exact ⟨hphase, reqfd, n, uid, cap, hpos, hlt, hnew, hkern⟩

theorem RunOf.reachable {n : Nat} {s : State} (h : RunOf n s) :
    server.Reachable System.always s := by
  obtain ⟨s₀, h₀, hsteps⟩ := h
  exact ⟨s₀, h₀.initial, hsteps⟩

/-- The size of the table never changes. -/
theorem RunOf.order {n : Nat} {s : State} (h : RunOf n s) :
    clp2Order n 32 0 = some s.world.srv.xfers.order := by
  obtain ⟨s₀, h₀, hsteps⟩ := h
  have hstart : clp2Order n 32 0 = some s₀.world.srv.xfers.order := by
    obtain ⟨-, reqfd, uid, cap, -, -, hnew, -⟩ := h₀
    unfold srvNew at hnew
    split at hnew
    · rename_i xfers timers hxfers htimers
      rw [← Option.some.inj hnew]
      exact XferTable.construct_order hxfers
    · cases hnew
  have hkept := Preserved.always
    (I := fun c => c.world.srv.xfers.order = s₀.world.srv.xfers.order)
    (fun a c c' _ hperf hI => hperf.xfers_order.trans hI)
    (fun w w' _ hcleared hI => by
      change w'.srv.xfers.order = _
      rw [hcleared.xfers]
      exact hI)
  have hsound := hkept.steps hsteps ⟨h₀.initial.ledger, h₀.initial.phaseOk, rfl⟩
  rw [hstart]
  exact congrArg some hsound.inv.symm

/-- The transfers that exist are counted by the table. -/
theorem Ledger.encard_live {s : Server} (h : Ledger s) : s.live.encard = s.xfers.size := by
  have hlive : s.live = (s.xfers.stored.toFinset : Set Ptr) := by
    ext p
    rw [List.coe_toFinset]
    exact h.mem_stored.symm
  rw [hlive, Set.encard_coe_eq_coe_finsetCard, List.toFinset_card_of_nodup h.xfers.nodup_stored,
    h.xfers.size]

theorem Ledger.size_le {s : Server} (h : Ledger s) : s.xfers.size ≤ s.xfers.capacity := by
  rw [h.xfers.size]
  exact s.xfers.stored_length_le

end Capacity

section Full

variable {ans : Answers} {w : World} {req : ProtRequest}

/-- A full table turns requests away before anything is opened. -/
theorem wp_addXfer_full (hfull : w.srv.xfers.size = w.srv.xfers.capacity) {clientPid : Nat}
    {statFd destFd : Fd} {Q : Option (Ptr × FioStat) → World → Prop} {E : Fault → World → Prop}
    (hQ : Q none (withErrno EMFILE w)) : wp (addXfer ans req clientPid statFd destFd) Q E w := by
  simp only [addXfer, wp_bind, wp_gets, if_pos hfull, wp_setErrno, wp_pure]
  exact hQ

/-- The error of a request is reported, and with it the call of `send_req_err` ends. -/
theorem wp_sendReqErr_away {e : Errno} (he : 0 < e ∧ e ≤ 255) {fd : Fd}
    {Q : Bool → World → Prop} {E : Fault → World → Prop}
    (hQ : ∀ b w', TurnedAway fd e w w' → Q b w') (hE : ∀ f w', TurnedAway fd e w w' → E f w') :
    wp (sendReqErr ans none fd e) Q E w := by
  have hlogged : ∀ k result, (w.kern.log (.sent none fd (.hdr .fileInfo e) result)).Quiet k →
      TurnedAway fd e w ⟨w.srv, k⟩ := by
    intro k result hk
    exact ⟨rfl, result, [], hk.trace, by intro _ h; cases h⟩
  simp only [sendReqErr, wp_bind, wp_assert]
  refine ⟨fun _ => ?_, fun hnot => absurd he hnot⟩
  exact wp_sendPdu_logged (fun b k result hk => hQ b _ (hlogged k result hk))
    fun k result hk => hE _ _ (hlogged k result hk)

theorem wp_closeFds_only {fds : Fd × Fd} {nfds : Nat} {Q : Unit → World → Prop}
    {E : Fault → World → Prop} (hQ : ∀ w' tr, w'.srv = w.srv →
      w'.kern.trace = w.kern.trace ++ tr → OnlyCloses tr → Q () w') :
    wp (closeFds ans fds nfds) Q E w := by
  unfold closeFds
  rw [wp_ite]
  refine ⟨fun _ => ?_, fun _ => hQ w [] rfl (List.append_nil _).symm nofun⟩
  simp only [close, wp_bind, wp_sys, wp_pure]
  obtain ⟨b, hb⟩ := Kernel.close_trace ans w.kern fds.1
  rw [wp_ite]
  refine ⟨fun _ => ?_, fun _ => hQ _ _ rfl hb (Kernel.onlyCloses_singleton _ _)⟩
  simp only [wp_bind, wp_sys, wp_pure]
  obtain ⟨b', hb'⟩ := Kernel.close_trace ans (w.kern.close ans fds.1).2 fds.2
  refine hQ _ [.closed fds.1 b, .closed fds.2 b'] rfl ?_
    ((Kernel.onlyCloses_singleton fds.1 b).append (Kernel.onlyCloses_singleton fds.2 b'))
  rw [hb', hb, List.append_assoc]
  rfl

/-- A request that meets a full table is turned away with EMFILE. -/
theorem turnedAway_of_full {r : Received} (hfull : w.srv.xfers.size = w.srv.xfers.capacity)
    (huid : r.uid = w.srv.uid) (hnfds : 1 ≤ r.nfds ∧ r.nfds ≤ protMaxFds)
    (hreq : protUnmarshalRequest w.srv.recvbuf r.nread = some req) :
    TurnedAway r.fds.1 EMFILE w (handleReceived ans r w).state := by
  have hread : r.nread ≠ 0 := by
    intro hzero
    simp [protUnmarshalRequest, hzero, protReqMinSize] at hreq
  apply wp_state
  simp only [handleReceived, wp_bind, wp_gets, wp_assert]
  refine ⟨fun _ => ?_, fun hnot => absurd hread hnot⟩
  rw [wp_ite]
  refine ⟨fun hbad => ?_, fun _ => ?_⟩
  · omega
  rw [wp_ite]
  refine ⟨fun hne => absurd huid hne, fun _ => ?_⟩
  -- both branches make the same report
  have hreport : ∀ m : M Bool, (m = do
        let _ ← sendReqErr ans none r.fds.1 (← getErrno)
        pure false) →
      wp m (fun ok w' => wp (if ok then pure () else closeFds ans r.fds r.nfds)
        (fun _ w'' => TurnedAway r.fds.1 EMFILE w w'')
        (fun _ w'' => TurnedAway r.fds.1 EMFILE w w'') w')
        (fun _ w' => TurnedAway r.fds.1 EMFILE w w') (withErrno EMFILE w) := by
    rintro m rfl
    simp only [wp_bind, wp_getErrno, wp_pure, Bool.false_eq_true, if_false]
    refine wp_sendReqErr_away (show 0 < EMFILE ∧ EMFILE ≤ 255 by decide) (fun b w' h => ?_)
      fun _ w' h => h
    obtain ⟨hsrv, result, tr, htr, honly⟩ := h
    refine wp_closeFds_only fun w'' tr' hsrv' htr' honly' => ?_
    refine ⟨hsrv'.trans hsrv, result, tr ++ tr', ?_, honly.append honly'⟩
    rw [htr', htr]
    simp [withErrno]
  rw [processRequest_file hreq]
  split
  · simp only [processFileOpen, hreq, addOpenFile, wp_bind]
    refine wp_addXfer_full hfull ?_
    simp only [wp_pure]
    simpa only [wp_bind] using hreport _ rfl
  · simp only [processReadSend, hreq, wp_bind]
    refine wp_addXfer_full hfull ?_
    simpa only [wp_bind] using hreport _ rfl

end Full

/-- A limit that is a power of two is respected in every state of every run. -/
theorem limit_respected {maxfiles k : Nat} {s : State} (hpow : maxfiles = 2 ^ k)
    (hrun : RunOf maxfiles s) : LimitRespected maxfiles s := by
  obtain ⟨hledger, hok⟩ := reachable_ledger hrun.reachable
  have hcap : s.world.srv.xfers.capacity = maxfiles := by
    have horder := hrun.order
    have hk : k < 32 := by
      obtain ⟨_, ⟨-, _, _, _, -, hlt, -⟩, -⟩ := hrun
      rw [hpow] at hlt
      have := (Nat.pow_lt_pow_iff_right (by decide : 1 < 2)).mp hlt
      omega
    rw [hpow, clp2Order_two_pow hk 32 0 (Nat.zero_le k) (by omega)] at horder
    rw [XferTable.capacity, ← Option.some.inj horder, hpow]
  refine ⟨?_, fun ans r rest req hphase huid hnfds hreq hlive => ?_⟩
  · rw [hledger.encard_live, ← hcap]
    exact_mod_cast hledger.size_le
  · apply turnedAway_of_full _ huid _ hreq
    · rw [hledger.encard_live, ← hcap] at hlive
      exact_mod_cast hlive
    · simp only [PhaseOk, hphase] at hok
      exact ⟨hnfds, hok.nfds_le⟩

section Runs

open Scenario

theorem start_initialWith {maxfiles pipeCapacity : Nat} {s : State} (hpos : 1 ≤ maxfiles)
    (hlt : maxfiles < 2 ^ 31) (h : start maxfiles pipeCapacity = some s) :
    InitialWith maxfiles s := by
  obtain ⟨srv, hsrv, rfl⟩ := Option.map_eq_some_iff.mp h
  exact ⟨rfl, 3, 1000, pipeCapacity, hpos, hlt, hsrv, kernel_fresh⟩

theorem exists_runOf (maxfiles pipeCapacity : Nat) (ls : List (Answers × Label))
    (P : State → Bool) (h : (1 ≤ maxfiles ∧ maxfiles < 2 ^ 31 ∧
      ((start maxfiles pipeCapacity).bind (server.run System.always ls)).any P = true)) :
    ∃ s, RunOf maxfiles s ∧ P s = true := by
  obtain ⟨hpos, hlt, hany⟩ := h
  obtain ⟨s, hs, hP⟩ := (Option.any_eq_true P _).mp hany
  obtain ⟨s₀, hs₀, hrun⟩ := Option.bind_eq_some_iff.mp hs
  exact ⟨s, ⟨s₀, start_initialWith hpos hlt hs₀, System.steps_of_run hrun⟩, hP⟩

/-- Some clients read the same file. -/
def reads (count : Nat) : List (Answers × Label) :=
  serve (answers tenBytes) ((List.range count).map fun n =>
    ⟨fileRequest .read 0 0, [n], some client⟩)

theorem limit_respected_of_reads : ∃ s, RunOf 2 s ∧ s.world.srv.xfers.size = 2 ∧
    LimitRespected 2 s := by
  obtain ⟨s, hrun, hP⟩ := exists_runOf 2 4 (reads 3) (fun s => s.world.srv.xfers.size == 2)
    (by decide +kernel)
  exact ⟨s, hrun, by simpa using hP, limit_respected (k := 1) rfl hrun⟩

/-- A server for three transfers accepts four. -/
theorem limit_exceeded : ∃ s, RunOf 3 s ∧ ¬ LimitRespected 3 s := by
  obtain ⟨s, hrun, hP⟩ := exists_runOf 3 4 (reads 4) (fun s => s.world.srv.xfers.size == 4)
    (by decide +kernel)
  refine ⟨s, hrun, fun hlimit => ?_⟩
  have hmost := hlimit.atMost
  rw [(reachable_ledger hrun.reachable).1.encard_live, beq_iff_eq.mp hP] at hmost
  exact absurd hmost (by decide)

end Runs

section Slots

variable {ans : Answers} {s : State} {req : ProtRequest} {w : World}

/-- The slot of a transaction ID is taken by the transfer, if any, whose transaction ID is
the same up to a multiple of the capacity. -/
theorem Ledger.find_eq_none_iff {srv : Server} (h : Ledger srv) (t : Nat) :
    srv.xfers.find t = none ↔ ∀ q y, srv.xferAt q = some y →
      y.txnid % srv.xfers.capacity ≠ t % srv.xfers.capacity := by
  simp only [← XferTable.indexof_eq_mod]
  constructor
  · intro hnone q y hq hidx
    have hslot := (h.slot_iff hq (srv.xfers.indexof t)).mpr hidx.symm
    rw [show srv.xfers.slot (srv.xfers.indexof t) = none from hnone] at hslot
    cases hslot
  · intro hall
    cases hfind : srv.xfers.find t with
    | none => rfl
    | some q =>
        obtain ⟨y, hq, hidx⟩ := h.of_find hfind
        exact absurd hidx (hall q y hq)

theorem Ledger.find_timer_eq_none_iff {srv : Server} (h : Ledger srv) (t : Nat) :
    srv.xferTimers.find t = none ↔ ∀ u tm, srv.timerAt u = some tm →
      tm.txnid % srv.xferTimers.capacity ≠ t % srv.xferTimers.capacity := by
  simp only [← XferTable.indexof_eq_mod]
  constructor
  · intro hnone u tm hu hidx
    have hfind := h.timers.find u tm.txnid (by simp [Server.timerKey, hu])
    rw [XferTable.find, hidx] at hfind
    rw [show srv.xferTimers.slot (srv.xferTimers.indexof t) = none from hnone] at hfind
    cases hfind
  · intro hall
    cases hfind : srv.xferTimers.find t with
    | none => rfl
    | some u =>
        obtain ⟨k, hk, hidx⟩ := h.timers.slot _ u hfind
        obtain ⟨tm, hu, rfl⟩ := Option.map_eq_some_iff.mp hk
        exact absurd hidx (hall u tm hu)

/-- What a transfer that was added tells about the tables. -/
structure Slotted (srv : Server) (p : Ptr) (srv' : Server) : Prop where
  free : srv.xfers.find srv.nextTxnid = none
  timers : srv'.xferTimers = srv.xferTimers
  txnid : ∃ x, srv'.xferAt p = some x ∧ x.txnid = srv.nextTxnid

/-- After the checks, a transfer is made when its slot is free and there is memory. -/
theorem wp_insertXfer_slots {clientPid : Nat} {statFd destFd fd : Fd} {info : FioStat}
    {nbytes : BitVec 64} :
    wp (insertXfer ans req clientPid statFd destFd fd info nbytes)
      (fun o w' => (∀ p info', o = some (p, info') → Slotted w.srv p w'.srv) ∧
        (ans.Allocates w → w.srv.xfers.find w.srv.nextTxnid = none → o.isSome))
      (fun _ _ => False) w := by
  simp only [insertXfer, xferNew, wp_bind, wp_gets]
  refine wp_malloc_cases (fun hnot => ?_) fun addr _ _ => ?_
  · simp only [wp_pure, wp_bind, wp_preserveErrno, close, wp_sys]
    exact ⟨by simp, fun halloc => absurd halloc hnot⟩
  · simp only [wp_bind, wp_gets, wp_onSrv, wp_pure]
    cases hins : XferTable.insert (fun _ => w.srv.nextTxnid) w.srv.xfers w.srv.nextPtr with
    | none =>
        simp only [Server.newXfer, Server.setXfer, hins, wp_bind, wp_preserveErrno]
        refine wp_deleteXferAndCloseFileFd (by simp; rfl) ⟨by simp, fun _ hfree => ?_⟩
        simp [XferTable.insert, hfree] at hins
    | some table =>
        simp only [Server.newXfer, Server.setXfer, hins, wp_bind, wp_onSrv, wp_pure]
        refine ⟨fun p info' heq => ?_, fun _ _ => rfl⟩
        cases heq
        obtain ⟨hfree, -⟩ := XferTable.insert_eq_some hins
        exact ⟨hfree, rfl, _, Function.update_self _ _ _, rfl⟩

/-- The file of the request can be used, the range is one of the file, and there is memory
for a transfer. -/
def Answers.Grants (ans : Answers) (req : ProtRequest) (w : World) : Prop :=
  ∃ fd info w₁ nbytes, fileOpenRead ans req.filename req.offset req.len w =
      .done (some (fd, info)) w₁ ∧
    rangeCheck info.size req.offset req.len = .ok nbytes ∧ ans.Allocates w₁

/-- When nothing but the table can stand in the way, it does when the slot is taken. -/
theorem wp_addXfer_slots (hnum : w.kern.Numbered)
    (hroom : w.srv.xfers.size ≠ w.srv.xfers.capacity) (hgrants : ans.Grants req w)
    {clientPid : Nat} {statFd destFd : Fd} :
    wp (addXfer ans req clientPid statFd destFd)
      (fun o _ => o.isSome ↔ w.srv.xfers.find w.srv.nextTxnid = none) (fun _ _ => False) w := by
  obtain ⟨fd, info, w₁, nbytes, hopen, hrange, halloc⟩ := hgrants
  have hsrv : w₁.srv = w.srv :=
    (wp_done (@wp_fileOpenRead_steps ans req w hnum) hopen).srv
  simp only [addXfer, wp_bind, wp_gets, if_neg hroom]
  refine wp_of_done hopen ?_
  simp only [hrange]
  refine wp_mono wp_insertXfer_slots (fun o w' hslots => ?_) fun _ _ hc => hc
  rw [hsrv] at hslots
  constructor
  · intro hsome
    obtain ⟨⟨p, info'⟩, rfl⟩ := Option.isSome_iff_exists.mp hsome
    exact (hslots.1 p info' rfl).free
  · exact hslots.2 halloc

/-- While there is room, a request for a file that can be used is refused only when a live
transfer has its slot. -/
theorem addXfer_isSome_iff {clientPid : Nat} {statFd destFd : Fd}
    (hr : server.Reachable System.always s) (hrun : s.phase ≠ .stopped)
    (hroom : s.world.srv.xfers.size < s.world.srv.xfers.capacity)
    (hgrants : ans.Grants req s.world) :
    (∃ p info w', addXfer ans req clientPid statFd destFd s.world = .done (some (p, info)) w') ↔
      ∀ q y, s.world.srv.xferAt q = some y → y.txnid % s.world.srv.xfers.capacity ≠
        s.world.srv.nextTxnid % s.world.srv.xfers.capacity := by
  rw [← (reachable_ledger hr).1.find_eq_none_iff]
  have hslots := @wp_addXfer_slots ans req s.world (reachable_numbered hr hrun) hroom.ne hgrants
    clientPid statFd destFd
  constructor
  · rintro ⟨p, info, w', hadd⟩
    exact (wp_done hslots hadd).mp rfl
  · intro hfree
    cases hadd : addXfer ans req clientPid statFd destFd s.world with
    | fault e w' => exact (wp_fault hslots hadd).elim
    | done o w' =>
        obtain ⟨⟨p, info⟩, rfl⟩ := Option.isSome_iff_exists.mp ((wp_done hslots hadd).mpr hfree)
        exact ⟨p, info, w', rfl⟩

/-- The timer of an open file finds room unless an older timer has its slot, and then the
transfer of that timer is gone. -/
theorem timer_slot_free_iff {clientPid : Nat} {statFd : Fd} {p t : Ptr} {info : FioStat}
    {x : ResrcXfer} (hr : server.Reachable System.always s) (hrun : s.phase ≠ .stopped)
    (hadd : addXfer ans req clientPid statFd (-1) s.world = .done (some (p, info)) w)
    (hx : w.srv.xferAt p = some x) :
    ((w.srv.xferTimers.insert (fun _ => x.txnid) t).isSome ↔
      ∀ u tm, s.world.srv.timerAt u = some tm → tm.txnid % s.world.srv.xfers.capacity ≠
        s.world.srv.nextTxnid % s.world.srv.xfers.capacity) ∧
    ∀ u tm, s.world.srv.timerAt u = some tm → tm.txnid % s.world.srv.xfers.capacity =
      s.world.srv.nextTxnid % s.world.srv.xfers.capacity →
      ∀ q y, s.world.srv.xferAt q = some y → y.txnid ≠ tm.txnid := by
  have hledger := (reachable_ledger hr).1
  obtain ⟨rfl, x', -, hpending⟩ := wp_done (@wp_addXfer_steps ans req s.world clientPid statFd
    (-1) hledger (reachable_numbered hr hrun)) hadd
  have hxx : x = x' := by
    have hnew : (s.world.srv.enroll x').xferAt s.world.srv.nextPtr = some x' :=
      Function.update_self ..
    rw [hpending.xferAt, hnew] at hx
    exact (Option.some.inj hx).symm
  subst hxx
  have hcap : s.world.srv.xferTimers.capacity = s.world.srv.xfers.capacity := by
    rw [XferTable.capacity, XferTable.capacity, reachable_order hr]
  constructor
  · rw [← hcap, ← hledger.find_timer_eq_none_iff, hpending.xferTimers, ← hpending.txnid]
    unfold XferTable.insert
    cases s.world.srv.xferTimers.find x.txnid with
    | none => simp
    | some u => simp
  · intro u tm _ hsame q y hq heq
    have hfree := hpending.free
    rw [hpending.txnid, hledger.find_eq_none_iff] at hfree
    exact hfree q y hq (heq ▸ hsame)

end Slots

section Runs

open Scenario

/-- `Answers.Grants` as a test. -/
def World.granted (ans : Answers) (req : ProtRequest) (w : World) : Bool :=
  match fileOpenRead ans req.filename req.offset req.len w with
  | .done (some (_, info)) w₁ =>
      (rangeCheck info.size req.offset req.len).toBool &&
        (ans.malloc w₁.kern.tick).any fun a => !w₁.srv.allocated a
  | _ => false

theorem World.granted_grants {ans : Answers} {req : ProtRequest} {w : World}
    (h : w.granted ans req = true) : ans.Grants req w := by
  unfold World.granted at h
  split at h
  · rename_i fd info w₁ hopen
    rw [Bool.and_eq_true, Option.any_eq_true] at h
    obtain ⟨hrange, a, ha, hunused⟩ := h
    cases hcheck : rangeCheck info.size req.offset req.len with
    | error e =>
        rw [hcheck] at hrange
        cases hrange
    | ok nbytes => exact ⟨fd, info, w₁, nbytes, hopen, hcheck, a, ha, by simpa using hunused⟩
  · cases h

/-- The whole of the file called `f` is requested. -/
def wholeFile (cmd : ProtCmdReq) : ProtRequest := ⟨cmd, 0, 0, [102], 1⟩

/-- A request for the whole file was received and finds room and a file it can use. -/
def State.mayAdd (cmd : ProtCmdReq) (s : State) : Bool :=
  (s.request.any fun r =>
      protUnmarshalRequest s.world.srv.recvbuf r.nread == some (wholeFile cmd)) &&
    decide (s.world.srv.xfers.size < s.world.srv.xfers.capacity) &&
    s.world.granted (answers tenBytes) (wholeFile cmd)

theorem State.mayAdd_running {cmd : ProtCmdReq} {s : State} (h : s.mayAdd cmd = true) :
    s.phase ≠ .stopped ∧ s.world.srv.xfers.size < s.world.srv.xfers.capacity ∧
      (answers tenBytes).Grants (wholeFile cmd) s.world := by
  simp only [State.mayAdd, Bool.and_eq_true, decide_eq_true_eq, Option.any_eq_true] at h
  obtain ⟨⟨⟨r, hr, -⟩, hroom⟩, hgranted⟩ := h
  exact ⟨State.request_running hr, hroom, World.granted_grants hgranted⟩

theorem addXfer_isSome_iff_of_read : ∃ s, server.Reachable System.always s ∧
    (answers tenBytes).Grants (wholeFile .read) s.world ∧
    ((∃ p info w', addXfer (answers tenBytes) (wholeFile .read) 100 6 6 s.world =
        .done (some (p, info)) w') ↔
      ∀ q y, s.world.srv.xferAt q = some y → y.txnid % s.world.srv.xfers.capacity ≠
        s.world.srv.nextTxnid % s.world.srv.xfers.capacity) := by
  obtain ⟨s, hr, hP⟩ := exists_reachable System.always 4 4
    (receiving ⟨fileRequest .read 0 0, [1], some client⟩) (State.mayAdd .read) (by decide +kernel)
  obtain ⟨hrun, hroom, hgrants⟩ := State.mayAdd_running hP
  exact ⟨s, hr, hgrants, addXfer_isSome_iff hr hrun hroom hgrants⟩

/-- `add_xfer` returned null. -/
def addsNothing : Outcome Fault World (Option (Ptr × FioStat)) → Bool
  | .done none _ => true
  | _ => false

/-- One of two transfers has finished, but the next one is refused: its slot is that of the
transfer that is left. -/
theorem refused_with_room : ∃ s r, server.Reachable System.always s ∧ s.request = some r ∧
    protUnmarshalRequest s.world.srv.recvbuf r.nread = some (wholeFile .read) ∧
    s.world.srv.xfers.size < s.world.srv.xfers.capacity ∧
    (answers tenBytes).Grants (wholeFile .read) s.world ∧
    ∃ w', addXfer (answers tenBytes) (wholeFile .read) r.pid r.fds.1 r.fds.1 s.world =
      .done none w' := by
  obtain ⟨s, hr, hP⟩ := exists_reachable System.always 2 100 thirdRequest
    (fun s => s.mayAdd .read && s.request.all fun r =>
      protUnmarshalRequest s.world.srv.recvbuf r.nread == some (wholeFile .read) &&
      addsNothing (addXfer (answers tenBytes) (wholeFile .read) r.pid r.fds.1 r.fds.1 s.world))
    (by decide +kernel)
  rw [Bool.and_eq_true] at hP
  obtain ⟨-, hroom, hgrants⟩ := State.mayAdd_running hP.1
  cases hrecv : s.request with
  | none => simp [State.mayAdd, hrecv] at hP
  | some r =>
      have hrefused := hP.2
      rw [hrecv, Option.all_some, Bool.and_eq_true, beq_iff_eq] at hrefused
      refine ⟨s, r, hr, hrecv, hrefused.1, hroom, hgrants, ?_⟩
      have hnone := hrefused.2
      unfold addsNothing at hnone
      split at hnone
      · exact ⟨_, ‹_›⟩
      · cases hnone

/-- A transfer has just been added for an open file; `ok` says whether its timer finds
room in the table. -/
def State.addsOpenFile (ok : Bool) (s : State) : Bool :=
  s.request.any fun r =>
    protUnmarshalRequest s.world.srv.recvbuf r.nread == some (wholeFile .fileOpen) &&
    match addXfer (answers tenBytes) (wholeFile .fileOpen) r.pid r.fds.1 (-1) s.world with
    | .done (some (p, _)) w => (w.srv.xferAt p).any fun x =>
        (w.srv.xferTimers.insert (fun _ => x.txnid) w.srv.nextPtr).isSome == ok
    | _ => false

theorem State.addsOpenFile_eq {ok : Bool} {s : State} (h : s.addsOpenFile ok = true) :
    ∃ r p info w x, s.request = some r ∧
      protUnmarshalRequest s.world.srv.recvbuf r.nread = some (wholeFile .fileOpen) ∧
      addXfer (answers tenBytes) (wholeFile .fileOpen) r.pid r.fds.1 (-1) s.world =
        .done (some (p, info)) w ∧ w.srv.xferAt p = some x ∧
      (w.srv.xferTimers.insert (fun _ => x.txnid) w.srv.nextPtr).isSome = ok := by
  obtain ⟨r, hrecv, hr⟩ := (Option.any_eq_true _ _).mp h
  rw [Bool.and_eq_true, beq_iff_eq] at hr
  obtain ⟨hreq, hadd⟩ := hr
  split at hadd
  · rename_i p info w hrun
    obtain ⟨x, hx, hins⟩ := (Option.any_eq_true _ _).mp hadd
    exact ⟨r, p, info, w, x, hrecv, hreq, hrun, hx, beq_iff_eq.mp hins⟩
  · cases hadd

theorem timer_slot_free_iff_of_fileOpen : ∃ s p info w x, server.Reachable System.always s ∧
    addXfer (answers tenBytes) (wholeFile .fileOpen) 100 6 (-1) s.world =
      .done (some (p, info)) w ∧ w.srv.xferAt p = some x ∧
    (w.srv.xferTimers.insert (fun _ => x.txnid) w.srv.nextPtr).isSome ∧
    ∀ u tm, s.world.srv.timerAt u = some tm → tm.txnid % s.world.srv.xfers.capacity ≠
      s.world.srv.nextTxnid % s.world.srv.xfers.capacity := by
  obtain ⟨s, hr, hP⟩ := exists_reachable System.always 4 4
    (receiving ⟨fileRequest .fileOpen 0 0, [1], some client⟩)
    (fun s => s.addsOpenFile true && s.request.all fun r => r.pid == 100 && r.fds.1 == 6)
    (by decide +kernel)
  rw [Bool.and_eq_true] at hP
  obtain ⟨r, p, info, w, x, hrecv, -, hadd, hx, hok⟩ := State.addsOpenFile_eq hP.1
  have hfds := hP.2
  rw [hrecv, Option.all_some, Bool.and_eq_true, beq_iff_eq, beq_iff_eq] at hfds
  rw [hfds.1, hfds.2] at hadd
  have hiff := timer_slot_free_iff (t := w.srv.nextPtr) hr (State.request_running hrecv) hadd hx
  exact ⟨s, p, info, w, x, hr, hadd, hx, hok, hiff.1.mp hok⟩

/-- A server for one transfer opens a file, which is cancelled; within the timeout of the
first, a second file is opened. -/
def openTwice : List (Answers × Label) :=
  serve (answers tenBytes) [⟨fileRequest .fileOpen 0 0, [1], some client⟩,
    ⟨txnRequest .cancel 1, [], some client⟩] ++
  receiving ⟨fileRequest .fileOpen 0 0, [2], some client⟩

/-- The timer of a file that was cancelled keeps the next file from being opened. -/
theorem timer_slot_blocked : ∃ s r p info w x, server.Reachable System.always s ∧
    s.request = some r ∧
    protUnmarshalRequest s.world.srv.recvbuf r.nread = some (wholeFile .fileOpen) ∧
    addXfer (answers tenBytes) (wholeFile .fileOpen) r.pid r.fds.1 (-1) s.world =
      .done (some (p, info)) w ∧ w.srv.xferAt p = some x ∧
    w.srv.xferTimers.insert (fun _ => x.txnid) w.srv.nextPtr = none := by
  obtain ⟨s, hr, hP⟩ := exists_reachable System.always 1 4 openTwice (State.addsOpenFile false)
    (by decide +kernel)
  obtain ⟨r, p, info, w, x, hrecv, hreq, hadd, hx, hnone⟩ := State.addsOpenFile_eq hP
  refine ⟨s, r, p, info, w, x, hr, hrecv, hreq, hadd, hx, ?_⟩
  exact Option.not_isSome_iff_eq_none.mp (by rw [hnone]; decide)

end Runs

end Sendfiled
