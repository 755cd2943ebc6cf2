/-
The transfer of file data as a sequence of actions.
-/
import Sendfiled.RequestActs
import Sendfiled.Outcomes

namespace Sendfiled

open Prog

/-- The transfers, their table and the deferred list are the same. -/
structure Server.SameXfers (s s' : Server) : Prop where
  xferAt : s'.xferAt = s.xferAt
  xfers : s'.xfers = s.xfers
  deferredXfers : s'.deferredXfers = s.deferredXfers

theorem Server.SameXfers.refl (s : Server) : s.SameXfers s := ⟨rfl, rfl, rfl⟩

theorem Server.SameXfers.trans {s s' s'' : Server} (h : s.SameXfers s')
    (h' : s'.SameXfers s'') : s.SameXfers s'' :=
  ⟨h'.xferAt.trans h.xferAt, h'.xfers.trans h.xfers,
    h'.deferredXfers.trans h.deferredXfers⟩

theorem Server.SameXfers.of_eq {s s' : Server} (h : s' = s) : s.SameXfers s' := by
  subst h
  exact Server.SameXfers.refl s'

theorem Server.Quiet.sameXfers {s s' : Server} (h : s.Quiet s') : s.SameXfers s' :=
  ⟨h.xferAt, h.xfers, h.deferredXfers⟩

theorem Server.setXfer_self {s : Server} {p : Ptr} {x : ResrcXfer}
    (hp : s.xferAt p = some x) : s.setXfer p x = s := by
  simp [Server.setXfer, ← hp]

/-- The messages that end a transfer. -/
def Terminal (s : Server) (p : Ptr) (pdu : Pdu) : Prop :=
  (∃ cmd stat, pdu = .hdr cmd stat) ∨
    (pdu = .xferStat protXferComplete ∧ s.Finished p)

theorem Terminal.maySay {s : Server} {p : Ptr} {x : ResrcXfer} {pdu : Pdu}
    (h : Terminal s p pdu) (hp : s.xferAt p = some x) : s.MaySay (some p) pdu := by
  obtain ⟨cmd, stat, rfl⟩ | ⟨rfl, y, hy, hleft⟩ := h
  · exact Or.inl ⟨x, hp⟩
  · exact Or.inl ⟨y, hy, Or.inr hleft⟩

theorem Terminal.complete {s : Server} {p : Ptr} {pdu : Pdu} (h : Terminal s p pdu)
    (hpdu : pdu.xferComplete = true) : s.Finished p := by
  obtain ⟨cmd, stat, rfl⟩ | ⟨rfl, hfin⟩ := h
  · cases hpdu
  · exact hfin

theorem Terminal.not_fileInfo {s : Server} {p : Ptr} {pdu : Pdu} (h : Terminal s p pdu)
    (size atime mtime ctime txnid : Nat) :
    pdu ≠ .fileInfo size atime mtime ctime txnid := by
  obtain ⟨cmd, stat, rfl⟩ | ⟨rfl, -⟩ := h <;> simp

/-- The actions that speak for a transfer: its messages, the failures of its writes
and its pending response. -/
def Action.speaksFor (p : Ptr) : Action → Prop
  | .say xfer _ _ => xfer = some p
  | .balk q => q = p
  | .addResp r => r.xfer = p
  | _ => False

theorem Action.concerns_of_speaksFor {p : Ptr} {a : Action} (h : a.speaksFor p) :
    a.concerns = some p := by
  cases a with
  | say => exact h
  | balk | addResp => exact congrArg some h
  | _ => cases h

/-- The transfer may be spoken for. -/
def Speaks (A : Action → Config → Prop) (p : Ptr) : Prop := ∀ a c, a.speaksFor p → A a c

variable {A : Action → Config → Prop} {c₀ : Config} {L : List Fd} {w : World}
  {ans : Answers} {p : Ptr} {x : ResrcXfer}

section Responses

variable (hA : Permissive A) (hspeak : Speaks A p) (h : Acts A c₀ ⟨L, w⟩)
  (hp : w.srv.xferAt p = some x)

include hA hspeak h hp

/-- What becomes of a message whose first write failed for the moment: `w` is the world
after that write. -/
theorem wp_holdResp {pdu : Pdu} {e : Errno} {v : View} (hpdu : Terminal w.srv p pdu)
    (he : errnoIsFatal e = false) (hopen : x.statFd ∈ w.kern.fds)
    (hlast : w.kern.trace.getLast? = some (.sent (some p) x.statFd pdu (.error e)))
    (htried : w.kern.record.getLast? =
      some (.sent (some p) x.statFd pdu (.error e), w.kern.fds.lookup x.statFd))
    (hview : w.view p = v.say [.sent (some p) x.statFd pdu (.error e)])
    {Q : Unit → World → Prop}
    (hQ : ∀ w', w.srv.SameXfers w'.srv → Notified ans p x.statFd pdu v (w'.view p) →
      Acts A c₀ ⟨L, w'⟩ → Q () w') :
    wp (do
      match ← sys (Kernel.dup ans x.statFd) with
      | none => pure ()
      | some statFd =>
          match ← newResrcResp ans p statFd pdu with
          | none =>
              close ans statFd
              halt .nullDeref
          | some r =>
              if ← syspollRegister ans statFd (.resp r) then pure ()
              else
                respFree r
                close ans statFd) Q (Faulty A c₀) w := by
  simp only [wp_bind, wp_sys]
  obtain ⟨k', heq, hdup, hk⟩ | ⟨f, k', heq, hf, hk⟩ := Kernel.dup_spec ans x.statFd w.kern
  · simp only [heq, wp_pure]
    refine hQ ⟨w.srv, k'⟩ (Server.SameXfers.refl _) ?_ (h.kernQuiet hA hk)
    have hsame : World.view p ⟨w.srv, k'⟩ = w.view p :=
      World.view_congr rfl rfl (by rw [hk.trace])
    rw [hsame, hview]
    exact .lost (Or.inr (hdup hopen))
  simp only [heq, wp_bind]
  have hdup : Acts A c₀ ⟨(w.kern.install f).1 :: L, ⟨w.srv, k'⟩⟩ :=
    Acts.kernQuiet (w := ⟨w.srv, _⟩) hA (h.snoc (hA .dup _ rfl) (.dup hp hf)) hk
  have hlookup : k'.fds.lookup (w.kern.install f).1 = some f :=
    hk.fds ▸ Kernel.install_lookup f w.kern
  have hstat : k'.fds.lookup x.statFd = some f :=
    hk.fds ▸ Kernel.install_extends f w.kern x.statFd f hf
  have htrace : k'.trace = w.kern.trace := hk.trace
  have hrecord : k'.record = w.kern.record := hk.record
  generalize (w.kern.install f).1 = fd at hdup hlookup
  simp only [newResrcResp, wp_bind]
  refine wp_malloc hA hdup fun o w₂ hs hk₂ h₂ => ?_
  cases o with
  | none =>
      simp only [wp_pure, wp_bind]
      refine wp_close hA h₂ (Or.inl List.mem_cons_self) fun w₃ _ _ h₃ => ?_
      exact h₃.faulty ⟨⟨0, fd, pdu, p⟩, hspeak _ _ rfl⟩
  | some addr =>
      simp only [wp_bind, wp_gets, wp_onSrv, wp_pure, syspollRegister, wp_sys]
      let r : ResrcResp := { addr := addr, statFd := fd, pdu := pdu, xfer := p }
      have hsame : w.srv.SameXfers w₂.srv := hs.sameXfers
      have hlookup₂ : w₂.kern.fds.lookup fd = some f := hk₂.fds ▸ hlookup
      have hstat₂ : w₂.kern.fds.lookup x.statFd = some f := hk₂.fds ▸ hstat
      have htrace₂ : w₂.kern.trace = w.kern.trace := hk₂.trace.trans htrace
      have hp₂ : w₂.srv.xferAt p = some x := hsame.xferAt ▸ hp
      -- up to here nothing but the message was logged
      have hkept : ∀ w' : World, w'.srv.xferAt = w₂.srv.xferAt → ∀ o : Option ResrcResp,
          (∀ rs, o = some rs → rs.xfer = p) →
          w'.srv.respAt = Function.update w₂.srv.respAt w₂.srv.nextPtr o →
          historyOf p w'.kern.trace = historyOf p w₂.kern.trace →
          w'.view p = { w.view p with
            resp := Function.update (w.view p).resp w₂.srv.nextPtr o } := by
        intro w' hxfers o ho hresps hhistory
        simp only [World.view, hxfers, hhistory, htrace₂, hs.xferAt, hresps, hs.respAt]
        congr 1
        funext q
        by_cases hq : q = w₂.srv.nextPtr
        · subst hq
          rw [Function.update_self, Function.update_self]
          cases o with
          | none => rfl
          | some rs => simp [Option.filter, ho rs rfl]
        · rw [Function.update_of_ne hq, Function.update_of_ne hq]
      obtain ⟨e', k₃, heq', herr, hk₃⟩ | ⟨f', k₃, heq', -, hf', hnew, hk₃⟩ :=
        Kernel.epollAdd_spec ans fd (.resp w₂.srv.nextPtr) w₂.kern
      · simp only [heq', Bool.false_eq_true, if_false, respFree, wp_bind, wp_onSrv]
        refine wp_getResp_live (r := w₂.srv.nextPtr) (show _ = some r by
          simp [Server.newResp, r]) ?_
        simp only [close, wp_bind, wp_sys, wp_pure]
        have h₃ := (h₂.snoc (hA .skipResp _ rfl) .skipResp).kernQuiet hA hk₃
        have h₄ := h₃.snoc (hA (.shut fd) _ rfl) (.shut ans (Or.inl List.mem_cons_self))
        rw [List.erase_cons_head] at h₄
        let s₃ := ((w₂.srv.newResp r).release addr).dropResp w₂.srv.nextPtr
        have hquiet : w₂.srv.skipResp.Quiet s₃ := by
          simp [Server.Quiet, s₃, Server.skipResp, Server.newResp, Server.dropResp, Server.release]
        have hdrop : w₂.srv.SameXfers s₃ := ⟨rfl, rfl, rfl⟩
        refine hQ _ (hsame.trans hdrop) ?_
          (Acts.quietly (w := ⟨_, _⟩) hA h₄ (List.Sublist.refl _) hquiet rfl)
        have hhistory : historyOf p (Kernel.close ans fd k₃).2.trace =
            historyOf p w₂.kern.trace := by
          rw [Kernel.historyOf_close, hk₃.trace]
        have hview' := hkept ⟨s₃, (Kernel.close ans fd k₃).2⟩ rfl none nofun
          (by simp [s₃, Server.newResp, Server.dropResp, Server.release]) hhistory
        rw [hview] at hview'
        refine hview' ▸ .refused he (k := w₂.kern) ?_ (hlookup₂.trans hstat₂.symm) herr
        rw [htrace₂, hlast]
      · simp only [heq', if_pos, wp_pure]
        rw [hlookup₂] at hf'
        cases hf'
        have hfin : pdu.xferComplete = true → w₂.srv.Finished p := by
          intro hc
          obtain ⟨y, hy, hleft⟩ := hpdu.complete hc
          exact ⟨y, hsame.xferAt ▸ hy, hleft⟩
        have hadd := h₂.snoc (hspeak (.addResp r) _ rfl)
          (.addResp (r := r) List.mem_cons_self hlookup₂ hnew ⟨x, hp₂, hstat₂⟩ hfin
            hpdu.not_fileInfo ⟨x, e, hp₂, by rw [hk₂.record, hrecord, htried, hf]⟩)
        simp only [r, List.erase_cons_head] at hadd
        have hnewsame : w₂.srv.SameXfers (w₂.srv.newResp r) := ⟨rfl, rfl, rfl⟩
        refine hQ _ (hsame.trans hnewsame) ?_ (Acts.kernQuiet (w := ⟨_, _⟩) hA hadd hk₃)
        have hview' := hkept ⟨w₂.srv.newResp r, k₃⟩ rfl (some r)
          (fun rs hrs => Option.some.inj hrs ▸ rfl) rfl (by rw [hk₃.trace])
        rw [hview] at hview'
        exact hview' ▸ .kept he rfl

theorem wp_sendTerminalResp {pdu : Pdu} (hpdu : Terminal w.srv p pdu)
    {Q : Unit → World → Prop}
    (hQ : ∀ w', w.srv.SameXfers w'.srv → Notified ans p x.statFd pdu (w.view p) (w'.view p) →
      Acts A c₀ ⟨L, w'⟩ → Q () w') :
    wp (sendTerminalResp ans p pdu) Q (Faulty A c₀) w := by
  simp only [sendTerminalResp, wp_bind]
  refine wp_getXfer_live hp ?_
  refine wp_sendPdu hA h (hspeak _ _ rfl) (hpdu.maySay hp) (Server.through_statFd hp)
    fun sent w₁ hwrote h₁ => ?_
  have hsrv₁ := hwrote.srv
  have hview₁ := hwrote.view
  rw [wp_ite]
  refine ⟨fun hsent => ?_, fun hsent => ?_⟩
  · subst hsent
    exact hQ w₁ (.of_eq hsrv₁) (hview₁ ▸ .sent) h₁
  have hfalse : sent = false := Bool.eq_false_iff.mpr hsent
  subst hfalse
  simp only [wp_bind, wp_getErrno]
  rw [wp_ite]
  refine ⟨fun hfatal => hQ w₁ (.of_eq hsrv₁) (hview₁ ▸ .lost (Or.inl hfatal)) h₁,
    fun hfatal => ?_⟩
  have hopen : x.statFd ∈ w₁.kern.fds := by
    by_contra hgone
    rw [hwrote.fds] at hgone
    rw [hwrote.unopened hgone] at hfatal
    exact hfatal (by decide)
  have hlast : w₁.kern.trace.getLast? =
      some (.sent (some p) x.statFd pdu (.error w₁.kern.errno)) := by
    rw [hwrote.trace]
    exact List.getLast?_concat
  have htried : w₁.kern.record.getLast? =
      some (.sent (some p) x.statFd pdu (.error w₁.kern.errno), w₁.kern.fds.lookup x.statFd) := by
    rw [hwrote.record, hwrote.fds]
    exact List.getLast?_concat
  have hwp := wp_holdResp (w := w₁) hA hspeak h₁ (hsrv₁ ▸ hp) (hsrv₁ ▸ hpdu)
    (Bool.eq_false_iff.mpr hfatal) hopen hlast htried hview₁
    fun w' hsame hnote h' => hQ w' (Server.SameXfers.trans (.of_eq hsrv₁) hsame) hnote h'
  rw [wp_bind] at hwp
  exact hwp

omit hA hspeak in
theorem wp_hasStatChannel {Q : Bool → World → Prop}
    (hshared : x.statFd = x.destFd → Q false w)
    (hchannel : x.statFd ≠ x.destFd → x.cmd = .send → Q true w) :
    wp (hasStatChannel p) Q (Faulty A c₀) w := by
  simp only [hasStatChannel, wp_bind]
  refine wp_getXfer_live hp ?_
  simp only [wp_assert, wp_pure]
  refine ⟨fun hkind => ?_, fun _ => h.faulty trivial⟩
  by_cases heq : x.statFd = x.destFd
  · simpa [heq] using hshared heq
  · simpa [heq] using hchannel heq (hkind.resolve_left heq)

theorem wp_completeXfer (hleft : x.nbytesLeft = 0) {Q : Bool → World → Prop}
    (hQ : ∀ w', w.srv.SameXfers w'.srv →
      Reported ans p x (.xferStat protXferComplete) (w.view p) (w'.view p) → Acts A c₀ ⟨L, w'⟩ →
      Q false w') :
    wp (completeXfer ans p) Q (Faulty A c₀) w := by
  simp only [completeXfer, wp_bind]
  refine wp_hasStatChannel h hp (fun hshared => ?_) fun hchannel hcmd => ?_
  · exact hQ w (Server.SameXfers.refl _) (.silent hshared) h
  · simp only [if_true, wp_bind, wp_pure]
    exact wp_sendTerminalResp hA hspeak h hp (Or.inr ⟨rfl, x, hp, hleft⟩)
      fun w' hsame hnote h' => hQ w' hsame (.notified hchannel hcmd hnote) h'

/-- A failed write either ends the transfer or takes it out of the list of
deferred transfers. -/
theorem wp_transferError {total : Nat} (htotal : total + x.nbytesLeft.toNat < 2 ^ 64)
    {Q : Bool → World → Prop}
    (hfalse : ∀ w', w.srv.SameXfers w'.srv →
      Faltered ans p x w.kern.errno total (w.view p) false (w'.view p) → Acts A c₀ ⟨L, w'⟩ →
      Q false w')
    (htrue : ∀ w', w.srv.SameXfers w'.srv →
      Faltered ans p x w.kern.errno total (w.view p) true
        ((w'.view p).set { x with defer := .none }) →
      Acts A c₀ ⟨L, w'⟩ →
      Q true { w' with srv := w'.srv.setXfer p { x with defer := .none } }) :
    wp (transferError ans p total) Q (Faulty A c₀) w := by
  have hresume : ∀ w', w.srv.SameXfers w'.srv →
      Faltered ans p x w.kern.errno total (w.view p) true
        ((w'.view p).set { x with defer := .none }) →
      Acts A c₀ ⟨L, w'⟩ → wp (do setDefer p .none; pure true) Q (Faulty A c₀) w' := by
    intro w' hsame hend h'
    simp only [wp_bind, wp_pure]
    exact wp_setDefer (hsame.xferAt ▸ hp) (htrue w' hsame hend h')
  simp only [transferError, wp_bind, wp_getErrno]
  rw [wp_ite]
  refine ⟨fun hfatal => ?_, fun hfatal => ?_⟩
  · simp only [wp_bind]
    refine wp_hasStatChannel h hp (fun hshared => ?_) fun hchannel hcmd => ?_
    · exact hfalse w (Server.SameXfers.refl _) (.broken hfatal (.silent hshared)) h
    · simp only [if_true, wp_bind, wp_pure]
      exact wp_sendTerminalResp hA hspeak h hp (Or.inl ⟨_, _, rfl⟩) fun w' hsame hnote h' =>
        hfalse w' hsame (.broken hfatal (.notified hchannel hcmd hnote)) h'
  · have hnonfatal : errnoIsFatal w.kern.errno = false := Bool.eq_false_iff.mpr hfatal
    simp only [wp_bind]
    refine wp_getXfer_live hp ?_
    rw [wp_ite]
    refine ⟨fun hleft => wp_completeXfer hA hspeak h hp hleft fun w' hsame hend h' =>
      hfalse w' hsame (.completed hleft hend) h', fun hleft => ?_⟩
    simp only [wp_bind]
    refine wp_hasStatChannel h hp (fun hshared => ?_) fun hchannel hcmd => ?_
    · exact hresume w (Server.SameXfers.refl _) (.paused hnonfatal hleft hshared) h
    simp only [if_true, wp_bind]
    have hsize : total ≠ protXferComplete := by
      have hpos : 0 < x.nbytesLeft.toNat := by
        by_contra hzero
        exact hleft (BitVec.eq_of_toNat_eq (by simp; omega))
      unfold protXferComplete
      omega
    have hsay : w.srv.MaySay (some p) (.xferStat total) := Or.inl ⟨x, hp, Or.inl hsize⟩
    refine wp_sendPdu hA h (hspeak _ _ rfl) hsay (Server.through_statFd hp)
      fun sent w₁ hwrote h₁ => ?_
    have hsame : w.srv.SameXfers w₁.srv := .of_eq hwrote.srv
    rw [wp_ite]
    refine ⟨fun hsent => hresume w₁ hsame ?_ h₁, fun hsent => ?_⟩
    · subst hsent
      rw [hwrote.view]
      exact .stalled hnonfatal hleft hchannel hsize (by simp [writeResult])
    have hunsent : sent = false := Bool.eq_false_iff.mpr hsent
    subst hunsent
    simp only [wp_bind, wp_getErrno]
    rw [wp_ite]
    refine ⟨fun hlost => hfalse w₁ hsame ?_ h₁, fun hlater => hresume w₁ hsame ?_ h₁⟩
    · rw [hwrote.view]
      exact .muted hnonfatal hleft hcmd hsize hlost
    · rw [hwrote.view]
      refine .stalled hnonfatal hleft hchannel hsize fun e' he' => ?_
      cases he'
      exact Bool.eq_false_iff.mpr hlater

end Responses

section Transfer

variable {d : Deferral} {ds : List Ptr} {xs : Ptr → Option ResrcXfer} {x₀ : ResrcXfer}
  {v₀ : View} {Q : Bool → World → Prop} (hA : Permissive A) (hspeak : Speaks A p)
  (hd : d ≠ .cancel)
  (hmove : ∀ c x, c.world.srv.xferAt p = some x → x.defer = d → A (.move p) c)
  (hready : ∀ c x, c.world.srv.xferAt p = some x → x.defer = .none → d = .none →
    A (.ready p) c)
  (hfalse : ∀ w x, w.srv.xferAt p = some x → x.defer = d → w.srv.deferredXfers = ds →
    (∀ q ≠ p, w.srv.xferAt q = xs q) → Transferred ans p x₀ v₀ false (w.view p) →
    Acts A c₀ ⟨L, w⟩ → Q false w)
  (hresume : ∀ w x, w.srv.xferAt p = some x → x.defer = d → w.srv.deferredXfers = ds →
    (∀ q ≠ p, w.srv.xferAt q = xs q) →
    Transferred ans p x₀ v₀ true ((w.view p).set { x with defer := .none }) → Acts A c₀ ⟨L, w⟩ →
    Q true { w with srv := w.srv.setXfer p { x with defer := .none } })
  (hfull : ∀ w x, w.srv.xferAt p = some x → x.defer = .ready →
    (d = .ready → w.srv.deferredXfers = ds) → (∀ q ≠ p, w.srv.xferAt q = xs q) →
    Transferred ans p x₀ v₀ true (w.view p) → Acts A c₀ ⟨L, w⟩ → Q true w)

include hA hspeak hd hmove hready hfalse hresume hfull

/-- One round of the loop moves at most what is left, so `total` and what is left
never exceed the size of the transfer; the rounds are bounded because each one
writes something. -/
theorem wp_transferLoop (fuel : Nat) {total : Nat} {tr : List Effect} (h : Acts A c₀ ⟨L, w⟩)
    (hp : w.srv.xferAt p = some x) (hdefer : x.defer = d)
    (hds : w.srv.deferredXfers = ds) (hxs : ∀ q ≠ p, w.srv.xferAt q = xs q)
    (hcmd : x.cmd = .read ∨ x.cmd = .send) (hmoves : Moves p x₀ x tr)
    (hview : w.view p = (v₀.say tr).set x) (hcount : (movedBy p tr).length = total)
    (htotal : total + x.nbytesLeft.toNat < 2 ^ 64)
    (hle : total ≤ w.srv.pipeCapacity) (hfuel : w.srv.pipeCapacity < total + fuel) :
    wp (transferLoop ans p fuel total) Q (Faulty A c₀) w := by
  induction fuel generalizing total w x tr with
  | zero => omega
  | succ fuel ih =>
      simp only [transferLoop, wp_bind]
      refine wp_getXfer_live hp ?_
      simp only [wp_gets, wp_assert]
      refine ⟨fun hsize => ?_, fun _ => h.faulty trivial⟩
      simp only [fileTransfer, wp_sys]
      generalize hn : min x.file.blksize
        (min x.nbytesLeft.toNat (w.srv.pipeCapacity - total)) = n
      obtain ⟨e, k', heq, herrno, hbalks, hk⟩ | ⟨m, k', heq, hm⟩ :=
        Kernel.moveBytes_spec ans p x.file.fd x.destFd n w.kern
      · simp only [heq]
        have hbalked := Acts.kernQuiet (w := ⟨w.srv, _⟩) hA
          (h.snoc (hspeak (.balk p) _ rfl) (.balk hp)) hk
        have hfailed : World.view p ⟨w.srv, k'⟩ =
            (v₀.say (tr ++ [.failed p x₀.destFd k'.errno])).set x := by
          rw [World.view_log rfl hk.trace, show World.view p ⟨w.srv, w.kern⟩ = _ from hview,
            hmoves.destFd, herrno]
          simp
        refine wp_transferError hA hspeak hbalked hp htotal ?_ ?_
        · intro w' hsame hend h'
          rw [hfailed, ← hcount] at hend
          exact hfalse w' x (hsame.xferAt ▸ hp) hdefer (hsame.deferredXfers ▸ hds)
            (hsame.xferAt ▸ hxs) (.faltered hmoves (herrno ▸ hbalks) hend) h'
        · intro w' hsame hend h'
          rw [hfailed, ← hcount] at hend
          exact hresume w' x (hsame.xferAt ▸ hp) hdefer (hsame.deferredXfers ▸ hds)
            (hsame.xferAt ▸ hxs) (.faltered hmoves (herrno ▸ hbalks) hend) h'
      have hleft : n ≤ x.nbytesLeft.toNat := by omega
      have hcap : total + n ≤ w.srv.pipeCapacity := by omega
      have hmoved := h.snoc (hmove _ x hp hdefer)
        (.move ans hp (hdefer ▸ hd) hcmd hleft heq)
      simp only [heq, wp_bind, wp_assert]
      refine ⟨fun hpos => ?_, fun hzero => ?_⟩
      · simp only [wp_onSrv]
        let y : ResrcXfer := { x with nbytesLeft := x.nbytesLeft - BitVec.ofNat 64 m }
        have hy : (w.srv.setXfer p y).xferAt p = some y := by simp [Server.setXfer]
        have hys : ∀ q ≠ p, (w.srv.setXfer p y).xferAt q = xs q := by
          intro q hq
          simpa [Server.setXfer, hq] using hxs q hq
        have hyleft : y.nbytesLeft.toNat + m = x.nbytesLeft.toNat := by
          have hlt := x.nbytesLeft.isLt
          simp only [y, BitVec.toNat_sub, BitVec.toNat_ofNat]
          omega
        obtain ⟨bytes, hlen, hbytes⟩ := Kernel.moveBytes_trace ans _ heq
        have hround : Moves p x₀ y (tr ++ [.moved p x₀.destFd bytes]) :=
          hmoves.snoc (by rw [hlen]; exact hyleft)
        have hyview : World.view p ⟨w.srv.setXfer p y, k'⟩ =
            (v₀.say (tr ++ [.moved p x₀.destFd bytes])).set y := by
          rw [World.view_log rfl hbytes, World.view_setXfer p y w, hview, hmoves.destFd]
          simp
        rw [wp_ite]
        refine ⟨fun hdone => ?_, fun hmore => ?_⟩
        · refine wp_completeXfer hA hspeak hmoved hy hdone fun w' hsame hend h' => ?_
          rw [show World.view p _ = _ from hyview] at hend
          exact hfalse w' y (hsame.xferAt ▸ hy) hdefer (hsame.deferredXfers ▸ hds)
            (hsame.xferAt ▸ hys) (.completed hround hdone hend) h'
        have hready' : Transferred ans p x₀ v₀ true
            ((v₀.say (tr ++ [.moved p x₀.destFd bytes])).set { y with defer := .ready }) :=
          .full hround (by simp) hmore
        rw [wp_ite]
        refine ⟨fun _ => ?_, fun hmore => ?_⟩
        · rw [wp_ite]
          refine ⟨fun hnone => ?_, fun hsome => ?_⟩
          · have hdnone : d = .none := hdefer ▸ hnone
            simp only [wp_bind, wp_pure]
            refine wp_deferReady hmoved hy (hready _ y hy hnone hdnone) hnone hcmd fun h' => ?_
            refine hfull _ { y with defer := .ready } ?_ rfl ?_ ?_ ?_ h'
            · simp [Server.ready, Server.setXfer]
            · intro hdr
              rw [hdr] at hdnone
              cases hdnone
            · intro q hq
              simpa [Server.ready, Server.setXfer, hq] using hxs q hq
            · have hview' : World.view p ⟨(w.srv.setXfer p y).ready p y, k'⟩ =
                  (World.view p ⟨w.srv.setXfer p y, k'⟩).set { y with defer := .ready } :=
                World.view_setXfer p _ ⟨w.srv.setXfer p y, k'⟩
              rw [hview', hyview]
              exact hready'
          · have hdr : x.defer = .ready := by
              cases hx : x.defer with
              | none => exact absurd hx hsome
              | ready => rfl
              | cancel => exact absurd (hdefer ▸ hx) hd
            refine hfull _ y hy hdr (fun _ => hds) hys ?_ hmoved
            have hsame : { y with defer := .ready } = y := by rw [← hdr]
            rw [hsame] at hready'
            rw [hyview]
            exact hready'
        · have hle' : total + m ≤ w.srv.pipeCapacity := by omega
          have hfuel' : w.srv.pipeCapacity < total + m + fuel := by omega
          have hcount' : (movedBy p (tr ++ [.moved p x₀.destFd bytes])).length = total + m := by
            rw [movedBy_snoc, hcount, hlen]
          exact ih hmoved hy hdefer hds hys hcmd hround hyview hcount' (by omega) hle' hfuel'
      · have hm0 : m = 0 := by omega
        subst hm0
        rw [Server.setXfer_self (by simpa using hp)] at hmoved
        exact hmoved.faulty trivial

theorem wp_transferFile (h : Acts A c₀ ⟨L, w⟩) (hp : w.srv.xferAt p = some x₀)
    (hdefer : x₀.defer = d) (hds : w.srv.deferredXfers = ds)
    (hxs : w.srv.xferAt = xs) (hview : w.view p = v₀) :
    wp (transferFile ans p) Q (Faulty A c₀) w := by
  have hothers : ∀ q ≠ p, w.srv.xferAt q = xs q := fun q _ => congrFun hxs q
  simp only [transferFile, wp_bind]
  refine wp_getXfer_live hp ?_
  have hloop : x₀.cmd = .read ∨ x₀.cmd = .send →
      wp (transferLoop ans p (w.srv.pipeCapacity + 1) 0) Q (Faulty A c₀) w := by
    intro hcmd
    have hlt := x₀.nbytesLeft.isLt
    have hstart : w.view p = (v₀.say []).set x₀ := by
      rw [View.say_nil, ← hview, World.view_set_self hp]
    exact wp_transferLoop hA hspeak hd hmove hready hfalse hresume hfull _ h hp hdefer hds hothers
      hcmd (Moves.refl p x₀) hstart rfl (by omega) (by omega) (by omega)
  have hother : x₀.cmd ≠ .read ∧ x₀.cmd ≠ .send → Q false w := fun hne =>
    hfalse w x₀ hp hdefer hds hothers (hview ▸ .idle hne) h
  cases hcmd : x₀.cmd with
  | read => exact hloop (Or.inl hcmd)
  | send => exact hloop (Or.inr hcmd)
  | fileOpen => exact hother (by simp [hcmd])
  | sendOpen => exact hother (by simp [hcmd])
  | cancel => exact hother (by simp [hcmd])

end Transfer

end Sendfiled
