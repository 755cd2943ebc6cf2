/-
What a client reads from the status channel of its transfer: the file's information,
progress messages, and at most one message that ends the conversation.
-/
import Sendfiled.Life
import Sendfiled.Cancellation

namespace Sendfiled

open Prog Transition

/-- The messages that were written on behalf of a transfer. -/
def delivered (p : Ptr) (trace : List Effect) : List Pdu :=
  trace.filterMap fun
    | .sent (some q) _ pdu (.ok _) => if q = p then some pdu else none
    | _ => none

@[simp] theorem delivered_append (p : Ptr) (tr tr' : List Effect) :
    delivered p (tr ++ tr') = delivered p tr ++ delivered p tr' :=
  List.filterMap_append

/-- A call on behalf of a transfer that ends nothing: data, a failure to write data, or a
progress message. -/
def Effect.ongoing : Effect → Prop
  | .sent _ _ pdu _ => ∃ size, pdu = .xferStat size ∧ size ≠ protXferComplete
  | .moved .. | .failed .. | .closed .. => True

/-- An attempt to write a terminal message. -/
def Effect.Farewell (p : Ptr) (e : Effect) : Prop :=
  ∃ fd pdu result, e = .sent (some p) fd pdu result ∧ pdu.terminal = true

/-- The conversation is under way: it began with `info`, and nothing has ended it. -/
structure Going (info : Effect) (v : View) : Prop where
  history : ∃ rest, v.history = info :: rest ∧ ∀ e ∈ rest, e.ongoing
  resp : ∀ r, v.resp r = none

/-- Where the conversation on a status channel stands.  Once it is over, the transfer is
gone or marked CANCEL, and then its transaction ID is in `U`: no timer can take the
transfer for its own. -/
inductive Conversation (info : Effect) (p : Ptr) (U : Nat → Prop) (v : View) : Prop
  | going (h : Going info v)
  | pending {rest tail : List Effect} {r : Ptr} {resp : ResrcResp}
      (hhistory : v.history = info :: (rest ++ tail)) (hrest : ∀ e ∈ rest, e.ongoing)
      (htail : ∀ e ∈ tail, e.Farewell p) (hnone : delivered p tail = [])
      (hpdu : resp.pdu.terminal = true) (hgone : v.xfer = none)
      (hresp : v.resp = Function.update (fun _ => none) r (some resp))
  | finished {rest tail : List Effect} (hhistory : v.history = info :: (rest ++ tail))
      (hrest : ∀ e ∈ rest, e.ongoing) (htail : ∀ e ∈ tail, e.Farewell p)
      (hone : (delivered p tail).length ≤ 1)
      (hlive : ∀ x, v.xfer = some x → x.defer = .cancel ∧ U x.txnid)
      (hresp : ∀ r, v.resp r = none)

section Deeds

variable {ans : Answers} {info : Effect} {p : Ptr} {U : Nat → Prop} {v v' : View}
  {x y : ResrcXfer} {fd : Fd} {pdu : Pdu} {e : Errno} {b : Bool} {tr : List Effect}

theorem Moves.ongoing (h : Moves p x y tr) : ∀ e ∈ tr, e.ongoing := by
  intro e he
  obtain ⟨bytes, rfl⟩ := h.entries e he
  trivial

namespace Going

theorem say (h : Going info v) (htr : ∀ e ∈ tr, e.ongoing) : Going info (v.say tr) := by
  obtain ⟨rest, hhistory, hrest⟩ := h.history
  refine ⟨⟨rest ++ tr, by simp [View.say, hhistory], fun e he => ?_⟩, h.resp⟩
  rcases List.mem_append.mp he with he | he
  · exact hrest e he
  · exact htr e he

theorem set (h : Going info v) (x : ResrcXfer) : Going info (v.set x) := ⟨h.history, h.resp⟩

theorem gone (h : Going info v) : Going info v.gone := ⟨h.history, h.resp⟩

/-- A terminal message ends the conversation, whether or not it can be written. -/
theorem farewell (h : Going info v) (hpdu : pdu.terminal = true) (result : Except Errno Nat)
    {o : Option ResrcXfer} {f : Ptr → Option ResrcResp} (ho : ∀ x, o = some x →
      x.defer = .cancel ∧ U x.txnid) (hf : ∀ r, f r = none) :
    Conversation info p U
      { xfer := o, resp := f, history := v.history ++ [.sent (some p) fd pdu result] } := by
  obtain ⟨rest, hhistory, hrest⟩ := h.history
  have hall : v.history ++ [.sent (some p) fd pdu result] =
      info :: (rest ++ [.sent (some p) fd pdu result]) := by
    simp [hhistory]
  refine .finished hall hrest (fun e he => ?_) ?_ ho hf
  · rw [List.mem_singleton.mp he]
    exact ⟨fd, pdu, result, rfl, hpdu⟩
  · cases result <;> simp [delivered]

/-- The message is delivered, lost or held back; the transfer goes away. -/
theorem notified (h : Going info v) (hpdu : pdu.terminal = true)
    (hnote : Notified ans p fd pdu v v') : Conversation info p U v'.gone := by
  cases hnote with
  | sent | lost => exact h.farewell hpdu _ nofun h.resp
  | @refused e e' r k fd' =>
      refine h.farewell hpdu _ nofun fun q => ?_
      change Function.update v.resp r none q = none
      by_cases hq : q = r
      · rw [hq, Function.update_self]
      · rw [Function.update_of_ne hq, h.resp]
  | @kept e r resp he heq =>
      obtain ⟨rest, hhistory, hrest⟩ := h.history
      have hfun : v.resp = fun _ => none := funext h.resp
      have hall : v.history ++ [.sent (some p) fd pdu (.error e)] =
          info :: (rest ++ [.sent (some p) fd pdu (.error e)]) := by
        simp [hhistory]
      have hresp : Function.update v.resp r (some resp) =
          Function.update (fun _ => none) r (some resp) := by
        rw [hfun]
      refine .pending hall hrest (fun e he => ?_) (by simp [delivered]) (heq ▸ hpdu) rfl hresp
      rw [List.mem_singleton.mp he]
      exact ⟨fd, pdu, _, rfl, hpdu⟩

theorem reported (h : Going info v) (hpdu : pdu.terminal = true)
    (hreport : Reported ans p x pdu v v') : Conversation info p U v'.gone := by
  cases hreport with
  | silent => exact .going h.gone
  | notified _ _ hnote => exact h.notified hpdu hnote

/-- As long as `transfer_file` asks for more, the conversation goes on. -/
theorem faltered {total : Nat} (h : Going info v)
    (hfaltered : Faltered ans p x e total v true v') :
    Going info v' := by
  cases hfaltered with
  | paused => exact h.set _
  | stalled _ _ _ hsize =>
      refine (h.say fun e he => ?_).set _
      rw [List.mem_singleton.mp he]
      exact ⟨total, rfl, hsize⟩

theorem transferred (h : Going info v) (htransferred : Transferred ans p x v true v') :
    Going info v' := by
  cases htransferred with
  | full hmoves => exact (h.say hmoves.ongoing).set _
  | @faltered y tr e _ _ hmoves _ hend =>
      have htr : ∀ e' ∈ tr ++ [.failed p x.destFd e], e'.ongoing := by
        intro e' he'
        rcases List.mem_append.mp he' with he' | he'
        · exact hmoves.ongoing e' he'
        · rw [List.mem_singleton.mp he']
          trivial
      exact ((h.say htr).set y).faltered hend

theorem failed {total : Nat} (h : Going info v)
    (hfaltered : Faltered ans p x e total v false v') :
    Conversation info p U v'.gone := by
  cases hfaltered with
  | muted _ _ _ hsize =>
      refine .going (h.say fun e he => ?_).gone
      rw [List.mem_singleton.mp he]
      exact ⟨total, rfl, hsize⟩
  | completed _ hreport => exact h.reported (by simp [Pdu.terminal]) hreport
  | broken _ hreport => exact h.reported rfl hreport

/-- A transfer that `transfer_file` ends has said its last word. -/
theorem ended (h : Going info v) (htransferred : Transferred ans p x v false v') :
    Conversation info p U v'.gone := by
  cases htransferred with
  | completed hmoves _ hreport =>
      exact ((h.say hmoves.ongoing).set _).reported (by simp [Pdu.terminal]) hreport
  | @faltered y tr e _ _ hmoves _ hend =>
      have htr : ∀ e' ∈ tr ++ [.failed p x.destFd e], e'.ongoing := by
        intro e' he'
        rcases List.mem_append.mp he' with he' | he'
        · exact hmoves.ongoing e' he'
        · rw [List.mem_singleton.mp he']
          trivial
      exact ((h.say htr).set y).failed hend
  | idle => exact .going h.gone

end Going

namespace Conversation

/-- Nothing is done to a transfer whose conversation is over but what takes it away. -/
theorem deed (h : Conversation info p U v) (hdeed : Deed ans p v v') :
    Conversation info p U v' := by
  cases h with
  | going h =>
      cases hdeed with
      | served _ _ htransferred => exact .going (h.transferred htransferred)
      | ended _ _ htransferred => exact h.ended htransferred
      | errored | shut | buried => exact .going h.gone
      | cancelled => exact .going (h.set _)
      | assigned => exact .going (h.set _)
      | rejected => exact h.farewell rfl _ nofun h.resp
      | dropped hr | settled hr | retried hr =>
          rw [h.resp] at hr
          cases hr
  | @pending rest tail r resp hhistory hrest htail hnone hpdu hgone hresp =>
      have hnot : ∀ {x}, v.xfer ≠ some x := by
        intro x hx
        rw [hgone] at hx
        cases hx
      have hsingle : ∀ {q rs}, v.resp q = some rs → q = r ∧ rs = resp := by
        intro q rs hq
        rw [hresp] at hq
        by_cases hqr : q = r
        · subst hqr
          rw [Function.update_self] at hq
          exact ⟨rfl, (Option.some.inj hq).symm⟩
        · rw [Function.update_of_ne hqr] at hq
          cases hq
      have hempty : ∀ q, Function.update v.resp r none q = none := by
        intro q
        rw [hresp]
        by_cases hqr : q = r
        · rw [hqr, Function.update_self]
        · rw [Function.update_of_ne hqr, Function.update_of_ne hqr]
      have hmore : ∀ result, ∀ e ∈ tail ++ [.sent (some p) resp.statFd resp.pdu result],
          e.Farewell p := by
        intro result e he
        rcases List.mem_append.mp he with he | he
        · exact htail e he
        · rw [List.mem_singleton.mp he]
          exact ⟨_, _, _, rfl, hpdu⟩
      cases hdeed with
      | served hx | ended hx | errored hx | shut hx | buried hx | cancelled hx | assigned hx
      | rejected hx => exact absurd hx hnot
      | dropped hr =>
          obtain ⟨rfl, rfl⟩ := hsingle hr
          refine .finished hhistory hrest htail (by simp [hnone]) (fun x hx => absurd hx hnot)
            hempty
      | @settled q rs result hr =>
          obtain ⟨rfl, rfl⟩ := hsingle hr
          have hall : v.history ++ [.sent (some p) rs.statFd rs.pdu result] =
              info :: (rest ++ (tail ++ [.sent (some p) rs.statFd rs.pdu result])) := by
            simp [hhistory]
          refine .finished hall hrest (hmore result) ?_ (fun x hx => absurd hx hnot) hempty
          rw [delivered_append, hnone]
          cases result <;> simp [delivered]
      | @retried q rs e hr =>
          obtain ⟨rfl, rfl⟩ := hsingle hr
          have hall : v.history ++ [.sent (some p) rs.statFd rs.pdu (.error e)] =
              info :: (rest ++ (tail ++ [.sent (some p) rs.statFd rs.pdu (.error e)])) := by
            simp [hhistory]
          refine .pending hall hrest (hmore _) ?_ hpdu hgone hresp
          rw [delivered_append, hnone]
          rfl
  | @finished rest tail hhistory hrest htail hone hlive hresp =>
      cases hdeed with
      | served hx hdefer | ended hx hdefer | errored hx hdefer | assigned hx hdefer
      | rejected hx hdefer => exact absurd (hlive _ hx).1 hdefer
      | shut | buried => exact .finished hhistory hrest htail hone nofun hresp
      | cancelled hx =>
          refine .finished hhistory hrest htail hone (fun y hy => ?_) hresp
          cases hy
          exact ⟨rfl, (hlive _ hx).2⟩
      | dropped hr | settled hr | retried hr =>
          rw [hresp] at hr
          cases hr

theorem deeds (h : Conversation info p U v) (hdeeds : Deeds ans p v v') :
    Conversation info p U v' := by
  induction hdeeds with
  | refl => exact h
  | tail _ hdeed ih => exact ih.deed hdeed

end Conversation

/-- The bytes of a transfer of `size` bytes are counted: what is left and what was written
make up the whole, and completion is told or held ready only when all of it was written. -/
structure Counted (size : Nat) (p : Ptr) (v : View) : Prop where
  left : ∀ x, v.xfer = some x → x.nbytesLeft.toNat + (movedBy p v.history).length = size
  told : ∀ fd pdu result, Effect.sent (some p) fd pdu result ∈ v.history →
    pdu.xferComplete = true → (movedBy p v.history).length = size
  held : ∀ r resp, v.resp r = some resp → resp.pdu.xferComplete = true →
    (movedBy p v.history).length = size

namespace Counted

variable {size : Nat}

/-- Calls that move no data. -/
theorem log (h : Counted size p v) (hmoved : movedBy p tr = [])
    (htr : ∀ fd pdu result, Effect.sent (some p) fd pdu result ∈ tr → pdu.xferComplete = true →
      (movedBy p v.history).length = size) : Counted size p (v.say tr) := by
  have hsame : movedBy p (v.say tr).history = movedBy p v.history := by
    simp [View.say, hmoved]
  refine ⟨fun x hx => ?_, fun fd pdu result hmem hpdu => ?_, fun r resp hr hpdu => ?_⟩
  · rw [hsame]
    exact h.left x hx
  · rw [hsame]
    rcases List.mem_append.mp hmem with hold | hnew
    · exact h.told fd pdu result hold hpdu
    · exact htr fd pdu result hnew hpdu
  · rw [hsame]
    exact h.held r resp hr hpdu

theorem speak (h : Counted size p v) {result : Except Errno Nat}
    (hpdu : pdu.xferComplete = true → (movedBy p v.history).length = size) :
    Counted size p (v.say [.sent (some p) fd pdu result]) := by
  apply h.log rfl
  intro fd' pdu' result' hmem
  cases List.mem_singleton.mp hmem
  exact hpdu

theorem set (h : Counted size p v) (hx : v.xfer = some x) (hleft : y.nbytesLeft = x.nbytesLeft) :
    Counted size p (v.set y) := by
  refine ⟨fun z hz => ?_, h.told, h.held⟩
  cases hz
  rw [hleft]
  exact h.left x hx

theorem gone (h : Counted size p v) : Counted size p v.gone := ⟨nofun, h.told, h.held⟩

theorem dropResp (h : Counted size p v) (r : Ptr) :
    Counted size p { v with resp := Function.update v.resp r none } := by
  refine ⟨h.left, h.told, fun q resp hq hpdu => ?_⟩
  by_cases hqr : q = r
  · subst hqr
    simp at hq
  · exact h.held q resp (by simpa [hqr] using hq) hpdu

/-- Data is moved as long as some is left. -/
theorem moves (h : Counted size p v) (hx : v.xfer = some x) (hmoves : Moves p x y tr) :
    Counted size p ((v.say tr).set y) := by
  have hcount := hmoves.count
  have hleft := h.left x hx
  have hlength : (movedBy p (v.history ++ tr)).length =
      (movedBy p v.history).length + (movedBy p tr).length := by
    rw [movedBy_append, List.length_append]
  refine ⟨fun z hz => ?_, fun fd pdu result hmem hpdu => ?_, fun r resp hr hpdu => ?_⟩
  · cases hz
    change _ + (movedBy p (v.history ++ tr)).length = size
    omega
  · change (movedBy p (v.history ++ tr)).length = size
    rcases List.mem_append.mp hmem with hold | hnew
    · have hfull := h.told fd pdu result hold hpdu
      omega
    · obtain ⟨bytes, hbytes⟩ := hmoves.entries _ hnew
      cases hbytes
  · have hfull := h.held r resp hr hpdu
    change (movedBy p (v.history ++ tr)).length = size
    omega

theorem full (h : Counted size p v) (hx : v.xfer = some x) (hleft : x.nbytesLeft = 0) :
    (movedBy p v.history).length = size := by
  have hcount := h.left x hx
  rw [hleft] at hcount
  simpa using hcount

theorem notified (h : Counted size p v)
    (hpdu : pdu.xferComplete = true → (movedBy p v.history).length = size)
    (hnote : Notified ans p fd pdu v v') : Counted size p v' := by
  cases hnote with
  | sent | lost => exact h.speak hpdu
  | @refused e e' r => exact (h.speak hpdu).dropResp r
  | @kept e r resp he heq =>
      have hsaid : Counted size p (v.say [.sent (some p) fd pdu (.error e)]) := h.speak hpdu
      refine ⟨hsaid.left, hsaid.told, fun q rs hq hcomplete => ?_⟩
      by_cases hqr : q = r
      · subst hqr
        simp only [Function.update_self, Option.some.injEq] at hq
        subst hq
        have hfull := hpdu (heq ▸ hcomplete)
        simpa [View.say, movedBy, Effect.bytesFor] using hfull
      · exact hsaid.held q rs (by simpa [View.say, hqr] using hq) hcomplete

theorem reported (h : Counted size p v)
    (hpdu : pdu.xferComplete = true → (movedBy p v.history).length = size)
    (hreport : Reported ans p x pdu v v') : Counted size p v' := by
  cases hreport with
  | silent => exact h
  | notified _ _ hnote => exact h.notified hpdu hnote

theorem faltered {total : Nat} (h : Counted size p v) (hx : v.xfer = some x)
    (hfaltered : Faltered ans p x e total v b v') : Counted size p v' := by
  cases hfaltered with
  | paused => exact h.set hx rfl
  | stalled _ _ _ hsize =>
      exact Counted.set (h.speak fun hc => absurd (beq_iff_eq.mp hc) hsize) hx rfl
  | muted _ _ _ hsize => exact h.speak fun hc => absurd (beq_iff_eq.mp hc) hsize
  | completed hleft hreport => exact h.reported (fun _ => h.full hx hleft) hreport
  | broken _ hreport => exact h.reported (fun hc => by cases hc) hreport

theorem transferred (h : Counted size p v) (hx : v.xfer = some x)
    (htransferred : Transferred ans p x v b v') : Counted size p v' := by
  cases htransferred with
  | full hmoves =>
      exact Counted.set (v := (v.say _).set _) (h.moves hx hmoves) rfl rfl
  | completed hmoves hleft hreport =>
      have hmoved := h.moves hx hmoves
      exact hmoved.reported (fun _ => hmoved.full rfl hleft) hreport
  | @faltered y tr e _ _ hmoves _ hend =>
      have hmoved := h.moves hx hmoves
      have hfailed : Counted size p ((v.say (tr ++ [.failed p x.destFd e])).set y) := by
        have hquiet : movedBy p [.failed p x.destFd e] = [] := rfl
        have hlog := hmoved.log hquiet (by simp)
        rwa [← View.set_say, View.say_say] at hlog
      exact hfailed.faltered rfl hend
  | idle => exact h

theorem deed (h : Counted size p v) (hdeed : Deed ans p v v') : Counted size p v' := by
  cases hdeed with
  | served hx _ htransferred => exact h.transferred hx htransferred
  | ended hx _ htransferred => exact (h.transferred hx htransferred).gone
  | errored | shut | buried => exact h.gone
  | cancelled hx => exact h.set hx rfl
  | assigned hx => exact h.set hx rfl
  | rejected => exact (h.speak fun hc => by cases hc).gone
  | @dropped r => exact h.dropResp r
  | @settled r resp result hr => exact (h.speak (h.held r resp hr)).dropResp r
  | @retried r resp e hr => exact h.speak (h.held r resp hr)

theorem deeds (h : Counted size p v) (hdeeds : Deeds ans p v v') : Counted size p v' := by
  induction hdeeds with
  | refl => exact h
  | tail _ hdeed ih => exact ih.deed hdeed

end Counted

end Deeds

section Runs

variable {ans : Answers} {l : Label} {s s' : State} {info : Effect} {p : Ptr} {x y : ResrcXfer}
  {size : Nat} {v : View}

/-- The tables of transfers and timers have the same size. -/
theorem reachable_order (hr : server.Reachable System.always s) :
    s.world.srv.xferTimers.order = s.world.srv.xfers.order := by
  have hkept := Preserved.always
    (I := fun c => c.world.srv.xferTimers.order = c.world.srv.xfers.order)
    (fun a c c' _ hperf hI => by rw [hperf.xferTimers_order, hperf.xfers_order, hI])
    (fun w w' _ hcleared hI => by
      change w'.srv.xferTimers.order = w'.srv.xfers.order
      rw [hcleared.xferTimers, hcleared.xfers]
      exact hI)
  refine (hkept.reachable (fun s hinit => ?_) hr).inv
  obtain ⟨-, reqfd, maxfds, uid, cap, -, -, hnew, -⟩ := hinit
  unfold srvNew at hnew
  change s.world.srv.xferTimers.order = s.world.srv.xfers.order
  split at hnew
  · rename_i xfers timers hxfers htimers
    rw [hxfers] at htimers
    cases htimers
    rw [← Option.some.inj hnew]
  · cases hnew

/-- A timer that would be in the slot of a transfer marked CANCEL is not added. -/
theorem Performs.unwatched {a : Action} {c c' : Config} (h : Performs a c c')
    (hc : Ledger c.world.srv)
    (horder : c.world.srv.xferTimers.order = c.world.srv.xfers.order)
    (hx : c.world.srv.xferAt p = some x) (hcancel : x.defer = .cancel)
    (hun : c.world.srv.xferTimers.find x.txnid = none) :
    c'.world.srv.xferTimers.find x.txnid = none := by
  have herase : ∀ n, (c.world.srv.xferTimers.erase n).find x.txnid = none := by
    intro n
    rw [XferTable.erase_find]
    split
    · rfl
    · exact hun
  cases h with
  | quiet _ hs _ => rwa [hs.xferTimers]
  | @addTimer L s k t hident hfree hxfer =>
      obtain ⟨q, z, hz, hdefer, htxnid, -⟩ := hxfer
      change (XferTable.put _ _ _ _).find x.txnid = none
      rw [XferTable.put_find, if_neg]
      · exact hun
      · intro hidx
        rw [htxnid, XferTable.indexof_congr horder, XferTable.indexof_congr horder] at hidx
        have hpq := (hc.slot_iff hz _).mpr hidx
        have hqp : q = p := Option.some.inj (hpq.symm.trans (hc.find hx))
        subst hqp
        rw [show s.xferAt q = some x from hx] at hz
        cases hz
        rw [hcancel] at hdefer
        cases hdefer
  | expire | botch => exact herase _
  | say | openFile | seek | openTimer | arrive | dup | shut | reshut | register | forget | enroll
  | skip | retire | discard | bury | cancel | ready | release | assign | move | balk | skipTimer
  | arm | addResp | skipResp | dropResp => exact hun

/-- No timer comes to watch a transfer that is marked CANCEL. -/
theorem next_unwatched (hr : server.Reachable System.always s)
    (hn : next (ans, l) s = some (.ok s')) (hx : s.world.srv.xferAt p = some x)
    (hcancel : x.defer = .cancel) (hun : s.world.srv.xferTimers.find x.txnid = none)
    (hy : s'.world.srv.xferAt p = some y) : s'.world.srv.xferTimers.find x.txnid = none := by
  obtain ⟨hc, hok⟩ := reachable_ledger hr
  have hkeep : ∀ c, Acts anything s.config c → ∀ z, c.world.srv.xferAt p = some z →
      c.world.srv.xferTimers.find x.txnid = none := by
    intro c hacts z hz
    have hJ := hacts.keeps (I := fun c => Ledger c.world.srv ∧
      c.world.srv.xferTimers.order = c.world.srv.xfers.order ∧ p < c.world.srv.nextPtr ∧
      ∀ z, c.world.srv.xferAt p = some z → z = x ∧ c.world.srv.xferTimers.find x.txnid = none)
      ?_ ⟨hc, reachable_order hr, hc.xfer_lt p x hx, fun z hz => ?_⟩
    · exact (hJ.2.2.2 z hz).2
    · rintro a c₁ c₂ - hperf ⟨hc₁, horder, hlt, hlive⟩
      refine ⟨hc₁.performs hperf, by rw [hperf.xferTimers_order, hperf.xfers_order, horder],
        Nat.lt_of_lt_of_le hlt hperf.nextPtr_le, fun z hz => ?_⟩
      by_cases hsub : a.subject = some p
      · obtain ⟨z', hz'⟩ := hperf.needs_subject hsub
        obtain ⟨rfl, hfree⟩ := hlive z' hz'
        rcases hperf.of_cancelled hsub hz' hcancel with ⟨-, hsame⟩ | hdel
        · rw [hsame] at hz
          exact ⟨(Option.some.inj hz).symm, hperf.unwatched hc₁ horder hz' hcancel hfree⟩
        · rw [(hperf.buries hdel hz').1] at hz
          cases hz
      · rw [hperf.frame hlt hsub] at hz
        obtain ⟨rfl, hfree⟩ := hlive z hz
        exact ⟨rfl, hperf.unwatched hc₁ horder hz hcancel hfree⟩
    · rw [show s.config.world.srv.xferAt p = some x from hx] at hz
      exact ⟨(Option.some.inj hz).symm, hun⟩
  have hends := next_ends (A := anything) (fun _ _ _ => trivial) hok hc.nodup hn
  generalize hr' : Except.ok s' = res at hends
  cases hends with
  | fault => cases hr'
  | next _ hacts =>
      cases hr'
      exact hkeep _ hacts y hy
  | shut hacts =>
      obtain ⟨w', hw', hcleared⟩ := shutdown_cleared ans (hacts.ledger hc)
      rw [hw'] at hr'
      cases hr'
      rw [hcleared.xferAt] at hy
      cases hy

theorem Conversation.weaken {U U' : Nat → Prop} (h : Conversation info p U v)
    (hU : ∀ x, v.xfer = some x → x.defer = .cancel → U x.txnid → U' x.txnid) :
    Conversation info p U' v := by
  cases h with
  | going h => exact .going h
  | pending hhistory hrest htail hnone hpdu hgone hresp =>
      exact .pending hhistory hrest htail hnone hpdu hgone hresp
  | finished hhistory hrest htail hone hlive hresp =>
      refine .finished hhistory hrest htail hone (fun x hx => ?_) hresp
      exact ⟨(hlive x hx).1, hU x hx (hlive x hx).1 (hlive x hx).2⟩

/-- What is known of a transfer of `size` bytes and its status channel. -/
structure Chat (info : Effect) (p : Ptr) (size : Nat) (w : World) : Prop where
  known : p < w.srv.nextPtr
  conversation : Conversation info p (fun txnid => w.srv.xferTimers.find txnid = none) (w.view p)
  counted : Counted size p (w.view p)

/-- The timer that takes a transfer for its own is in the slot of the transfer. -/
theorem Ledger.timer_slot {srv : Server} {tm : ResrcTimer} (hc : Ledger srv)
    (horder : srv.xferTimers.order = srv.xfers.order) (hx : srv.xferAt p = some x)
    (hfind : srv.xfers.find tm.txnid = some p) :
    srv.xferTimers.indexof x.txnid = srv.xferTimers.indexof tm.txnid := by
  have hslot := (hc.slot_iff hx _).mp hfind
  rw [XferTable.indexof_congr horder, XferTable.indexof_congr horder]
  exact hslot.symm

/-- An expiry ends a conversation that is under way; it comes in no other state. -/
theorem Conversation.expired {w w' : World}
    (h : Conversation info p (fun txnid => w.srv.xferTimers.find txnid = none) (w.view p))
    (hc : Ledger w.srv) (horder : w.srv.xferTimers.order = w.srv.xfers.order)
    (hexpired : Expired p w w') :
    Conversation info p (fun txnid => w'.srv.xferTimers.find txnid = none) (w'.view p) := by
  obtain ⟨hx, ht, hfind, -, hview, htimers⟩ := hexpired
  rename_i x t tm result
  have hslot := hc.timer_slot horder hx hfind
  cases h with
  | going h =>
      rw [hview]
      apply h.farewell rfl result
      · intro y hy
        cases hy
        refine ⟨rfl, ?_⟩
        rw [htimers, XferTable.erase_find, if_pos hslot]
      · exact h.resp
  | pending _ _ _ _ _ hgone => exact absurd (hx.symm.trans hgone) (by simp)
  | finished _ _ _ _ hlive =>
      have hkey : w.srv.timerKey t = some tm.txnid := by simp [Server.timerKey, ht]
      have hsome : w.srv.xferTimers.find x.txnid = some t := by
        rw [XferTable.find, hslot]
        exact hc.timers.find t tm.txnid hkey
      have hnone := (hlive x hx).2
      rw [hsome] at hnone
      cases hnone

theorem Counted.expired {w w' : World} (h : Counted size p (w.view p))
    (hexpired : Expired p w w') : Counted size p (w'.view p) := by
  obtain ⟨hx, -, -, -, hview, -⟩ := hexpired
  rw [hview]
  exact (h.speak fun hcomplete => by cases hcomplete).set hx rfl

/-- The deeds of a step, together with what it does to the timers. -/
theorem Conversation.next (h : Conversation info p
      (fun txnid => s.world.srv.xferTimers.find txnid = none) (s.world.view p))
    (hr : server.Reachable System.always s) (hn : next (ans, l) s = some (.ok s'))
    (hdeeds : Deeds ans p (s.world.view p) (s'.world.view p)) :
    Conversation info p (fun txnid => s'.world.srv.xferTimers.find txnid = none)
      (s'.world.view p) := by
  cases h with
  | going h =>
      have hend := (Conversation.going (p := p) (U := fun _ => False) h).deeds hdeeds
      exact hend.weaken fun _ _ _ hU => hU.elim
  | pending hhistory hrest htail hnone hpdu hgone hresp =>
      have hend := (Conversation.pending (U := fun _ => False) hhistory hrest htail hnone hpdu
        hgone hresp).deeds hdeeds
      exact hend.weaken fun _ _ _ hU => hU.elim
  | finished hhistory hrest htail hone hlive hresp =>
      have hend := (Conversation.finished (U := fun txnid => ∃ x, (s.world.view p).xfer = some x ∧
        x.defer = .cancel ∧ x.txnid = txnid ∧ s.world.srv.xferTimers.find txnid = none)
        hhistory hrest htail hone (fun x hx =>
          ⟨(hlive x hx).1, x, hx, (hlive x hx).1, rfl, (hlive x hx).2⟩) hresp).deeds hdeeds
      apply hend.weaken
      rintro y hy - ⟨x, hx, hcancel, htxnid, hun⟩
      rw [← htxnid] at hun ⊢
      exact next_unwatched hr hn hx hcancel hun hy

theorem Chat.next (h : Chat info p size s.world) (hr : server.Reachable System.always s)
    (hn : next (ans, l) s = some (.ok s')) : Chat info p size s'.world := by
  obtain ⟨hc, hok⟩ := reachable_ledger hr
  have hknown : p < s'.world.srv.nextPtr :=
    Nat.lt_of_lt_of_le h.known (next_nextPtr_le hc hok hn)
  rcases next_deeds hc (Minted.reachable hr) hok hn h.known with hdeeds | hexpired
  · exact ⟨hknown, h.conversation.next hr hn hdeeds, h.counted.deeds hdeeds⟩
  · exact ⟨hknown, h.conversation.expired hc (reachable_order hr) hexpired,
      h.counted.expired hexpired⟩

theorem Chat.steps (h : Chat info p size s.world) (hr : server.Reachable System.always s)
    (hsteps : server.Steps System.always s s') : Chat info p size s'.world := by
  have hboth : server.Reachable System.always s' ∧ Chat info p size s'.world := by
    refine hsteps.keeps (I := fun s => server.Reachable System.always s ∧
      Chat info p size s.world) ?_ ⟨hr, h⟩
    rintro ⟨ans, l⟩ s₁ s₂ ⟨hr₁, h₁⟩ - hn
    exact ⟨hr₁.step trivial hn, h₁.next hr₁ hn⟩
  exact hboth.2

/-- What was moved and delivered on behalf of a transfer shows in its history. -/
theorem movedBy_historyOf (p : Ptr) (trace : List Effect) :
    movedBy p (historyOf p trace) = movedBy p trace := by
  induction trace with
  | nil => rfl
  | cons e rest ih =>
      by_cases he : e.onBehalf = some p
      · simp only [historyOf, movedBy, List.filter_cons, he, decide_true, if_true,
          List.flatMap_cons] at ih ⊢
        rw [ih]
      · have hnone : e.bytesFor p = [] := by
          cases e with
          | moved q =>
              have hq : q ≠ p := fun hqp => he (by simp [Effect.onBehalf, hqp])
              simp [Effect.bytesFor, hq]
          | sent | failed | closed => rfl
        simp only [historyOf, movedBy, List.filter_cons, he, decide_false, List.flatMap_cons,
          hnone, List.nil_append] at ih ⊢
        exact ih

theorem delivered_historyOf (p : Ptr) (trace : List Effect) :
    delivered p (historyOf p trace) = delivered p trace := by
  unfold delivered historyOf
  rw [List.filterMap_filter]
  congr 1
  funext e
  cases e with
  | sent q fd pdu result =>
      cases q with
      | none => rfl
      | some q =>
          by_cases hq : q = p
          · simp [Effect.onBehalf, hq]
          · cases result <;> simp [Effect.onBehalf, hq]
  | moved | failed | closed => simp

/-- Whatever the state of a conversation, its history has two parts after the file's
information: in the first the transfer goes on, in the second it is over. -/
theorem Conversation.parts {U : Nat → Prop} (h : Conversation info p U v) :
    ∃ rest tail, v.history = info :: (rest ++ tail) ∧ (∀ e ∈ rest, e.ongoing) ∧
      (∀ e ∈ tail, e.Farewell p) ∧ (delivered p tail).length ≤ 1 := by
  cases h with
  | going h =>
      obtain ⟨rest, hhistory, hrest⟩ := h.history
      exact ⟨rest, [], by simpa using hhistory, hrest, by simp, by simp [delivered]⟩
  | pending hhistory hrest htail hnone =>
      exact ⟨_, _, hhistory, hrest, htail, by simp [hnone]⟩
  | finished hhistory hrest htail hone => exact ⟨_, _, hhistory, hrest, htail, hone⟩

theorem delivered_ongoing {tr : List Effect} (h : ∀ e ∈ tr, e.ongoing) :
    ∀ pdu ∈ delivered p tr, ∃ size, pdu = .xferStat size ∧ pdu.xferComplete = false := by
  intro pdu hpdu
  obtain ⟨e, he, hsent⟩ := List.mem_filterMap.mp hpdu
  have hgoes := h e he
  split at hsent
  · split at hsent
    · cases hsent
      obtain ⟨size, rfl, hsize⟩ := hgoes
      exact ⟨size, rfl, beq_eq_false_iff_ne.mpr hsize⟩
    · cases hsent
  · cases hsent

theorem delivered_farewell {tr : List Effect} (h : ∀ e ∈ tr, e.Farewell p) :
    ∀ pdu ∈ delivered p tr, pdu.terminal = true := by
  intro pdu hpdu
  obtain ⟨e, he, hsent⟩ := List.mem_filterMap.mp hpdu
  obtain ⟨fd, pdu', result, rfl, hterminal⟩ := h e he
  split at hsent
  · rename_i heq
    cases heq
    split at hsent
    · cases hsent
      exact hterminal
    · cases hsent
  · cases hsent

/-- Nothing is moved once the conversation is over. -/
theorem movedBy_farewell {tr : List Effect} (h : ∀ e ∈ tr, e.Farewell p) : movedBy p tr = [] := by
  unfold movedBy
  rw [List.flatMap_eq_nil_iff]
  intro e he
  obtain ⟨fd, pdu, result, rfl, -⟩ := h e he
  rfl

/-- What was written for the transfer `p`, accepted as `x`, follows the protocol of the
status channel: the file's information, progress messages, and at most one terminal
message with nothing after it.  Completion is told only when every byte was written. -/
structure FollowsProtocol (p : Ptr) (x : ResrcXfer) (trace : List Effect) : Prop where
  messages : ∃ info progress final, delivered p trace = info :: (progress ++ final) ∧
    (∃ atime mtime ctime, info = .fileInfo x.file.size.toNat atime mtime ctime x.txnid) ∧
    (∀ pdu ∈ progress, ∃ size, pdu = .xferStat size ∧ pdu.xferComplete = false) ∧
    final.length ≤ 1 ∧ ∀ pdu ∈ final, pdu.terminal = true
  completion : ∀ before after fd pdu result,
    trace = before ++ .sent (some p) fd pdu result :: after → pdu.xferComplete = true →
      (movedBy p before).length = x.file.size.toNat

theorem Chat.followsProtocol {w : World} {atime mtime ctime n : Nat}
    (h : Chat (.sent (some p) x.statFd
      (.fileInfo x.file.size.toNat atime mtime ctime x.txnid) (.ok n)) p x.file.size.toNat w) :
    FollowsProtocol p x w.kern.trace := by
  obtain ⟨rest, tail, hhistory, hrest, htail, hone⟩ := h.conversation.parts
  change historyOf p w.kern.trace = _ at hhistory
  refine ⟨⟨.fileInfo x.file.size.toNat atime mtime ctime x.txnid, delivered p rest,
    delivered p tail, ?_, ⟨atime, mtime, ctime, rfl⟩, delivered_ongoing hrest, hone,
    delivered_farewell htail⟩, ?_⟩
  · rw [← delivered_historyOf, hhistory, ← delivered_append]
    simp [delivered]
  · intro before after fd pdu result htrace hcomplete
    have htold := h.counted.told fd pdu result (by
      change _ ∈ historyOf p w.kern.trace
      rw [htrace]
      simp [historyOf, Effect.onBehalf]) hcomplete
    change (movedBy p (historyOf p w.kern.trace)).length = _ at htold
    rw [movedBy_historyOf, htrace] at htold
    -- the completion message is in the second part, so nothing was moved after it
    have hafter : movedBy p after = [] := by
      rw [← movedBy_historyOf]
      rw [htrace, historyOf_append] at hhistory
      have hsplit : historyOf p before ++ .sent (some p) fd pdu result :: historyOf p after =
          (.sent (some p) x.statFd (.fileInfo x.file.size.toNat atime mtime ctime x.txnid)
            (.ok n) :: rest) ++ tail := by
        rw [List.cons_append, ← hhistory]
        simp [historyOf, Effect.onBehalf]
      rcases List.append_eq_append_iff.mp hsplit with ⟨mid, hfirst, hsecond⟩ | ⟨mid, -, htl⟩
      · cases mid with
        | nil =>
            apply movedBy_farewell
            intro e he
            apply htail
            rw [List.nil_append] at hsecond
            exact hsecond ▸ List.mem_cons_of_mem _ he
        | cons e mid =>
            exfalso
            obtain ⟨rfl, -⟩ := List.cons.inj hsecond
            have hmem : Effect.sent (some p) fd pdu result ∈
                historyOf p before ++ Effect.sent (some p) fd pdu result :: mid := by simp
            rw [← hfirst] at hmem
            rcases List.mem_cons.mp hmem with heq | hmem
            · cases heq
              cases hcomplete
            · obtain ⟨size, rfl, hsize⟩ := hrest _ hmem
              exact hsize (beq_iff_eq.mp hcomplete)
      · apply movedBy_farewell
        intro e he
        apply htail
        rw [htl]
        exact List.mem_append_right _ (List.mem_cons_of_mem _ he)
    simpa [movedBy, Effect.bytesFor, show List.flatMap (Effect.bytesFor p) after = [] from hafter]
      using htold

/-- The first message of a transfer starts its conversation. -/
theorem Born.chat {w : World} (h : Born p x (w.view p)) (hknown : p < w.srv.nextPtr)
    (hinfo : delivered p w.kern.trace ≠ []) :
    ∃ atime mtime ctime n, Chat (.sent (some p) x.statFd
      (.fileInfo x.file.size.toNat atime mtime ctime x.txnid) (.ok n)) p x.file.size.toNat w := by
  generalize hv : w.view p = v at h
  obtain ⟨hdefer, hleft⟩ := h
  rename_i atime mtime ctime result
  have hhistory : historyOf p w.kern.trace = _ := congrArg View.history hv
  cases result with
  | error e =>
      exfalso
      apply hinfo
      rw [← delivered_historyOf, hhistory]
      rfl
  | ok n =>
      refine ⟨atime, mtime, ctime, n, hknown, ?_, ?_⟩
      · rw [hv]
        exact .going ⟨⟨[], rfl, by simp⟩, fun _ => rfl⟩
      · rw [hv]
        refine ⟨fun y hy => ?_, fun fd pdu result hmem hcomplete => ?_, fun r resp hr => ?_⟩
        · cases hy
          rw [hleft]
          rfl
        · cases List.mem_singleton.mp hmem
          cases hcomplete
        · cases hr

end Runs

end Sendfiled
