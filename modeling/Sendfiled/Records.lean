/-
The open files behind the calls.  As long as a transfer has a descriptor, and every SEND
brings its destination, the descriptor refers to the same open file, nobody closes it, and
what goes through it is written for that transfer.
-/
import Sendfiled.Kinds
import Sendfiled.Cancellation

namespace Sendfiled

open Prog Transition

variable {ans : Answers} {l : Label} {s s' : State} {a : Action} {c c' : Config} {p r : Ptr}
  {x y : ResrcXfer} {resp : ResrcResp} {fd : Fd} {f : OpenFile} {good : Fd → Prop}

/-- The calls of `close` on a descriptor, and whether it was open then. -/
def closesOf (fd : Fd) (trace : List Effect) : List Bool :=
  trace.filterMap fun
    | .closed fd' wasOpen => if fd' = fd then some wasOpen else none
    | _ => none

@[simp] theorem closesOf_nil (fd : Fd) : closesOf fd [] = [] := rfl

@[simp] theorem closesOf_append (fd : Fd) (tr tr' : List Effect) :
    closesOf fd (tr ++ tr') = closesOf fd tr ++ closesOf fd tr' := List.filterMap_append ..

@[simp] theorem closesOf_sent (xfer : Option Ptr) (fd fd' : Fd) (pdu : Pdu)
    (result : Except Errno Nat) : closesOf fd [.sent xfer fd' pdu result] = [] := rfl

theorem closesOf_closed_ne {fd' : Fd} (hne : fd' ≠ fd) (b : Bool) :
    closesOf fd [.closed fd' b] = [] := by
  simp [closesOf, hne]

namespace Kernel

section

variable {k k' k'' : Kernel}

/-- What is still open has not been closed in between. -/
def LeavesOpen (k k' : Kernel) : Prop :=
  ∃ tr, k'.trace = k.trace ++ tr ∧ ∀ fd ∈ k'.fds, closesOf fd tr = []

theorem LeavesOpen.of_trace {tr : List Effect} (h : k'.trace = k.trace ++ tr)
    (hnone : ∀ fd, closesOf fd tr = []) : k.LeavesOpen k' := ⟨tr, h, fun fd _ => hnone fd⟩

theorem LeavesOpen.of_eq (h : k'.trace = k.trace) : k.LeavesOpen k' :=
  .of_trace (h.trans (List.append_nil _).symm) fun _ => rfl

theorem LeavesOpen.trans (h : k.LeavesOpen k') (h' : k'.LeavesOpen k'')
    (hsub : ∀ fd ∈ k''.fds, fd ∈ k'.fds) : k.LeavesOpen k'' := by
  obtain ⟨tr, htr, hopen⟩ := h
  obtain ⟨tr', htr', hopen'⟩ := h'
  refine ⟨tr ++ tr', by rw [htr', htr, List.append_assoc], fun fd hfd => ?_⟩
  rw [closesOf_append, hopen fd (hsub fd hfd), hopen' fd hfd, List.append_nil]

end

variable (ans : Answers) (k : Kernel)

theorem leavesOpen_close (fd : Fd) : k.LeavesOpen (k.close ans fd).2 := by
  obtain ⟨b, hb⟩ := close_trace ans k fd
  refine ⟨_, hb, fun fd' hfd' => closesOf_closed_ne ?_ b⟩
  rintro rfl
  rw [close_fds, AList.mem_erase] at hfd'
  exact hfd'.1 rfl

theorem subset_of_close {fd fd' : Fd} (h : fd' ∈ (k.close ans fd).2.fds) : fd' ∈ k.fds := by
  rw [close_fds, AList.mem_erase] at h
  exact h.2

theorem leavesOpen_dismantle (x : ResrcXfer) : k.LeavesOpen (k.dismantle ans x) := by
  have hdel : k.LeavesOpen (k.epollDel x.destFd).2 := .of_eq (epollDel_trace k x.destFd)
  have hstat := hdel.trans (leavesOpen_close ans _ x.statFd) fun _ => subset_of_close ans _
  unfold dismantle closeAll closeDest
  split
  · have hdest := hstat.trans (leavesOpen_close ans _ x.destFd) fun _ => subset_of_close ans _
    exact hdest.trans (leavesOpen_close ans _ x.file.fd) fun _ => subset_of_close ans _
  · exact hstat.trans (leavesOpen_close ans _ x.file.fd) fun _ => subset_of_close ans _

section

variable {ans k}

theorem lookup_of_close {fd fd' : Fd} {f : OpenFile}
    (h : (k.close ans fd').2.fds.lookup fd = some f) : k.fds.lookup fd = some f := by
  by_cases heq : fd = fd'
  · rw [close_fds, heq, AList.lookup_erase] at h
    cases h
  · rwa [close_lookup ans k heq] at h

theorem lookup_of_dismantle {fd : Fd} {f : OpenFile}
    (h : (k.dismantle ans x).fds.lookup fd = some f) : k.fds.lookup fd = some f := by
  unfold dismantle closeAll closeDest at h
  have h₁ := lookup_of_close h
  split at h₁
  · simpa only [epollDel_fds] using lookup_of_close (lookup_of_close h₁)
  · simpa only [epollDel_fds] using lookup_of_close h₁

end

end Kernel

/-- A descriptor that is open after an action was not closed by it. -/
theorem Performs.leavesOpen (h : Performs a c c') : c.world.kern.LeavesOpen c'.world.kern := by
  cases h with
  | quiet _ _ hk => exact .of_eq hk.trace
  | openFile | seek | openTimer | arrive | dup | register | forget | enroll | skip | cancel
  | ready | release | assign | addTimer | skipTimer | arm | addResp | skipResp => exact .of_eq rfl
  | say | balk => exact .of_trace rfl fun _ => rfl
  | shut ans | reshut ans | retire ans | expire ans | botch ans | dropResp ans =>
      exact Kernel.leavesOpen_close ans _ _
  | discard ans | bury ans => exact Kernel.leavesOpen_dismantle ans _ _
  | move ans _ _ _ _ hm =>
      obtain ⟨bytes, -, hb⟩ := Kernel.moveBytes_trace ans _ hm
      exact .of_trace hb fun _ => rfl

/-- A descriptor that is open before and after an action refers to the same file. -/
theorem Performs.lookup (h : Performs a c c') (hf : c.world.kern.fds.lookup fd = some f)
    (hopen : fd ∈ c'.world.kern.fds) : c'.world.kern.fds.lookup fd = some f := by
  obtain ⟨g, hg⟩ := Option.isSome_iff_exists.mp (AList.lookup_isSome.mpr hopen)
  have hback : c.world.kern.fds.lookup fd = some g → c'.world.kern.fds.lookup fd = some f :=
    fun hold => hg.trans (hold.symm.trans hf)
  cases h with
  | quiet _ _ hk => exact hk.fds ▸ hf
  | say | seek | register | forget | enroll | skip | cancel | ready | release | assign | balk
  | addTimer | skipTimer | arm | addResp | skipResp => exact hf
  | openFile | openTimer | arrive | dup => exact Kernel.install_extends _ _ fd f hf
  | shut | reshut | retire | expire | botch | dropResp => exact hback (Kernel.lookup_of_close hg)
  | discard | bury => exact hback (Kernel.lookup_of_dismantle hg)
  | move ans _ _ _ _ hm => exact (Kernel.moveBytes_fds ans _ hm).1 ▸ hf

/-- The record has the calls of the trace. -/
theorem reachable_record (hr : server.Reachable System.always s) :
    s.world.kern.record.map Prod.fst = s.world.kern.trace := by
  have hkept := Preserved.always (I := fun c => c.world.kern.record.map Prod.fst =
    c.world.kern.trace) (fun a c c' _ hp h => ?_) fun w w' _ hcleared h => ?_
  · refine (hkept.reachable (fun s h => ?_) hr).inv
    obtain ⟨-, _, _, _, _, -, -, -, hkern⟩ := h
    rw [show s.config.world.kern.record = [] from hkern.record,
      show s.config.world.kern.trace = [] from hkern.trace]
    rfl
  · obtain ⟨R, hR, -⟩ := hp.records
    rw [hR.record, hR.trace, List.map_append, h]
  · obtain ⟨R, hR⟩ := hcleared.record
    rw [hR.record, hR.trace, List.map_append, show w.kern.record.map Prod.fst = _ from h]

/-- Deleting a registered transfer closes its status channel. -/
theorem Performs.records_buries (h : Performs a c c') (ha : a = .discard p ∨ a = .bury p)
    (hx : c.world.srv.xferAt p = some x) : ∃ R, c.world.kern.Records R c'.world.kern ∧
      c.world.kern.closing x.statFd ∈ R := by
  cases h with
  | discard ans hy =>
      obtain ⟨rfl⟩ : _ = p := by simpa using ha
      obtain rfl := Option.some.inj (hx.symm.trans hy)
      obtain ⟨R, hR, -, hmem⟩ := Kernel.records_dismantle ans _ _
      exact ⟨R, hR, hmem⟩
  | bury ans _ hy =>
      obtain ⟨rfl⟩ : _ = p := by simpa using ha
      obtain rfl := Option.some.inj (hx.symm.trans hy)
      obtain ⟨R, hR, -, hmem⟩ := Kernel.records_dismantle ans _ _
      exact ⟨R, hR, hmem⟩
  | _ => simp at ha

section Guards

/-- Every SEND brings its destination. -/
def Brings (l : Answers × Label) (s : State) : Prop := l.2 = .request → s.lacksDest = false

instance (l : Answers × Label) (s : State) : Decidable (Brings l s) :=
  inferInstanceAs (Decidable (_ → _))

/-- The next request is a CANCEL from another user without descriptors: the refusal goes to
the number that is left in the descriptor array. -/
def State.repliesStale (s : State) : Bool :=
  match s.phase with
  | .requested r _ => r.uid != s.world.srv.uid && r.nfds == 0 &&
      sfdGetCmd s.world.srv.recvbuf == ProtCmdReq.cancel.code
  | _ => false

/-- Every SEND brings its destination, and who is refused has brought a descriptor for the
answer. -/
def Proper (l : Answers × Label) (s : State) : Prop :=
  Brings l s ∧ (l.2 = .request → s.repliesStale = false)

instance (l : Answers × Label) (s : State) : Decidable (Proper l s) :=
  inferInstanceAs (Decidable (_ ∧ (_ → _)))

/-- A message that is written for no transfer goes to a descriptor in hand. -/
def answersInHand (a : Action) (c : Config) : Prop :=
  ∀ fd pdu, a = .say none fd pdu → fd ∈ c.loose

theorem Proper.inHand (hg : Proper (ans, l) s) (ha : StepMay ans l s a c) :
    answersInHand a c := by
  rintro fd pdu rfl
  cases ha with
  | free ha => cases ha
  | deny hl hphase huid hfd =>
      rcases hfd with hin | ⟨hnone, hcode⟩
      · exact hin
      · have hstale := hg.2 hl
        simp [State.repliesStale, hphase, huid, hnone, hcode] at hstale
  | event _ _ ha =>
      cases ha with
      | free ha => cases ha
      | xfer _ _ _ ha =>
          cases ha with
          | free ha => cases ha
          | speak ha => cases ha
  | request _ _ _ _ ha =>
      cases ha with
      | free ha => cases ha
      | refuse hfd => exact hfd
  | deferred _ _ ha =>
      cases ha with
      | free ha => cases ha
      | speak ha => cases ha

end Guards

/-- The transfer for which an owner of descriptors writes. -/
def Owner.speaksFor (s : Server) (q : Ptr) : Owner → Prop
  | .channel p => p = q
  | .resp r => ∃ resp, s.respAt r = some resp ∧ resp.xfer = q
  | _ => False

theorem Writes.file {e : Entry} (h : Writes c a e) : e.2 = c.world.kern.fds.lookup e.1.fd := by
  cases h with
  | say | move | balk => rfl

/-- What is written for a transfer goes through a descriptor that is there for it. -/
theorem Writes.owner {e : Entry} (h : Writes c a e) :
    (∃ q o, e.1.onBehalf = some q ∧ c.world.srv.Owns c.loose o e.1.fd ∧
      o.speaksFor c.world.srv q) ∨
      e.1.onBehalf = none ∧ ∃ pdu, a = .say none e.1.fd pdu := by
  cases h with
  | @say xfer fd pdu result hsay hfd =>
      cases xfer with
      | none => exact Or.inr ⟨rfl, pdu, rfl⟩
      | some q =>
          left
          rcases hfd q rfl with ⟨x, hx, rfl⟩ | ⟨r, resp, hr, rfl, rfl⟩
          · exact ⟨q, .channel q, rfl, ⟨x, hx, Or.inl rfl⟩, rfl⟩
          · exact ⟨resp.xfer, .resp r, rfl, ⟨resp, hr, rfl⟩, resp, hr, rfl⟩
  | @move q x bytes hx =>
      exact Or.inl ⟨q, .channel q, rfl, ⟨x, hx, Or.inr rfl⟩, rfl⟩
  | @balk q x e hx => exact Or.inl ⟨q, .channel q, rfl, ⟨x, hx, Or.inr rfl⟩, rfl⟩

/-- Only calls that `mine` admits went through `fd`, and they reached `f`. -/
def Reserved (mine : Effect → Prop) (fd : Fd) (f : OpenFile) (R : List Entry) : Prop :=
  ∀ e ∈ R, e.1.fd = fd → mine e.1 ∧ e.2 = some f

theorem Reserved.append {mine : Effect → Prop} {R R' : List Entry} (h : Reserved mine fd f R)
    (h' : Reserved mine fd f R') : Reserved mine fd f (R ++ R') := by
  intro e he
  rcases List.mem_append.mp he with he | he
  · exact h e he
  · exact h' e he

/-- A call that goes through a descriptor and does not close it. -/
def Effect.isUse (e : Effect) : Prop := ∀ fd wasOpen, e ≠ .closed fd wasOpen

/-- A call on behalf of a transfer. -/
def Effect.isFor (p : Ptr) (e : Effect) : Prop := e.onBehalf = some p

theorem Effect.isUse_of_onBehalf {e : Effect} {q : Ptr} (h : e.onBehalf = some q) : e.isUse := by
  rintro fd b rfl
  cases h

theorem Writes.isUse {e : Entry} (h : Writes c a e) : e.1.isUse := by
  cases h with
  | say | move | balk => exact fun _ _ => Effect.noConfusion

theorem Owner.speaksFor_unique {s : Server} {o : Owner} {q q' : Ptr} (h : o.speaksFor s q)
    (h' : o.speaksFor s q') : q = q' := by
  cases o with
  | channel p => exact h.symm.trans h'
  | resp r =>
      obtain ⟨resp, hr, rfl⟩ := h
      obtain ⟨resp', hr', rfl⟩ := h'
      rw [Option.some.inj (hr.symm.trans hr')]
  | hand | socket | file | timer => cases h

namespace Kernel

variable {k k' k'' : Kernel}

/-- No descriptor that was open in `k` has been closed, and what went through one reached
its file. -/
def Intact (k k' : Kernel) : Prop :=
  ∃ R, k.Records R k' ∧ ∀ fd f, k.fds.lookup fd = some f → Reserved Effect.isUse fd f R

theorem Intact.of_eq (hrecord : k'.record = k.record) (htrace : k'.trace = k.trace) :
    k.Intact k' :=
  ⟨[], .of_eq hrecord htrace, fun _ _ _ e he => by cases he⟩

theorem Intact.of_quiet (h : k.Quiet k') : k.Intact k' := .of_eq h.record h.trace

theorem Intact.trans (h : k.Intact k') (h' : k'.Intact k'')
    (hext : ∀ fd f, k.fds.lookup fd = some f → k'.fds.lookup fd = some f) : k.Intact k'' := by
  obtain ⟨R, hR, hkept⟩ := h
  obtain ⟨R', hR', hkept'⟩ := h'
  exact ⟨R ++ R', hR.trans hR', fun fd f hf => (hkept fd f hf).append (hkept' fd f (hext fd f hf))⟩

/-- Another descriptor is closed. -/
theorem Intact.close (h : k.Intact k') (hfd : fd ∉ k.fds) (ans : Answers) :
    k.Intact (k'.close ans fd).2 := by
  obtain ⟨R, hR, hkept⟩ := h
  refine ⟨_, hR.trans (records_close ans k' fd), fun fd' f hf => (hkept fd' f hf).append ?_⟩
  intro e he hsame
  rw [List.mem_singleton.mp he] at hsame
  change fd = fd' at hsame
  exact absurd (mem_of_lookup hf) (hsame ▸ hfd)

/-- A message is written. -/
theorem Intact.logged {xfer : Option Ptr} {pdu : Pdu} {result : Except Errno Nat}
    (h : (k.log (.sent xfer fd pdu result)).Quiet k') : k.Intact k' := by
  refine Intact.trans ⟨_, records_log k _, fun fd' f hf e he hsame => ?_⟩ (.of_quiet h)
    fun _ _ hf => hf
  rw [List.mem_singleton.mp he] at hsame ⊢
  exact ⟨fun _ _ => Effect.noConfusion, by rw [hsame, hf]⟩

end Kernel

/-- No such message goes through a descriptor that has another owner. -/
theorem answersInHand.elsewhere (hin : answersInHand a c) (hd : Descriptors good c)
    (hgood : good fd) {o : Owner} (ho : c.world.srv.Owns c.loose o fd) (hne : o ≠ .hand)
    (pdu : Pdu) : a ≠ .say none fd pdu := fun hsay =>
  hne (hd.exclusive.unique o .hand fd hgood ho (hin fd pdu hsay))

/-- As long as a descriptor is open, what goes through it reaches the same file. -/
theorem Performs.uses (hp : Performs a c c') (hf : c.world.kern.fds.lookup fd = some f)
    (hopen : fd ∈ c'.world.kern.fds) : c'.world.kern.fds.lookup fd = some f ∧
      ∃ R, c.world.kern.Records R c'.world.kern ∧ Reserved Effect.isUse fd f R ∧
        ∀ e ∈ R, e.1.fd = fd → Writes c a e := by
  refine ⟨hp.lookup hf hopen, ?_⟩
  obtain ⟨R, hR, hwrites⟩ := hp.records
  have hall : ∀ e ∈ R, e.1.fd = fd → Writes c a e := by
    intro e he hfd
    refine (hwrites e he).resolve_left ?_
    rintro ⟨fd', b, hclosed⟩
    obtain ⟨tr, htr, hnone⟩ := hp.leavesOpen
    have hnone' := hnone fd hopen
    rw [← List.append_cancel_left (hR.trace.symm.trans htr)] at hnone'
    have hmem : b ∈ closesOf fd (R.map Prod.fst) := by
      refine List.mem_filterMap.mpr ⟨e.1, List.mem_map_of_mem he, ?_⟩
      rw [hclosed] at hfd ⊢
      simpa [Effect.fd] using hfd
    rw [hnone'] at hmem
    cases hmem
  refine ⟨R, hR, fun e he hfd => ?_, hall⟩
  have hw := hall e he hfd
  exact ⟨hw.isUse, by rw [hw.file, hfd, hf]⟩

/-- While a descriptor keeps its owner, only the owner's calls go through it, or answers that
belong to no transfer. -/
theorem Descriptors.reserved (hd : Descriptors good c) (hd' : Descriptors good c')
    (hp : Performs a c c') (hgood : good fd) {o : Owner} {q : Ptr} {mine : Effect → Prop}
    (ho : c.world.srv.Owns c.loose o fd) (ho' : c'.world.srv.Owns c'.loose o fd)
    (hspeaks : o.speaksFor c.world.srv q) (hf : c.world.kern.fds.lookup fd = some f)
    (hfor : ∀ e : Effect, e.isFor q → mine e)
    (hsay : ∀ pdu, a = .say none fd pdu → ∀ e : Effect, e.isUse → mine e) :
    c'.world.kern.fds.lookup fd = some f ∧
      ∃ R, c.world.kern.Records R c'.world.kern ∧ Reserved mine fd f R := by
  obtain ⟨hf', R, hR, huses, hwrites⟩ := hp.uses hf (hd'.exclusive.present o fd hgood ho')
  refine ⟨hf', R, hR, fun e he hfd => ⟨?_, (huses e he hfd).2⟩⟩
  have hw := hwrites e he hfd
  rcases hw.owner with ⟨q', o', hbehalf, howns, hspeaks'⟩ | ⟨-, pdu, hpdu⟩
  · rw [hfd] at howns
    have hsame := hd.exclusive.unique o' o fd hgood howns ho
    subst hsame
    exact hfor _ (Owner.speaksFor_unique hspeaks' hspeaks ▸ hbehalf)
  · rw [hfd] at hpdu
    exact hsay pdu hpdu _ hw.isUse

/-- All calls of the transfer `p` through `fd` since the record was `R₀` lie in a stretch of
it in which only calls that `mine` admits go through `fd`, all reaching `f`; the stretch
goes on, and `fd` is open on `f`, while the transfer is live. -/
def Tenure (mine : Effect → Prop) (p : Ptr) (fd : Fd) (f : OpenFile) (R₀ : List Entry)
    (w : World) : Prop :=
  ∃ R R', w.kern.record = R₀ ++ R ++ R' ∧ Reserved mine fd f R ∧
    (∀ e ∈ R', e.1.isFor p → e.1.fd ≠ fd) ∧
    ∀ x, w.srv.xferAt p = some x → R' = [] ∧ w.kern.fds.lookup fd = some f

/-- The transfer `p` has the descriptor `fd` for a channel, or had it until it was deleted. -/
structure Tenant (mine : Effect → Prop) (p : Ptr) (fd : Fd) (f : OpenFile) (R₀ : List Entry)
    (c : Config) : Prop where
  descriptors : Descriptors (0 ≤ ·) c
  nonneg : 0 ≤ fd
  known : p < c.world.srv.nextPtr
  channel : ∀ x, c.world.srv.xferAt p = some x → fd = x.statFd ∨ fd = x.destFd
  others : ∀ r resp, c.world.srv.respAt r = some resp → resp.xfer = p → resp.statFd ≠ fd
  tenure : Tenure mine p fd f R₀ c.world

namespace Tenant

variable {mine : Effect → Prop} {R₀ : List Entry}

/-- Pending responses have their own descriptors. -/
theorem performs_others (h : Tenant mine p fd f R₀ c) (hp : Performs a c c')
    (hr : c'.world.srv.respAt r = some resp) (hxfer : resp.xfer = p) : resp.statFd ≠ fd := by
  rcases hp.respAt_cases with ⟨hsame, -⟩ | ⟨new, rfl, hset, -⟩ | ⟨-, hset⟩ | ⟨q, -, -, -, hset⟩
  · exact h.others r resp (hsame ▸ hr) hxfer
  · rw [hset] at hr
    by_cases hnew : r = c.world.srv.nextPtr
    · subst hnew
      rw [Function.update_self] at hr
      cases hr
      cases hp with
      | addResp hfd _ _ hlive =>
          rintro rfl
          obtain ⟨x, hx, -⟩ := hlive
          rw [hxfer] at hx
          cases h.descriptors.exclusive.unique .hand (.channel p) _ h.nonneg hfd
            ⟨x, hx, h.channel x hx⟩
    · rw [Function.update_of_ne hnew] at hr
      exact h.others r resp hr hxfer
  · rw [hset] at hr
    exact h.others r resp (of_update_none hr).2 hxfer
  · rw [hset] at hr
    exact h.others r resp (of_update_none hr).2 hxfer

theorem performs (h : Tenant mine p fd f R₀ c) (hp : Performs a c c')
    (ha : Descriptors.Entitled (0 ≤ ·) a c)
    (hchannel : ∀ y, c'.world.srv.xferAt p = some y → fd = y.statFd ∨ fd = y.destFd)
    (hfor : ∀ e : Effect, e.isFor p → mine e)
    (hsay : ∀ pdu, a = .say none fd pdu → c.world.srv.Owns c.loose (.channel p) fd →
      ∀ e : Effect, e.isUse → mine e) : Tenant mine p fd f R₀ c' := by
  have hd' : Descriptors (0 ≤ ·) c' := h.descriptors.performs (fun _ hgood => hgood) ha hp
  refine ⟨hd', h.nonneg, Nat.lt_of_lt_of_le h.known hp.nextPtr_le, hchannel,
    fun r resp hr hxfer => h.performs_others hp hr hxfer, ?_⟩
  obtain ⟨R, R', hrecord, hreserved, hrest, hlive⟩ := h.tenure
  obtain ⟨T, hT, hwrites⟩ := hp.records
  cases hx : c.world.srv.xferAt p with
  | some x =>
      obtain ⟨rfl, hf⟩ := hlive x hx
      rw [List.append_nil] at hrecord
      have ho : c.world.srv.Owns c.loose (.channel p) fd := ⟨x, hx, h.channel x hx⟩
      cases hy : c'.world.srv.xferAt p with
      | some y =>
          obtain ⟨hf', T', hT', hmine⟩ := h.descriptors.reserved hd' hp h.nonneg ho
            ⟨y, hy, hchannel y hy⟩ rfl hf hfor fun pdu heq => hsay pdu heq ho
          refine ⟨R ++ T', [], ?_, hreserved.append hmine, by simp, fun _ _ => ⟨rfl, hf'⟩⟩
          rw [hT'.record, hrecord, List.append_nil, List.append_assoc]
      | none =>
          -- the transfer is deleted, and nothing is written then
          refine ⟨R, T, ?_, hreserved, fun e he hbehalf => ?_, fun y hy' => ?_⟩
          · rw [hT.record, hrecord]
          · exfalso
            rcases hwrites e he with ⟨fd', b, hclosed⟩ | hw
            · rw [hclosed] at hbehalf
              cases hbehalf
            · rcases hp.deletes h.known hx hy with rfl | rfl | rfl <;> cases hw
          · rw [hy] at hy'
            cases hy'
  | none =>
      refine ⟨R, R' ++ T, ?_, hreserved, fun e he hbehalf => ?_, fun y hy => ?_⟩
      · rw [hT.record, hrecord, List.append_assoc]
      · rcases List.mem_append.mp he with he | he
        · exact hrest e he hbehalf
        rcases hwrites e he with ⟨fd', b, hclosed⟩ | hw
        · rw [hclosed] at hbehalf
          cases hbehalf
        · -- only a pending response can speak for a transfer that is gone
          rcases hw.owner with ⟨q, o, hq, ho, hspeaks⟩ | ⟨hnone, -⟩
          · cases hq.symm.trans hbehalf
            cases o with
            | channel q =>
                obtain ⟨x, hx', -⟩ := ho
                rw [show q = p from hspeaks, hx] at hx'
                cases hx'
            | resp r =>
                obtain ⟨resp, hr, hfd⟩ := ho
                obtain ⟨resp', hr', hxfer⟩ := hspeaks
                cases hr.symm.trans hr'
                rw [hfd]
                exact h.others r resp hr hxfer
            | hand | socket | file | timer => cases hspeaks
          · cases hnone.symm.trans hbehalf
      · exfalso
        rcases hp.evolves hy with ⟨hnew, -⟩ | ⟨z, hz, -⟩
        · exact absurd h.known (hnew ▸ Nat.lt_irrefl _)
        · rw [hx] at hz
          cases hz

/-- Where answers go to descriptors in hand, nothing but the transfer's own calls goes through
its channel. -/
theorem performs_own (h : Tenant (Effect.isFor p) p fd f R₀ c) (hp : Performs a c c')
    (ha : Descriptors.Entitled (0 ≤ ·) a c) (hin : answersInHand a c)
    (hchannel : ∀ y, c'.world.srv.xferAt p = some y → fd = y.statFd ∨ fd = y.destFd) :
    Tenant (Effect.isFor p) p fd f R₀ c' :=
  h.performs hp ha hchannel (fun _ he => he) fun pdu hsay ho _ _ =>
    absurd hsay (hin.elsewhere h.descriptors h.nonneg ho Owner.noConfusion pdu)

end Tenant

section Channels

variable {mine : Effect → Prop} {R₀ : List Entry}

/-- Every descriptor has one owner; status channels are descriptors, and so are destinations
once there are any. -/
structure Channeled (c : Config) : Prop where
  descriptors : Descriptors (0 ≤ ·) c
  stat : ∀ p x, c.world.srv.xferAt p = some x → 0 ≤ x.statFd
  dest : ∀ p x, c.world.srv.xferAt p = some x → x.cmd ≠ .fileOpen → 0 ≤ x.destFd

/-- A transfer has its descriptors from its requests. -/
structure supplied (a : Action) (c : Config) : Prop where
  entitled : Descriptors.Entitled (0 ≤ ·) a c
  stat : ∀ x, a = .enroll x → 0 ≤ x.statFd
  dest : ∀ x, a = .enroll x → x.cmd ≠ .fileOpen → 0 ≤ x.destFd
  assigned : ∀ p fd, a = .assign p fd → 0 ≤ fd

theorem Channeled.performs (h : Channeled c) (ha : supplied a c) (hp : Performs a c c') :
    Channeled c' where
  descriptors := h.descriptors.performs (fun _ hgood => hgood) ha.entitled hp
  stat := by
    intro q y hy
    rcases hp.evolves hy with ⟨-, hnew⟩ | ⟨x, hx, hevolves⟩
    · exact ha.stat y hnew
    · rw [hevolves.statFd]
      exact h.stat q x hx
  dest := by
    intro q y hy hopen
    rcases hp.evolves hy with ⟨-, hnew⟩ | ⟨x, hx, hevolves⟩
    · exact ha.dest y hnew hopen
    · rcases hevolves.cmd with ⟨hcmd, hdest⟩ | ⟨-, hassign⟩
      · rw [hdest]
        exact h.dest q x hx (hcmd ▸ hopen)
      · exact ha.assigned q _ hassign

theorem Brings.supplied (hg : Brings (ans, l) s) (hok : PhaseOk s) (hd : Channeled s.config)
    (ha : StepMay ans l s a c) : supplied a c := by
  -- what has arrived is open
  have harrived : ∀ {r rest}, s.phase = .requested r rest → ∀ fd ∈ r.arrived, 0 ≤ fd := by
    intro r rest hphase fd hfd
    simp only [PhaseOk, hphase] at hok
    obtain ⟨n, hn⟩ := hok.clients fd hfd
    exact hd.descriptors.nonneg _ (Kernel.mem_of_lookup hn)
  refine ⟨ha.entitled hg hok, ?_, ?_, ?_⟩
  · rintro x rfl
    obtain ⟨r, rest, req, -, hphase, -, hpos, -, hx, -⟩ := ha.enroll_cases
    rw [hx.statFd]
    exact harrived hphase _ (mem_arrived_fst hpos)
  · rintro x rfl hopen
    obtain ⟨r, rest, req, rfl, hphase, huid, hpos, hreq, hx, -⟩ := ha.enroll_cases
    rw [hx.destFd]
    exact harrived hphase _ (State.destination (hg rfl) hphase hok huid hpos hreq (hx.cmd ▸ hopen))
  · rintro q fd rfl
    obtain ⟨r, rest, txnid, x, -, hphase, -, hpos, htxnid, -, -, -, -, rfl, -⟩ := ha.assign_cases
    refine harrived hphase _ (mem_arrived_fst (hpos ?_))
    rw [protUnmarshalTxnid_cmd htxnid]
    decide

theorem channeled_kept : Kept supplied Brings Channeled where
  grants := fun _ _ _ hg _ hok h _ _ ha => hg.supplied hok h ha
  acts := fun _ _ _ _ ha hp h => h.performs ha hp

/-- As long as the server runs, every descriptor has one owner. -/
theorem reachable_channeled (hr : server.Reachable Brings s) (hrun : s.phase ≠ .stopped) :
    Channeled s.config := by
  have hnone : ∀ s, Initial s → ∀ q y, s.config.world.srv.xferAt q ≠ some y := by
    intro s h q y hy
    rw [show s.config.world.srv.xferAt q = none from h.empty.1 q] at hy
    cases hy
  rcases channeled_kept.reachable (fun s h => ⟨h.descriptors _,
    fun q y hy => absurd hy (hnone s h q y), fun q y hy => absurd hy (hnone s h q y)⟩) hr with
    hs | hs
  · exact hs.inv
  · exact absurd hs.1 hrun

/-- A server that takes a step runs. -/
theorem running_of_next {o : Except Fault State} (hn : next (ans, l) s = some o) :
    s.phase ≠ .stopped := by
  intro hstop
  rw [next_stopped hstop] at hn
  cases hn

/-- While a transfer is live, the server runs. -/
theorem running_of_live (hr : server.Reachable System.always s)
    (hx : s.world.srv.xferAt p = some x) : s.phase ≠ .stopped := by
  intro hstop
  obtain ⟨-, hok⟩ := reachable_ledger hr
  simp only [PhaseOk, hstop] at hok
  rw [hok p] at hx
  cases hx

/-- A channel of a live transfer, from now on. -/
theorem Channeled.tenant (h : Channeled c) (hc : Ledger c.world.srv)
    (hx : c.world.srv.xferAt p = some x) (hnonneg : 0 ≤ fd)
    (hfd : fd = x.statFd ∨ fd = x.destFd) : ∃ f, c.world.kern.fds.lookup fd = some f ∧
      Tenant mine p fd f c.world.kern.record c := by
  have ho : c.world.srv.Owns c.loose (.channel p) fd := ⟨x, hx, hfd⟩
  have hopen : fd ∈ c.world.kern.fds := h.descriptors.exclusive.present (.channel p) fd hnonneg ho
  obtain ⟨f, hf⟩ := Option.isSome_iff_exists.mp (AList.lookup_isSome.mpr hopen)
  refine ⟨f, hf, h.descriptors, hnonneg, hc.xfer_lt p x hx, fun y hy => ?_, ?_, [], [], ?_, ?_, ?_,
    fun _ _ => ⟨rfl, hf⟩⟩
  · rw [hx] at hy
    cases hy
    exact hfd
  · rintro r resp hr - rfl
    cases h.descriptors.exclusive.unique (.channel p) (.resp r) _ hnonneg ho ⟨resp, hr, rfl⟩
  · simp
  · exact fun e he => by cases he
  · exact fun e he => by cases he

/-- The transfer `p` has `fd` for its status channel. -/
structure StatTenant (mine : Effect → Prop) (p : Ptr) (fd : Fd) (f : OpenFile)
    (R₀ : List Entry) (c : Config) : Prop extends Tenant mine p fd f R₀ c where
  stat : ∀ x, c.world.srv.xferAt p = some x → x.statFd = fd

theorem StatTenant.performs (h : StatTenant mine p fd f R₀ c) (hp : Performs a c c')
    (ha : Descriptors.Entitled (0 ≤ ·) a c) (hfor : ∀ e : Effect, e.isFor p → mine e)
    (hsay : ∀ pdu, a = .say none fd pdu → c.world.srv.Owns c.loose (.channel p) fd →
      ∀ e : Effect, e.isUse → mine e) : StatTenant mine p fd f R₀ c' := by
  have hstat : ∀ y, c'.world.srv.xferAt p = some y → y.statFd = fd := by
    intro y hy
    rcases hp.evolves hy with ⟨hnew, -⟩ | ⟨x, hx, hevolves⟩
    · exact absurd h.known (hnew ▸ Nat.lt_irrefl _)
    · exact hevolves.statFd.trans (h.stat x hx)
  exact ⟨h.toTenant.performs hp ha (fun y hy => Or.inl (hstat y hy).symm) hfor hsay, hstat⟩

theorem StatTenant.performs_own (h : StatTenant (Effect.isFor p) p fd f R₀ c)
    (hp : Performs a c c') (ha : Descriptors.Entitled (0 ≤ ·) a c) (hin : answersInHand a c) :
    StatTenant (Effect.isFor p) p fd f R₀ c' :=
  h.performs hp ha (fun _ he => he) fun pdu hsay ho _ _ =>
    absurd hsay (hin.elsewhere h.descriptors h.nonneg ho Owner.noConfusion pdu)

theorem Channeled.statTenant (h : Channeled c) (hc : Ledger c.world.srv)
    (hx : c.world.srv.xferAt p = some x) : ∃ f, c.world.kern.fds.lookup x.statFd = some f ∧
      StatTenant mine p x.statFd f c.world.kern.record c := by
  obtain ⟨f, hf, htenant⟩ := h.tenant hc hx (h.stat p x hx) (Or.inl rfl)
  refine ⟨f, hf, htenant, fun y hy => ?_⟩
  rw [hx] at hy
  cases hy
  rfl

/-- What was written for a live transfer through its status channel has reached the file that
the channel is. -/
structure Conveyed (c : Config) : Prop where
  channeled : Channeled c
  minted : Minted c.world
  recorded : c.world.kern.record.map Prod.fst = c.world.kern.trace
  reached : ∀ p x, c.world.srv.xferAt p = some x → ∀ e ∈ c.world.kern.record, e.1.isFor p →
    e.1.fd = x.statFd → e.2 = c.world.kern.fds.lookup x.statFd

theorem Conveyed.performs (h : Conveyed c) (hc : Ledger c.world.srv) (ha : supplied a c)
    (hp : Performs a c c') : Conveyed c' := by
  have hc' := h.channeled.performs ha hp
  obtain ⟨T, hT, hwrites⟩ := hp.records
  refine ⟨hc', h.minted.performs hc hp, ?_, fun p y hy e he hfor hfd => ?_⟩
  · rw [hT.record, hT.trace, List.map_append, h.recorded]
  rw [hT.record] at he
  rcases hp.evolves hy with ⟨rfl, rfl⟩ | ⟨x, hx, hevolves⟩
  · -- nothing was written for a transfer before it is created
    exfalso
    rcases List.mem_append.mp he with he | he
    · have hmem : e.1 ∈ c.world.kern.trace := h.recorded ▸ List.mem_map_of_mem he
      exact Nat.lt_irrefl _ (h.minted.trace e.1 hmem _ hfor)
    · rcases hwrites e he with ⟨_, _, hclosed⟩ | hw
      · rw [hclosed] at hfor
        cases hfor
      · cases hw
  · have hstat := hevolves.statFd
    have hopen := hc'.descriptors.exclusive.present (.channel p) x.statFd (hstat ▸ hc'.stat p y hy)
      ⟨y, hy, Or.inl hstat.symm⟩
    obtain ⟨f, hf⟩ := Option.isSome_iff_exists.mp (AList.lookup_isSome.mpr
      (h.channeled.descriptors.exclusive.present (.channel p) x.statFd (h.channeled.stat p x hx)
        ⟨x, hx, Or.inl rfl⟩))
    rw [hstat] at hfd ⊢
    rw [hp.lookup hf hopen]
    rcases List.mem_append.mp he with he | he
    · rw [h.reached p x hx e he hfor hfd, hf]
    · rcases hwrites e he with ⟨_, _, hclosed⟩ | hw
      · rw [hclosed] at hfor
        cases hfor
      · rw [hw.file, hfd, hf]

theorem conveyed_kept : Kept supplied Brings Conveyed where
  grants := fun _ _ _ hg _ hok h _ _ ha => hg.supplied hok h.channeled ha
  acts := fun _ _ _ hc ha hp h => h.performs hc ha hp

theorem conveyed_initial (s : State) (h : Initial s) : Conveyed s.config := by
  have hinit : server.Reachable Brings s := ⟨s, h, Relation.ReflTransGen.refl⟩
  have hrun : s.phase ≠ .stopped := by
    rw [h.1]
    exact Phase.noConfusion
  refine ⟨reachable_channeled hinit hrun, Minted.initial h,
    reachable_record (hinit.mono fun _ _ _ => trivial), fun q y hy => ?_⟩
  rw [show s.config.world.srv.xferAt q = none from h.empty.1 q] at hy
  cases hy

/-- What was written for a live transfer through its status channel has reached its file. -/
theorem reached_of_live (hr : server.Reachable Brings s) (hx : s.world.srv.xferAt p = some x) :
    ∀ e ∈ s.world.kern.record, e.1.isFor p → e.1.fd = x.statFd →
      e.2 = s.world.kern.fds.lookup x.statFd := by
  rcases conveyed_kept.reachable conveyed_initial hr with hs | ⟨-, _, -, -, hcleared, -⟩
  · exact hs.inv.reached p x hx
  · rw [hcleared.xferAt] at hx
    cases hx

end Channels

/-- The shutdown closes descriptors only. -/
theorem Cleared.closings {w w' : World} (h : Cleared w w') :
    ∃ R, w.kern.Records R w'.kern ∧ ∀ e ∈ R, ∃ fd b, e.1 = .closed fd b := by
  obtain ⟨R, hR⟩ := h.record
  obtain ⟨tr, htr, honly, -⟩ := h.trace
  rw [List.append_cancel_left (htr.symm.trans hR.trace)] at honly
  exact ⟨R, hR, fun e he => honly e.1 (List.mem_map_of_mem he)⟩

theorem Tenure.cleared {mine : Effect → Prop} {R₀ : List Entry} {w w' : World}
    (h : Tenure mine p fd f R₀ w) (hcleared : Cleared w w') : Tenure mine p fd f R₀ w' := by
  obtain ⟨R, R', hrecord, hreserved, hrest, -⟩ := h
  obtain ⟨T, hT, honly⟩ := hcleared.closings
  refine ⟨R, R' ++ T, ?_, hreserved, fun e he hbehalf => ?_, fun x hx => ?_⟩
  · rw [hT.record, hrecord, List.append_assoc]
  · rcases List.mem_append.mp he with he | he
    · exact hrest e he hbehalf
    · obtain ⟨fd', b, hclosed⟩ := honly e he
      rw [hclosed] at hbehalf
      cases hbehalf
  · rw [hcleared.xferAt] at hx
    cases hx

end Sendfiled
