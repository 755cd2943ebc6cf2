/-
The kinds of transfers.  Whatever `transfer_file` is called for is a READ or a SEND: an
open file is neither registered nor in the deferred list before it gets its destination.
-/
import Sendfiled.Registrations

namespace Sendfiled

open Prog Transition

variable {a : Action} {c c' : Config} {p : Ptr} {x y : ResrcXfer}

/-- What an action can make of the record of a transfer. -/
structure Evolves (a : Action) (p : Ptr) (x y : ResrcXfer) : Prop where
  record : y = { x with
    cmd := y.cmd, destFd := y.destFd, nbytesLeft := y.nbytesLeft, defer := y.defer }
  cmd : (y.cmd = x.cmd ∧ y.destFd = x.destFd) ∨ (y.cmd = .send ∧ a = .assign p y.destFd)
  defer : y.defer = x.defer ∨ (y.defer = .none ∧ a = .release p) ∨
    (y.defer = .cancel ∧ a = .cancel p) ∨
    (y.defer = .ready ∧ a = .ready p ∧ (x.cmd = .read ∨ x.cmd = .send))
  left : y.nbytesLeft = x.nbytesLeft ∨ (a = .move p ∧ (x.cmd = .read ∨ x.cmd = .send))

theorem Evolves.refl (a : Action) (p : Ptr) (x : ResrcXfer) : Evolves a p x x :=
  ⟨rfl, Or.inl ⟨rfl, rfl⟩, Or.inl rfl, Or.inl rfl⟩

theorem Evolves.statFd (h : Evolves a p x y) : y.statFd = x.statFd := by
  rw [h.record]

theorem Evolves.file (h : Evolves a p x y) : y.file = x.file := by
  rw [h.record]

/-- A change to one transfer. -/
theorem evolves_update {f : Ptr → Option ResrcXfer} {q : Ptr} {z z' : ResrcXfer}
    (hz : f q = some z) (hy : Function.update f q (some z') p = some y)
    (hevolves : Evolves a q z z') : ∃ x, f p = some x ∧ Evolves a p x y := by
  by_cases hpq : p = q
  · subst hpq
    rw [Function.update_self] at hy
    cases hy
    exact ⟨z, hz, hevolves⟩
  · rw [Function.update_of_ne hpq] at hy
    exact ⟨y, hy, .refl a p y⟩

/-- A transfer that is live after an action was created by it or was live before. -/
theorem Performs.evolves (h : Performs a c c') (hy : c'.world.srv.xferAt p = some y) :
    (p = c.world.srv.nextPtr ∧ a = .enroll y) ∨
      ∃ x, c.world.srv.xferAt p = some x ∧ Evolves a p x y := by
  have hsame : c.world.srv.xferAt p = some y → (p = c.world.srv.nextPtr ∧ a = .enroll y) ∨
      ∃ x, c.world.srv.xferAt p = some x ∧ Evolves a p x y :=
    fun hx => Or.inr ⟨y, hx, .refl a p y⟩
  cases h with
  | quiet _ hs _ => exact hsame (hs.xferAt ▸ hy)
  | say | openFile | seek | openTimer | arrive | dup | shut | reshut | register | forget | balk
  | addTimer | skipTimer | arm | expire | botch | addResp | skipResp | dropResp =>
      exact hsame hy
  | @enroll L s k z =>
      by_cases hp : p = s.nextPtr
      · subst hp
        have hz : z = y := by
          change Function.update s.xferAt s.nextPtr (some z) s.nextPtr = some y at hy
          rw [Function.update_self] at hy
          exact Option.some.inj hy
        exact Or.inl ⟨rfl, by rw [hz]⟩
      · change Function.update s.xferAt s.nextPtr (some z) p = some y at hy
        rw [Function.update_of_ne hp] at hy
        exact hsame hy
  | skip | retire | discard | bury => exact hsame (of_update_none hy).2
  | cancel hx =>
      exact Or.inr (evolves_update hx hy
        ⟨rfl, Or.inl ⟨rfl, rfl⟩, Or.inr (Or.inr (Or.inl ⟨rfl, rfl⟩)), Or.inl rfl⟩)
  | ready hx _ hcmd =>
      exact Or.inr (evolves_update hx hy
        ⟨rfl, Or.inl ⟨rfl, rfl⟩, Or.inr (Or.inr (Or.inr ⟨rfl, rfl, hcmd⟩)), Or.inl rfl⟩)
  | release _ hx =>
      exact Or.inr (evolves_update hx hy
        ⟨rfl, Or.inl ⟨rfl, rfl⟩, Or.inr (Or.inl ⟨rfl, rfl⟩), Or.inl rfl⟩)
  | assign hx =>
      exact Or.inr (evolves_update hx hy ⟨rfl, Or.inr ⟨rfl, rfl⟩, Or.inl rfl, Or.inl rfl⟩)
  | move _ hx _ hcmd =>
      exact Or.inr (evolves_update hx hy
        ⟨rfl, Or.inl ⟨rfl, rfl⟩, Or.inl rfl, Or.inr ⟨rfl, hcmd⟩⟩)

/-- The transfer was given out and is not an open file without a destination. -/
def Server.Started (s : Server) (p : Ptr) : Prop :=
  p < s.nextPtr ∧ ∀ x, s.xferAt p = some x → x.cmd ≠ .fileOpen

theorem Server.Started.performs (h : c.world.srv.Started p) (hp : Performs a c c') :
    c'.world.srv.Started p := by
  refine ⟨Nat.lt_of_lt_of_le h.1 hp.nextPtr_le, fun y hy => ?_⟩
  rcases hp.evolves hy with ⟨hnew, -⟩ | ⟨x, hx, hevolves⟩
  · exact absurd h.1 (by rw [hnew]; exact Nat.lt_irrefl _)
  · rcases hevolves.cmd with ⟨hcmd, -⟩ | ⟨hcmd, -⟩
    · rw [hcmd]
      exact h.2 x hx
    · rw [hcmd]
      nofun

/-- New transfers are created by a request for a file. -/
def fileKind : Action → Config → Prop
  | .enroll x, _ => x.cmd = .fileOpen ∨ x.cmd = .read ∨ x.cmd = .send
  | _, _ => True

/-- Which kinds of transfers there are, and which of them the poller and the deferred
list refer to. -/
structure Typed (c : Config) : Prop where
  kind : ∀ p x, c.world.srv.xferAt p = some x →
    x.cmd = .fileOpen ∨ x.cmd = .read ∨ x.cmd = .send
  ready : ∀ p x, c.world.srv.xferAt p = some x → x.defer = .ready → x.cmd ≠ .fileOpen
  whole : ∀ p x, c.world.srv.xferAt p = some x → x.cmd = .fileOpen → x.nbytesLeft = x.file.size
  regs : ∀ reg ∈ c.world.kern.regs, ∀ p, reg.udata = .xfer p → c.world.srv.Started p

theorem Typed.performs (h : Typed c) (hledger : Ledger c.world.srv) (ha : fileKind a c)
    (hp : Performs a c c') : Typed c' := by
  refine ⟨fun q y hy => ?_, fun q y hy hready => ?_, fun q y hy hopen => ?_,
    fun reg hreg q hu => ?_⟩
  · rcases hp.evolves hy with ⟨-, rfl⟩ | ⟨x, hx, hevolves⟩
    · exact ha
    · rcases hevolves.cmd with ⟨hcmd, -⟩ | ⟨hcmd, -⟩
      · rw [hcmd]
        exact h.kind q x hx
      · exact Or.inr (Or.inr hcmd)
  · rcases hp.evolves hy with ⟨-, rfl⟩ | ⟨x, hx, hevolves⟩
    · cases hp with
      | enroll _ _ _ hdefer =>
          rw [hready] at hdefer
          cases hdefer
    · rcases hevolves.cmd with ⟨hcmd, -⟩ | ⟨hcmd, -⟩
      · rw [hcmd]
        rcases hevolves.defer with hd | ⟨hd, -⟩ | ⟨hd, -⟩ | ⟨-, -, hkind⟩
        · exact h.ready q x hx (hd ▸ hready)
        · rw [hd] at hready
          cases hready
        · rw [hd] at hready
          cases hready
        · rcases hkind with hkind | hkind <;> rw [hkind] <;> nofun
      · rw [hcmd]
        nofun
  · rcases hp.evolves hy with ⟨-, rfl⟩ | ⟨x, hx, hevolves⟩
    · cases hp with
      | enroll _ _ _ _ hleft => exact hleft
    · have hsame : x.cmd = .fileOpen := by
        rcases hevolves.cmd with ⟨hcmd, -⟩ | ⟨hcmd, -⟩
        · exact hcmd.symm.trans hopen
        · rw [hcmd] at hopen
          cases hopen
      rcases hevolves.left with hleft | ⟨-, hkind⟩
      · rw [hleft, h.whole q x hx hsame, hevolves.file]
      · rw [hsame] at hkind
        rcases hkind with hkind | hkind <;> cases hkind
  · rcases hp.regs with hsub | ⟨new, hnew, -⟩
    · exact (h.regs reg (hsub.subset hreg) q hu).performs hp
    rw [hnew.regs] at hreg
    rcases List.mem_append.mp hreg with hold | hin
    · exact (h.regs reg hold q hu).performs hp
    cases List.mem_singleton.mp hin
    have hident := hnew.ident
    rw [hu] at hident
    obtain ⟨x, hx, -, hcmd⟩ := hident
    refine ⟨(hledger.performs hp).xfer_lt q x hx, fun y hy => ?_⟩
    rw [hx] at hy
    cases hy
    exact hcmd

theorem protUnmarshalRequest_kind {buf : RecvBuf} {size : Nat} {req : ProtRequest}
    (h : protUnmarshalRequest buf size = some req) :
    req.cmd = .fileOpen ∨ req.cmd = .read ∨ req.cmd = .send := by
  have hcmd := protUnmarshalRequest_fileCmd h
  unfold fileCmd at hcmd
  split at hcmd <;> simp_all

theorem StepMay.fileKind {ans : Answers} {l : Label} {s : State} (ha : StepMay ans l s a c) :
    Sendfiled.fileKind a c := by
  cases a with
  | enroll x =>
      obtain ⟨r, rest, req, -, -, -, -, hreq, hx, -⟩ := ha.enroll_cases
      change x.cmd = .fileOpen ∨ x.cmd = .read ∨ x.cmd = .send
      rw [hx.cmd]
      exact protUnmarshalRequest_kind hreq
  | _ => trivial

theorem typed_preserved : Preserved fileKind System.always Typed where
  grants := fun _ _ _ _ _ _ _ _ _ ha => ha.fileKind
  acts := fun _ _ _ hledger ha hp h => h.performs hledger ha hp
  stop := by
    intro w w' _ hcleared _
    have hnone : ∀ p x, (Config.mk [] w').world.srv.xferAt p ≠ some x := by
      intro p x hx
      rw [show (Config.mk [] w').world.srv.xferAt p = none from hcleared.xferAt p] at hx
      cases hx
    refine ⟨fun p x hx => absurd hx (hnone p x), fun p x hx => absurd hx (hnone p x),
      fun p x hx => absurd hx (hnone p x), fun reg hreg => ?_⟩
    · rw [show (Config.mk [] w').world.kern.regs = [] from hcleared.regs] at hreg
      cases hreg

theorem typed_initial (s : State) (h : Initial s) : Typed s.config := by
  have hempty := h.empty.1
  obtain ⟨-, reqfd, -, -, -, -, -, -, hkern⟩ := h
  have hnone : ∀ p x, s.config.world.srv.xferAt p ≠ some x := by
    intro p x hx
    rw [show s.config.world.srv.xferAt p = none from hempty p] at hx
    cases hx
  refine ⟨fun p x hx => absurd hx (hnone p x), fun p x hx => absurd hx (hnone p x),
    fun p x hx => absurd hx (hnone p x), fun reg hreg q hu => ?_⟩
  · rcases hkern.regs reg hreg with hsig | hreq
    · rw [hsig] at hu
      cases hu
    · rw [hreq] at hu
      cases hu

/-- The same of the events that are still to be handled. -/
structure TypedEvents (s : State) : Prop where
  typed : Typed s.config
  events : ∀ ev ∈ s.pending, ∀ p, ev.udata = .xfer p → s.world.srv.Started p

theorem reachable_typed {s : State} (hr : server.Reachable System.always s) : TypedEvents s := by
  have hboth : server.Reachable System.always s ∧ TypedEvents s := by
    refine hr.invariant (I := fun s => server.Reachable System.always s ∧ TypedEvents s) ?_ ?_
    · intro s hinit
      refine ⟨⟨s, hinit, Relation.ReflTransGen.refl⟩, typed_initial s hinit, ?_⟩
      intro ev hev
      unfold State.pending at hev
      rw [hinit.1] at hev
      cases hev
    · rintro ⟨ans, l⟩ s s' ⟨hr, htyped⟩ - hn
      have hr' : server.Reachable System.always s' := hr.step trivial hn
      obtain ⟨hledger, hok⟩ := reachable_ledger hr
      have htyped' := (typed_preserved.reachable typed_initial hr').inv
      refine ⟨hr', htyped', fun ev hev p hu => ?_⟩
      rcases next_pending hn with ⟨-, evs, hvalid, rfl⟩ | hsub
      · obtain ⟨reg, hreg, hregu⟩ := List.mem_map.mp (hvalid.1.subset (List.mem_map_of_mem hev))
        exact htyped'.regs reg hreg p (hregu.trans hu)
      · have hold := htyped.events ev ((l.leaves_sublist s.pending).subset (hsub.subset hev)) p hu
        have hkept := Preserved.always (I := fun c => c.world.srv.Started p)
          (fun _ _ _ _ hp h => h.performs hp)
          (fun w w' _ hcleared h => ⟨hcleared.nextPtr ▸ h.1, fun x hx => by
            rw [show (Config.mk [] w').world.srv.xferAt p = none from hcleared.xferAt p] at hx
            cases hx⟩)
        exact (hkept.next ⟨hledger, hok, hold⟩ trivial hn).inv
  exact hboth.2

end Sendfiled
