/-
Who owns which descriptor.  The code holds some descriptors itself, the others
belong to transfers, timers and pending responses.  Every action keeps ownership
exclusive, and no action closes or replaces a descriptor that keeps its owner.
-/
import Sendfiled.Steps
import Sendfiled.Lib.Exclusive

namespace Sendfiled

open Ownership

/-- The owners of descriptors: the code itself, the server for its request socket, a
transfer for its file and for its channels, a timer, a pending response. -/
inductive Owner where
  | hand
  | socket
  | file (p : Ptr)
  | channel (p : Ptr)
  | timer (t : Ptr)
  | resp (r : Ptr)
deriving DecidableEq, Repr

def Server.Owns (s : Server) (L : List Fd) : Owner → Fd → Prop
  | .hand, fd => fd ∈ L
  | .socket, fd => fd = s.reqfd
  | .file p, fd => ∃ x, s.xferAt p = some x ∧ fd = x.file.fd
  | .channel p, fd => ∃ x, s.xferAt p = some x ∧ (fd = x.statFd ∨ fd = x.destFd)
  | .timer t, fd => ∃ tm, s.timerAt t = some tm ∧ fd = tm.ident
  | .resp r, fd => ∃ rs, s.respAt r = some rs ∧ fd = rs.statFd

/-- Nothing is said of the descriptors that are not good. -/
structure Descriptors (good : Fd → Prop) (c : Config) : Prop where
  nonneg : ∀ fd ∈ c.world.kern.fds, 0 ≤ fd
  exclusive : Exclusive good (fun fd => fd ∈ c.world.kern.fds) (c.world.srv.Owns c.loose)
  once : ∀ fd, good fd → c.loose.count fd ≤ 1

namespace Kernel

variable (ans : Answers) (k : Kernel)

theorem close_lookup {fd fd' : Fd} (hne : fd' ≠ fd) :
    (k.close ans fd).2.fds.lookup fd' = k.fds.lookup fd' := by
  rw [close_fds]
  exact AList.lookup_erase_ne hne

/-- The descriptor still refers to its open file, and what is registered under it is
still registered. -/
structure Spares (fd : Fd) (k k' : Kernel) : Prop where
  lookup : k'.fds.lookup fd = k.fds.lookup fd
  regs : ∀ reg ∈ k.regs, reg.fd = fd → k.fds.lookup fd = some reg.file → reg ∈ k'.regs

theorem Spares.trans {fd : Fd} {k k' k'' : Kernel} (h : Spares fd k k') (h' : Spares fd k' k'') :
    Spares fd k k'' where
  lookup := h'.lookup.trans h.lookup
  regs := fun reg hreg hfd hfile =>
    h'.regs reg (h.regs reg hreg hfd hfile) hfd (h.lookup.trans hfile)

theorem Spares.of_eq {fd : Fd} {k k' : Kernel} (hfds : k'.fds = k.fds)
    (hregs : k.regs ⊆ k'.regs) : Spares fd k k' :=
  ⟨by rw [hfds], fun _ hreg _ _ => hregs hreg⟩

/-- Closing another descriptor leaves a copy of the open file, and so its registration. -/
theorem close_spares {fd fd' : Fd} (hne : fd' ≠ fd) : Spares fd' k (k.close ans fd).2 where
  lookup := close_lookup ans k hne
  regs := by
    intro reg hreg hfd hfile
    unfold close
    split
    · exact hreg
    · rename_i f hf
      dsimp only [succeed, log]
      split
      · exact hreg
      · rename_i hcopy
        apply List.mem_filter.mpr
        refine ⟨hreg, ?_⟩
        rw [decide_eq_true_iff]
        rintro rfl
        apply hcopy
        have hkept : (k.fds.erase fd).lookup fd' = some reg.file :=
          (AList.lookup_erase_ne hne).trans hfile
        unfold hasCopy
        rw [Bool.or_eq_true, List.any_eq_true]
        exact Or.inl ⟨⟨fd', reg.file⟩, AList.mem_lookup_iff.mp hkept, by simp⟩

theorem epollDel_spares {fd fd' : Fd} (hne : fd' ≠ fd) : Spares fd' k (k.epollDel fd).2 where
  lookup := by rw [epollDel_fds]
  regs := by
    intro reg hreg hfd _
    unfold epollDel
    split
    · exact hreg
    · split
      · apply List.mem_filter.mpr
        refine ⟨hreg, ?_⟩
        rw [decide_eq_true_iff]
        rintro ⟨hfd', -⟩
        exact hne (hfd.symm.trans hfd')
      · exact hreg

/-- Deleting a transfer closes its own descriptors only. -/
theorem closeAll_spares {x : ResrcXfer} {fd : Fd} (hstat : fd ≠ x.statFd)
    (hdest : fd ≠ x.destFd) (hfile : fd ≠ x.file.fd) : Spares fd k (k.closeAll ans x) := by
  unfold closeAll closeDest
  have hfirst := close_spares ans k hstat
  split
  · exact (hfirst.trans (close_spares ans _ hdest)).trans (close_spares ans _ hfile)
  · exact hfirst.trans (close_spares ans _ hfile)

theorem dismantle_spares {x : ResrcXfer} {fd : Fd} (hstat : fd ≠ x.statFd)
    (hdest : fd ≠ x.destFd) (hfile : fd ≠ x.file.fd) : Spares fd k (k.dismantle ans x) :=
  (epollDel_spares k hdest).trans (closeAll_spares ans _ hstat hdest hfile)

theorem closeAll_subset (x : ResrcXfer) {fd : Fd} (h : fd ∈ (k.closeAll ans x).fds) :
    fd ∈ k.fds := by
  have hclose : ∀ (k : Kernel) fd', fd ∈ (k.close ans fd').2.fds → fd ∈ k.fds := by
    intro k fd' hmem
    rw [close_fds, AList.mem_erase] at hmem
    exact hmem.2
  unfold closeAll closeDest at h
  have h₁ := hclose _ _ h
  split at h₁
  · exact hclose _ _ (hclose _ _ h₁)
  · exact hclose _ _ h₁

theorem mem_of_lookup {k : Kernel} {fd : Fd} {f : OpenFile} (h : k.fds.lookup fd = some f) :
    fd ∈ k.fds :=
  AList.lookup_isSome.mp (by rw [h]; rfl)

theorem mem_congr {k k' : Kernel} {fd : Fd} (h : k'.fds.lookup fd = k.fds.lookup fd) :
    fd ∈ k'.fds ↔ fd ∈ k.fds := by
  rw [← AList.lookup_isSome, h, AList.lookup_isSome]

end Kernel

theorem of_update_none {α : Type} {f : Ptr → Option α} {p q : Ptr} {a : α}
    (h : Function.update f p none q = some a) : q ≠ p ∧ f q = some a := by
  by_cases hq : q = p
  · subst hq
    simp at h
  · rw [Function.update_of_ne hq] at h
    exact ⟨hq, h⟩

section Owning

variable {s s' : Server} {L L' : List Fd} {o : Owner} {fd : Fd} {p : Ptr} {x y : ResrcXfer}

theorem Server.Owns.congr (h : s'.Owns L' o fd) (hreqfd : s'.reqfd = s.reqfd)
    (hL : o = .hand → fd ∈ L' → fd ∈ L)
    (hxfer : ∀ p x, s'.xferAt p = some x → s.xferAt p = some x)
    (htimer : ∀ t tm, s'.timerAt t = some tm → s.timerAt t = some tm)
    (hresp : ∀ r rs, s'.respAt r = some rs → s.respAt r = some rs) : s.Owns L o fd := by
  cases o with
  | hand => exact hL rfl h
  | socket => exact h.trans hreqfd
  | file p =>
      obtain ⟨x, hx, hfd⟩ := h
      exact ⟨x, hxfer p x hx, hfd⟩
  | channel p =>
      obtain ⟨x, hx, hfd⟩ := h
      exact ⟨x, hxfer p x hx, hfd⟩
  | timer t =>
      obtain ⟨tm, ht, hfd⟩ := h
      exact ⟨tm, htimer t tm ht, hfd⟩
  | resp r =>
      obtain ⟨rs, hr, hfd⟩ := h
      exact ⟨rs, hresp r rs hr, hfd⟩

/-- A change to a transfer that leaves its descriptors alone. -/
theorem Server.Owns.setXfer (h : (s.setXfer p y).Owns L o fd) (hp : s.xferAt p = some x)
    (hfile : y.file.fd = x.file.fd) (hstat : y.statFd = x.statFd) (hdest : y.destFd = x.destFd) :
    s.Owns L o fd := by
  cases o with
  | hand | socket | timer | resp => exact h
  | file q =>
      by_cases hq : q = p
      · subst hq
        obtain ⟨z, hz, hfd⟩ := h
        simp only [Server.setXfer, Function.update_self, Option.some.injEq] at hz
        exact ⟨x, hp, by rw [hfd, ← hz, hfile]⟩
      · simpa [Server.Owns, Server.setXfer, hq] using h
  | channel q =>
      by_cases hq : q = p
      · subst hq
        obtain ⟨z, hz, hfd⟩ := h
        simp only [Server.setXfer, Function.update_self, Option.some.injEq] at hz
        rw [← hz, hstat, hdest] at hfd
        exact ⟨x, hp, hfd⟩
      · simpa [Server.Owns, Server.setXfer, hq] using h

/-- Deleting a transfer takes its descriptors from it. -/
theorem Server.Owns.of_dropXfer (h : s'.Owns L o fd) (hreqfd : s'.reqfd = s.reqfd)
    (hxfers : s'.xferAt = Function.update s.xferAt p none) (htimers : s'.timerAt = s.timerAt)
    (hresps : s'.respAt = s.respAt) : s.Owns L o fd ∧ o ≠ .file p ∧ o ≠ .channel p := by
  have hnot : ∀ z, s'.xferAt p ≠ some z := by
    intro z hz
    rw [hxfers, Function.update_self] at hz
    cases hz
  refine ⟨h.congr hreqfd (fun _ hL => hL) (fun q z hq => ?_) (fun _ _ ht => htimers ▸ ht)
    (fun _ _ hr => hresps ▸ hr), ?_, ?_⟩
  · rw [hxfers] at hq
    exact (of_update_none hq).2
  · rintro rfl
    obtain ⟨z, hz, -⟩ := h
    exact hnot z hz
  · rintro rfl
    obtain ⟨z, hz, -⟩ := h
    exact hnot z hz

theorem Server.Owns.discard {txnid : Nat} (h : (s.discard p txnid).Owns L o fd) :
    s.Owns L o fd ∧ o ≠ .file p ∧ o ≠ .channel p :=
  h.of_dropXfer rfl rfl rfl rfl

theorem Server.Owns.of_dropTimer {t : Ptr} (h : s'.Owns L o fd) (hreqfd : s'.reqfd = s.reqfd)
    (hxfers : s'.xferAt = s.xferAt) (htimers : s'.timerAt = Function.update s.timerAt t none)
    (hresps : s'.respAt = s.respAt) : s.Owns L o fd ∧ o ≠ .timer t := by
  refine ⟨h.congr hreqfd (fun _ hL => hL) (fun _ _ hx => hxfers ▸ hx) (fun u tm hu => ?_)
    (fun _ _ hr => hresps ▸ hr), ?_⟩
  · rw [htimers] at hu
    exact (of_update_none hu).2
  · rintro rfl
    obtain ⟨tm, htm, -⟩ := h
    rw [htimers, Function.update_self] at htm
    cases htm

theorem Server.Owns.expire {t : Ptr} {txnid : Nat} (h : (s.expire t txnid).Owns L o fd) :
    s.Owns L o fd ∧ o ≠ .timer t :=
  h.of_dropTimer rfl rfl rfl rfl

end Owning

namespace Descriptors

variable {good : Fd → Prop} {L L' : List Fd} {s s' : Server} {k k' : Kernel} {p : Ptr}
  {x : ResrcXfer} {fd : Fd}

theorem mem (h : Descriptors good ⟨L, ⟨s, k⟩⟩) {o : Owner} (hgood : good fd)
    (ho : s.Owns L o fd) : fd ∈ k.fds :=
  h.exclusive.present o fd hgood ho

theorem eq_of_owns (h : Descriptors good ⟨L, ⟨s, k⟩⟩) {o : Owner} (o' : Owner) (hgood : good fd)
    (ho : s.Owns L o fd) (ho' : s.Owns L o' fd) : o = o' :=
  h.exclusive.unique o o' fd hgood ho ho'

/-- A descriptor in hand is in hand once. -/
theorem notMem_erase (h : Descriptors good ⟨L, ⟨s, k⟩⟩) (hgood : good fd) : fd ∉ L.erase fd := by
  intro hmem
  have hpos := List.count_pos_iff.mpr hmem
  have honce := h.once fd hgood
  rw [List.count_erase_self] at hpos
  simp only at honce
  omega

/-- Descriptors that are given up may be closed. -/
theorem lose (h : Descriptors good ⟨L, ⟨s, k⟩⟩) (hL : L'.Sublist L)
    (hown : ∀ o fd, good fd → s'.Owns L' o fd → s.Owns L o fd)
    (hfds : ∀ fd ∈ k'.fds, fd ∈ k.fds)
    (hgone : ∀ fd, good fd → fd ∈ k.fds →
      fd ∈ k'.fds ∨ ∃ o, s.Owns L o fd ∧ ¬ s'.Owns L' o fd) :
    Descriptors good ⟨L', ⟨s', k'⟩⟩ where
  nonneg := fun fd hfd => h.nonneg fd (hfds fd hfd)
  exclusive := h.exclusive.lose hown hgone
  once := fun fd hgood => Nat.le_trans (hL.count_le fd) (h.once fd hgood)

/-- Nothing is opened or closed. -/
theorem same (h : Descriptors good ⟨L, ⟨s, k⟩⟩) (hL : L'.Sublist L) (hfds : k'.fds = k.fds)
    (hown : ∀ o fd, good fd → s'.Owns L' o fd → s.Owns L o fd) :
    Descriptors good ⟨L', ⟨s', k'⟩⟩ :=
  h.lose hL hown (fun _ hfd => hfds ▸ hfd) fun _ _ hfd => Or.inl (hfds ▸ hfd)

/-- One descriptor is closed after its owner gave it up. -/
theorem closed (h : Descriptors good ⟨L, ⟨s, k⟩⟩) (ans : Answers) (hL : L'.Sublist L)
    (hown : ∀ o fd, s'.Owns L' o fd → s.Owns L o fd)
    (hlost : good fd → fd ∈ k.fds → ∃ o, s.Owns L o fd ∧ ¬ s'.Owns L' o fd) :
    Descriptors good ⟨L', ⟨s', (k.close ans fd).2⟩⟩ := by
  refine h.lose hL (fun o fd _ => hown o fd) (fun fd' hfd' => ?_) fun fd' hgood hfd' => ?_
  · rw [Kernel.close_fds, AList.mem_erase] at hfd'
    exact hfd'.2
  · by_cases heq : fd' = fd
    · subst heq
      exact Or.inr (hlost hgood hfd')
    · exact Or.inl ((Kernel.mem_congr (Kernel.close_lookup ans k heq)).mpr hfd')

/-- A descriptor is opened and in hand. -/
theorem opened (h : Descriptors good ⟨L, ⟨s, k⟩⟩) {f : OpenFile}
    (hfds : k'.fds = (k.install f).2.fds) :
    Descriptors good ⟨(k.install f).1 :: L, ⟨s, k'⟩⟩ := by
  have hfresh : (k.install f).1 ∉ k.fds := lowestFree_notMem k.fds.keys
  have hmem : ∀ fd, fd ∈ k'.fds ↔ fd = (k.install f).1 ∨ fd ∈ k.fds := by
    intro fd
    rw [hfds]
    exact AList.mem_insert k.fds
  refine ⟨fun fd hfd => ?_, ?_, fun fd hgood => ?_⟩
  · rcases (hmem fd).mp hfd with rfl | hfd
    · exact lowestFree_nonneg _
    · exact h.nonneg fd hfd
  · refine h.exclusive.add .hand hfresh (fun fd => (hmem fd).mpr) ?_
    intro o fd ho
    cases o with
    | hand =>
        rcases List.mem_cons.mp ho with rfl | ho
        · exact Or.inr ⟨rfl, rfl⟩
        · exact Or.inl ho
    | socket | file | channel | timer | resp => exact Or.inl ho
  · by_cases heq : fd = (k.install f).1
    · have hout : (k.install f).1 ∉ L := fun hin =>
        hfresh (h.mem (heq ▸ hgood) (o := .hand) hin)
      rw [heq, List.count_cons_self, List.count_eq_zero.mpr hout]
    · rw [List.count_cons_of_ne (Ne.symm heq)]
      exact h.once fd hgood

/-- A descriptor in hand gets an owner. -/
theorem handOver (h : Descriptors good ⟨L, ⟨s, k⟩⟩) (o₀ : Owner) (hfd : fd ∈ L)
    (hown : ∀ o fd', o ≠ .hand → s'.Owns (L.erase fd) o fd' →
      s.Owns L o fd' ∨ (o = o₀ ∧ fd' = fd)) :
    Descriptors good ⟨L.erase fd, ⟨s', k⟩⟩ := by
  have hsub : (L.erase fd).Sublist L := List.erase_sublist
  refine ⟨h.nonneg, ?_, fun fd' hgood => Nat.le_trans (hsub.count_le fd') (h.once fd' hgood)⟩
  refine h.exclusive.give .hand o₀ fd hfd ?_
  intro o fd' hgood ho
  by_cases hhand : o = .hand
  · subst hhand
    refine Or.inl ⟨hsub.subset ho, ?_⟩
    rintro ⟨-, rfl⟩
    exact h.notMem_erase hgood ho
  · rcases hown o fd' hhand ho with ho | hnew
    · exact Or.inl ⟨ho, fun hc => hhand hc.1⟩
    · exact Or.inr hnew

/-- The code takes back what an owner has, and the owner goes away. -/
theorem takeBack (h : Descriptors good ⟨L, ⟨s, k⟩⟩) (o₀ : Owner) (fds : List Fd)
    (hhand : o₀ ≠ .hand) (hnodup : fds.Nodup) (hfds : ∀ fd ∈ fds, s.Owns L o₀ fd)
    (hown : ∀ o fd, o ≠ .hand → s'.Owns (fds ++ L) o fd → s.Owns L o fd ∧ o ≠ o₀)
    (hsub : ∀ fd ∈ k'.fds, fd ∈ k.fds)
    (hgone : ∀ fd, good fd → fd ∈ k.fds →
      fd ∈ k'.fds ∨ ∃ o, s.Owns L o fd ∧ o ≠ o₀ ∧ ¬ s'.Owns (fds ++ L) o fd) :
    Descriptors good ⟨fds ++ L, ⟨s', k'⟩⟩ := by
  refine ⟨fun fd hfd => h.nonneg fd (hsub fd hfd), ?_, fun fd hgood => ?_⟩
  · refine h.exclusive.merge o₀ .hand ?_ hgone
    intro o fd hgood ho
    by_cases hh : o = .hand
    · subst hh
      rcases List.mem_append.mp ho with hin | hin
      · exact Or.inr ⟨rfl, hfds fd hin⟩
      · exact Or.inl ⟨hin, Ne.symm hhand⟩
    · exact Or.inl (hown o fd hh ho)
  · rw [List.count_append]
    by_cases hin : fd ∈ fds
    · have hout : fd ∉ L := fun hL =>
        hhand (h.eq_of_owns .hand hgood (hfds fd hin) hL)
      rw [List.count_eq_zero.mpr hout, List.count_eq_one_of_mem hnodup hin]
    · rw [List.count_eq_zero.mpr hin, Nat.zero_add]
      exact h.once fd hgood

/-- A new transfer gets its three descriptors. -/
theorem enroll (h : Descriptors good ⟨x.file.fd :: L, ⟨s, k⟩⟩) (hstat : x.statFd ∈ L)
    (hdest : good x.destFd → x.destFd ∈ L) :
    Descriptors good ⟨(L.erase x.statFd).erase x.destFd, ⟨s.enroll x, k⟩⟩ := by
  have hout : ∀ fd, good fd → fd ∈ L → fd ≠ x.file.fd := by
    rintro fd hgood hin rfl
    have honce := h.once _ hgood
    have hpos := List.count_pos_iff.mpr hin
    rw [List.count_cons_self] at honce
    omega
  have hL : ∀ fd, good fd → L.count fd ≤ 1 := by
    intro fd hgood
    exact Nat.le_trans ((List.sublist_cons_self _ L).count_le fd) (h.once fd hgood)
  have herase : ∀ fd, good fd → fd ∉ L.erase fd := by
    intro fd hgood hin
    have hpos := List.count_pos_iff.mpr hin
    have honce := hL fd hgood
    rw [List.count_erase_self] at hpos
    omega
  have hsub : ((L.erase x.statFd).erase x.destFd).Sublist L :=
    List.erase_sublist.trans List.erase_sublist
  refine ⟨h.nonneg, ?_, fun fd hgood => Nat.le_trans (hsub.count_le fd) (hL fd hgood)⟩
  -- what the code had in hand goes to the transfer, by the kind of descriptor
  refine h.exclusive.rename (fun fd b => match b with
    | .hand => if fd = x.file.fd then .file s.nextPtr
        else if fd = x.statFd ∨ fd = x.destFd then .channel s.nextPtr else .hand
    | b => b) ?_ fun fd _ hfd => Or.inl hfd
  intro o fd hgood ho
  cases o with
  | hand =>
      have hin : fd ∈ L := hsub.subset ho
      refine ⟨.hand, List.mem_cons_of_mem _ hin, ?_⟩
      have hnot : ¬ (fd = x.statFd ∨ fd = x.destFd) := by
        rintro (rfl | rfl)
        · exact herase _ hgood (List.mem_of_mem_erase ho)
        · refine herase _ hgood ?_
          exact ((List.erase_sublist (l := L)).erase x.destFd).subset ho
      simp only [if_neg (hout fd hgood hin), if_neg hnot]
  | file q =>
      by_cases hq : q = s.nextPtr
      · subst hq
        obtain ⟨y, hy, rfl⟩ := ho
        simp only [Server.enroll, Server.newXfer, Server.setXfer, Function.update_self,
          Option.some.injEq] at hy
        subst hy
        exact ⟨.hand, List.mem_cons_self, (if_pos rfl).symm⟩
      · exact ⟨.file q, by simpa [Server.Owns, Server.enroll, Server.newXfer, Server.setXfer, hq]
          using ho, rfl⟩
  | channel q =>
      by_cases hq : q = s.nextPtr
      · subst hq
        obtain ⟨y, hy, hfd⟩ := ho
        simp only [Server.enroll, Server.newXfer, Server.setXfer, Function.update_self,
          Option.some.injEq] at hy
        subst hy
        have hin : fd ∈ L := by
          rcases hfd with rfl | rfl
          · exact hstat
          · exact hdest hgood
        refine ⟨.hand, List.mem_cons_of_mem _ hin, ?_⟩
        simp only [if_neg (hout fd hgood hin), if_pos hfd]
      · exact ⟨.channel q, by simpa [Server.Owns, Server.enroll, Server.newXfer, Server.setXfer,
          hq] using ho, rfl⟩
  | socket => exact ⟨.socket, ho, rfl⟩
  | timer t => exact ⟨.timer t, ho, rfl⟩
  | resp r => exact ⟨.resp r, ho, rfl⟩

/-- Taking a transfer apart closes what it owned. -/
theorem closeAll (h : Descriptors good ⟨L, ⟨s, k⟩⟩) (ans : Answers)
    (hp : s.xferAt p = some x)
    (hown : ∀ o fd, s'.Owns L o fd → s.Owns L o fd ∧ o ≠ .file p ∧ o ≠ .channel p) :
    Descriptors good ⟨L, ⟨s', k.closeAll ans x⟩⟩ := by
  refine h.lose (List.Sublist.refl L) (fun o fd _ ho => (hown o fd ho).1)
    (fun fd hfd => Kernel.closeAll_subset ans k x hfd) fun fd _ hfd => ?_
  by_cases hchannel : fd = x.statFd ∨ fd = x.destFd
  · exact Or.inr ⟨.channel p, ⟨x, hp, hchannel⟩, fun ho => (hown _ _ ho).2.2 rfl⟩
  by_cases hfile : fd = x.file.fd
  · exact Or.inr ⟨.file p, ⟨x, hp, hfile⟩, fun ho => (hown _ _ ho).2.1 rfl⟩
  obtain ⟨hstat, hdest⟩ := not_or.mp hchannel
  have hspared := Kernel.closeAll_spares ans k hstat hdest hfile
  exact Or.inl ((Kernel.mem_congr hspared.lookup).mpr hfd)

theorem dismantle (h : Descriptors good ⟨L, ⟨s, k⟩⟩) (ans : Answers)
    (hp : s.xferAt p = some x)
    (hown : ∀ o fd, s'.Owns L o fd → s.Owns L o fd ∧ o ≠ .file p ∧ o ≠ .channel p) :
    Descriptors good ⟨L, ⟨s', k.dismantle ans x⟩⟩ := by
  have hdel : Descriptors good ⟨L, ⟨s, (k.epollDel x.destFd).2⟩⟩ :=
    h.same (List.Sublist.refl L) (Kernel.epollDel_fds k x.destFd) fun _ _ _ ho => ho
  exact hdel.closeAll ans hp hown

/-- The destination of a new transfer is one of the descriptors in hand. -/
def Entitled (good : Fd → Prop) (a : Action) (c : Config) : Prop :=
  ∀ x L, a = .enroll x → c.loose = x.file.fd :: L → good x.destFd → x.destFd ∈ L

/-- Every action keeps ownership exclusive. -/
theorem performs {a : Action} {c c' : Config} (hnonneg : ∀ fd, good fd → 0 ≤ fd)
    (ha : Entitled good a c) (hp : Performs a c c') (h : Descriptors good c) :
    Descriptors good c' := by
  cases hp with
  | quiet hL hs hk =>
      refine h.same hL hk.fds fun o fd _ ho =>
        ho.congr hs.reqfd (fun _ hfd => hL.subset hfd) ?_ ?_ ?_
      · exact fun q z hq => hs.xferAt ▸ hq
      · exact fun t tm ht => hs.timerAt ▸ ht
      · exact fun r rs hr => hs.respAt ▸ hr
  | say | seek | register | forget | balk =>
      exact h.same (List.Sublist.refl _) rfl fun _ _ _ ho => ho
  | openFile | openTimer | arrive | dup => exact h.opened rfl
  | @shut L s k fd ans hfd =>
      refine h.closed ans List.erase_sublist (fun o fd' ho => ?_) fun hgood hopen => ?_
      · exact ho.congr rfl (fun _ hin => List.mem_of_mem_erase hin) (fun _ _ hx => hx)
          (fun _ _ ht => ht) fun _ _ hr => hr
      · have hin : fd ∈ L := by
          rcases hfd with hin | hneg
          · exact hin
          · exact absurd (hnonneg fd hgood) (Int.not_le.mpr hneg)
        exact ⟨.hand, hin, h.notMem_erase hgood⟩
  | reshut ans hfd =>
      exact h.closed ans (List.Sublist.refl _) (fun _ _ ho => ho) fun _ hopen => absurd hopen hfd
  | enroll _ _ _ _ _ hstat => exact h.enroll hstat (ha _ _ rfl rfl)
  | skip =>
      exact h.same (List.Sublist.refl _) rfl fun _ _ _ ho => ho.congr rfl (fun _ hL => hL)
        (fun q z hq => (of_update_none hq).2) (fun _ _ ht => ht) fun _ _ hr => hr
  | @retire L s k p x ans hp =>
      refine h.takeBack (.channel p) x.channels (by simp) ?_ ?_ ?_ ?_ ?_
      · unfold ResrcXfer.channels
        split
        · simp
        · rename_i hne
          simp [Ne.symm hne]
      · intro fd hfd
        refine ⟨x, hp, ?_⟩
        unfold ResrcXfer.channels at hfd
        split at hfd <;> simp_all
      · intro o fd hhand ho
        have hdrop : (s.discard p x.txnid).Owns L o fd := ho.congr rfl (fun hh => absurd hh hhand)
          (fun _ _ hx => hx) (fun _ _ ht => ht) fun _ _ hr => hr
        exact ⟨hdrop.discard.1, hdrop.discard.2.2⟩
      · intro fd hfd
        rw [Kernel.close_fds, AList.mem_erase] at hfd
        exact hfd.2
      · intro fd _ hfd
        by_cases heq : fd = x.file.fd
        · refine Or.inr ⟨.file p, ⟨x, hp, heq⟩, by simp, ?_⟩
          rintro ⟨z, hz, -⟩
          exact (of_update_none hz).1 rfl
        · exact Or.inl ((Kernel.mem_congr (Kernel.close_lookup ans k heq)).mpr hfd)
  | discard ans hp => exact h.dismantle ans hp fun o fd ho => ho.discard
  | bury ans _ hp => exact h.dismantle ans hp fun o fd ho => ho.discard
  | cancel hp | ready hp =>
      exact h.same (List.Sublist.refl _) rfl fun o fd _ ho =>
        Server.Owns.setXfer (L := _) ho hp rfl rfl rfl
  | release _ hp =>
      exact h.same (List.Sublist.refl _) rfl fun o fd _ ho =>
        Server.Owns.setXfer (L := _) ho hp rfl rfl rfl
  | move ans hp _ _ _ hm =>
      exact h.same (List.Sublist.refl _) (Kernel.moveBytes_fds ans _ hm).1 fun o fd _ ho =>
        ho.setXfer hp rfl rfl rfl
  | @assign L s k p x fd hp _ hfd =>
      refine h.handOver (.channel p) hfd fun o fd' hhand ho => ?_
      cases o with
      | hand => exact absurd rfl hhand
      | socket | timer | resp => exact Or.inl ho
      | file q =>
          by_cases hq : q = p
          · subst hq
            obtain ⟨z, hz, hfd'⟩ := ho
            simp only [Server.setXfer, Function.update_self, Option.some.injEq] at hz
            subst hz
            exact Or.inl ⟨x, hp, hfd'⟩
          · exact Or.inl (by simpa [Server.Owns, Server.setXfer, hq] using ho)
      | channel q =>
          by_cases hq : q = p
          · subst hq
            obtain ⟨z, hz, hfd'⟩ := ho
            simp only [Server.setXfer, Function.update_self, Option.some.injEq] at hz
            subst hz
            rcases hfd' with hstat | hdest
            · exact Or.inl ⟨x, hp, Or.inl hstat⟩
            · exact Or.inr ⟨rfl, hdest⟩
          · exact Or.inl (by simpa [Server.Owns, Server.setXfer, hq] using ho)
  | @addTimer L s k tm hident =>
      refine h.same (List.Sublist.refl _) rfl fun o fd hgood ho => ?_
      cases o with
      | hand | socket | file | channel | resp => exact ho
      | timer t =>
          by_cases ht : t = s.nextPtr
          · subst ht
            obtain ⟨tm', htm', rfl⟩ := ho
            simp only [Server.addTimer, Server.newTimer, Server.setTimer, Function.update_self,
              Option.some.injEq] at htm'
            subst htm'
            have hneg := hnonneg _ hgood
            rw [hident] at hneg
            exact absurd hneg (by decide)
          · simpa [Server.Owns, Server.addTimer, Server.newTimer, Server.setTimer, ht] using ho
  | skipTimer =>
      exact h.same (List.Sublist.refl _) rfl fun _ _ _ ho => ho.congr rfl (fun _ hL => hL)
        (fun _ _ hx => hx) (fun t tm ht => (of_update_none ht).2) fun _ _ hr => hr
  | @arm L s k t tm fd ht _ _ hfd =>
      refine h.handOver (.timer t) hfd fun o fd' hhand ho => ?_
      cases o with
      | hand => exact absurd rfl hhand
      | socket | file | channel | resp => exact Or.inl ho
      | timer u =>
          by_cases hu : u = t
          · subst hu
            obtain ⟨tm', htm', hfd'⟩ := ho
            simp only [Server.setTimer, Function.update_self, Option.some.injEq] at htm'
            subst htm'
            exact Or.inr ⟨rfl, hfd'⟩
          · exact Or.inl (by simpa [Server.Owns, Server.setTimer, hu] using ho)
  | @expire L s k t tm ans ht =>
      refine h.closed ans (List.Sublist.refl _) (fun o fd' ho => ho.expire.1) fun _ _ => ?_
      exact ⟨.timer t, ⟨tm, ht, rfl⟩, fun ho => ho.expire.2 rfl⟩
  | botch ans ht hfd =>
      exact h.closed ans (List.Sublist.refl _) (fun o fd' ho => ho.expire.1) fun _ hopen =>
        absurd hopen hfd
  | @addResp L s k r f hfd =>
      have hgiven : Descriptors good ⟨L.erase r.statFd, ⟨s.newResp r, k⟩⟩ := ?_
      · exact hgiven.same (List.Sublist.refl _) rfl fun _ _ _ ho => ho
      refine h.handOver (.resp s.nextPtr) hfd fun o fd' hhand ho => ?_
      cases o with
      | hand => exact absurd rfl hhand
      | socket | file | channel | timer => exact Or.inl ho
      | resp q =>
          by_cases hq : q = s.nextPtr
          · subst hq
            obtain ⟨rs, hrs, hfd'⟩ := ho
            simp only [Server.newResp, Function.update_self, Option.some.injEq] at hrs
            subst hrs
            exact Or.inr ⟨rfl, hfd'⟩
          · exact Or.inl (by simpa [Server.Owns, Server.newResp, hq] using ho)
  | skipResp =>
      refine h.same (List.Sublist.refl _) rfl fun o fd _ ho =>
        ho.congr rfl (fun _ hL => hL) (fun _ _ hx => hx) (fun _ _ ht => ht) fun q rs hq => ?_
      exact (of_update_none hq).2
  | @dropResp L s k r resp ans hr =>
      refine h.closed ans (List.Sublist.refl _) (fun o fd' ho => ?_) fun _ _ => ?_
      · exact ho.congr rfl (fun _ hL => hL) (fun _ _ hx => hx) (fun _ _ ht => ht)
          fun q rs hq => (of_update_none hq).2
      · refine ⟨.resp r, ⟨resp, hr, rfl⟩, ?_⟩
        rintro ⟨rs, hrs, -⟩
        exact (of_update_none hrs).1 rfl

/-- A descriptor that keeps its owner keeps referring to the same open file, and the
poller keeps what is registered under it. -/
theorem spares {a : Action} {c c' : Config} (hp : Performs a c c') (h : Descriptors good c)
    {o : Owner} (hgood : good fd) (ho : c.world.srv.Owns c.loose o fd)
    (ho' : c'.world.srv.Owns c'.loose o fd) :
    Kernel.Spares fd c.world.kern c'.world.kern := by
  have hopen : fd ∈ c.world.kern.fds := h.exclusive.present o fd hgood ho
  have howner : ∀ o', c.world.srv.Owns c.loose o' fd → o' = o := fun o' ho'' =>
    h.exclusive.unique o' o fd hgood ho'' ho
  have hnew : ∀ f, (c.world.kern.install f).2.fds.lookup fd = c.world.kern.fds.lookup fd := by
    intro f
    obtain ⟨g, hg⟩ := Option.isSome_iff_exists.mp (AList.lookup_isSome.mpr hopen)
    rw [hg]
    exact Kernel.install_extends f _ fd g hg
  -- what is deleted with a transfer belonged to it
  have hdismantle : ∀ {p x txnid} (s' : Server) (ans : Answers), c.world.srv.xferAt p = some x →
      (s'.discard p txnid).Owns c.loose o fd →
      Kernel.Spares fd c.world.kern (c.world.kern.dismantle ans x) := by
    intro p x txnid s' ans hx hkept
    obtain ⟨-, hfile, hchannel⟩ := hkept.discard
    apply Kernel.dismantle_spares ans
    · exact fun heq => hchannel (howner (.channel p) ⟨x, hx, Or.inl heq⟩).symm
    · exact fun heq => hchannel (howner (.channel p) ⟨x, hx, Or.inr heq⟩).symm
    · exact fun heq => hfile (howner (.file p) ⟨x, hx, heq⟩).symm
  cases hp with
  | quiet _ _ hk => exact .of_eq hk.fds fun _ hreg => hk.regs ▸ hreg
  | say | seek | enroll | skip | cancel | ready | release | assign | balk
  | addTimer | skipTimer | arm | skipResp => exact .of_eq rfl fun _ hreg => hreg
  | register | addResp => exact .of_eq rfl fun _ hreg => List.mem_append_left _ hreg
  | @forget L s k n hn =>
      refine ⟨rfl, fun reg hreg _ hfile => List.mem_filter.mpr ⟨hreg, ?_⟩⟩
      rw [decide_eq_true_iff]
      exact hn ⟨fd, reg.file⟩ (AList.mem_lookup_iff.mp hfile)
  | openFile | openTimer | arrive | dup => exact ⟨hnew _, fun _ hreg _ _ => hreg⟩
  | @shut L s k fd' ans hfd =>
      apply Kernel.close_spares ans
      rintro rfl
      rcases hfd with hin | hneg
      · rw [← howner .hand hin] at ho'
        exact h.notMem_erase hgood ho'
      · exact absurd (h.nonneg fd hopen) (Int.not_le.mpr hneg)
  | reshut ans hfd =>
      apply Kernel.close_spares ans
      rintro rfl
      exact hfd hopen
  | @retire L s k p x ans hp =>
      apply Kernel.close_spares ans
      rintro rfl
      rw [← howner (.file p) ⟨x, hp, rfl⟩] at ho'
      obtain ⟨z, hz, -⟩ := ho'
      exact (of_update_none hz).1 rfl
  | @discard L s k p x ans hx => exact hdismantle s ans hx ho'
  | @bury L s k i p x ans _ hx => exact hdismantle (s.unlist i) ans hx ho'
  | move ans _ _ _ _ hm =>
      obtain ⟨hfds, hregs⟩ := Kernel.moveBytes_fds ans _ hm
      exact .of_eq hfds fun _ hreg => hregs ▸ hreg
  | @expire L s k t tm ans ht =>
      apply Kernel.close_spares ans
      rintro rfl
      exact ho'.expire.2 (howner (.timer t) ⟨tm, ht, rfl⟩).symm
  | botch ans ht hfd =>
      apply Kernel.close_spares ans
      rintro rfl
      exact hfd hopen
  | @dropResp L s k r resp ans hr =>
      apply Kernel.close_spares ans
      rintro rfl
      rw [← howner (.resp r) ⟨resp, hr, rfl⟩] at ho'
      obtain ⟨rs, hrs, -⟩ := ho'
      exact (of_update_none hrs).1 rfl

end Descriptors

/-- When the loop starts, nobody owns anything but the request socket. -/
theorem Initial.descriptors {s : State} (h : Initial s) (good : Fd → Prop) :
    Descriptors good s.config := by
  obtain ⟨hxfers, htimers, hresps⟩ := h.empty
  obtain ⟨hphase, reqfd, _, _, _, -, -, hnew, hkern⟩ := h
  have hloose : s.config.loose = [] := by simp [State.config, hphase]
  have hreqfd : s.world.srv.reqfd = reqfd := by
    unfold srvNew at hnew
    split at hnew
    · rw [← Option.some.inj hnew]
    · cases hnew
  have hsocket : ∀ o fd, s.config.world.srv.Owns s.config.loose o fd →
      o = .socket ∧ fd = reqfd := by
    intro o fd ho
    rw [hloose, show s.config.world = s.world from rfl] at ho
    cases o with
    | hand => cases ho
    | socket => exact ⟨rfl, ho.trans hreqfd⟩
    | file p | channel p =>
        obtain ⟨x, hx, -⟩ := ho
        rw [hxfers] at hx
        cases hx
    | timer t =>
        obtain ⟨tm, ht, -⟩ := ho
        rw [htimers] at ht
        cases ht
    | resp r =>
        obtain ⟨rs, hr, -⟩ := ho
        rw [hresps] at hr
        cases hr
  refine ⟨fun fd hfd => ?_, ⟨?_, ?_⟩, ?_⟩
  · obtain ⟨f, hf⟩ := Option.isSome_iff_exists.mp (AList.lookup_isSome.mpr hfd)
    exact (hkern.inherited fd f hf).1
  · intro o fd _ ho
    rw [(hsocket o fd ho).2]
    exact hkern.reqfd_open
  · intro o o' fd _ ho ho'
    rw [(hsocket o fd ho).1, (hsocket o' fd ho').1]
  · intro fd _
    rw [hloose]
    exact Nat.zero_le _

end Sendfiled
