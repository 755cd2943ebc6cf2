/-
Exact delivery.  The server reads a file through a descriptor that nothing else uses, so
what a transfer has written is always the part of the file up to its position.
-/
import Sendfiled.Creation
import Sendfiled.Endings
import Sendfiled.Guards

namespace Sendfiled

open Prog Transition

variable {ans : Answers} {l : Label} {s s' : State} {a : Action} {c c' : Config} {p : Ptr}
  {x y : ResrcXfer}

namespace Kernel

variable {k k' : Kernel}

theorem close_files (fd : Fd) : (k.close ans fd).2.files = k.files := by
  unfold close
  split <;> rfl

theorem dismantle_files : (k.dismantle ans x).files = k.files := by
  have hdel : (k.epollDel x.destFd).2.files = k.files := by
    unfold epollDel
    split
    · rfl
    · split <;> rfl
  unfold dismantle closeAll closeDest
  rw [close_files]
  split
  · rw [close_files, close_files, hdel]
  · rw [close_files, hdel]

/-- A descriptor after one was given out. -/
theorem lookup_install {f g : OpenFile} {fd : Fd}
    (h : (k.install g).2.fds.lookup fd = some f) :
    k.fds.lookup fd = some f ∨ (fd = k.fileFd ∧ f = g) := by
  by_cases heq : fd = k.fileFd
  · right
    refine ⟨heq, ?_⟩
    rw [heq, show (k.install g).2.fds = k.fds.insert k.fileFd g from rfl, AList.lookup_insert] at h
    exact (Option.some.inj h).symm
  · left
    rwa [show (k.install g).2.fds = k.fds.insert k.fileFd g from rfl,
      AList.lookup_insert_ne heq] at h

theorem fileFd_notMem (k : Kernel) : k.fileFd ∉ k.fds := by
  intro hmem
  exact lowestFree_notMem k.fds.keys (AList.mem_keys.mp hmem)

theorem fileFd_pos (h0 : (0 : Fd) ∈ k.fds) : 0 < k.fileFd := by
  have hnonneg : (0 : Int) ≤ k.fileFd := lowestFree_nonneg k.fds.keys
  have hne : (0 : Int) ≠ k.fileFd := fun heq => fileFd_notMem k (heq ▸ h0)
  change (0 : Int) < k.fileFd
  omega

end Kernel

/-- Every file the server has opened has one descriptor, which is not zero, and is no
status channel. -/
structure Filed (c : Config) : Prop where
  numbered : c.world.kern.Numbered
  descriptors : Descriptors (0 < ·) c
  pos : ∀ fd n, c.world.kern.fds.lookup fd = some (.file n) → 0 < fd
  once : ∀ fd fd' n, c.world.kern.fds.lookup fd = some (.file n) →
    c.world.kern.fds.lookup fd' = some (.file n) → fd = fd'
  stat : ∀ p x n, c.world.srv.xferAt p = some x →
    c.world.kern.fds.lookup x.statFd ≠ some (.file n)

namespace Filed

/-- A descriptor of a file was there before, or the file has just been opened. -/
theorem lookup_file (h : Filed c) (hp : Performs a c c') {fd : Fd} {n : Nat}
    (hf : c'.world.kern.fds.lookup fd = some (.file n)) :
    c.world.kern.fds.lookup fd = some (.file n) ∨
      (n = c.world.kern.nextFile ∧ fd = c.world.kern.fileFd ∧ 0 < fd) := by
  cases hp with
  | quiet _ _ hk => exact Or.inl (hk.fds ▸ hf)
  | say | seek | register | forget | enroll | skip | cancel | ready | release | assign | balk
  | addTimer | skipTimer | arm | addResp | skipResp => exact Or.inl hf
  | openFile h0 =>
      rcases Kernel.lookup_install hf with hold | ⟨rfl, hnew⟩
      · exact Or.inl hold
      · cases hnew
        exact Or.inr ⟨rfl, rfl, Kernel.fileFd_pos h0⟩
  | openTimer | arrive =>
      rcases Kernel.lookup_install hf with hold | ⟨-, hnew⟩
      · exact Or.inl hold
      · cases hnew
  | dup hx hstat =>
      rcases Kernel.lookup_install hf with hold | ⟨-, rfl⟩
      · exact Or.inl hold
      · exact absurd hstat (h.stat _ _ n hx)
  | shut | reshut | retire | expire | botch | dropResp => exact Or.inl (Kernel.lookup_of_close hf)
  | discard | bury => exact Or.inl (Kernel.lookup_of_dismantle hf)
  | move ans _ _ _ _ hm => exact Or.inl ((Kernel.moveBytes_fds ans _ hm).1 ▸ hf)

theorem performs (h : Filed c) (hp : Performs a c c') : Filed c' := by
  have hnew : ∀ fd, c.world.kern.fds.lookup fd ≠ some (.file c.world.kern.nextFile) :=
    fun fd hfd => Nat.lt_irrefl _ (h.numbered.fds fd _ hfd)
  refine ⟨h.numbered.performs hp, h.descriptors.performs_pos hp, fun fd n hf => ?_,
    fun fd fd' n hf hf' => ?_, fun q y n hy hf => ?_⟩
  · rcases h.lookup_file hp hf with hold | ⟨-, -, hpos⟩
    · exact h.pos fd n hold
    · exact hpos
  · rcases h.lookup_file hp hf with hold | ⟨rfl, rfl, -⟩ <;>
      rcases h.lookup_file hp hf' with hold' | ⟨heq, rfl, -⟩
    · exact h.once fd fd' n hold hold'
    · exact absurd (heq ▸ hold) (hnew fd)
    · exact absurd hold' (hnew fd')
    · rfl
  · rcases h.lookup_file hp hf with hold | ⟨-, hfd, hpos⟩
    · rcases hp.evolves hy with ⟨-, rfl⟩ | ⟨x, hx, hevolves⟩
      · cases hp with
        | enroll _ _ _ _ _ _ _ _ hkind => exact hkind n hold
      · rw [hevolves.statFd] at hold
        exact h.stat q x n hx hold
    · rcases hp.evolves hy with ⟨-, rfl⟩ | ⟨x, hx, hevolves⟩
      · cases hp with
        | enroll _ _ _ _ _ _ _ _ hkind => exact hkind n hf
      · rw [hevolves.statFd] at hfd hpos
        -- a status channel is open, so its number is not given out
        have hmem := h.descriptors.exclusive.present (.channel q) x.statFd hpos
          ⟨x, hx, Or.inl rfl⟩
        rw [hfd] at hmem
        exact Kernel.fileFd_notMem _ hmem

/-- Only the transfer itself reads from its file. -/
theorem files (h : Filed c) (hp : Performs a c c') (hx : c.world.srv.xferAt p = some x) {n : Nat}
    (hn : c.world.kern.fds.lookup x.file.fd = some (.file n)) (ha : a ≠ .move p) :
    c'.world.kern.files n = c.world.kern.files n := by
  -- the owner of the descriptor of file `n`
  have howner : ∀ o fd, c.world.kern.fds.lookup fd = some (.file n) →
      c.world.srv.Owns c.loose o fd → o = .file p := by
    intro o fd hfd ho
    have heq := h.once fd x.file.fd n hfd hn
    rw [heq] at ho
    exact h.descriptors.exclusive.unique o (.file p) x.file.fd (h.pos _ n hn) ho ⟨x, hx, rfl⟩
  cases hp with
  | quiet _ _ hk => rw [hk.files]
  | say | openTimer | arrive | dup | register | forget | enroll | skip | cancel | ready | release
  | assign | balk | addTimer | skipTimer | arm | addResp | skipResp => rfl
  | shut | reshut | retire | expire | botch | dropResp => rw [Kernel.close_files]
  | discard | bury => rw [Kernel.dismantle_files]
  | openFile =>
      refine Function.update_of_ne ?_ _ _
      exact Nat.ne_of_lt (h.numbered.fds _ _ hn)
  | seek hfd hm =>
      refine Function.update_of_ne ?_ _ _
      rintro rfl
      cases howner .hand _ hm hfd
  | @move _ _ k _ q z _ _ ans hq _ _ _ hm =>
      have hne : ∀ m, k.fds.lookup z.file.fd = some (.file m) → n ≠ m := by
        rintro m hz rfl
        cases howner (.file q) _ hz ⟨z, hq, rfl⟩
        exact ha rfl
      unfold Kernel.moveBytes at hm
      repeat' split at hm
      all_goals cases hm
      · exact Function.update_of_ne (hne _ (by assumption)) _ _
      · rfl

end Filed

/-- The bytes of a file from an offset on. -/
def FileNode.slice (node : FileNode) (offset n : Nat) : List UInt8 :=
  (List.range n).map fun i => node.byte (offset + i)

theorem FileNode.length_slice (node : FileNode) (offset n : Nat) :
    (node.slice offset n).length = n := by
  simp [slice]

theorem FileNode.slice_add (node : FileNode) (offset n m : Nat) :
    node.slice offset (n + m) = node.slice offset n ++ node.slice (offset + n) m := by
  simp [slice, List.range_add, Nat.add_assoc]

/-- Data that `moveBytes` has moved from a file. -/
theorem Kernel.moveBytes_file {k k' : Kernel} {fdIn fdOut : Fd} {n count m start pos : Nat}
    {node : FileNode} (hn : k.fds.lookup fdIn = some (.file n))
    (hfile : k.files n = some ⟨node, start, pos⟩)
    (h : k.moveBytes ans p fdIn fdOut count = (.ok m, k')) :
    m ≤ count ∧ k'.trace = k.trace ++ [.moved p fdOut (node.slice pos m)] ∧
      k'.files n = some ⟨node, start, pos + m⟩ := by
  unfold Kernel.moveBytes at h
  rw [hn] at h
  cases hout : k.fds.lookup fdOut with
  | none =>
      rw [hout] at h
      cases h
  | some f =>
      cases hio : ans.io k.tick count with
      | error e =>
          simp only [hout, hio] at h
          cases h
      | ok answer =>
          simp only [hout, hio, hfile] at h
          cases h
          exact ⟨Nat.min_le_right _ _, rfl, Function.update_self ..⟩

/-- What is known of the transfer `p` of `size` bytes of a file from an offset on: what was
written is the file up to the position of its descriptor, and it is counted. -/
structure Delivery (node : FileNode) (offset size : Nat) (p : Ptr) (c : Config) : Prop where
  known : p < c.world.srv.nextPtr
  bytes : movedBy p c.world.kern.trace =
    node.slice offset (movedBy p c.world.kern.trace).length
  atMost : (movedBy p c.world.kern.trace).length ≤ size
  file : ∀ x, c.world.srv.xferAt p = some x →
    ∃ n, c.world.kern.fds.lookup x.file.fd = some (.file n) ∧ c.world.kern.files n =
      some ⟨node, offset, offset + (movedBy p c.world.kern.trace).length⟩
  left : ∀ x, c.world.srv.xferAt p = some x →
    x.nbytesLeft.toNat + (movedBy p c.world.kern.trace).length = size
  whole : ∀ x, c.world.srv.xferAt p = some x → x.file.size.toNat = size
  dest : ∀ x fd bytes, c.world.srv.xferAt p = some x →
    Effect.moved p fd bytes ∈ c.world.kern.trace → fd = x.destFd ∧ x.cmd ≠ .fileOpen
  announced : ∀ fd sz atime mtime ctime txnid result,
    Effect.sent (some p) fd (.fileInfo sz atime mtime ctime txnid) result ∈
      c.world.kern.trace → sz = size
  told : ∀ before after fd pdu result,
    c.world.kern.trace = before ++ .sent (some p) fd pdu result :: after →
    pdu.xferComplete = true → (movedBy p before).length = size
  held : ∀ r resp, c.world.srv.respAt r = some resp → resp.xfer = p →
    resp.pdu.xferComplete = true → (movedBy p c.world.kern.trace).length = size
  plain : ∀ r resp, c.world.srv.respAt r = some resp → resp.xfer = p →
    ∀ sz atime mtime ctime txnid, resp.pdu ≠ .fileInfo sz atime mtime ctime txnid

/-- Data is moved, and messages are written, by the actions for it only. -/
theorem Performs.spoken (h : Performs a c c') :
    ∃ tr, c'.world.kern.trace = c.world.kern.trace ++ tr ∧ ∀ e ∈ tr,
      (∀ q fd bytes, e = .moved q fd bytes → a = .move q) ∧
      ∀ q fd pdu result, e = .sent q fd pdu result → a = .say q fd pdu := by
  obtain ⟨R, hR, hwrites⟩ := h.records
  refine ⟨_, hR.trace, fun e he => ?_⟩
  obtain ⟨entry, hentry, rfl⟩ := List.mem_map.mp he
  rcases hwrites entry hentry with ⟨fd, b, heq⟩ | hwrites
  · rw [heq]
    exact ⟨nofun, nofun⟩
  · cases hwrites with
    | say =>
        refine ⟨nofun, fun q fd pdu result heq => ?_⟩
        cases heq
        rfl
    | move =>
        refine ⟨fun q fd bytes heq => ?_, nofun⟩
        cases heq
        rfl
    | balk => exact ⟨nofun, nofun⟩

/-- An open file is given its destination once. -/
def sendsOnce (p : Ptr) (a : Action) (c : Config) : Prop :=
  ∀ fd x, a = .assign p fd → c.world.srv.xferAt p = some x → x.cmd = .fileOpen

namespace Delivery

variable {node : FileNode} {offset size : Nat}

/-- Calls that move nothing, and tell of completion only when everything was moved. -/
theorem told_append (h : Delivery node offset size p c) {tr : List Effect}
    (hmoved : movedBy p tr = [])
    (hnew : ∀ fd pdu result, Effect.sent (some p) fd pdu result ∈ tr → pdu.xferComplete = true →
      (movedBy p c.world.kern.trace).length = size)
    {before after : List Effect} {fd : Fd} {pdu : Pdu} {result : Except Errno Nat}
    (htrace : c.world.kern.trace ++ tr = before ++ .sent (some p) fd pdu result :: after)
    (hcomplete : pdu.xferComplete = true) : (movedBy p before).length = size := by
  rcases List.append_eq_append_iff.mp htrace with ⟨mid, rfl, rfl⟩ | ⟨mid, hold, hrest⟩
  · rw [movedBy_append] at hmoved ⊢
    rw [(List.append_eq_nil_iff.mp hmoved).1, List.append_nil]
    exact hnew fd pdu result (by simp) hcomplete
  · cases mid with
    | nil =>
        rw [List.nil_append] at hrest
        rw [List.append_nil] at hold
        rw [← hold]
        exact hnew fd pdu result (by simp [← hrest]) hcomplete
    | cons e mid =>
        obtain ⟨rfl, -⟩ := List.cons.inj hrest
        exact h.told before mid fd pdu result hold hcomplete

/-- A message that tells of completion is written when everything was moved. -/
theorem of_maySay (h : Delivery node offset size p c) {pdu : Pdu}
    (hsay : c.world.srv.MaySay (some p) pdu) (hcomplete : pdu.xferComplete = true) :
    (movedBy p c.world.kern.trace).length = size := by
  rcases hsay with hcomposes | ⟨r, resp, hr, heq, rfl⟩
  · cases pdu with
    | hdr | fileInfo => cases hcomplete
    | xferStat sz =>
        obtain ⟨x, hx, hsize⟩ := hcomposes
        have hleft := h.left x hx
        rw [hsize.resolve_left (not_not.mpr (beq_iff_eq.mp hcomplete))] at hleft
        simpa using hleft
  · exact h.held r resp hr (Option.some.inj heq).symm hcomplete

/-- The file's information gives the size of the transfer. -/
theorem size_of_maySay (h : Delivery node offset size p c) {sz atime mtime ctime txnid : Nat}
    (hsay : c.world.srv.MaySay (some p) (.fileInfo sz atime mtime ctime txnid)) : sz = size := by
  rcases hsay with ⟨x, hx, rfl, -⟩ | ⟨r, resp, hr, heq, hpdu⟩
  · exact h.whole x hx
  · exact absurd hpdu.symm (h.plain r resp hr (Option.some.inj heq).symm _ _ _ _ _)

/-- A transfer that is live after an action was live before. -/
theorem evolves (h : Delivery node offset size p c) (hp : Performs a c c')
    (hy : c'.world.srv.xferAt p = some y) :
    ∃ x, c.world.srv.xferAt p = some x ∧ Evolves a p x y := by
  rcases hp.evolves hy with ⟨hnew, -⟩ | hlive
  · exact absurd h.known (hnew ▸ Nat.lt_irrefl _)
  · exact hlive

/-- The pending responses after an action. -/
theorem responses (h : Delivery node offset size p c) (hp : Performs a c c') {r : Ptr}
    {resp : ResrcResp} (hr : c'.world.srv.respAt r = some resp) (hxfer : resp.xfer = p) :
    (resp.pdu.xferComplete = true → (movedBy p c.world.kern.trace).length = size) ∧
      ∀ sz atime mtime ctime txnid, resp.pdu ≠ .fileInfo sz atime mtime ctime txnid := by
  have hold : c.world.srv.respAt r = some resp →
      (resp.pdu.xferComplete = true → (movedBy p c.world.kern.trace).length = size) ∧
      ∀ sz atime mtime ctime txnid, resp.pdu ≠ .fileInfo sz atime mtime ctime txnid :=
    fun hr => ⟨h.held r resp hr hxfer, h.plain r resp hr hxfer⟩
  rcases hp.respAt_cases with ⟨hsame, -⟩ | ⟨new, rfl, hset, -⟩ | ⟨-, hset⟩ | ⟨q, -, -, -, hset⟩
  · exact hold (hsame ▸ hr)
  · rw [hset] at hr
    by_cases heq : r = c.world.srv.nextPtr
    · rw [heq, Function.update_self] at hr
      cases hr
      cases hp with
      | addResp _ _ _ _ hpdu hkind =>
          refine ⟨fun hcomplete => ?_, hkind⟩
          obtain ⟨x, hx, hzero⟩ := hpdu hcomplete
          have hleft := h.left x (hxfer ▸ hx)
          rw [hzero] at hleft
          simpa using hleft
    · rw [Function.update_of_ne heq] at hr
      exact hold hr
  · rw [hset] at hr
    exact hold (of_update_none hr).2
  · rw [hset] at hr
    exact hold (of_update_none hr).2

/-- All actions but the transfer of data leave the count alone. -/
theorem other (h : Delivery node offset size p c) (hf : Filed c) (ha : sendsOnce p a c)
    (hp : Performs a c c') (hmove : a ≠ .move p) : Delivery node offset size p c' := by
  obtain ⟨tr, htr, hspoken⟩ := hp.spoken
  have hnone : ∀ fd bytes, Effect.moved p fd bytes ∉ tr :=
    fun fd bytes hmem => hmove ((hspoken _ hmem).1 p fd bytes rfl)
  have hmoved : movedBy p tr = [] := by
    apply List.flatMap_eq_nil_iff.mpr
    intro e he
    cases e with
    | moved q fd bytes =>
        have hne : q ≠ p := by
          rintro rfl
          exact hnone fd bytes he
        simp [Effect.bytesFor, hne]
    | sent | failed | closed => rfl
  have hsame : movedBy p c'.world.kern.trace = movedBy p c.world.kern.trace := by
    rw [htr, movedBy_append, hmoved, List.append_nil]
  -- what is said on behalf of the transfer may be said
  have hsay : ∀ fd pdu result, Effect.sent (some p) fd pdu result ∈ tr →
      c.world.srv.MaySay (some p) pdu := by
    intro fd pdu result hmem
    have hact := (hspoken _ hmem).2 _ _ _ _ rfl
    subst hact
    cases hp with
    | say hsay => exact hsay
  have hleft : ∀ x y, Evolves a p x y → y.nbytesLeft = x.nbytesLeft := fun x y hevolves =>
    hevolves.left.resolve_right fun hmoves => hmove hmoves.1
  refine ⟨Nat.lt_of_lt_of_le h.known hp.nextPtr_le, ?_, ?_, fun y hy => ?_, fun y hy => ?_,
    fun y hy => ?_, fun y fd bytes hy hmem => ?_, fun fd sz at_ mt ct txnid result hmem => ?_, ?_,
    fun r resp hr hxfer => ?_, fun r resp hr hxfer => (h.responses hp hr hxfer).2⟩
  · rw [hsame]
    exact h.bytes
  · rw [hsame]
    exact h.atMost
  · obtain ⟨x, hx, hevolves⟩ := h.evolves hp hy
    obtain ⟨n, hn, hfile⟩ := h.file x hx
    have hspares := Descriptors.spares hp hf.descriptors (o := .file p) (hf.pos _ n hn)
      ⟨x, hx, rfl⟩ ⟨y, hy, by rw [hevolves.file]⟩
    rw [hevolves.file, hsame]
    exact ⟨n, hspares.lookup.trans hn, (hf.files hp hx hn hmove).trans hfile⟩
  · obtain ⟨x, hx, hevolves⟩ := h.evolves hp hy
    rw [hsame, hleft x y hevolves]
    exact h.left x hx
  · obtain ⟨x, hx, hevolves⟩ := h.evolves hp hy
    rw [hevolves.file]
    exact h.whole x hx
  · obtain ⟨x, hx, hevolves⟩ := h.evolves hp hy
    rw [htr] at hmem
    have hold := (List.mem_append.mp hmem).resolve_right (hnone fd bytes)
    obtain ⟨hdest, hcmd⟩ := h.dest x fd bytes hx hold
    rcases hevolves.cmd with ⟨hcmd', hdest'⟩ | ⟨-, hassign⟩
    · exact ⟨hdest.trans hdest'.symm, fun hopen => hcmd (hcmd'.symm.trans hopen)⟩
    · exact absurd (ha _ x hassign hx) hcmd
  · rw [htr] at hmem
    rcases List.mem_append.mp hmem with hold | hnew
    · exact h.announced fd sz at_ mt ct txnid result hold
    · exact h.size_of_maySay (hsay _ _ _ hnew)
  · intro before after fd pdu result htrace hcomplete
    rw [htr] at htrace
    exact h.told_append hmoved
      (fun fd pdu result hmem => h.of_maySay (hsay fd pdu result hmem)) htrace hcomplete
  · rw [hsame]
    exact (h.responses hp hr hxfer).1

/-- Data is moved from where the last transfer of data ended, and no more of it than is
left. -/
theorem moves (h : Delivery node offset size p c) (hp : Performs (.move p) c c') :
    Delivery node offset size p c' := by
  cases hp with
  | @move L s k k' _ x n m ans hx hdefer hcmd hn hm =>
      obtain ⟨f, hfd, hfile⟩ := h.file x hx
      obtain ⟨hle, htr, hfile'⟩ := Kernel.moveBytes_file hfd hfile hm
      have hleft := h.left x hx
      have hfds := (Kernel.moveBytes_fds ans _ hm).1
      have hlen : (movedBy p k'.trace).length = (movedBy p k.trace).length + m := by
        rw [htr, movedBy_append, List.length_append]
        simp [movedBy, Effect.bytesFor, FileNode.length_slice]
      have hsub : (x.nbytesLeft - BitVec.ofNat 64 m).toNat = x.nbytesLeft.toNat - m := by
        have hlt := x.nbytesLeft.isLt
        rw [BitVec.toNat_sub, BitVec.toNat_ofNat]
        omega
      dsimp only at hleft
      have hset : ∀ y, (s.setXfer p { x with
          nbytesLeft := x.nbytesLeft - BitVec.ofNat 64 m }).xferAt p = some y →
          y = { x with nbytesLeft := x.nbytesLeft - BitVec.ofNat 64 m } := by
        intro y hy
        simpa [Server.setXfer, eq_comm] using hy
      refine ⟨h.known, ?_, ?_, fun y hy => ?_, fun y hy => ?_, fun y hy => ?_,
        fun y fd bytes hy hmem => ?_, fun fd sz atime mtime ctime txnid result hmem => ?_, ?_,
        fun r resp hr hxfer hcomplete => ?_, h.plain⟩
      · change movedBy p k'.trace = node.slice offset (movedBy p k'.trace).length
        rw [hlen, FileNode.slice_add, ← h.bytes, htr, movedBy_append]
        simp [movedBy, Effect.bytesFor]
      · change (movedBy p k'.trace).length ≤ size
        omega
      · obtain rfl := hset y hy
        refine ⟨f, hfds ▸ hfd, ?_⟩
        change k'.files f = some ⟨node, offset, offset + (movedBy p k'.trace).length⟩
        rw [hfile', hlen, Nat.add_assoc]
      · obtain rfl := hset y hy
        change (x.nbytesLeft - BitVec.ofNat 64 m).toNat + (movedBy p k'.trace).length = size
        omega
      · obtain rfl := hset y hy
        exact h.whole x hx
      · obtain rfl := hset y hy
        dsimp only at hmem
        rw [htr] at hmem
        rcases List.mem_append.mp hmem with hold | hnew
        · exact h.dest x fd bytes hx hold
        · cases List.mem_singleton.mp hnew
          refine ⟨rfl, fun hopen => ?_⟩
          dsimp only at hopen
          rw [hopen] at hcmd
          rcases hcmd with hcmd | hcmd <;> cases hcmd
      · dsimp only at hmem
        rw [htr] at hmem
        rcases List.mem_append.mp hmem with hold | hnew
        · exact h.announced fd sz atime mtime ctime txnid result hold
        · cases List.mem_singleton.mp hnew
      · intro before after fd pdu result htrace hcomplete
        dsimp only at htrace
        rw [htr] at htrace
        rcases List.append_eq_append_iff.mp htrace with ⟨mid, -, hrest⟩ | ⟨mid, hold, hrest⟩
        · cases mid with
          | nil => cases hrest
          | cons e mid => simp at hrest
        · cases mid with
          | nil => cases hrest
          | cons e mid =>
              obtain ⟨rfl, -⟩ := List.cons.inj hrest
              exact h.told before mid fd pdu result hold hcomplete
      · have hfull := h.held r resp hr hxfer hcomplete
        change (movedBy p k'.trace).length = size
        dsimp only at hfull
        omega

theorem performs (h : Delivery node offset size p c) (hf : Filed c) (ha : sendsOnce p a c)
    (hp : Performs a c c') : Delivery node offset size p c' := by
  by_cases hmove : a = .move p
  · subst hmove
    exact h.moves hp
  · exact h.other hf ha hp hmove

/-- The shutdown closes descriptors only. -/
theorem cleared {w w' : World} {L : List Fd} (h : Delivery node offset size p ⟨L, w⟩)
    (hcleared : Cleared w w') : Delivery node offset size p ⟨L, w'⟩ := by
  obtain ⟨tr, htr, honly, -⟩ := hcleared.trace
  have hmoved := honly.movedBy p
  have hsame : movedBy p w'.kern.trace = movedBy p w.kern.trace := by
    rw [htr, movedBy_append, hmoved, List.append_nil]
  have hgone : ∀ x, w'.srv.xferAt p ≠ some x := by
    intro x hx
    rw [hcleared.xferAt] at hx
    cases hx
  refine ⟨hcleared.nextPtr ▸ h.known, ?_, ?_, fun x hx => absurd hx (hgone x),
    fun x hx => absurd hx (hgone x), fun x hx => absurd hx (hgone x),
    fun x _ _ hx => absurd hx (hgone x), fun fd sz atime mtime ctime txnid result hmem => ?_, ?_,
    ?_, ?_⟩
  · change movedBy p w'.kern.trace = node.slice offset (movedBy p w'.kern.trace).length
    rw [hsame]
    exact h.bytes
  · change (movedBy p w'.kern.trace).length ≤ size
    rw [hsame]
    exact h.atMost
  · dsimp only at hmem
    rw [htr] at hmem
    rcases List.mem_append.mp hmem with hold | hnew
    · exact h.announced fd sz atime mtime ctime txnid result hold
    · obtain ⟨_, _, hclosed⟩ := honly _ hnew
      cases hclosed
  · intro before after fd pdu result htrace hcomplete
    dsimp only at htrace
    rw [htr] at htrace
    refine h.told_append hmoved (fun fd pdu result hmem => ?_) htrace hcomplete
    obtain ⟨_, _, hclosed⟩ := honly _ hmem
    cases hclosed
  · intro r resp hr
    change (resp.xfer = p → _ → (movedBy p w'.kern.trace).length = size)
    rw [hsame]
    exact h.held r resp (hcleared.respAt ▸ hr)
  · exact fun r resp hr => h.plain r resp (hcleared.respAt ▸ hr)

end Delivery

/-- A new transfer has moved nothing yet. -/
theorem Minted.delivery (hm : Minted c.world) {node : FileNode} {start : Nat}
    (hp : Performs (.enroll x) c c') (hpos : c.world.kern.Positioned x.file.fd node start) :
    Delivery node start x.file.size.toNat c.world.srv.nextPtr c' := by
  have hfresh : ∀ e ∈ c.world.kern.trace, e.onBehalf ≠ some c.world.srv.nextPtr :=
    fun e he hbehalf => Nat.lt_irrefl _ (hm.trace e he _ hbehalf)
  have hnil : movedBy c.world.srv.nextPtr c.world.kern.trace = [] := by
    apply List.flatMap_eq_nil_iff.mpr
    intro e he
    cases e with
    | moved q fd bytes =>
        have hne : q ≠ c.world.srv.nextPtr := fun heq => hfresh _ he (by rw [heq]; rfl)
        simp [Effect.bytesFor, hne]
    | sent | failed | closed => rfl
  have hresps : ∀ r resp, c.world.srv.respAt r = some resp → resp.xfer ≠ c.world.srv.nextPtr :=
    fun r resp hr => Nat.ne_of_lt (hm.resp r resp hr).2
  cases hp with
  | @enroll L s k _ _ _ _ _ _ _ hleft =>
      have hset : ∀ y, (s.enroll x).xferAt s.nextPtr = some y → y = x := by
        intro y hy
        rw [show (s.enroll x).xferAt s.nextPtr = some x from Function.update_self ..] at hy
        exact (Option.some.inj hy).symm
      dsimp only at hfresh hnil hresps
      refine ⟨Nat.lt_succ_self _, ?_, ?_, fun y hy => ?_, fun y hy => ?_, fun y hy => ?_,
        fun y fd bytes hy hmem => absurd rfl (hfresh _ hmem),
        fun fd sz atime mtime ctime txnid result hmem => absurd rfl (hfresh _ hmem),
        fun before after fd pdu result htrace _ => ?_,
        fun r resp hr hxfer => absurd hxfer (hresps r resp hr),
        fun r resp hr hxfer => absurd hxfer (hresps r resp hr)⟩
      · dsimp only
        rw [hnil]
        rfl
      · dsimp only
        rw [hnil]
        exact Nat.zero_le _
      · obtain rfl := hset y hy
        obtain ⟨n, hn, hfile⟩ := hpos
        refine ⟨n, hn, ?_⟩
        dsimp only
        rw [hnil]
        exact hfile
      · obtain rfl := hset y hy
        dsimp only
        rw [hnil, hleft]
        rfl
      · obtain rfl := hset y hy
        rfl
      · have hmem : Effect.sent (some s.nextPtr) fd pdu result ∈ k.trace := by
          rw [show k.trace = _ from htrace]
          simp
        exact absurd rfl (hfresh _ hmem)

/-- The next request is a SEND_OPEN for a transfer that has its destination already. -/
def State.reassigns (p : Ptr) (l : Label) (s : State) : Bool :=
  match l, s.phase with
  | .request, .requested r _ => (s.world.srv.namedBy .sendOpen r).any fun named =>
      named.1 == p && named.2.cmd != .fileOpen && named.2.defer != .cancel
  | _, _ => false

/-- The steps that leave the destination of a transfer alone once it has one. -/
def FixesDest (p : Ptr) (l : Answers × Label) (s : State) : Prop := s.reassigns p l.2 = false

instance (p : Ptr) (l : Answers × Label) (s : State) : Decidable (FixesDest p l s) :=
  inferInstanceAs (Decidable (_ = _))

/-- The steps that leave the destination of a transfer alone, where every request brings the
descriptors it needs. -/
def Undiverted (p : Ptr) (l : Answers × Label) (s : State) : Prop :=
  FixesDest p l s ∧ Proper l s

instance (p : Ptr) (l : Answers × Label) (s : State) : Decidable (Undiverted p l s) :=
  inferInstanceAs (Decidable (_ ∧ _))

theorem FixesDest.sendsOnce (hg : FixesDest p (ans, l) s) (ha : StepMay ans l s a c) :
    sendsOnce p a c := by
  rintro fd x rfl hx
  obtain ⟨r, rest, txnid, y, rfl, hphase, huid, hnfds, htxnid, hfind, hy, hpid, hdefer, -, rfl⟩ :=
    ha.assign_cases
  cases hx.symm.trans hy
  by_contra hcmd
  have hnamed := Server.namedBy_eq huid (fun _ => Nat.ne_of_gt (hnfds ?_)) htxnid hfind hy hpid
  · simp [FixesDest, State.reassigns, hphase, hnamed, hcmd, hdefer] at hg
  · rw [protUnmarshalTxnid_cmd htxnid]
    decide

theorem filed_kept : Kept anything System.always Filed where
  grants := fun _ _ _ _ _ _ _ _ _ _ => trivial
  acts := fun _ _ _ _ _ hp h => h.performs hp

theorem filed_initial (s : State) (h : Initial s) : Filed s.config := by
  have hnumbered := numbered_initial s h
  have hdescriptors := h.descriptors (0 < ·)
  have hempty := h.empty.1
  obtain ⟨-, reqfd, -, -, -, -, -, -, hkern⟩ := h
  have hnone : ∀ fd n, s.config.world.kern.fds.lookup fd ≠ some (.file n) := by
    intro fd n hfd
    obtain ⟨-, m, hm⟩ := hkern.inherited fd _ hfd
    cases hm
  exact ⟨hnumbered, hdescriptors, fun fd n hfd => absurd hfd (hnone fd n),
    fun fd _ n hfd => absurd hfd (hnone fd n), fun _ x n _ => hnone x.statFd n⟩

/-- The request that is handled next asks for a file that is opened in this step. -/
def State.Opens (ans : Answers) (s : State) (req : ProtRequest) (node : FileNode) : Prop :=
  ∃ r rest t, s.phase = .requested r rest ∧
    protUnmarshalRequest s.world.srv.recvbuf r.nread = some req ∧
    ans.openFile t req.filename = .ok node

/-- During the step that creates it, a transfer is not there yet, or has moved nothing. -/
structure Arising (ans : Answers) (s : State) (p : Ptr) (c : Config) : Prop where
  ledger : Ledger c.world.srv
  minted : Minted c.world
  filed : Filed c
  state : c.world.srv.xferAt p = none ∨ ∃ req node size, s.Opens ans req node ∧
    Delivery node (startOf req.offset) size p c

theorem Arising.performs (h : Arising ans s p c) (hnone : s.world.srv.xferAt p = none)
    (ha : StepMay ans l s a c) (hp : Performs a c c') : Arising ans s p c' := by
  refine ⟨h.ledger.performs hp, h.minted.performs h.ledger hp, h.filed.performs hp, ?_⟩
  rcases h.state with hfresh | ⟨req, node, size, hopens, hdelivery⟩
  · cases hy : c'.world.srv.xferAt p with
    | none => exact Or.inl rfl
    | some y =>
        rcases hp.evolves hy with ⟨rfl, rfl⟩ | ⟨x, hx, -⟩
        · obtain ⟨r, rest, req, -, hphase, -, -, hreq, -, -, ⟨node, ⟨t, ht⟩, hpos⟩, -⟩ :=
            ha.enroll_cases
          exact Or.inr ⟨req, node, _, ⟨r, rest, t, hphase, hreq, ht⟩, h.minted.delivery hp hpos⟩
        · rw [hfresh] at hx
          cases hx
  · refine Or.inr ⟨req, node, size, hopens, hdelivery.performs h.filed ?_ hp⟩
    rintro fd x rfl hx
    obtain ⟨r, _, _, _, _, _, _, _, _, _, _, _, _, _, rfl⟩ := ha.assign_cases
    rw [hnone] at hx
    cases hx

/-- What is known of a transfer when the step that creates it is over. -/
theorem next_delivery (hr : server.Reachable System.always s)
    (hn : next (ans, l) s = some (.ok s')) (hnone : s.world.srv.xferAt p = none)
    (hx : s'.world.srv.xferAt p = some x) : Filed s'.config ∧ ∃ req node,
      s.Opens ans req node ∧
      Delivery node (startOf req.offset) x.file.size.toNat p s'.config := by
  obtain ⟨hledger, hok⟩ := reachable_ledger hr
  have hfiled : Filed s.config := by
    rcases filed_kept.reachable filed_initial hr with hs | hs
    · exact hs.inv
    · rw [next_stopped hs.1] at hn
      cases hn
  have hstart : Arising ans s p s.config := ⟨hledger, Minted.reachable hr, hfiled, Or.inl hnone⟩
  have hends := next_ends (A := StepMay ans l s) (fun a c ha => ha) hok hledger.nodup hn
  generalize hres : Except.ok s' = res at hends
  cases hends with
  | fault => cases hres
  | next _ hacts =>
      cases hres
      have hend := hacts.keeps (fun a c c' ha hp h => h.performs hnone ha hp) hstart
      rcases hend.state with hgone | ⟨req, node, size, hopens, hdelivery⟩
      · rw [show s'.config.world.srv.xferAt p = some x from hx] at hgone
        cases hgone
      · have hsize := hdelivery.whole x hx
        subst hsize
        exact ⟨hend.filed, req, node, hopens, hdelivery⟩
  | shut hacts =>
      obtain ⟨w', hw', hcleared⟩ := shutdown_cleared ans (hacts.ledger hledger)
      rw [hw'] at hres
      cases hres
      rw [hcleared.xferAt] at hx
      cases hx

/-- What happens to the transfer later. -/
theorem delivery_kept {node : FileNode} {offset size : Nat} : Kept (sendsOnce p) (FixesDest p)
    (fun c => Filed c ∧ Delivery node offset size p c) where
  grants := fun _ _ _ hg _ _ _ _ _ ha => hg.sendsOnce ha
  acts := fun _ _ _ _ ha hp h => ⟨h.1.performs hp, h.2.performs h.1 ha hp⟩

theorem delivery_steps {node : FileNode} {offset size : Nat} (hr : server.Reachable System.always s)
    (hfiled : Filed s.config) (h : Delivery node offset size p s.config)
    (hsteps : server.Steps (FixesDest p) s s') : Delivery node offset size p s'.config := by
  obtain ⟨hledger, hok⟩ := reachable_ledger hr
  rcases delivery_kept.steps hsteps (Or.inl ⟨hledger, hok, hfiled, h⟩) with hs | hs
  · exact hs.inv.2
  · obtain ⟨hphase, w, -, ⟨-, hdelivery⟩, hcleared, -⟩ := hs
    obtain ⟨w', phase⟩ := s'
    subst hphase
    exact hdelivery.cleared hcleared

/-- A transfer of data is deleted when everything was written, a write failed for good, or
it was marked CANCEL. -/
def endsRead (p : Ptr) (a : Action) (c : Config) : Prop :=
  a = .retire p ∨ a = .discard p ∨ a = .bury p → ∀ x, c.world.srv.xferAt p = some x →
    x.cmd = .read → x.nbytesLeft = 0 ∨ x.defer = .cancel ∨
      ∃ fd e, Effect.failed p fd e ∈ c.world.kern.trace ∧ errnoIsFatal e = true

/-- Why a READ is over. -/
def ReadOver (size : Nat) (p : Ptr) (trace : List Effect) : Prop :=
  (movedBy p trace).length = size ∨
    (∃ fd e, Effect.failed p fd e ∈ trace ∧ errnoIsFatal e = true) ∨ ∃ fd, Attempted p fd trace

/-- What is known of a READ that is neither cancelled by its client nor given another
destination. -/
structure Reading (node : FileNode) (offset size : Nat) (p : Ptr) (c : Config) : Prop where
  filed : Filed c
  delivery : Delivery node offset size p c
  told : Told p c
  cmd : ∀ x, c.world.srv.xferAt p = some x → x.cmd = .read
  ended : c.world.srv.xferAt p = none → ReadOver size p c.world.kern.trace

theorem Reading.performs {node : FileNode} {offset size : Nat} (h : Reading node offset size p c)
    (honce : sendsOnce p a c) (htells : tells p a c) (hends : endsRead p a c)
    (hp : Performs a c c') : Reading node offset size p c' := by
  have hdelivery := h.delivery.performs h.filed honce hp
  obtain ⟨tr, htr, -⟩ := hp.trace
  have hmore : ∀ e ∈ c.world.kern.trace, e ∈ c'.world.kern.trace := by
    intro e he
    rw [htr]
    exact List.mem_append_left _ he
  -- nothing more can be moved once everything was
  have hfull : (movedBy p c.world.kern.trace).length = size →
      (movedBy p c'.world.kern.trace).length = size := by
    intro hlen
    refine Nat.le_antisymm hdelivery.atMost ?_
    rw [htr, movedBy_append, List.length_append]
    omega
  refine ⟨h.filed.performs hp, hdelivery, h.told.performs htells hp, fun y hy => ?_,
    fun hgone => ?_⟩
  · obtain ⟨x, hx, hevolves⟩ := h.delivery.evolves hp hy
    rcases hevolves.cmd with ⟨hcmd, -⟩ | ⟨-, hassign⟩
    · exact hcmd.trans (h.cmd x hx)
    · have hopen := honce _ x hassign hx
      rw [h.cmd x hx] at hopen
      cases hopen
  · have hover : ReadOver size p c.world.kern.trace := by
      cases hx : c.world.srv.xferAt p with
      | none => exact h.ended hx
      | some x =>
          rcases hends (hp.deletes h.delivery.known hx hgone) x hx (h.cmd x hx) with
            hzero | hcancel | hfailed
          · have hleft := h.delivery.left x hx
            rw [hzero] at hleft
            exact Or.inl (by simpa using hleft)
          · exact Or.inr (Or.inr ⟨_, h.told x hx hcancel⟩)
          · exact Or.inr (Or.inl hfailed)
    rcases hover with hlen | ⟨fd, e, hmem, hfatal⟩ | ⟨fd, htold⟩
    · exact Or.inl (hfull hlen)
    · exact Or.inr (Or.inl ⟨fd, e, hmore _ hmem, hfatal⟩)
    · exact Or.inr (Or.inr ⟨fd, htold.mono hmore⟩)

/-- The steps that leave a READ to itself: its destination stays, its client does not cancel
it, and there is no error event for it. -/
def LeavesAlone (p : Ptr) (l : Answers × Label) (s : State) : Prop :=
  Undiverted p l s ∧ Spares p l s

instance (p : Ptr) (l : Answers × Label) (s : State) : Decidable (LeavesAlone p l s) :=
  inferInstanceAs (Decidable (_ ∧ _))

theorem LeavesAlone.endsRead {node : FileNode} {offset size : Nat}
    (hg : LeavesAlone p (ans, l) s) (h : Reading node offset size p s.config)
    (ha : StepMay ans l s a c) : endsRead p a c := by
  rintro hdel x hx hcmd
  have hconcluded : Concluded p x c.world.kern.trace → x.nbytesLeft = 0 ∨ x.defer = .cancel ∨
      ∃ fd e, Effect.failed p fd e ∈ c.world.kern.trace ∧ errnoIsFatal e = true :=
    fun hend => (hend.read hcmd).imp_right Or.inr
  rcases hdel with rfl | rfl | rfl
  · obtain ⟨r, rest, rfl, hphase, huid, hnfds, hwhy⟩ := ha.retire_cases
    rcases hwhy with ⟨hnew, -⟩ | ⟨txnid, y, -, htxnid, hfind, hy, hpid, hdefer, -⟩
    · exact absurd h.delivery.known (hnew ▸ Nat.lt_irrefl _)
    · have hnamed := Server.namedBy_eq huid (fun _ => Nat.ne_of_gt (hnfds (by
        rw [protUnmarshalTxnid_cmd htxnid]
        decide))) htxnid hfind hy hpid
      have hfixed := hg.1.1
      simp [FixesDest, State.reassigns, hphase, hnamed, h.cmd y hy, hdefer] at hfixed
  · obtain ⟨garbage, ev, rest, rfl, hphase, hu, hwhy⟩ := ha.discard_cases
    rcases hwhy with ⟨y, hy, -, hend⟩ | ⟨y, k, herr, -⟩
    · rw [hx] at hy
      cases hy
      exact hconcluded hend
    · have hspared := hg.2.1
      simp [State.reportsError, hphase, hu, herr] at hspared
  · obtain ⟨-, -, y, hy, hwhy⟩ := ha.bury_cases
    rw [hx] at hy
    cases hy
    rcases hwhy with hcancel | hend
    · exact Or.inr (Or.inl hcancel)
    · exact hconcluded hend

theorem reading_kept {node : FileNode} {offset size : Nat} :
    Kept (fun a c => sendsOnce p a c ∧ tells p a c ∧ endsRead p a c) (LeavesAlone p)
      (Reading node offset size p) where
  grants := fun _ _ _ hg _ _ h _ _ ha => ⟨hg.1.1.sendsOnce ha, hg.2.tells ha, hg.endsRead h ha⟩
  acts := fun _ _ _ _ ha hp h => h.performs ha.1 ha.2.1 ha.2.2 hp

/-- What has been delivered of a transfer of `size` bytes from `offset` on: what was written
is the file up to what is left, all of it to the same destination; the client was told the
size; and completion is told after the last byte. -/
structure Delivered (node : FileNode) (offset size : Nat) (p : Ptr) (w : World) : Prop where
  written : ∀ y, w.srv.xferAt p = some y → y.nbytesLeft.toNat ≤ size ∧
    movedBy p w.kern.trace = node.slice offset (size - y.nbytesLeft.toNat) ∧
    ∀ fd bytes, Effect.moved p fd bytes ∈ w.kern.trace → fd = y.destFd
  ordered : ∃ n ≤ size, movedBy p w.kern.trace = node.slice offset n
  announced : ∀ fd sz atime mtime ctime txnid result,
    Effect.sent (some p) fd (.fileInfo sz atime mtime ctime txnid) result ∈ w.kern.trace →
    sz = size
  completed : ∀ before after fd pdu result,
    w.kern.trace = before ++ .sent (some p) fd pdu result :: after → pdu.xferComplete = true →
    movedBy p before = node.slice offset size

theorem Delivery.delivered {node : FileNode} {offset size : Nat}
    (h : Delivery node offset size p s.config) : Delivered node offset size p s.world where
  written := by
    intro y hy
    have hleft := h.left y hy
    have hlen : (movedBy p s.world.kern.trace).length = size - y.nbytesLeft.toNat :=
      Nat.eq_sub_of_add_eq' hleft
    refine ⟨by omega, ?_, fun fd bytes hmem => (h.dest y fd bytes hy hmem).1⟩
    rw [← hlen]
    exact h.bytes
  ordered := ⟨_, h.atMost, h.bytes⟩
  announced := h.announced
  completed := by
    intro before after fd pdu result htrace hcomplete
    have hlen := h.told before after fd pdu result htrace hcomplete
    -- what was written before the message is the start of all that was written
    have hall := h.bytes
    rw [show s.config.world.kern.trace = before ++ _ from htrace, movedBy_append,
      List.length_append, FileNode.slice_add] at hall
    rw [← hlen]
    exact List.append_inj_left hall (FileNode.length_slice ..).symm

/-- Where the range of a request lies within its file, the transfer starts at its offset. -/
theorem startOf_eq {offset : BitVec 64} {size : Nat} {node : FileNode}
    (h : offset.toNat + size ≤ node.size) : startOf offset = offset.toNat := by
  have hlt := node.size_lt
  have hint : offset.toInt = offset.toNat := BitVec.toInt_eq_toNat_of_lt (by omega)
  unfold startOf
  split
  · rfl
  · rw [hint] at *
    omega

theorem Born.left {v : View} (h : Born p x v) : x.nbytesLeft = x.file.size := by
  cases h
  assumption

/-- A new transfer is not deferred, and its client was told its size. -/
theorem Born.greeted {w : World} (h : Born p x (w.view p)) : x.defer = .none ∧
    ∃ atime mtime ctime result, Effect.sent (some p) x.statFd
      (.fileInfo x.file.size.toNat atime mtime ctime x.txnid) result ∈ w.kern.trace := by
  generalize hv : w.view p = v at h
  obtain ⟨hdefer, -⟩ := h
  rename_i atime mtime ctime result
  have hhistory : historyOf p w.kern.trace = _ := congrArg View.history hv
  refine ⟨hdefer, atime, mtime, ctime, result, World.mem_history (p := p) ?_⟩
  change _ ∈ historyOf p w.kern.trace
  rw [hhistory]
  exact List.mem_singleton_self _

end Sendfiled
