/-
Datagrams of other users.  The server answers them on the descriptor they brought
and closes what they brought; here is exactly when that is all it does.
-/
import Sendfiled.Isolation

namespace Sendfiled

open Prog Transition

namespace Kernel

variable (ans : Answers) (k : Kernel)

/-- The descriptors given to the open files of a datagram. -/
def arrivals (d : Datagram) : List Fd := (installAll (k.arriving ans d) k).1

/-- The datagram brings the last copy of an open file that is registered with the
poller: it arrives for the last time at place `i`, no descriptor refers to it, and
its sender keeps no copy. -/
def BringsLast (d : Datagram) : Prop :=
  ∃ i n, (k.arriving ans d)[i]? = some n ∧ (k.arriving ans d)[i + 1]? ≠ some n ∧
    (∃ reg ∈ k.regs, reg.file = .client n) ∧
    (∀ fd, k.fds.lookup fd ≠ some (.client n)) ∧ ans.clientKeeps (k.tick + 2 + i) n = false

/-- The message reports that one of its parts, but not both, was truncated. -/
def Truncated (d : Datagram) : Prop :=
  ¬ (protReqMaxSize < d.data.length ↔ (k.arriving ans d).length < d.files.length)

end Kernel

/-- What a datagram may do without its sender being entitled to anything: fill the
receive buffer, and have calls made on the descriptors it brought. -/
structure Inert (ans : Answers) (d : Datagram) (w w' : World) : Prop where
  srv : w'.srv = { w.srv with recvbuf := w'.srv.recvbuf }
  regs : w'.kern.regs = w.kern.regs
  trace : ∃ tr, w'.kern.trace = w.kern.trace ++ tr ∧ ∀ e ∈ tr, e.fd ∈ w.kern.arrivals ans d

/-- The datagram is handled without any other effect, and the server goes on to
receive the next one. -/
def Harmless (ans : Answers) (old : Fd × Fd) (d : Datagram) (w : World) : Prop :=
  wp (handleDatagram ans old d) (fun o w' => (∃ fds, o = some fds) ∧ Inert ans d w w')
    (fun _ _ => False) w

/-- The datagrams of other users that have a further effect: one that is truncated
stops the server; a CANCEL without descriptors is answered on a descriptor of an
earlier datagram; a partial write aborts the server; and the poller forgets an open
file with its last copy. -/
def Harms (ans : Answers) (d : Datagram) (k : Kernel) : Prop :=
  k.Truncated ans d ∨
    (k.arriving ans d = [] ∧ (d.data.head?.map UInt8.toNat) = some ProtCmdReq.cancel.code) ∨
    (k.arriving ans d ≠ [] ∧ ∃ n, ans.write (k.tick + 1) 2 = .ok n ∧ n ≠ 2) ∨
    k.BringsLast ans d

namespace Kernel

variable {ans : Answers} {k : Kernel} {fd : Fd} {f : OpenFile}

theorem hasCopy_client_iff {fds : FdTable} {n : Nat} :
    k.hasCopy ans fds (.client n) = true ↔
      (∃ fd, fds.lookup fd = some (.client n)) ∨ ans.clientKeeps k.tick n = true := by
  unfold hasCopy
  rw [Bool.or_eq_true, List.any_eq_true]
  refine or_congr ⟨?_, ?_⟩ Iff.rfl
  · rintro ⟨⟨fd, f⟩, hmem, heq⟩
    refine ⟨fd, ?_⟩
    rw [← eq_of_beq heq]
    exact AList.mem_lookup_iff.mpr hmem
  · rintro ⟨fd, hfd⟩
    exact ⟨⟨fd, .client n⟩, AList.mem_lookup_iff.mp hfd, by simp⟩

/-- Closing a descriptor keeps the registrations unless it was the last copy of a
registered file. -/
theorem close_regs_eq_iff (hf : k.fds.lookup fd = some f) :
    (k.close ans fd).2.regs = k.regs ↔
      k.hasCopy ans (k.fds.erase fd) f = true ∨ ∀ reg ∈ k.regs, reg.file ≠ f := by
  simp only [close, hf, succeed, log]
  by_cases hcopy : k.hasCopy ans (k.fds.erase fd) f = true
  · simp [hcopy]
  · simp [hcopy, List.filter_eq_self]

theorem close_tick (ans : Answers) (k : Kernel) (fd : Fd) :
    (k.close ans fd).2.tick = k.tick + 1 := by
  unfold close
  split <;> rfl

/-- Closing a copy of a client's open file. -/
theorem close_client_regs_iff {n : Nat} (hf : k.fds.lookup fd = some (.client n)) :
    (k.close ans fd).2.regs = k.regs ↔
      ¬ ((∃ reg ∈ k.regs, reg.file = .client n) ∧
        (∀ other ≠ fd, k.fds.lookup other ≠ some (.client n)) ∧
        ans.clientKeeps k.tick n = false) := by
  have hcopies : (∃ other, (k.fds.erase fd).lookup other = some (.client n)) ↔
      ∃ other ≠ fd, k.fds.lookup other = some (.client n) := by
    constructor
    · rintro ⟨other, hother⟩
      have hne : other ≠ fd := by
        rintro rfl
        simp at hother
      exact ⟨other, hne, by rwa [AList.lookup_erase_ne hne] at hother⟩
    · rintro ⟨other, hne, hother⟩
      exact ⟨other, by rwa [AList.lookup_erase_ne hne]⟩
  rw [close_regs_eq_iff hf, hasCopy_client_iff, hcopies]
  constructor
  · rintro ((⟨other, hne, hother⟩ | hkeeps) | hregs) ⟨⟨reg, hreg, hfile⟩, hnone, hgone⟩
    · exact hnone other hne hother
    · rw [hgone] at hkeeps
      cases hkeeps
    · exact hregs reg hreg hfile
  · intro h
    by_contra hnot
    rw [not_or, not_or] at hnot
    obtain ⟨⟨hnone, hgone⟩, hregs⟩ := hnot
    push Not at hnone hregs
    exact h ⟨hregs, hnone, Bool.eq_false_iff.mpr hgone⟩

/-- The registered file of a client has no copy but those on their way to the
server, and its sender drops it at the given time. -/
def Forsaken (ans : Answers) (k : Kernel) (tick n : Nat) : Prop :=
  (∃ reg ∈ k.regs, reg.file = .client n) ∧ (∀ fd, k.fds.lookup fd ≠ some (.client n)) ∧
    ans.clientKeeps tick n = false

variable {k' : Kernel} {n m : Nat}

/-- Closing the only descriptor that is not as it was in `k`. -/
theorem close_last_regs_iff (hnone : k.fds.lookup fd = none)
    (hfd : k'.fds.lookup fd = some (.client n))
    (hlook : ∀ other ≠ fd, k'.fds.lookup other = k.fds.lookup other)
    (hregs : k'.regs = k.regs) :
    (k'.close ans fd).2.regs = k.regs ↔ ¬ Forsaken ans k k'.tick n := by
  have hothers : (∀ other ≠ fd, k'.fds.lookup other ≠ some (.client n)) ↔
      ∀ other, k.fds.lookup other ≠ some (.client n) := by
    constructor
    · intro h other
      by_cases hother : other = fd
      · rw [hother, hnone]
        simp
      · rw [← hlook other hother]
        exact h other hother
    · intro h other hother
      rw [hlook other hother]
      exact h other
  rw [← hregs, close_client_regs_iff hfd, hothers, hregs]
  rfl

/-- Closing both descriptors that arrived, the first one first. -/
theorem close_two_regs_iff {fd' : Fd} (hfd : fd ∉ k.fds) (hfd' : fd' ∉ k.fds) (hne : fd' ≠ fd)
    (hfds : k'.fds = (k.fds.insert fd (.client n)).insert fd' (.client m))
    (hregs : k'.regs = k.regs) :
    ((k'.close ans fd).2.close ans fd').2.regs = k.regs ↔
      ¬ ((n ≠ m ∧ Forsaken ans k k'.tick n) ∨ Forsaken ans k (k'.tick + 1) m) := by
  have hnone : k.fds.lookup fd = none := AList.lookup_eq_none.mpr hfd
  have hnone' : k.fds.lookup fd' = none := AList.lookup_eq_none.mpr hfd'
  have hlook : ∀ other, other ≠ fd → other ≠ fd' → k'.fds.lookup other = k.fds.lookup other := by
    intro other h h'
    rw [hfds, AList.lookup_insert_ne h', AList.lookup_insert_ne h]
  have hfirst : (k'.close ans fd).2.regs = k.regs ↔ ¬ (n ≠ m ∧ Forsaken ans k k'.tick n) := by
    rw [← hregs, close_client_regs_iff
      (by rw [hfds, AList.lookup_insert_ne hne.symm, AList.lookup_insert])]
    refine not_congr ⟨?_, ?_⟩
    · rintro ⟨hreg, hnot, hgone⟩
      refine ⟨?_, hregs ▸ hreg, fun other => ?_, hgone⟩
      · rintro rfl
        exact hnot fd' hne (by rw [hfds, AList.lookup_insert])
      · by_cases h : other = fd
        · rw [h, hnone]
          simp
        by_cases h' : other = fd'
        · rw [h', hnone']
          simp
        · rw [← hlook other h h']
          exact hnot other h
    · rintro ⟨hnm, hreg, hnot, hgone⟩
      refine ⟨hregs ▸ hreg, fun other h => ?_, hgone⟩
      by_cases h' : other = fd'
      · rw [h', hfds, AList.lookup_insert]
        exact fun heq => hnm (OpenFile.client.inj (Option.some.inj heq)).symm
      · rw [hlook other h h']
        exact hnot other
  have hsecond : (k'.close ans fd).2.regs = k.regs →
      (((k'.close ans fd).2.close ans fd').2.regs = k.regs ↔
        ¬ Forsaken ans k (k'.tick + 1) m) := by
    intro hkept
    rw [← close_tick ans k' fd]
    refine close_last_regs_iff hnone' ?_ (fun other hother => ?_) hkept
    · rw [close_fds, AList.lookup_erase_ne hne, hfds, AList.lookup_insert]
    · rw [close_fds]
      by_cases h : other = fd
      · rw [h, AList.lookup_erase, hnone]
      · rw [AList.lookup_erase_ne h, hlook other h hother]
  rw [not_or, ← hfirst]
  constructor
  · intro hkept
    -- what the second call leaves is part of what the first one leaves
    have hsub := close_regs_sublist ans fd k'
    have hsub' := close_regs_sublist ans fd' (k'.close ans fd).2
    rw [hregs] at hsub
    rw [hkept] at hsub'
    have hfirst' := hsub.antisymm hsub'
    exact ⟨hfirst', (hsecond hfirst').mp hkept⟩
  · rintro ⟨hkept, hrest⟩
    exact (hsecond hkept).mpr hrest

end Kernel

theorem sfdGetCmd_receive (buf : RecvBuf) {data : List UInt8} {b : UInt8}
    (h : data.head? = some b) : sfdGetCmd (buf.receive data) = b.toNat := by
  obtain ⟨rest, rfl⟩ := List.head?_eq_some_iff.mp h
  simp [sfdGetCmd, RecvBuf.byte, RecvBuf.receive, protReqMaxSize, protFilenameMax]

section Foreign

variable {ans : Answers} {old : Fd × Fd} {d : Datagram} {w : World} {E : Fault → World → Prop}

/-- An error message takes one tick of the clock, and is written whole if the server
survives it. -/
theorem wp_sendXferErr_ticked {fd : Fd} {stat : Errno} {Q : Bool → World → Prop}
    (hQ : ∀ b k result, (w.kern.log (.sent none fd (.hdr .xferStat (stat % 256)) result)).Quiet k →
      k.tick = w.kern.tick + 1 →
      (fd ∈ w.kern.fds → ∀ n, ans.write w.kern.tick 2 = .ok n → n = 2) → Q b ⟨w.srv, k⟩)
    (hE : ∀ k n, ans.write w.kern.tick 2 = .ok n → n ≠ 2 →
      E (.assertion .sendPduWhole) ⟨w.srv, k⟩) :
    wp (sendXferErr ans none fd stat) Q E w := by
  simp only [sendXferErr, sendPdu, Kernel.write, wp_bind, wp_sys]
  cases hfd : w.kern.fds.lookup fd with
  | none =>
      refine hQ _ _ _ (Kernel.quiet_fail _ _) rfl fun hmem => ?_
      exact absurd hmem (AList.lookup_eq_none.mp hfd)
  | some f =>
      cases hwrite : ans.write w.kern.tick (Pdu.hdr .xferStat (stat % 256)).size with
      | error e =>
          refine hQ _ _ _ (Kernel.quiet_fail _ _) rfl fun _ n hn => ?_
          rw [show ans.write w.kern.tick 2 = _ from hwrite] at hn
          cases hn
      | ok n =>
          simp only [wp_bind, wp_assert, wp_pure]
          refine ⟨fun hn => ?_, fun hn => hE _ n hwrite hn⟩
          refine hQ _ _ _ (Kernel.quiet_succeed _) rfl fun _ m hm => ?_
          rw [show ans.write w.kern.tick 2 = _ from hwrite] at hm
          cases hm
          exact hn

/-- The world after a datagram was received. -/
def World.receive (ans : Answers) (d : Datagram) (w : World) : World where
  srv := { w.srv with recvbuf := w.srv.recvbuf.receive d.data }
  kern := (Kernel.installAll (w.kern.arriving ans d) w.kern).2.succeed

/-- What the loop of `handle_reqfd` does with a datagram of another user. -/
theorem wp_handleDatagram_foreign {creds : Ucred} {b : UInt8} (hcreds : d.creds = some creds)
    (huid : creds.uid ≠ w.srv.uid) (hdata : d.data.head? = some b)
    (hwhole : ¬ w.kern.Truncated ans d) {Q : Option (Fd × Fd) → World → Prop} :
    wp (handleDatagram ans old d) Q E w ↔
      ((b.toNat ≠ ProtCmdReq.cancel.code ∧ w.kern.arriving ans d = []) →
        Q (some (recvFds old (w.kern.arrivals ans d))) (w.receive ans d)) ∧
      (¬ (b.toNat ≠ ProtCmdReq.cancel.code ∧ w.kern.arriving ans d = []) →
        wp (sendXferErr ans none (recvFds old (w.kern.arrivals ans d)).1 EACCES)
          (fun _ w₁ => wp (closeFds ans (recvFds old (w.kern.arrivals ans d))
            (w.kern.arriving ans d).length)
            (fun _ w₂ => Q (some (recvFds old (w.kern.arrivals ans d))) w₂) E w₁) E
          (w.receive ans d)) := by
  have hflags : decide (protReqMaxSize < d.data.length) =
      decide ((w.kern.arriving ans d).length < d.files.length) := by
    unfold Kernel.Truncated at hwhole
    rw [decide_eq_decide]
    exact not_not.mp hwhole
  have hlen : (w.kern.arriving ans d).length ≤ protMaxFds := by
    simp only [Kernel.arriving, List.length_take]
    omega
  have hread : min d.data.length protReqMaxSize ≠ 0 := by
    obtain ⟨rest, hrest⟩ := List.head?_eq_some_iff.mp hdata
    simp [hrest, protReqMaxSize]
  have hcmd := sfdGetCmd_receive w.srv.recvbuf hdata
  have hcount := Kernel.installAll_length (w.kern.arriving ans d) w.kern
  simp only [handleDatagram, usRecv, Kernel.recvmsg, wp_bind, wp_sys, wp_onSrv, hflags, ne_eq,
    not_true_eq_false, if_false, hcreds, wp_pure, handleReceived, wp_assert, hread,
    not_false_eq_true, forall_const, wp_gets, hcmd, hcount, false_implies, and_true]
  rw [wp_ite]
  have hfew : ((w.kern.arriving ans d).length < 1 ∨ protMaxFds < (w.kern.arriving ans d).length) ↔
      w.kern.arriving ans d = [] := by
    rw [← List.length_eq_zero_iff]
    omega
  rw [hfew]
  simp only [if_pos (show ¬ creds.uid = w.srv.uid from huid), wp_bind, wp_pure]
  rfl

/-- A datagram of another user that brought descriptors is answered on the first one;
what follows the answer decides. -/
theorem wp_sendXferErr_iff {fd : Fd} {stat : Errno} {P : Prop} {R : World → Prop}
    (hopen : fd ∈ w.kern.fds)
    (hR : ∀ k result, (w.kern.log (.sent none fd (.hdr .xferStat (stat % 256)) result)).Quiet k →
      k.tick = w.kern.tick + 1 → (R ⟨w.srv, k⟩ ↔ P)) :
    wp (sendXferErr ans none fd stat) (fun _ w₁ => R w₁) (fun _ _ => False) w ↔
      (∀ n, ans.write w.kern.tick 2 = .ok n → n = 2) ∧ P := by
  constructor
  · intro h
    by_contra hnot
    refine wp_not (wp_sendXferErr_ticked (fun _ k result hk htick hwrite hgood => ?_) ?_) h
    · exact hnot ⟨hwrite hopen, (hR k result hk htick).mp hgood⟩
    · exact fun _ _ _ _ hno => hno
  · rintro ⟨hwrite, hP⟩
    refine wp_sendXferErr_ticked (fun _ k result hk htick _ => (hR k result hk htick).mpr hP) ?_
    exact fun _ n hn hshort => hshort (hwrite n hn)

/-- Once only arrived descriptors were used, the registrations decide. -/
theorem inert_iff {k : Kernel} {tr : List Effect} (htr : k.trace = w.kern.trace ++ tr)
    (hfds : ∀ e ∈ tr, e.fd ∈ w.kern.arrivals ans d) :
    Inert ans d w ⟨(w.receive ans d).srv, k⟩ ↔ k.regs = w.kern.regs :=
  ⟨fun h => h.regs, fun hregs => ⟨rfl, hregs, tr, htr, hfds⟩⟩

theorem bringsLast_one {n : Nat} (h : w.kern.arriving ans d = [n]) :
    w.kern.BringsLast ans d ↔ Kernel.Forsaken ans w.kern (w.kern.tick + 2) n := by
  unfold Kernel.BringsLast Kernel.Forsaken
  rw [h]
  constructor
  · rintro ⟨i, m, hi, -, hlost⟩
    cases i with
    | zero =>
        cases hi
        exact hlost
    | succ i => simp at hi
  · exact fun hlost => ⟨0, n, rfl, by simp, hlost⟩

theorem bringsLast_two {n m : Nat} (h : w.kern.arriving ans d = [n, m]) :
    w.kern.BringsLast ans d ↔ (n ≠ m ∧ Kernel.Forsaken ans w.kern (w.kern.tick + 2) n) ∨
      Kernel.Forsaken ans w.kern (w.kern.tick + 2 + 1) m := by
  unfold Kernel.BringsLast Kernel.Forsaken
  rw [h]
  constructor
  · rintro ⟨i, l, hi, hlast, hlost⟩
    match i with
    | 0 =>
        cases hi
        exact Or.inl ⟨fun heq => hlast (by simp [heq]), hlost⟩
    | 1 =>
        cases hi
        exact Or.inr hlost
    | i + 2 => simp at hi
  · rintro (⟨hne, hlost⟩ | hlost)
    · exact ⟨0, n, rfl, by simp [hne.symm], hlost⟩
    · exact ⟨1, m, rfl, by simp, hlost⟩

theorem not_harmless_of_truncated (h : w.kern.Truncated ans d) : ¬ Harmless ans old d w := by
  have hflags : decide (protReqMaxSize < d.data.length) ≠
      decide ((w.kern.arriving ans d).length < d.files.length) := by
    rw [ne_eq, decide_eq_decide]
    exact h
  refine wp_not ?_
  simp only [handleDatagram, usRecv, wp_bind, wp_sys, wp_onSrv]
  rw [wp_ite]
  refine ⟨fun _ => ?_, fun hsame => absurd hflags hsame⟩
  rintro ⟨⟨fds, hfds⟩, -⟩
  cases hfds

/-- Without descriptors a datagram is harmless unless it is a CANCEL. -/
theorem harmless_none_iff {creds : Ucred} {b : UInt8} (hcreds : d.creds = some creds)
    (huid : creds.uid ≠ w.srv.uid) (hdata : d.data.head? = some b)
    (hwhole : ¬ w.kern.Truncated ans d) (hnone : w.kern.arriving ans d = []) :
    Harmless ans old d w ↔ b.toNat ≠ ProtCmdReq.cancel.code := by
  have harr : w.kern.arrivals ans d = [] := by simp [Kernel.arrivals, hnone, Kernel.installAll]
  have hkern : (w.receive ans d).kern = w.kern.succeed := by
    simp [World.receive, hnone, Kernel.installAll]
  unfold Harmless
  rw [wp_handleDatagram_foreign hcreds huid hdata hwhole]
  constructor
  · rintro ⟨-, h⟩ heq
    refine wp_not ?_ (h (fun hboth => hboth.1 heq))
    refine wp_sendXferErr_ticked (fun _ k result hk _ _ => ?_) fun _ _ _ _ hno => hno
    simp only [hnone, List.length_nil, closeFds, Nat.lt_irrefl, if_false, wp_pure]
    rintro ⟨-, hinert⟩
    obtain ⟨tr, htr, hfds⟩ := hinert.trace
    rw [hk.trace, Kernel.log, hkern] at htr
    have hmem := hfds (.sent none _ _ result)
      (by rw [← List.append_cancel_left htr]; exact List.mem_singleton_self _)
    simp [harr] at hmem
  · intro hne
    refine ⟨fun _ => ⟨⟨_, rfl⟩, rfl, ?_, [], ?_, fun e he => (by cases he)⟩,
      fun h => absurd ⟨hne, hnone⟩ h⟩
    · rw [hkern]
      rfl
    · rw [hkern, List.append_nil]
      rfl

theorem harmless_one_iff {creds : Ucred} {b : UInt8} {n : Nat} (hcreds : d.creds = some creds)
    (huid : creds.uid ≠ w.srv.uid) (hdata : d.data.head? = some b)
    (hwhole : ¬ w.kern.Truncated ans d) (hone : w.kern.arriving ans d = [n]) :
    Harmless ans old d w ↔
      (∀ m, ans.write (w.kern.tick + 1) 2 = .ok m → m = 2) ∧ ¬ w.kern.BringsLast ans d := by
  generalize hfd : lowestFree w.kern.fds.keys = fd
  have hfresh : fd ∉ w.kern.fds := hfd ▸ lowestFree_notMem _
  have harr : w.kern.arrivals ans d = [fd] := by
    simp [Kernel.arrivals, hone, Kernel.installAll, Kernel.install, hfd]
  have hkern : (w.receive ans d).kern =
      Kernel.succeed { w.kern with fds := w.kern.fds.insert fd (.client n) } := by
    simp [World.receive, hone, Kernel.installAll, Kernel.install, hfd]
  unfold Harmless
  rw [wp_handleDatagram_foreign hcreds huid hdata hwhole, harr, hone, bringsLast_one hone]
  simp only [reduceCtorEq, and_false, false_implies, true_and, not_false_eq_true, forall_const,
    recvFds]
  have hopen : fd ∈ (w.receive ans d).kern.fds := by
    rw [hkern]
    simp [Kernel.succeed]
  rw [wp_sendXferErr_iff (P := ¬ Kernel.Forsaken ans w.kern (w.kern.tick + 2) n) hopen ?_, hkern]
  · rfl
  intro k result hk htick
  simp only [closeFds, close, List.length_singleton, Nat.one_pos, if_true, wp_bind, wp_sys, wp_pure,
    Nat.reduceEqDiff, if_false]
  rw [hkern] at hk htick
  have hfds : k.fds = w.kern.fds.insert fd (.client n) := hk.fds
  obtain ⟨closed, hclosed⟩ := Kernel.close_trace ans k fd
  have htr : (k.close ans fd).2.trace = w.kern.trace ++
      [.sent none fd (.hdr .xferStat (EACCES % 256)) result, .closed fd closed] := by
    rw [hclosed, hk.trace]
    simp [Kernel.log, Kernel.succeed]
  rw [inert_iff htr (by simp [Effect.fd, harr]),
    Kernel.close_last_regs_iff (n := n) (AList.lookup_eq_none.mpr hfresh)
      (by rw [hfds, AList.lookup_insert])
      (fun other hother => by rw [hfds, AList.lookup_insert_ne hother]) hk.regs, htick]
  simp [Kernel.succeed]

theorem harmless_two_iff {creds : Ucred} {b : UInt8} {n m : Nat} (hcreds : d.creds = some creds)
    (huid : creds.uid ≠ w.srv.uid) (hdata : d.data.head? = some b)
    (hwhole : ¬ w.kern.Truncated ans d) (htwo : w.kern.arriving ans d = [n, m]) :
    Harmless ans old d w ↔
      (∀ l, ans.write (w.kern.tick + 1) 2 = .ok l → l = 2) ∧ ¬ w.kern.BringsLast ans d := by
  generalize hfd : lowestFree w.kern.fds.keys = fd
  generalize hfd' : lowestFree (w.kern.fds.insert fd (.client n)).keys = fd'
  have hfresh : fd ∉ w.kern.fds := hfd ▸ lowestFree_notMem _
  have hnew : fd' ∉ w.kern.fds.insert fd (.client n) := hfd' ▸ lowestFree_notMem _
  have hne : fd' ≠ fd := fun heq => hnew (by simp [heq])
  have hfresh' : fd' ∉ w.kern.fds := fun hmem => hnew (by simp [hmem])
  have harr : w.kern.arrivals ans d = [fd, fd'] := by
    simp only [Kernel.arrivals, htwo, Kernel.installAll, Kernel.install, hfd, hfd']
  have hkern : (w.receive ans d).kern = Kernel.succeed { w.kern with
      fds := (w.kern.fds.insert fd (.client n)).insert fd' (.client m) } := by
    simp only [World.receive, htwo, Kernel.installAll, Kernel.install, hfd, hfd']
  unfold Harmless
  rw [wp_handleDatagram_foreign hcreds huid hdata hwhole, harr, htwo, bringsLast_two htwo]
  simp only [reduceCtorEq, and_false, false_implies, true_and, not_false_eq_true, forall_const,
    recvFds]
  have hopen : fd ∈ (w.receive ans d).kern.fds := by
    rw [hkern]
    simp [Kernel.succeed]
  rw [wp_sendXferErr_iff (P := ¬ ((n ≠ m ∧ Kernel.Forsaken ans w.kern (w.kern.tick + 2) n) ∨
    Kernel.Forsaken ans w.kern (w.kern.tick + 2 + 1) m)) hopen ?_, hkern]
  · rfl
  intro k result hk htick
  simp only [closeFds, close, List.length_cons, List.length_nil, Nat.reduceAdd, Nat.zero_lt_two,
    if_true, wp_bind, wp_sys, wp_pure]
  rw [hkern] at hk htick
  have hfds : k.fds = (w.kern.fds.insert fd (.client n)).insert fd' (.client m) := hk.fds
  obtain ⟨closed, hclosed⟩ := Kernel.close_trace ans k fd
  obtain ⟨closed', hclosed'⟩ := Kernel.close_trace ans (k.close ans fd).2 fd'
  have htr : ((k.close ans fd).2.close ans fd').2.trace = w.kern.trace ++
      [.sent none fd (.hdr .xferStat (EACCES % 256)) result, .closed fd closed,
        .closed fd' closed'] := by
    rw [hclosed', hclosed, hk.trace]
    simp [Kernel.log, Kernel.succeed]
  have htick' : k.tick = w.kern.tick + 2 := htick
  rw [inert_iff htr (by simp [Effect.fd, harr]),
    Kernel.close_two_regs_iff (n := n) (m := m) hfresh hfresh' hne hfds hk.regs, htick']
  simp

end Foreign

/-- For every state of the server, every descriptor array and every datagram of
another user, the datagram has no effect beyond its own descriptors exactly when it
is not one of those that harm. -/
theorem harmless_iff {ans : Answers} {old : Fd × Fd} {d : Datagram} {w : World} {creds : Ucred}
    (hcreds : d.creds = some creds) (huid : creds.uid ≠ w.srv.uid) (hdata : d.data ≠ []) :
    Harmless ans old d w ↔ ¬ Harms ans d w.kern := by
  obtain ⟨b, hb⟩ : ∃ b, d.data.head? = some b := by
    cases hlist : d.data with
    | nil => exact absurd hlist hdata
    | cons b rest => exact ⟨b, rfl⟩
  by_cases hwhole : w.kern.Truncated ans d
  · exact iff_of_false (not_harmless_of_truncated hwhole) (not_not.mpr (Or.inl hwhole))
  have hlen : (w.kern.arriving ans d).length ≤ protMaxFds := by
    simp only [Kernel.arriving, List.length_take]
    omega
  have hshort : (∀ n, ans.write (w.kern.tick + 1) 2 = .ok n → n = 2) ↔
      ¬ ∃ n, ans.write (w.kern.tick + 1) 2 = .ok n ∧ n ≠ 2 := by
    push Not
    rfl
  unfold Harms
  rcases hfiles : w.kern.arriving ans d with _ | ⟨n, _ | ⟨m, _ | ⟨l, rest⟩⟩⟩
  · have hnone : ¬ w.kern.BringsLast ans d := by
      rintro ⟨i, n, hi, -⟩
      simp [hfiles] at hi
    rw [harmless_none_iff hcreds huid hb hwhole hfiles]
    simp [hwhole, hnone, hb]
  · rw [harmless_one_iff hcreds huid hb hwhole hfiles, hshort]
    simp [hwhole]
  · rw [harmless_two_iff hcreds huid hb hwhole hfiles, hshort]
    simp [hwhole]
  · simp only [hfiles, List.length_cons, protMaxFds] at hlen
    omega

section Runs

open Scenario

/-- A process of another user. -/
def stranger : Ucred := ⟨300, 2000, 2000⟩

theorem harmless_iff_of_strangerRead : ∃ s, server.Reachable System.always s ∧
    stranger.uid ≠ s.world.srv.uid ∧
    Harmless (answers tenBytes) (-1, -1) ⟨fileRequest .read 0 0, [7], some stranger⟩ s.world := by
  obtain ⟨s, hr, hP⟩ := exists_reachable System.always 4 4 []
    (fun s => stranger.uid != s.world.srv.uid &&
      s.world.kern.regs.all fun reg => reg.file != .client 7) (by decide +kernel)
  obtain ⟨huid, hregs⟩ : stranger.uid ≠ s.world.srv.uid ∧
      ∀ reg ∈ s.world.kern.regs, reg.file ≠ .client 7 := by simpa using hP
  refine ⟨s, hr, huid, (harmless_iff rfl huid (by decide)).mpr ?_⟩
  have hfiles : s.world.kern.arriving (answers tenBytes)
      ⟨fileRequest .read 0 0, [7], some stranger⟩ = [7] := by
    simp [Kernel.arriving, answers, protMaxFds]
  rintro (htrunc | ⟨hnil, -⟩ | ⟨-, n, hn, hne⟩ | hlast)
  · refine htrunc ?_
    rw [hfiles]
    decide
  · rw [hfiles] at hnil
    cases hnil
  · cases hn
    exact hne rfl
  · obtain ⟨⟨reg, hreg, hfile⟩, -⟩ := (bringsLast_one hfiles).mp hlast
    exact hregs reg hreg hfile

/-- A READ of the server's own user; its descriptor stays behind in the array. -/
def ownRead : List (Answers × Label) :=
  [(answers tenBytes, .wait [readable]), (answers tenBytes, .event (-1, -1)),
    (answers tenBytes, .receive ⟨fileRequest .read 0 0, [1], some client⟩),
    (answers tenBytes, .request)]

/-- The server reads from the request socket. -/
def State.isReceiving (s : State) : Bool :=
  match s.phase with
  | .receiving _ _ => true
  | _ => false

/-- A CANCEL of another user is answered on the descriptor of the READ before it. -/
theorem strangerCancel_harms : ∃ s fds rest, server.Reachable System.always s ∧
    s.phase = .receiving fds rest ∧ stranger.uid ≠ s.world.srv.uid ∧
    ¬ Harmless (answers tenBytes) fds ⟨txnRequest .cancel 1, [], some stranger⟩ s.world := by
  obtain ⟨s, hr, hP⟩ := exists_reachable System.always 4 4 ownRead
    (fun s => stranger.uid != s.world.srv.uid && s.isReceiving) (by decide +kernel)
  obtain ⟨huid, hphase⟩ := Bool.and_eq_true_iff.mp hP
  unfold State.isReceiving at hphase
  split at hphase
  · rename_i fds rest heq
    have huid' : stranger.uid ≠ s.world.srv.uid := by simpa using huid
    have hfiles : s.world.kern.arriving (answers tenBytes)
        ⟨txnRequest .cancel 1, [], some stranger⟩ = [] := by simp [Kernel.arriving]
    have hwhole : ¬ s.world.kern.Truncated (answers tenBytes)
        ⟨txnRequest .cancel 1, [], some stranger⟩ := by
      unfold Kernel.Truncated
      rw [hfiles]
      decide
    refine ⟨s, fds, rest, hr, heq, huid', fun hharmless => ?_⟩
    have hcmd := (harmless_none_iff rfl huid' (b := 5) (by decide) hwhole hfiles).mp hharmless
    exact hcmd (by decide)
  · cases hphase

end Runs

end Sendfiled
