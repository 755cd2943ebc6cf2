/-
The size of the transfer table and the slots its users get.  The capacity is the least
power of two that holds the transfers asked for, and masking spreads as many consecutive
transaction IDs over all the slots, also where the counter wraps.
-/
import Sendfiled.TableRuns
import Mathlib.Order.Interval.Finset.Nat
import Mathlib.Order.Bounds.Defs

namespace Sendfiled

section Sizing

/-- The powers of two that leave room for `x` elements. -/
def roomyPowers (x : Nat) : Set Nat := { n | (∃ j, n = 2 ^ j) ∧ x ≤ n }

/-- What `1U << i` is as long as the shift is defined. -/
theorem shift_eq_two_pow {i : Nat} (hi : i < 32) : (1 <<< i) % 2 ^ 32 = 2 ^ i := by
  rw [Nat.one_shiftLeft]
  exact Nat.mod_eq_of_lt (Nat.pow_lt_pow_right (by decide) hi)

/-- The loop of `clp2` passes the powers of two that are too small, and stops at one that
is not. -/
theorem clp2Order_spec {x k : Nat} (fuel i : Nat) (hfuel : i + fuel ≤ 32)
    (h : clp2Order x fuel i = some k) :
    i ≤ k ∧ x ≤ 2 ^ k ∧ ∀ j, i ≤ j → j < k → 2 ^ j < x := by
  induction fuel generalizing i with
  | zero => cases h
  | succ fuel ih =>
      rw [clp2Order, shift_eq_two_pow (by omega)] at h
      split at h
      · rename_i hsmall
        obtain ⟨hle, hroom, hpassed⟩ := ih (i + 1) (by omega) h
        refine ⟨by omega, hroom, fun j hij hjk => ?_⟩
        by_cases hj : j = i
        · subst hj
          exact hsmall
        · exact hpassed j (by omega) hjk
      · rename_i hlarge
        cases h
        exact ⟨Nat.le_refl _, Nat.le_of_not_lt hlarge, fun j hij hji => absurd hij (by omega)⟩

/-- The shift count the loop of `clp2` stops at gives the least power of two. -/
theorem clp2Order_isLeast {x k : Nat} (h : clp2Order x 32 0 = some k) :
    IsLeast (roomyPowers x) (2 ^ k) := by
  obtain ⟨-, hroom, hpassed⟩ := clp2Order_spec 32 0 (by decide) h
  refine ⟨⟨⟨k, rfl⟩, hroom⟩, ?_⟩
  rintro n ⟨⟨j, rfl⟩, hj⟩
  refine Nat.pow_le_pow_right (by decide) (Nat.le_of_not_lt fun hlt => ?_)
  have := hpassed j (Nat.zero_le j) hlt
  omega

end Sizing

namespace XferTable

variable {α : Type} {hash : α → Nat}

/-- Consecutive values of a 64-bit counter. -/
def window (start n : Nat) : List Nat := (List.range n).map fun i => (start + i) % 2 ^ 64

/-- Insert elements one after the other, as long as the table takes them. -/
def insertAll (hash : α → Nat) (t : XferTable α) (elems : List α) : Option (XferTable α) :=
  elems.foldlM (insert hash) t

section Slots

variable {t : XferTable α} {start : Nat}

theorem capacity_dvd (t : XferTable α) : t.capacity ∣ 2 ^ 64 :=
  Nat.pow_dvd_pow 2 (Nat.le_trans (Nat.le_of_lt t.order_lt) (by decide))

/-- The wrap of the counter does not show in the slots. -/
theorem indexof_wrap (t : XferTable α) (n : Nat) :
    t.indexof (n % 2 ^ 64) = n % t.capacity := by
  rw [indexof_eq_mod, Nat.mod_mod_of_dvd n t.capacity_dvd]

/-- No two values of a window share a slot. -/
theorem window_indexof_inj {h h' : Nat} (hh : h ∈ window start t.capacity)
    (hh' : h' ∈ window start t.capacity) (hidx : t.indexof h = t.indexof h') : h = h' := by
  obtain ⟨i, hi, rfl⟩ := List.mem_map.mp hh
  obtain ⟨j, hj, rfl⟩ := List.mem_map.mp hh'
  rw [indexof_wrap, indexof_wrap] at hidx
  have hmem : ∀ n, n ∈ List.range t.capacity →
      start + n ∈ Finset.Ico start (start + t.capacity) := by
    intro n hn
    rw [List.mem_range] at hn
    rw [Finset.mem_Ico]
    omega
  have heq := Nat.mod_injOn_Ico start t.capacity (hmem i hi) (hmem j hj) hidx
  exact congrArg (· % 2 ^ 64) heq

/-- Every slot is that of a value of the window. -/
theorem exists_window_indexof (t : XferTable α) (start : Nat) {idx : Nat}
    (hidx : idx < t.capacity) : ∃ h ∈ window start t.capacity, t.indexof h = idx := by
  have hmem : idx ∈ (Finset.Ico start (start + t.capacity)).image (· % t.capacity) := by
    rw [Nat.image_Ico_mod]
    exact Finset.mem_range.mpr hidx
  obtain ⟨n, hn, hmod⟩ := Finset.mem_image.mp hmem
  rw [Finset.mem_Ico] at hn
  refine ⟨(start + (n - start)) % 2 ^ 64,
    List.mem_map.mpr ⟨n - start, List.mem_range.mpr (by omega), rfl⟩, ?_⟩
  rw [indexof_wrap, Nat.add_sub_cancel' hn.1]
  exact hmod

/-- A window names every value once. -/
theorem nodup_window (t : XferTable α) (start : Nat) : (window start t.capacity).Nodup := by
  refine List.Nodup.map_on ?_ List.nodup_range
  intro i hi j hj heq
  have hle : t.capacity ≤ 2 ^ 64 := Nat.le_of_dvd (by decide) t.capacity_dvd
  rw [List.mem_range] at hi hj
  omega

end Slots

section Filling

variable {t t' : XferTable α} {a : α}

/-- What an insertion that succeeds leaves behind. -/
theorem insert_free (h : t.Keyed hash) (hfree : t.find (hash a) = none) :
    ∃ t', t.insert hash a = some t' ∧ t'.Keyed hash ∧ t'.order = t.order ∧
      ∀ b, b ∈ t'.stored ↔ b = a ∨ b ∈ t.stored := by
  refine ⟨_, ?_, h.put hfree, rfl, fun b => mem_put hfree⟩
  simp [insert, hfree]

/-- Elements that share no slot with each other and with what is stored can all be
inserted, in the given order. -/
theorem insertAll_apart (elems : List α) (h : t.Keyed hash)
    (hapart : elems.Pairwise fun a b => t.indexof (hash a) ≠ t.indexof (hash b))
    (hfree : ∀ a ∈ elems, ∀ b ∈ t.stored, t.indexof (hash b) ≠ t.indexof (hash a)) :
    ∃ t', insertAll hash t elems = some t' ∧ t'.Keyed hash ∧ t'.order = t.order ∧
      ∀ b, b ∈ t'.stored ↔ b ∈ elems ∨ b ∈ t.stored := by
  induction elems generalizing t with
  | nil => exact ⟨t, rfl, h, rfl, fun b => by simp⟩
  | cons a rest ih =>
      obtain ⟨haparts, hrest⟩ := List.pairwise_cons.mp hapart
      have hnone : t.find (hash a) = none := by
        cases hfind : t.find (hash a) with
        | none => rfl
        | some b =>
            have hb : b ∈ t.stored := mem_stored_iff.mpr ⟨_, hfind⟩
            exact absurd (h.slot hfind) (hfree a List.mem_cons_self b hb)
      obtain ⟨t₁, hinsert, hkeyed, horder, hstored⟩ := insert_free h hnone
      have hslots : ∀ n, t₁.indexof n = t.indexof n := indexof_congr horder
      obtain ⟨t', hall, hkeyed', horder', hstored'⟩ := ih hkeyed
        (hrest.imp fun hne => by rwa [hslots, hslots])
        (fun c hc b hb => by
          rw [hslots, hslots]
          rcases (hstored b).mp hb with rfl | hold
          · exact haparts c hc
          · exact hfree c (List.mem_cons_of_mem a hc) b hold)
      refine ⟨t', ?_, hkeyed', horder'.trans horder, fun b => ?_⟩
      · rw [insertAll, List.foldlM_cons, hinsert]
        exact hall
      · rw [hstored', hstored, List.mem_cons]
        tauto

/-- The elements of a window share no slot. -/
theorem apart_of_window {start : Nat} {elems : List α}
    (hperm : (elems.map hash).Perm (window start t.capacity)) :
    elems.Pairwise fun a b => t.indexof (hash a) ≠ t.indexof (hash b) := by
  have hnodup : (elems.map hash).Nodup := hperm.nodup_iff.mpr (t.nodup_window start)
  have hin : ∀ a ∈ elems, hash a ∈ window start t.capacity := fun a ha =>
    hperm.mem_iff.mp (List.mem_map_of_mem ha)
  refine (List.pairwise_map.mp hnodup).imp_of_mem ?_
  intro a b ha hb hne hidx
  exact hne (window_indexof_inj (hin a ha) (hin b hb) hidx)

/-- A table that stores a window takes nothing more. -/
theorem insert_full {start : Nat} {elems : List α} (h : t.Keyed hash)
    (hperm : (elems.map hash).Perm (window start t.capacity))
    (hstored : ∀ b ∈ elems, b ∈ t.stored) (a : α) : t.insert hash a = none := by
  have hlt : t.indexof (hash a) < t.capacity := by
    have := t.indexof_lt (hash a)
    rwa [t.length_eq] at this
  obtain ⟨_, hmem, hidx⟩ := t.exists_window_indexof start hlt
  obtain ⟨b, hb, rfl⟩ := List.mem_map.mp (hperm.mem_iff.mpr hmem)
  have hfind : t.find (hash a) = some b := by
    rw [← h.find (hstored b hb), find, find, hidx]
  simp [insert, hfind]

end Filling

/-- For every number of transfers the loop of `clp2` stops before a shift is undefined, at
the least power of two that is large enough; and a table of that capacity takes any
`capacity` consecutive hashes in any order, after which it takes nothing more. -/
theorem construct_fills (hash : α → Nat) {maxXfers : Nat} (hpos : 1 ≤ maxXfers)
    (hmax : maxXfers ≤ 2 ^ 31 - 1) :
    ∃ k c, clp2Order maxXfers 32 0 = some k ∧ k < 32 ∧ clp2 maxXfers = some c ∧
      IsLeast (roomyPowers maxXfers) c ∧
      ∃ t₀, construct maxXfers = some t₀ ∧ t₀.capacity = c ∧
        ∀ start, start < 2 ^ 64 → ∀ elems : List α,
          (elems.map hash).Perm (window start c) →
            ∃ t, insertAll hash t₀ elems = some t ∧ ∀ a, t.insert hash a = none := by
  obtain ⟨t₀, h₀⟩ := @construct_isSome α maxXfers (by omega)
  have horder := construct_order h₀
  have hclp2 : clp2 maxXfers = some t₀.capacity := by
    rw [clp2, horder, Option.map_some, Nat.one_shiftLeft]
    rfl
  refine ⟨t₀.order, t₀.capacity, horder, t₀.order_lt, hclp2, clp2Order_isLeast horder,
    t₀, h₀, rfl, ?_⟩
  intro start _ elems hperm
  have hempty : ∀ b, b ∉ t₀.stored := by
    intro b hb
    cases (construct_represents h₀).mem_stored.mp hb
  obtain ⟨t, hall, hkeyed, hsame, hstored⟩ := insertAll_apart elems (construct_keyed hash h₀)
    (apart_of_window hperm) (fun a _ b hb => absurd hb (hempty b))
  have hcap : t.capacity = t₀.capacity := congrArg (2 ^ ·) hsame
  refine ⟨t, hall, fun a => ?_⟩
  rw [← hcap] at hperm
  exact insert_full hkeyed hperm (fun b hb => (hstored b).mpr (Or.inl hb)) a

/-- Three transfers get a table for four, which the IDs around the wrap of the counter
fill. -/
theorem construct_fills_three :
    ∃ t₀ : XferTable Nat, construct 3 = some t₀ ∧
      ∃ t, insertAll (fun a => a) t₀ [1, 2 ^ 64 - 1, 0, 2 ^ 64 - 2] = some t ∧
        ∀ a, t.insert (fun a => a) a = none := by
  obtain ⟨k, c, hk, -, hc, -, t₀, h₀, -, hfill⟩ :=
    @construct_fills Nat (fun a => a) 3 (by decide) (by decide)
  have hfour : c = 4 := by
    have : clp2 3 = some 4 := by decide
    rw [this] at hc
    exact (Option.some.inj hc).symm
  subst hfour
  exact ⟨t₀, h₀, hfill (2 ^ 64 - 2) (by decide) _ (by decide)⟩

end XferTable

end Sendfiled
