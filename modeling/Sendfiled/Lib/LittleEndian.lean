/-
Numbers as bytes, least significant first.
-/
import Mathlib.Algebra.Ring.Nat
import Mathlib.Tactic.Basic

namespace LittleEndian

/-- The number in some bytes. -/
def ofLE : List UInt8 → Nat
  | [] => 0
  | b :: rest => b.toNat + 256 * ofLE rest

/-- The `count` low bytes of a number. -/
def toLE : Nat → Nat → List UInt8
  | 0, _ => []
  | count + 1, n => UInt8.ofNat n :: toLE count (n / 256)

@[simp] theorem length_toLE (count n : Nat) : (toLE count n).length = count := by
  induction count generalizing n with
  | zero => rfl
  | succ count ih => simp [toLE, ih]

/-- Reading back what was written gives the number up to what did not fit. -/
theorem ofLE_toLE (count n : Nat) : ofLE (toLE count n) = n % 256 ^ count := by
  induction count generalizing n with
  | zero => simp [toLE, ofLE, Nat.mod_one]
  | succ count ih =>
      rw [toLE, ofLE, ih, Nat.pow_succ, Nat.mul_comm (256 ^ count) 256, Nat.mod_mul]
      rfl

theorem ofLE_lt (bytes : List UInt8) : ofLE bytes < 256 ^ bytes.length := by
  induction bytes with
  | nil => simp [ofLE]
  | cons b rest ih =>
      have hb : b.toNat < 256 := b.toNat_lt
      rw [ofLE, List.length_cons, Nat.pow_succ]
      omega

/-- Writing the number in some bytes gives the bytes. -/
theorem toLE_ofLE (bytes : List UInt8) : toLE bytes.length (ofLE bytes) = bytes := by
  induction bytes with
  | nil => rfl
  | cons b rest ih =>
      have hb : b.toNat < 256 := b.toNat_lt
      have hlow : UInt8.ofNat (b.toNat + 256 * ofLE rest) = b := by
        apply UInt8.toNat_inj.mp
        rw [UInt8.toNat_ofNat']
        omega
      have hhigh : (b.toNat + 256 * ofLE rest) / 256 = ofLE rest := by omega
      rw [ofLE, List.length_cons, toLE, hlow, hhigh, ih]

/-- The words of a structure, one after the other. -/
def words (fields : List (BitVec 64)) : List UInt8 := fields.flatMap fun w => toLE 8 w.toNat

/-- The `i`-th word behind the first eight bytes of a buffer. -/
def wordAt (buf : List UInt8) (i : Nat) : BitVec 64 :=
  BitVec.ofNat 64 (ofLE ((buf.drop (8 + 8 * i)).take 8))

theorem length_words (fields : List (BitVec 64)) : (words fields).length = 8 * fields.length := by
  induction fields with
  | nil => rfl
  | cons w rest ih =>
      rw [words, List.flatMap_cons, List.length_append, length_toLE, List.length_cons]
      change 8 + (words rest).length = _
      rw [ih]
      omega

theorem take_drop_words (fields : List (BitVec 64)) (rest : List UInt8) {i : Nat} {w : BitVec 64}
    (h : fields[i]? = some w) :
    ((words fields ++ rest).drop (8 * i)).take 8 = toLE 8 w.toNat := by
  induction fields generalizing i with
  | nil => simp at h
  | cons v fields ih =>
      rw [words, List.flatMap_cons, List.append_assoc]
      cases i with
      | zero =>
          simp only [List.getElem?_cons_zero, Option.some.injEq] at h
          rw [← h, Nat.mul_zero, List.drop_zero, List.take_append_of_le_length (by simp),
            List.take_of_length_le (by simp)]
      | succ i =>
          rw [show 8 * (i + 1) = (toLE 8 v.toNat).length + 8 * i by simp; omega,
            List.drop_append, List.drop_of_length_le (by omega), List.nil_append,
            Nat.add_sub_cancel_left]
          exact ih (by simpa using h)

/-- The bytes behind a word. -/
theorem toLE_wordAt {buf : List UInt8} {i : Nat} (h : 8 + 8 * i + 8 ≤ buf.length) :
    toLE 8 (wordAt buf i).toNat = (buf.drop (8 + 8 * i)).take 8 := by
  have hlen : ((buf.drop (8 + 8 * i)).take 8).length = 8 := by
    rw [List.length_take, List.length_drop]
    omega
  have hlt := ofLE_lt ((buf.drop (8 + 8 * i)).take 8)
  rw [hlen, show (256 ^ 8 : Nat) = 2 ^ 64 by decide] at hlt
  rw [wordAt, BitVec.toNat_ofNat, Nat.mod_eq_of_lt hlt]
  calc toLE 8 (ofLE ((buf.drop (8 + 8 * i)).take 8))
      = toLE ((buf.drop (8 + 8 * i)).take 8).length (ofLE ((buf.drop (8 + 8 * i)).take 8)) := by
        rw [hlen]
    _ = (buf.drop (8 + 8 * i)).take 8 := toLE_ofLE _

/-- A word of a structure is found where it was put. -/
theorem wordAt_words {head : List UInt8} (hhead : head.length = 8) (fields : List (BitVec 64))
    (rest : List UInt8) {i : Nat} {w : BitVec 64} (h : fields[i]? = some w) :
    wordAt (head ++ words fields ++ rest) i = w := by
  have hdrop : (head ++ words fields ++ rest).drop (8 + 8 * i) =
      (words fields ++ rest).drop (8 * i) := by
    rw [List.append_assoc, List.drop_append, List.drop_of_length_le (by omega),
      List.nil_append, hhead, Nat.add_sub_cancel_left]
  rw [wordAt, hdrop, take_drop_words fields rest h, ofLE_toLE,
    show (256 ^ 8 : Nat) = 2 ^ 64 by decide, Nat.mod_eq_of_lt w.isLt, BitVec.ofNat_toNat,
    BitVec.setWidth_eq]

end LittleEndian
