import Mathlib.Algebra.Ring.Nat
import Mathlib.Algebra.Ring.Int.Defs

/-! Words that are stored as signed numbers. Between two bounds on the same side of
the sign bit both readings agree; bounds on different sides are taken in the wrong
order by one of the two. -/

namespace ChronoBook.Library.SignedWords

theorem toInt_toInt64 (x : UInt64) :
    x.toInt64.toInt = if x.toNat < 2 ^ 63 then (x.toNat : Int) else x.toNat - 2 ^ 64 := by
  have reading : x.toInt64.toInt = x.toBitVec.toInt := rfl
  have bound := x.toNat_lt
  rw [reading, BitVec.toInt_eq_toNat_cond]
  change (if 2 * x.toNat < 2 ^ 64 then (x.toNat : Int) else x.toNat - 2 ^ 64) = _
  split <;> split <;> omega

theorem toInt_toInt32 {x : UInt32} (small : x.toNat < 2 ^ 31) : x.toInt32.toInt = x.toNat := by
  have reading : x.toInt32.toInt = x.toBitVec.toInt := rfl
  rw [reading, BitVec.toInt_eq_toNat_cond]
  change (if 2 * x.toNat < 2 ^ 32 then (x.toNat : Int) else x.toNat - 2 ^ 32) = _
  exact if_pos (by omega)

theorem toNat_toUInt32 {x : Int32} (nonneg : 0 ≤ x.toInt) : (x.toUInt32.toNat : Int) = x.toInt := by
  have reading : x.toUInt32.toNat = x.toInt.toNat := Int32.toNat_toUInt32_of_le (Int32.le_iff_toInt_le.mpr nonneg)
  rw [reading, Int.toNat_of_nonneg nonneg]

/-- A signed offset of at most `band` moves `mid` by that number, if neither end of the band leaves
the positive half. -/
theorem toNat_offset {mid band : UInt32} {offset : Int32} (inside : band.toNat < mid.toNat)
    (small : mid.toNat + band.toNat < 2 ^ 31) (low : -band.toInt32 ≤ offset) (high : offset ≤ band.toInt32) :
    mid.toNat ≤ (mid.toInt32 + offset).toUInt32.toNat + band.toNat ∧
      (mid.toInt32 + offset).toUInt32.toNat ≤ mid.toNat + band.toNat := by
  have bandInt : band.toInt32.toInt = band.toNat := toInt_toInt32 (by omega)
  have midInt : mid.toInt32.toInt = mid.toNat := toInt_toInt32 (by omega)
  have lowInt : -(band.toNat : Int) ≤ offset.toInt := by
    have ordered := Int32.le_iff_toInt_le.mp low
    rwa [Int32.toInt_neg, bandInt, Int.bmod_eq_of_le (by omega) (by omega)] at ordered
  have highInt : offset.toInt ≤ band.toNat := by
    have ordered := Int32.le_iff_toInt_le.mp high
    rwa [bandInt] at ordered
  have sum : (mid.toInt32 + offset).toInt = mid.toNat + offset.toInt := by
    rw [Int32.toInt_add, midInt]
    exact Int.bmod_eq_of_le (by omega) (by omega)
  have price := toNat_toUInt32 (x := mid.toInt32 + offset) (by omega)
  omega

/-- A band of nonnegative width is not empty. -/
theorem neg_le_toInt32 {band : UInt32} (small : band.toNat < 2 ^ 31) : -band.toInt32 ≤ band.toInt32 := by
  have bandInt : band.toInt32.toInt = band.toNat := toInt_toInt32 small
  rw [Int32.le_iff_toInt_le, Int32.toInt_neg, bandInt, Int.bmod_eq_of_le (by omega) (by omega)]
  omega

/-- A word that was widened as a signed number is found again in the lower half. -/
theorem toUInt32_widened (x : UInt32) : x.toInt32.toInt64.toUInt64.toUInt32 = x := by
  apply UInt32.toBitVec_inj.mp
  change (x.toBitVec.signExtend 64).setWidth 32 = x.toBitVec
  ext i below
  rw [BitVec.getElem_setWidth, BitVec.getLsbD_signExtend, if_pos below, decide_eq_true (by omega), Bool.true_and,
    BitVec.getLsbD_eq_getElem below]

theorem toInt64_inj {x y : UInt64} : x.toInt64 = y.toInt64 ↔ x = y := by
  constructor
  · intro same
    rw [← x.toUInt64_toInt64, same, y.toUInt64_toInt64]
  · intro same
    rw [same]

/-- Both bounds are negative as signed numbers, or neither is. -/
def SameSide (first last : UInt64) : Prop := first.toNat < 2 ^ 63 ↔ last.toNat < 2 ^ 63

instance (first last : UInt64) : Decidable (SameSide first last) := inferInstanceAs (Decidable (_ ↔ _))

/-- The word is met on the way up from the first bound to the last, going around behind the greatest word. -/
def Met (first last x : UInt64) : Prop :=
  first ≤ last ∧ first ≤ x ∧ x ≤ last ∨ last < first ∧ (first ≤ x ∨ x ≤ last)

instance (first last x : UInt64) : Decidable (Met first last x) := inferInstanceAs (Decidable (_ ∨ _))

variable {first last x y : UInt64}

theorem between_of_sameSide (side : SameSide first last) :
    (first.toInt64 ≤ x.toInt64 ∧ x.toInt64 ≤ last.toInt64) ↔ (first ≤ x ∧ x ≤ last) := by
  unfold SameSide at side
  rw [Int64.le_iff_toInt_le, Int64.le_iff_toInt_le, UInt64.le_iff_toNat_le, UInt64.le_iff_toNat_le, toInt_toInt64,
    toInt_toInt64, toInt_toInt64]
  have bounds := And.intro first.toNat_lt (And.intro last.toNat_lt x.toNat_lt)
  split <;> split <;> split <;> omega

/-- With bounds on different sides one reading selects nothing and the other what is met on the way. -/
theorem between_of_split (split : ¬SameSide first last) :
    ((first.toInt64 ≤ x.toInt64 ∧ x.toInt64 ≤ last.toInt64) ↔ (first ≤ x ∧ x ≤ last)) ↔ ¬Met first last x := by
  unfold SameSide at split
  unfold Met
  rw [Int64.le_iff_toInt_le, Int64.le_iff_toInt_le, UInt64.le_iff_toNat_le, UInt64.le_iff_toNat_le,
    UInt64.le_iff_toNat_le, UInt64.lt_iff_toNat_lt, toInt_toInt64, toInt_toInt64, toInt_toInt64]
  have bounds := And.intro first.toNat_lt (And.intro last.toNat_lt x.toNat_lt)
  split_ifs <;> omega

theorem toInt64_le_iff (side : SameSide first last) (here : first ≤ x ∧ x ≤ last) (there : first ≤ y ∧ y ≤ last) :
    x.toInt64 ≤ y.toInt64 ↔ x ≤ y := by
  unfold SameSide at side
  rw [UInt64.le_iff_toNat_le, UInt64.le_iff_toNat_le] at here there
  rw [Int64.le_iff_toInt_le, UInt64.le_iff_toNat_le, toInt_toInt64, toInt_toInt64]
  split <;> split <;> omega

end ChronoBook.Library.SignedWords
