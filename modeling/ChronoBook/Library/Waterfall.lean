import Mathlib.Algebra.Ring.Nat
import Mathlib.Data.List.GetD

/-! One supply poured over a row of vessels: each vessel gets what it holds or
what is left for it, whichever is less. -/

namespace ChronoBook.Library.Waterfall

/-- What the vessels before position `i` hold together. -/
def ahead (sizes : List Nat) (i : Nat) : Nat := (sizes.take i).sum

/-- What vessel `i` gets of a supply. -/
def share (sizes : List Nat) (units i : Nat) : Nat := min (sizes.getD i 0) (units - ahead sizes i)

variable (size : Nat) (sizes : List Nat) (units i : Nat)

@[simp] theorem ahead_zero : ahead sizes 0 = 0 := by simp [ahead]

@[simp] theorem ahead_cons : ahead (size :: sizes) (i + 1) = size + ahead sizes i := by simp [ahead]

@[simp] theorem share_nil : share [] units i = 0 := by simp [share]

@[simp] theorem share_none : share sizes 0 i = 0 := by simp [share]

@[simp] theorem share_head : share (size :: sizes) units 0 = min size units := by simp [share]

@[simp] theorem share_tail : share (size :: sizes) units (i + 1) = share sizes (units - size) i := by
  simp [share, Nat.sub_sub]

end ChronoBook.Library.Waterfall
