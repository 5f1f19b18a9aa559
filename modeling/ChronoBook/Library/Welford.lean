import Mathlib.Algebra.Order.BigOperators.Group.List
import Mathlib.Algebra.Order.Field.Basic
import Mathlib.Tactic.FieldSimp
import Mathlib.Tactic.Linarith
import Mathlib.Tactic.Ring

/-! Mean and sum of squared deviations of a stream of numbers, from the two numbers
and the count so far, with the extremes. The step is written for any numbers that can
be calculated with; in a field it is exact. -/

namespace ChronoBook.Library.Welford

/-- One number more: the mean moves by its share of the deviation, and the sum of squares grows by the product of the
deviations from the old and from the new mean. -/
def step {K : Type} [Add K] [Sub K] [Mul K] [Div K] (count mean m2 x : K) : K × K :=
  let delta := x - mean
  let mean := mean + delta / count
  let delta2 := x - mean
  (mean, m2 + delta * delta2)

/-- The number of numbers so far, the two numbers of the step, and the extremes, which may be of another kind. -/
structure Running (K L H : Type) where
  n : UInt64
  mean : K
  m2 : K
  minV : L
  maxV : H

def Running.add {K L H : Type} [Add K] [Sub K] [Mul K] [Div K] [LT L] [DecidableLT L] [LT H] [DecidableLT H]
    (count : UInt64 → K) (low : K → L) (high : K → H) (stats : Running K L H) (x : K) : Running K L H :=
  let n := stats.n + 1
  let moments := step (count n) stats.mean stats.m2 x
  { n := n
    mean := moments.1
    m2 := moments.2
    minV := if low x < stats.minV then low x else stats.minV
    maxV := if high x > stats.maxV then high x else stats.maxV }

section Field
variable {K : Type} [Field K]

/-- The sum of squared deviations from a centre. -/
def squares (centre : K) (xs : List K) : K := (xs.map (fun x => (x - centre) ^ 2)).sum

theorem squares_append (centre : K) (xs : List K) (x : K) :
    squares centre (xs ++ [x]) = squares centre xs + (x - centre) ^ 2 := by
  simp [squares]

/-- The parallel axis theorem. -/
theorem squares_shift (centre other : K) (xs : List K) :
    squares other xs = squares centre xs + 2 * (centre - other) * (xs.sum - xs.length * centre) +
      xs.length * (centre - other) ^ 2 := by
  unfold squares
  induction xs with
  | nil => simp
  | cons x xs ih =>
    rw [List.map_cons, List.map_cons, List.sum_cons, List.sum_cons, List.sum_cons, ih, List.length_cons, Nat.cast_succ]
    ring

/-- The two numbers are the mean of the stream and its squared deviations from that. -/
structure Summary (xs : List K) (mean m2 : K) : Prop where
  centred : xs.length * mean = xs.sum
  deviates : m2 = squares mean xs

theorem Summary.empty : Summary ([] : List K) 0 0 := ⟨by simp, by simp [squares]⟩

theorem Summary.step [CharZero K] {xs : List K} {mean m2 : K} (summary : Summary xs mean m2) (x : K) :
    Summary (xs ++ [x]) (step ((xs.length + 1 : Nat) : K) mean m2 x).1 (step ((xs.length + 1 : Nat) : K) mean m2 x).2 := by
  have count : ((xs.length + 1 : Nat) : K) ≠ 0 := Nat.cast_ne_zero.mpr (Nat.succ_ne_zero _)
  have length : (xs.length : K) = ((xs.length + 1 : Nat) : K) - 1 := by rw [Nat.cast_succ, add_sub_cancel_right]
  have total : xs.sum - xs.length * mean = 0 := by rw [summary.centred, sub_self]
  unfold Welford.step
  dsimp only
  constructor
  · rw [List.length_append, List.length_singleton, List.sum_append, List.sum_singleton, ← summary.centred, length]
    field_simp
    ring
  · rw [squares_append, squares_shift mean, total, ← summary.deviates, length]
    field_simp
    ring

end Field

section Ordered
variable {K : Type} [Field K] [LinearOrder K] [IsStrictOrderedRing K] {xs : List K} {mean m2 bound : K}

theorem Summary.le_mean (summary : Summary xs mean m2) (some : xs ≠ []) (below : ∀ x ∈ xs, bound ≤ x) : bound ≤ mean := by
  have count : (0 : K) < xs.length := Nat.cast_pos.mpr (List.length_pos_iff.mpr some)
  have total := List.card_nsmul_le_sum xs bound below
  rw [nsmul_eq_mul, ← summary.centred] at total
  exact le_of_mul_le_mul_left total count

theorem Summary.mean_le (summary : Summary xs mean m2) (some : xs ≠ []) (above : ∀ x ∈ xs, x ≤ bound) : mean ≤ bound := by
  have count : (0 : K) < xs.length := Nat.cast_pos.mpr (List.length_pos_iff.mpr some)
  have total := List.sum_le_card_nsmul xs bound above
  rw [nsmul_eq_mul, ← summary.centred] at total
  exact le_of_mul_le_mul_left total count

end Ordered

end ChronoBook.Library.Welford
