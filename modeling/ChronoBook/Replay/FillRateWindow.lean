import ChronoBook.Library.SlidingWindow
import ChronoBook.Replay.Analytics
import Mathlib.Algebra.Order.Field.Rat

/-! The fill rate of the recent orders. The sum that the tracker keeps is corrected by
the outcome it overwrites, so it is right as long as this outcome is the one that
leaves the window. -/

namespace ChronoBook
open Library

namespace FillRateTracker

def outcomeByte (filled : Bool) : UInt8 := if filled then 1 else 0

/-- The quotient that `windowRate` rounds to a double. -/
def windowRate (tracker : FillRateTracker) : Rat :=
  if tracker.count = 0 then 0 else tracker.windowFilled.toNat / tracker.count

/-- The state of a tracker that was shown these outcomes, oldest first. -/
structure Shows (tracker : FillRateTracker) (window : Nat) (outcomes : List Bool) : Prop where
  sized : tracker.window = window
  written : SlidingWindow.Written 0 window tracker.head tracker.ring (outcomes.map outcomeByte)
  count : tracker.count = min outcomes.length window
  filled : tracker.windowFilled.toNat =
    ((SlidingWindow.recent 0 window (outcomes.map outcomeByte)).map UInt8.toNat).sum
  totalOrders : tracker.totalOrders = UInt64.ofNat outcomes.length
  totalFilled : tracker.totalFilled = UInt64.ofNat (outcomes.count true)

variable {tracker : FillRateTracker} {window : Nat} {outcomes : List Bool}

theorem outcomeByte_toNat (filled : Bool) : (outcomeByte filled).toNat = if filled then 1 else 0 := by
  cases filled <;> rfl

theorem sum_outcomes (outcomes : List Bool) : ((outcomes.map outcomeByte).map UInt8.toNat).sum = outcomes.count true := by
  induction outcomes with
  | nil => rfl
  | cons filled later ih =>
    rw [List.map_cons, List.map_cons, List.sum_cons, ih, outcomeByte_toNat, List.count_cons]
    cases filled <;> simp [Nat.add_comm]

theorem sum_recent (window : Nat) (outcomes : List Bool) :
    ((SlidingWindow.recent 0 window (outcomes.map outcomeByte)).map UInt8.toNat).sum =
      (outcomes.drop (outcomes.length - window)).count true := by
  rw [SlidingWindow.Written.sum_recent (by rfl), List.length_map, ← List.map_drop, sum_outcomes]

theorem sum_recent_le (window : Nat) (outcomes : List Bool) :
    ((SlidingWindow.recent 0 window (outcomes.map outcomeByte)).map UInt8.toNat).sum ≤ window := by
  rw [sum_recent]
  calc
    _ ≤ (outcomes.drop (outcomes.length - window)).length := List.count_le_length
    _ ≤ window := by
      rw [List.length_drop]
      omega

namespace Shows

theorem ofWindow (window : Nat) : (FillRateTracker.ofWindow window).Shows window [] where
  sized := rfl
  written := SlidingWindow.Written.create 0 window
  count := by simp [FillRateTracker.ofWindow]
  filled := by simp [FillRateTracker.ofWindow, SlidingWindow.recent]
  totalOrders := rfl
  totalFilled := rfl

/-- The outcome that leaves the window was counted. -/
theorem counted (shows : tracker.Shows window outcomes) (positive : 0 < window) :
    (tracker.ring.getD tracker.head 0).toNat ≤ tracker.windowFilled.toNat := by
  rw [shows.filled, shows.written.split positive 0]
  simp

theorem onOrder (shows : tracker.Shows window outcomes) (positive : 0 < window) (small : window < 2 ^ 64)
    (filled : Bool) : (tracker.onOrder filled).Shows window (outcomes ++ [filled]) := by
  have listed : (outcomes ++ [filled]).map outcomeByte = outcomes.map outcomeByte ++ [outcomeByte filled] := by simp
  have written := shows.written.write positive (outcomeByte filled)
  refine ⟨shows.sized, ?_, ?_, ?_, ?_, ?_⟩
  · rw [listed, ← shows.sized]
    rw [← shows.sized] at written
    exact written
  · change (if tracker.count < tracker.window then _ else _) = _
    rw [shows.count, shows.sized, List.length_append, List.length_singleton]
    split <;> omega
  · have counted := shows.counted positive
    have leaves : (tracker.ring.getD tracker.head 0).toUInt64 ≤ tracker.windowFilled := by
      rw [UInt64.le_iff_toNat_le, UInt8.toNat_toUInt64]
      exact counted
    have balance := SlidingWindow.Written.sum_write shows.written positive (outcomeByte filled) 0 UInt8.toNat
    have within := sum_recent_le window (outcomes ++ [filled])
    rw [← shows.filled, ← listed] at balance
    change (tracker.windowFilled - _ + (outcomeByte filled).toUInt64).toNat = _
    rw [UInt64.toNat_add, UInt64.toNat_sub_of_le _ _ leaves, UInt8.toNat_toUInt64, UInt8.toNat_toUInt64]
    omega
  · rw [List.length_append]
    change tracker.totalOrders + 1 = _
    rw [shows.totalOrders]
    exact (UInt64.ofNat_add outcomes.length 1).symm
  · change (if filled then tracker.totalFilled + 1 else tracker.totalFilled) = _
    rw [shows.totalFilled, List.count_append]
    cases filled with
    | false => rfl
    | true => exact (UInt64.ofNat_add (outcomes.count true) 1).symm

theorem run (positive : 0 < window) (small : window < 2 ^ 64) (outcomes : List Bool) :
    (outcomes.foldl FillRateTracker.onOrder (FillRateTracker.ofWindow window)).Shows window outcomes := by
  induction outcomes using List.reverseRecOn with
  | nil => exact ofWindow window
  | append_singleton earlier filled ih =>
    rw [List.foldl_append]
    exact ih.onOrder positive small filled

end Shows

/-- The window after any number of orders. -/
theorem fill_rate_window (window : UInt64) (positive : 1 ≤ window.toNat) :
    ((∃ start, create window.toNat = .ok start) ↔ window.toNat ≤ maxSizeOf 1) ∧
    ∀ start, create window.toNat = .ok start → ∀ outcomes : List Bool,
      let tracker := outcomes.foldl FillRateTracker.onOrder start
      let last := outcomes.drop (outcomes.length - window.toNat)
      last.length = min outcomes.length window.toNat ∧
        tracker.count = min outcomes.length window.toNat ∧
        tracker.windowFilled.toNat = last.count true ∧
        (tracker.ring.getD tracker.head 0).toNat ≤ tracker.windowFilled.toNat ∧
        tracker.head = outcomes.length % window.toNat ∧
        tracker.totalOrders = UInt64.ofNat outcomes.length ∧
        tracker.totalFilled = UInt64.ofNat (outcomes.count true) ∧
        (outcomes.length < 2 ^ 64 →
          tracker.totalOrders.toNat = outcomes.length ∧ tracker.totalFilled.toNat = outcomes.count true) ∧
        tracker.windowRate = (last.count true : Rat) / last.length := by
  refine ⟨⟨fun ⟨_, made⟩ => (create_ok_iff.mp made).1, fun fits => ⟨_, create_ok_iff.mpr ⟨fits, rfl⟩⟩⟩, ?_⟩
  intro start made outcomes tracker last
  have shows : tracker.Shows window.toNat outcomes := by
    cases (create_ok_iff.mp made).2
    exact Shows.run positive window.toNat_lt outcomes
  have length : last.length = min outcomes.length window.toNat := by
    rw [List.length_drop]
    omega
  have filled : tracker.windowFilled.toNat = last.count true := shows.filled.trans (sum_recent _ _)
  have place : tracker.head = outcomes.length % window.toNat := by
    rw [shows.written.place, List.length_map]
  refine ⟨length, shows.count, filled, shows.counted positive, place, shows.totalOrders, shows.totalFilled, ?_, ?_⟩
  · intro few
    have part : outcomes.count true ≤ outcomes.length := List.count_le_length
    rw [shows.totalOrders, shows.totalFilled, UInt64.toNat_ofNat', UInt64.toNat_ofNat']
    omega
  · unfold windowRate
    rw [filled, shows.count, ← length]
    by_cases empty : last.length = 0
    · rw [if_pos empty, empty, Nat.cast_zero, div_zero]
    · rw [if_neg empty]

theorem fill_rate_window_wrapped :
    ∃ start, create 3 = .ok start ∧ ([true, true, false, false].foldl FillRateTracker.onOrder start).windowRate = 1 / 3 := by
  obtain ⟨_, _, _, _, _, _, _, _, rate⟩ := (fill_rate_window 3 (by decide)).2 _ rfl [true, true, false, false]
  exact ⟨_, rfl, rate.trans (by decide +kernel)⟩

end FillRateTracker

end ChronoBook
