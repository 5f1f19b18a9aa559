import Mathlib.Data.UInt
import Mathlib.Logic.Function.Basic
import Mathlib.Order.Defs.Unbundled

/-! An order as it lies in a pool slot, and the price priority of the two sides.
Prices and quantities are the fixed-width unsigned integers of the engine; a
pointer to an order is the slot that holds it, and the null pointer is `none`. -/

namespace ChronoBook

inductive Side where
  | BUY
  | SELL
  deriving DecidableEq, Repr

inductive OrderType where
  | LIMIT
  | MARKET
  | IOC
  deriving DecidableEq, Repr

abbrev Slot := Nat

structure Order where
  next : Option Slot := none
  prev : Option Slot := none
  orderId : UInt64 := 0
  symbolPacked : UInt64 := 0
  price : UInt32 := 0
  qty : UInt32 := 0
  filledQty : UInt32 := 0
  side : Side := .BUY
  type : OrderType := .LIMIT
  deriving DecidableEq, Repr

namespace Order

def remainingQty (order : Order) : UInt32 :=
  if order.filledQty ≥ order.qty then 0 else order.qty - order.filledQty

def isFilled (order : Order) : Bool := order.filledQty ≥ order.qty

theorem remainingQty_toNat (order : Order) :
    order.remainingQty.toNat = order.qty.toNat - order.filledQty.toNat := by
  unfold remainingQty
  split
  next covered =>
    rw [ge_iff_le, UInt32.le_iff_toNat_le] at covered
    simp only [UInt32.toNat_zero]
    omega
  next under =>
    rw [ge_iff_le, UInt32.not_le] at under
    exact UInt32.toNat_sub_of_le _ _ (UInt32.le_of_lt under)

theorem isFilled_iff (order : Order) : order.isFilled = true ↔ order.remainingQty = 0 := by
  rw [← UInt32.toNat_inj, remainingQty_toNat, isFilled, decide_eq_true_eq, ge_iff_le,
    UInt32.le_iff_toNat_le, UInt32.toNat_zero]
  omega

def fill (order : Order) (qty : UInt32) : Order := { order with filledQty := order.filledQty + qty }

theorem fill_filledQty_toNat {order : Order} {qty : UInt32} (bounded : order.filledQty ≤ order.qty)
    (available : qty ≤ order.remainingQty) :
    (order.fill qty).filledQty.toNat = order.filledQty.toNat + qty.toNat := by
  rw [UInt32.le_iff_toNat_le] at bounded
  rw [UInt32.le_iff_toNat_le, remainingQty_toNat] at available
  have small := order.qty.toNat_lt
  unfold fill
  rw [UInt32.toNat_add]
  exact Nat.mod_eq_of_lt (by omega)

theorem fill_bounded {order : Order} {qty : UInt32} (bounded : order.filledQty ≤ order.qty)
    (available : qty ≤ order.remainingQty) : (order.fill qty).filledQty ≤ (order.fill qty).qty := by
  have value := fill_filledQty_toNat bounded available
  rw [UInt32.le_iff_toNat_le] at bounded
  rw [UInt32.le_iff_toNat_le, remainingQty_toNat] at available
  rw [UInt32.le_iff_toNat_le, value]
  change order.filledQty.toNat + qty.toNat ≤ order.qty.toNat
  omega

theorem fill_remainingQty_toNat {order : Order} {qty : UInt32} (bounded : order.filledQty ≤ order.qty)
    (available : qty ≤ order.remainingQty) :
    (order.fill qty).remainingQty.toNat = order.remainingQty.toNat - qty.toNat := by
  rw [remainingQty_toNat, remainingQty_toNat, fill_filledQty_toNat bounded available]
  change order.qty.toNat - _ = _
  omega

/-- An order that is overfilled has nothing left to fill. -/
theorem fill_available {order : Order} {qty : UInt32} (available : qty ≤ order.remainingQty) :
    (order.fill qty).remainingQty.toNat = order.remainingQty.toNat - qty.toNat := by
  by_cases bounded : order.filledQty ≤ order.qty
  · exact fill_remainingQty_toNat bounded available
  · have beyond := UInt32.lt_iff_toNat_lt.mp (UInt32.not_le.mp bounded)
    have remaining := remainingQty_toNat order
    have nothing : qty.toNat = 0 := by
      rw [UInt32.le_iff_toNat_le] at available
      omega
    have same : order.fill qty = order := by
      unfold fill
      rw [UInt32.toNat_inj.mp (nothing.trans UInt32.toNat_zero.symm), UInt32.add_zero]
    rw [same]
    omega

theorem fill_eq {order : Order} {qty : UInt32} (bounded : order.filledQty ≤ order.qty)
    (available : qty ≤ order.remainingQty) :
    order.fill qty = { order with filledQty := order.qty - (order.remainingQty - qty) } := by
  have value := fill_filledQty_toNat bounded available
  have remaining := remainingQty_toNat order
  have smaller : order.remainingQty - qty ≤ order.qty := by
    rw [UInt32.le_iff_toNat_le, UInt32.toNat_sub_of_le _ _ available, remaining]
    omega
  have same : (order.fill qty).filledQty = order.qty - (order.remainingQty - qty) := by
    rw [← UInt32.toNat_inj, value, UInt32.toNat_sub_of_le _ _ smaller, UInt32.toNat_sub_of_le _ _ available, remaining]
    rw [UInt32.le_iff_toNat_le] at bounded available
    omega
  change order.filledQty + qty = _ at same
  unfold fill
  rw [same]

theorem remainingQty_of_left {order : Order} {left : UInt32} (within : left ≤ order.qty) :
    ({ order with filledQty := order.qty - left } : Order).remainingQty = left ∧ order.qty - left ≤ order.qty := by
  have filled := UInt32.toNat_sub_of_le _ _ within
  rw [UInt32.le_iff_toNat_le] at within
  rw [← UInt32.toNat_inj, remainingQty_toNat, UInt32.le_iff_toNat_le]
  change order.qty.toNat - (order.qty - left).toNat = left.toNat ∧ _
  omega

theorem filledQty_eq {order : Order} (bounded : order.filledQty ≤ order.qty) :
    order.qty - order.remainingQty = order.filledQty := by
  have within : order.remainingQty ≤ order.qty := by
    rw [UInt32.le_iff_toNat_le, remainingQty_toNat]
    omega
  rw [← UInt32.toNat_inj, UInt32.toNat_sub_of_le _ _ within, remainingQty_toNat]
  rw [UInt32.le_iff_toNat_le] at bounded
  omega

theorem remainingQty_le (order : Order) : order.remainingQty ≤ order.qty := by
  rw [UInt32.le_iff_toNat_le, remainingQty_toNat]
  omega

theorem fill_remainingQty {order : Order} {qty : UInt32} (bounded : order.filledQty ≤ order.qty)
    (available : qty ≤ order.remainingQty) : (order.fill qty).remainingQty = order.remainingQty - qty := by
  rw [← UInt32.toNat_inj, fill_remainingQty_toNat bounded available, UInt32.toNat_sub_of_le _ _ available]

end Order

theorem units_pos {units : UInt32} : units > 0 ↔ units ≠ 0 := by
  rw [gt_iff_lt, UInt32.lt_iff_toNat_lt, UInt32.toNat_zero, Nat.pos_iff_ne_zero, Ne, Ne, ← UInt32.toNat_inj]
  exact Iff.rfl

theorem least_left {first second : UInt32} (below : first ≤ second) : min first second = first := if_pos below

theorem least_right {first second : UInt32} (below : second ≤ first) : min first second = second := by
  by_cases same : first ≤ second
  · rw [least_left same]
    exact UInt32.le_antisymm same below
  · exact if_neg same

theorem least_le_left (first second : UInt32) : min first second ≤ first := by
  by_cases below : first ≤ second
  · rw [least_left below]
    exact UInt32.le_refl first
  · have above := UInt32.le_of_lt (UInt32.not_le.mp below)
    rw [least_right above]
    exact above

theorem least_le_right (first second : UInt32) : min first second ≤ second := by
  by_cases below : first ≤ second
  · rw [least_left below]
    exact below
  · rw [least_right (UInt32.le_of_lt (UInt32.not_le.mp below))]
    exact UInt32.le_refl second

theorem least_ne_zero {first second : UInt32} (one : first ≠ 0) (two : second ≠ 0) : min first second ≠ 0 := by
  by_cases below : first ≤ second
  · rw [least_left below]
    exact one
  · rw [least_right (UInt32.le_of_lt (UInt32.not_le.mp below))]
    exact two

theorem sub_least_eq_zero (first second : UInt32) : second - min first second = 0 ↔ second ≤ first := by
  have least := least_le_right first second
  rw [← UInt32.toNat_inj, UInt32.toNat_sub_of_le _ _ least, UInt32.toNat_zero]
  rw [UInt32.le_iff_toNat_le] at least
  constructor
  · intro zero
    have same : min first second = second := by
      rw [← UInt32.toNat_inj]
      omega
    rw [← same]
    exact least_le_left first second
  · intro below
    rw [least_right below]
    exact Nat.sub_self _

namespace Side

def opposite : Side → Side
  | .BUY => .SELL
  | .SELL => .BUY

@[simp] theorem opposite_opposite (side : Side) : side.opposite.opposite = side := by cases side <;> rfl

theorem opposite_ne (side : Side) : side.opposite ≠ side := by cases side <;> decide

theorem eq_or_opposite (side other : Side) : other = side ∨ other = side.opposite := by
  cases side <;> cases other <;> decide

/-- The comparator of the level map of one side: higher bids and lower asks come first. -/
def Ahead : Side → UInt32 → UInt32 → Prop
  | .BUY, first, second => second < first
  | .SELL, first, second => first < second

instance (side : Side) : DecidableRel side.Ahead := fun first second =>
  match side with
  | .BUY => inferInstanceAs (Decidable (second < first))
  | .SELL => inferInstanceAs (Decidable (first < second))

instance (side : Side) : IsStrictTotalOrder UInt32 side.Ahead where
  trichotomous := by
    intro first second notAhead notBehind
    cases side <;> simp only [Ahead, UInt32.not_lt] at notAhead notBehind
    · exact UInt32.le_antisymm notAhead notBehind
    · exact UInt32.le_antisymm notBehind notAhead
  irrefl := by
    intro price
    cases side <;> exact UInt32.lt_irrefl price
  trans := by
    intro first second third ahead further
    cases side
    · exact UInt32.lt_trans further ahead
    · exact UInt32.lt_trans ahead further

/-- Whether a resting price meets the limit of an incoming order on this side. -/
def crosses : Side → UInt32 → UInt32 → Bool
  | .BUY, restPrice, limit => restPrice ≤ limit
  | .SELL, restPrice, limit => restPrice ≥ limit

theorem crosses_iff (side : Side) (restPrice limit : UInt32) :
    side.crosses restPrice limit = true ↔ ¬side.opposite.Ahead limit restPrice := by
  cases side <;> simp only [crosses, opposite, Ahead, decide_eq_true_eq, UInt32.not_lt, ge_iff_le]

theorem crosses_opposite (side : Side) (first second : UInt32) :
    side.opposite.crosses first second = side.crosses second first := by
  cases side <;> rfl

end Side

/-- The storage of the slots, each holding the bytes of one order. -/
abbrev Memory := Slot → Order

def Memory.modify (memory : Memory) (slot : Slot) (change : Order → Order) : Memory :=
  Function.update memory slot (change (memory slot))

@[simp] theorem Memory.modify_same (memory : Memory) (slot : Slot) (change : Order → Order) :
    memory.modify slot change slot = change (memory slot) := by
  simp [Memory.modify]

theorem Memory.modify_other (memory : Memory) {slot other : Slot} (change : Order → Order)
    (different : other ≠ slot) : memory.modify slot change other = memory other := by
  simp [Memory.modify, different]

end ChronoBook
