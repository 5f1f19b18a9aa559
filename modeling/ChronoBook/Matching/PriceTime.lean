import ChronoBook.Feed.BinaryProtocol
import ChronoBook.Library.Priority
import ChronoBook.Matching.MatchingEngine

/-! What the engine is for: price-time priority on two plain lists. There are no
slots, links, levels or maps here, only the resting orders of each side from the
best price down and, at one price, from the oldest down. -/

namespace ChronoBook
open Library Priority

structure Resting where
  orderId : UInt64
  symbolPacked : UInt64
  price : UInt32
  qty : UInt32
  filledQty : UInt32
  side : Side
  deriving DecidableEq, Repr

def Order.resting (order : Order) : Resting :=
  ⟨order.orderId, order.symbolPacked, order.price, order.qty, order.filledQty, order.side⟩

namespace Resting

def remainingQty (order : Resting) : UInt32 :=
  if order.filledQty ≥ order.qty then 0 else order.qty - order.filledQty

def fillBy (maker taker : Resting) (seq : UInt64) (qty : UInt32) : Fill where
  buyOrderId := if taker.side = .BUY then taker.orderId else maker.orderId
  sellOrderId := if taker.side = .BUY then maker.orderId else taker.orderId
  price := maker.price
  qty := qty
  timestamp := seq
  symbolPacked := taker.symbolPacked

theorem remainingQty_toNat (order : Resting) :
    order.remainingQty.toNat = order.qty.toNat - order.filledQty.toNat := by
  unfold remainingQty
  split
  next covered =>
    rw [ge_iff_le, UInt32.le_iff_toNat_le] at covered
    simp only [UInt32.toNat_zero]
    omega
  next under =>
    rw [ge_iff_le, UInt32.not_le] at under
    exact UInt32.toNat_sub_of_le _ _ (UInt32.le_of_lt under)

end Resting

/-- The resting orders of each side in matching order. -/
abbrev Ladder := Side → List Resting

structure Sweep where
  fills : List Fill
  left : UInt32
  rest : List Resting

/-- Consume makers from the front while units are left and the price is acceptable. -/
def sweep (accepts : UInt32 → Bool) (fillOf : Resting → UInt32 → Fill) : UInt32 → List Resting → Sweep
  | left, [] => ⟨[], left, []⟩
  | left, maker :: makers =>
      if left = 0 ∨ accepts maker.price = false then ⟨[], left, maker :: makers⟩
      else if maker.remainingQty ≤ left then
        let later := sweep accepts fillOf (left - maker.remainingQty) makers
        ⟨fillOf maker maker.remainingQty :: later.fills, later.left, later.rest⟩
      else ⟨[fillOf maker left], 0, { maker with filledQty := maker.filledQty + left } :: makers⟩

theorem sweep_zero (accepts : UInt32 → Bool) (fillOf : Resting → UInt32 → Fill) (makers : List Resting) :
    sweep accepts fillOf 0 makers = ⟨[], 0, makers⟩ := by
  cases makers <;> simp [sweep]

theorem sweep_stop {accepts : UInt32 → Bool} {fillOf : Resting → UInt32 → Fill} {left : UInt32} {maker : Resting}
    (makers : List Resting) (refused : accepts maker.price = false) :
    sweep accepts fillOf left (maker :: makers) = ⟨[], left, maker :: makers⟩ := by
  rw [sweep, if_pos (Or.inr refused)]

/-- One maker at a time: trade the smaller quantity, drop the maker if it is used up, and go on. -/
theorem sweep_turn (accepts : UInt32 → Bool) (fillOf : Resting → UInt32 → Fill) {left : UInt32} {maker : Resting}
    (makers : List Resting) (units : left ≠ 0) (accepted : accepts maker.price = true) :
    sweep accepts fillOf left (maker :: makers) =
      let qty := min left maker.remainingQty
      let later := sweep accepts fillOf (left - qty)
        (if maker.remainingQty ≤ left then makers else { maker with filledQty := maker.filledQty + qty } :: makers)
      ⟨fillOf maker qty :: later.fills, later.left, later.rest⟩ := by
  rw [sweep, if_neg (by simp [units, accepted])]
  by_cases covered : maker.remainingQty ≤ left
  · have smaller : min left maker.remainingQty = maker.remainingQty := least_right covered
    simp only [if_pos covered, smaller]
  · have smaller : min left maker.remainingQty = left := least_left (UInt32.le_of_lt (UInt32.not_le.mp covered))
    simp only [if_neg covered, smaller, UInt32.sub_self, sweep_zero]

namespace Ladder

def empty : Ladder := fun _ => []

def orders (ladder : Ladder) : List Resting := ladder .BUY ++ ladder .SELL

def find? (ladder : Ladder) (id : UInt64) : Option Resting := ladder.orders.find? (fun order => order.orderId = id)

def remove (ladder : Ladder) (id : UInt64) : Ladder := fun side => (ladder side).filter (fun order => order.orderId ≠ id)

/-- A LIMIT or IOC order accepts prices up to its limit, a MARKET order any price. -/
def accepts (taker : Resting) (type : OrderType) (price : UInt32) : Bool :=
  type = .MARKET || taker.side.crosses price taker.price

def swept (ladder : Ladder) (taker : Resting) (type : OrderType) (seq : UInt64) : Sweep :=
  sweep (accepts taker type) (fun maker => maker.fillBy taker seq) taker.remainingQty (ladder taker.side.opposite)

def residual (ladder : Ladder) (taker : Resting) (type : OrderType) (seq : UInt64) : Resting :=
  { taker with filledQty := taker.qty - (ladder.swept taker type seq).left }

def enter (ladder : Ladder) (taker : Resting) (type : OrderType) (seq : UInt64) : Ladder :=
  let hit := Function.update ladder taker.side.opposite (ladder.swept taker type seq).rest
  if (ladder.swept taker type seq).left ≠ 0 ∧ type = .LIMIT then
    Function.update hit taker.side
      (enqueue taker.side.Ahead Resting.price (ladder.residual taker type seq) (ladder taker.side))
  else hit

end Ladder

def FeedMessage.taker (m : FeedMessage) : Resting :=
  ⟨m.orderId, m.symbolPacked, m.price, m.qty, 0, Side.ofByte m.side⟩

def FeedMessage.replacing (m : FeedMessage) (old : Resting) : Resting :=
  { old with price := m.price, qty := m.qty, filledQty := 0 }

namespace Ladder

/-- The orders that a valid message brings in: at most one, and never one whose id rests. -/
def incoming (ladder : Ladder) (m : FeedMessage) : Option (Resting × OrderType) :=
  if m.msgType = MsgType.ADD.byte then
    if (ladder.find? m.orderId).isSome then none else some (m.taker, OrderType.ofByte m.orderType)
  else if m.msgType = MsgType.CANCEL.byte then none
  else (ladder.find? m.orderId).map (fun old => (m.replacing old, .LIMIT))

/-- The orders that stay when a valid message takes its target out. -/
def cleared (ladder : Ladder) (m : FeedMessage) : Ladder :=
  if m.msgType = MsgType.ADD.byte then ladder else ladder.remove m.orderId

/-- One valid message: its target leaves, then what it brings in is matched. -/
def apply (ladder : Ladder) (m : FeedMessage) : List Fill × Ladder :=
  match ladder.incoming m with
  | none => ([], ladder.cleared m)
  | some (taker, type) =>
      (((ladder.cleared m).swept taker type m.sequence).fills, (ladder.cleared m).enter taker type m.sequence)

end Ladder

end ChronoBook
