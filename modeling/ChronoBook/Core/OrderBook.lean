import ChronoBook.Core.PriceLevel
import ChronoBook.Library.SortedMap

/-! The order book: one map of price levels a side, kept in priority order, and
one map from order ids to the slots of the resting orders. The orders themselves
lie in the pool's storage, which every operation takes and returns. -/

namespace ChronoBook
open Library

structure OrderBook where
  bids : SortedMap UInt32 PriceLevel Side.BUY.Ahead
  asks : SortedMap UInt32 PriceLevel Side.SELL.Ahead
  orderMap : UInt64 → Option Slot

namespace OrderBook

def empty : OrderBook := ⟨SortedMap.empty, SortedMap.empty, fun _ => none⟩

section Levels
variable {before : UInt32 → UInt32 → Prop} [DecidableRel before] [IsStrictTotalOrder UInt32 before]

/-- Append the order to the level of its price, which is created when missing. -/
def insertAt (levels : SortedMap UInt32 PriceLevel before) (memory : Memory) (order : Slot) :
    SortedMap UInt32 PriceLevel before × Memory :=
  let price := (memory order).price
  let level := (levels.find? price).getD {}
  (levels.upsert price {} (fun level => (level.addOrder memory order).1), (level.addOrder memory order).2)

/-- Unlink the order from the level of its price, and drop the level once it is empty. -/
def removeAt (levels : SortedMap UInt32 PriceLevel before) (memory : Memory) (order : Slot) :
    SortedMap UInt32 PriceLevel before × Memory :=
  let price := (memory order).price
  match levels.find? price with
  | none => (levels, memory)
  | some level =>
      let (level, memory) := level.removeOrder memory order
      if level.isEmpty then (levels.erase price, memory) else (levels.modify price (fun _ => level), memory)

end Levels

/-- The flag is false, and nothing is changed, for a null order or an id that already rests. -/
def addOrder (book : OrderBook) (memory : Memory) : Option Slot → Bool × OrderBook × Memory
  | none => (false, book, memory)
  | some order =>
      if (book.orderMap (memory order).orderId).isSome then (false, book, memory)
      else
        let orderMap := Function.update book.orderMap (memory order).orderId (some order)
        match (memory order).side with
        | .BUY =>
            let (bids, memory) := insertAt book.bids memory order
            (true, { book with bids := bids, orderMap := orderMap }, memory)
        | .SELL =>
            let (asks, memory) := insertAt book.asks memory order
            (true, { book with asks := asks, orderMap := orderMap }, memory)

def removeOrder (book : OrderBook) (memory : Memory) : Option Slot → OrderBook × Memory
  | none => (book, memory)
  | some order =>
      let orderMap := Function.update book.orderMap (memory order).orderId none
      match (memory order).side with
      | .BUY =>
          let (bids, memory) := removeAt book.bids memory order
          ({ book with bids := bids, orderMap := orderMap }, memory)
      | .SELL =>
          let (asks, memory) := removeAt book.asks memory order
          ({ book with asks := asks, orderMap := orderMap }, memory)

/-- Unlink the order and return its slot, which the caller frees; null when the id does not rest. -/
def cancelOrder (book : OrderBook) (memory : Memory) (orderId : UInt64) : Option Slot × OrderBook × Memory :=
  match book.orderMap orderId with
  | none => (none, book, memory)
  | some order => (some order, book.removeOrder memory (some order))

def containsOrder (book : OrderBook) (orderId : UInt64) : Bool := (book.orderMap orderId).isSome

def getBestBid (book : OrderBook) : UInt32 := (book.bids.keys.head?).getD 0

def getBestAsk (book : OrderBook) : UInt32 := (book.asks.keys.head?).getD 0

def getSpread (book : OrderBook) : UInt32 :=
  let bid := book.getBestBid
  let ask := book.getBestAsk
  if bid > 0 ∧ ask > 0 ∧ ask ≥ bid then ask - bid else 0

def getBestBidQty (book : OrderBook) : UInt64 :=
  ((book.bids.entries.head?).map (fun entry => entry.2.getTotalQty)).getD 0

def getBestAskQty (book : OrderBook) : UInt64 :=
  ((book.asks.entries.head?).map (fun entry => entry.2.getTotalQty)).getD 0

def getBidLevel (book : OrderBook) (price : UInt32) : Option PriceLevel := book.bids.find? price

def getAskLevel (book : OrderBook) (price : UInt32) : Option PriceLevel := book.asks.find? price

def levels (book : OrderBook) : (side : Side) → SortedMap UInt32 PriceLevel side.Ahead
  | .BUY => book.bids
  | .SELL => book.asks

def withSide (book : OrderBook) : (side : Side) → SortedMap UInt32 PriceLevel side.Ahead →
    (UInt64 → Option Slot) → OrderBook
  | .BUY, bids, orderMap => { book with bids := bids, orderMap := orderMap }
  | .SELL, asks, orderMap => { book with asks := asks, orderMap := orderMap }

section WithSide
variable (book : OrderBook) {side other : Side} (map : SortedMap UInt32 PriceLevel side.Ahead)
  (orderMap : UInt64 → Option Slot)

@[simp] theorem levels_withSide : (book.withSide side map orderMap).levels side = map := by
  cases side <;> rfl

theorem levels_withSide_ne (different : other ≠ side) :
    (book.withSide side map orderMap).levels other = book.levels other := by
  cases side <;> cases other <;> first | rfl | exact absurd rfl different

@[simp] theorem orderMap_withSide : (book.withSide side map orderMap).orderMap = orderMap := by
  cases side <;> rfl

end WithSide

def bestPrice (book : OrderBook) (side : Side) : UInt32 := ((book.levels side).keys.head?).getD 0

theorem addOrder_eq (book : OrderBook) (memory : Memory) (order : Slot)
    (fresh : book.orderMap (memory order).orderId = none) :
    book.addOrder memory (some order) =
      let placed := insertAt (book.levels (memory order).side) memory order
      (true, book.withSide (memory order).side placed.1
        (Function.update book.orderMap (memory order).orderId (some order)), placed.2) := by
  simp only [addOrder, fresh, Option.isSome_none, Bool.false_eq_true, if_false]
  split
  next side => rw [side]; rfl
  next side => rw [side]; rfl

theorem removeOrder_eq (book : OrderBook) (memory : Memory) (order : Slot) :
    book.removeOrder memory (some order) =
      let placed := removeAt (book.levels (memory order).side) memory order
      (book.withSide (memory order).side placed.1
        (Function.update book.orderMap (memory order).orderId none), placed.2) := by
  simp only [removeOrder]
  split
  next side => rw [side]; rfl
  next side => rw [side]; rfl

end OrderBook

end ChronoBook
