import ChronoBook.Core.OrderBook
import ChronoBook.Core.PoolStorage

/-! The matching engine over the pool it borrows. A result of `none` is a run of
the code that does not come back: a null pointer was followed, or the matching
loop was still turning after one more turn than the incoming order has units. -/

namespace ChronoBook

structure Fill where
  buyOrderId : UInt64 := 0
  sellOrderId : UInt64 := 0
  price : UInt32 := 0
  qty : UInt32 := 0
  timestamp : UInt64 := 0
  symbolPacked : UInt64 := 0
  deriving DecidableEq, Repr

structure MatchingEngine where
  pool : OrderPool
  book : OrderBook
  fills : List Fill
  currentSeq : UInt64

namespace MatchingEngine

/-- The constructor: an engine borrows its pool. -/
def onPool (pool : OrderPool) : MatchingEngine where
  pool := pool
  book := OrderBook.empty
  fills := []
  currentSeq := 0

def create (capacity : Nat) : MatchingEngine := onPool (SlabPool.create (fun _ => {}) capacity)

/-- An engine on a new pool, where the pool's constructor succeeds. -/
def construct (capacity : UInt64) : Option MatchingEngine :=
  (SlabPool.construct SlabPool.orderSize (fun _ => {}) capacity).map onPool

theorem construct_eq (capacity : UInt64) :
    construct capacity = if capacity.toNat * 48 < 2 ^ 64 then some (create capacity.toNat) else none := by
  unfold construct
  rw [SlabPool.construct_orders]
  split <;> rfl

def order (engine : MatchingEngine) (slot : Slot) : Order := engine.pool.slab slot

def setMemory (engine : MatchingEngine) (memory : Memory) : MatchingEngine :=
  { engine with pool := { engine.pool with slab := memory } }

def executeTrade (engine : MatchingEngine) (resting incoming : Slot) (matchPrice matchQty : UInt32) :
    MatchingEngine :=
  let memory : Memory := engine.pool.slab
  let memory := memory.modify resting (fun object => object.fill matchQty)
  let memory := memory.modify incoming (fun object => object.fill matchQty)
  let buyer := if (memory incoming).side = .BUY then incoming else resting
  let seller := if (memory incoming).side = .BUY then resting else incoming
  let fill : Fill :=
    { buyOrderId := (memory buyer).orderId
      sellOrderId := (memory seller).orderId
      price := matchPrice
      qty := matchQty
      timestamp := engine.currentSeq
      symbolPacked := (memory incoming).symbolPacked }
  { engine.setMemory memory with fills := engine.fills ++ [fill] }

/-- What the head of the matching loop decides: leave it, or trade with the front of a level. -/
inductive Turn where
  | leave
  | trade (level : PriceLevel) (restPrice : UInt32)

def nextTurn (engine : MatchingEngine) (incoming : Slot) (respectPrice : Bool) : Turn :=
  let order := engine.order incoming
  if order.isFilled then .leave
  else
    let restPrice := if order.side = .BUY then engine.book.getBestAsk else engine.book.getBestBid
    if restPrice = 0 then .leave
    else
      match if order.side = .BUY then engine.book.getAskLevel restPrice else engine.book.getBidLevel restPrice with
      | none => .leave
      | some level =>
          if respectPrice && !order.side.crosses restPrice order.price then .leave
          else .trade level restPrice

/-- The rest of a turn once its level is known. -/
def tradeTurn (engine : MatchingEngine) (incoming : Slot) (level : PriceLevel) (restPrice : UInt32) :
    Option MatchingEngine :=
  match level.front with
  | none => none
  | some resting =>
      let matchQty := min (engine.order incoming).remainingQty (engine.order resting).remainingQty
      let engine := engine.executeTrade resting incoming restPrice matchQty
      let shrink := fun level : PriceLevel => level.decreaseTotalQty matchQty
      let book :=
        if (engine.order incoming).side = .BUY
        then { engine.book with asks := engine.book.asks.modify restPrice shrink }
        else { engine.book with bids := engine.book.bids.modify restPrice shrink }
      let engine := { engine with book := book }
      if (engine.order resting).isFilled then
        let (book, memory) := engine.book.removeOrder engine.pool.slab (some resting)
        let engine := { engine.setMemory memory with book := book }
        some { engine with pool := engine.pool.deallocate (some resting) }
      else some engine

def matchLoop (incoming : Slot) (respectPrice : Bool) : Nat → MatchingEngine → Option MatchingEngine
  | 0, _ => none
  | turns + 1, engine =>
      match engine.nextTurn incoming respectPrice with
      | .leave => some engine
      | .trade level restPrice => (engine.tradeTurn incoming level restPrice).bind (matchLoop incoming respectPrice turns)

def matchOneSide (engine : MatchingEngine) (incoming : Slot) (respectPrice : Bool) : Option MatchingEngine :=
  matchLoop incoming respectPrice ((engine.order incoming).remainingQty.toNat + 1) engine

def free (engine : MatchingEngine) (slot : Slot) : MatchingEngine :=
  { engine with pool := engine.pool.deallocate (some slot) }

def matchLimit (engine : MatchingEngine) (order : Slot) : Option MatchingEngine := do
  let engine ← engine.matchOneSide order true
  if !(engine.order order).isFilled then
    let (added, book, memory) := engine.book.addOrder engine.pool.slab (some order)
    let engine := { engine.setMemory memory with book := book }
    if !added then some (engine.free order) else some engine
  else some (engine.free order)

def matchMarket (engine : MatchingEngine) (order : Slot) : Option MatchingEngine := do
  let engine ← engine.matchOneSide order false
  some (engine.free order)

def matchIOC (engine : MatchingEngine) (order : Slot) : Option MatchingEngine := do
  let engine ← engine.matchOneSide order true
  some (engine.free order)

def processOrder (engine : MatchingEngine) (order : Option Slot) (sequenceNum : UInt64) : Option MatchingEngine :=
  match order with
  | none => some engine
  | some order =>
      if engine.book.containsOrder (engine.order order).orderId then some (engine.free order)
      else
        let engine := { engine with currentSeq := sequenceNum }
        match (engine.order order).type with
        | .LIMIT => engine.matchLimit order
        | .MARKET => engine.matchMarket order
        | .IOC => engine.matchIOC order

def cancelOrder (engine : MatchingEngine) (orderId : UInt64) : Bool × MatchingEngine :=
  let (found, book, memory) := engine.book.cancelOrder engine.pool.slab orderId
  let engine := { engine.setMemory memory with book := book }
  match found with
  | none => (false, engine)
  | some order => (true, engine.free order)

def modifyOrder (engine : MatchingEngine) (orderId : UInt64) (newPrice newQty : UInt32) (sequenceNum : UInt64) :
    Option (Bool × MatchingEngine) :=
  let (found, book, memory) := engine.book.cancelOrder engine.pool.slab orderId
  let engine := { engine.setMemory memory with book := book }
  match found with
  | none => some (false, engine)
  | some order => do
      let memory : Memory := engine.pool.slab
      let memory := memory.modify order (fun object =>
        { object with price := newPrice, qty := newQty, filledQty := 0, type := .LIMIT })
      let engine ← (engine.setMemory memory).processOrder (some order) sequenceNum
      some (true, engine)

def drainFills (engine : MatchingEngine) : List Fill × MatchingEngine :=
  (engine.fills, { engine with fills := [] })

end MatchingEngine

end ChronoBook
