import ChronoBook.Feed.BinaryProtocol
import ChronoBook.Matching.MatchingEngine

/-! The reference matcher: one vector of resting orders, scanned from its start
for the best maker of every trade. As in the engine, `none` is a matching loop
that is still turning after one more turn than the incoming order has units. -/

namespace ChronoBook

structure RestingOrder where
  orderId : UInt64 := 0
  symbolPacked : UInt64 := 0
  price : UInt32 := 0
  qty : UInt32 := 0
  filledQty : UInt32 := 0
  side : Side := .BUY
  sequence : UInt64 := 0
  deriving DecidableEq, Repr

def RestingOrder.remainingQty (order : RestingOrder) : UInt32 :=
  if order.filledQty ≥ order.qty then 0 else order.qty - order.filledQty

def RestingOrder.fill (order : RestingOrder) (qty : UInt32) : RestingOrder :=
  { order with filledQty := order.filledQty + qty }

structure ReferenceMatcher where
  book : List RestingOrder := []
  fills : List Fill := []

namespace ReferenceMatcher

def betterPriceTime (incomingSide : Side) (a b : RestingOrder) : Bool :=
  if a.price ≠ b.price then
    if incomingSide = .BUY then a.price < b.price else a.price > b.price
  else a.sequence < b.sequence

def skips (incomingSide : Side) (incomingPrice : UInt32) (type : OrderType) (order : RestingOrder) : Bool :=
  (order.side = incomingSide || order.remainingQty = 0) ||
    (type ≠ .MARKET && !incomingSide.crosses order.price incomingPrice)

/-- The best order of the opposite side and its position; `none` is the end iterator. -/
def bestOpposite (book : List RestingOrder) (incomingSide : Side) (incomingPrice : UInt32) (type : OrderType) :
    Option (RestingOrder × Nat) :=
  book.zipIdx.foldl (fun best it =>
    if skips incomingSide incomingPrice type it.1 then best
    else match best with
      | none => some it
      | some chosen => if betterPriceTime incomingSide it.1 chosen.1 then some it else best) none

/-- The loop of `match`; the incoming order is passed by reference. -/
def matchLoop (type : OrderType) (ts : UInt64) :
    Nat → ReferenceMatcher → RestingOrder → Option (ReferenceMatcher × RestingOrder)
  | 0, _, _ => none
  | turns + 1, matcher, incoming =>
      if incoming.remainingQty > 0 then
        match bestOpposite matcher.book incoming.side incoming.price type with
        | none => some (matcher, incoming)
        | some (best, place) =>
            let qty := min incoming.remainingQty best.remainingQty
            let best := best.fill qty
            let incoming := incoming.fill qty
            let fill : Fill :=
              { buyOrderId := if incoming.side = .BUY then incoming.orderId else best.orderId
                sellOrderId := if incoming.side = .BUY then best.orderId else incoming.orderId
                price := best.price
                qty := qty
                timestamp := ts
                symbolPacked := incoming.symbolPacked }
            let book := matcher.book.modify place (fun order => order.fill qty)
            let book := if best.remainingQty = 0 then book.eraseIdx place else book
            matchLoop type ts turns ⟨book, matcher.fills ++ [fill]⟩ incoming
      else some (matcher, incoming)

def add (matcher : ReferenceMatcher) (msg : FeedMessage) : Option ReferenceMatcher := do
  let incoming : RestingOrder :=
    { orderId := msg.orderId
      symbolPacked := msg.symbolPacked
      price := msg.price
      qty := msg.qty
      side := Side.ofByte msg.side
      sequence := msg.sequence }
  let type := OrderType.ofByte msg.orderType
  let (matcher, incoming) ← matchLoop type msg.sequence (incoming.remainingQty.toNat + 1) matcher incoming
  if incoming.remainingQty > 0 ∧ type = .LIMIT then some { matcher with book := matcher.book ++ [incoming] }
  else some matcher

/-- The erased order, or `none` when the id is not found. -/
def eraseOrder (matcher : ReferenceMatcher) (orderId : UInt64) : Option RestingOrder × ReferenceMatcher :=
  match matcher.book.find? (fun order => order.orderId = orderId) with
  | none => (none, matcher)
  | some erased => (some erased, { matcher with book := matcher.book.eraseP (fun order => order.orderId = orderId) })

def apply (matcher : ReferenceMatcher) (msg : FeedMessage) : Option ReferenceMatcher :=
  if msg.msgType = MsgType.ADD.byte then matcher.add msg
  else if msg.msgType = MsgType.CANCEL.byte then some (matcher.eraseOrder msg.orderId).2
  else if msg.msgType = MsgType.MODIFY.byte then
    match matcher.eraseOrder msg.orderId with
    | (none, matcher) => some matcher
    | (some old, matcher) =>
        matcher.add { msg with
          msgType := MsgType.ADD.byte
          symbolPacked := old.symbolPacked
          side := old.side.byte
          orderType := OrderType.LIMIT.byte }
  else some matcher

/-- `run` on a cleared matcher. -/
def run (feed : List FeedMessage) : Option ReferenceMatcher :=
  feed.foldlM (fun matcher msg => if isValidFeedMessage msg then matcher.apply msg else some matcher) {}

end ReferenceMatcher

end ChronoBook
