import ChronoBook.Core.Order

/-! Feed messages and their validation. The three enumerated fields are kept as
the raw bytes of the wire format, because a message may carry any byte there and
validation is what keeps the others out. -/

namespace ChronoBook

inductive MsgType where
  | ADD
  | CANCEL
  | MODIFY
  deriving DecidableEq, Repr

def MsgType.byte : MsgType → UInt8
  | .ADD => 0
  | .CANCEL => 1
  | .MODIFY => 2

def Side.byte : Side → UInt8
  | .BUY => 0
  | .SELL => 1

def OrderType.byte : OrderType → UInt8
  | .LIMIT => 0
  | .MARKET => 1
  | .IOC => 2

/-- The enumerator with this byte; only validated bytes are converted. -/
def Side.ofByte (byte : UInt8) : Side := if byte = Side.BUY.byte then .BUY else .SELL

def OrderType.ofByte (byte : UInt8) : OrderType :=
  if byte = OrderType.LIMIT.byte then .LIMIT else if byte = OrderType.MARKET.byte then .MARKET else .IOC

theorem Side.ofByte_byte (side : Side) : Side.ofByte side.byte = side := by cases side <;> rfl

theorem OrderType.ofByte_byte (type : OrderType) : OrderType.ofByte type.byte = type := by cases type <;> rfl

structure FeedMessage where
  sequence : UInt64 := 0
  orderId : UInt64 := 0
  symbolPacked : UInt64 := 0
  price : UInt32 := 0
  qty : UInt32 := 0
  msgType : UInt8 := MsgType.ADD.byte
  side : UInt8 := 0
  orderType : UInt8 := 0
  pad : Vector UInt8 5 := Vector.replicate 5 0
  deriving DecidableEq, Repr

def makeAdd (seq id : UInt64) (side : Side) (type : OrderType) (price qty : UInt32) (symbolPacked : UInt64) :
    FeedMessage :=
  { sequence := seq, orderId := id, symbolPacked := symbolPacked, price := price, qty := qty,
    msgType := MsgType.ADD.byte, side := side.byte, orderType := type.byte }

def makeCancel (seq id : UInt64) : FeedMessage :=
  { sequence := seq, orderId := id, msgType := MsgType.CANCEL.byte }

def makeModify (seq id : UInt64) (newPrice newQty : UInt32) : FeedMessage :=
  { sequence := seq, orderId := id, price := newPrice, qty := newQty, msgType := MsgType.MODIFY.byte }

def isValidMsgType (type : UInt8) : Bool :=
  type = MsgType.ADD.byte || type = MsgType.CANCEL.byte || type = MsgType.MODIFY.byte

def isValidSide (side : UInt8) : Bool := side = Side.BUY.byte || side = Side.SELL.byte

def isValidOrderType (type : UInt8) : Bool :=
  type = OrderType.LIMIT.byte || type = OrderType.MARKET.byte || type = OrderType.IOC.byte

def isValidFeedMessage (m : FeedMessage) : Bool :=
  if !isValidMsgType m.msgType || m.orderId = 0 then false
  else if m.msgType = MsgType.ADD.byte then
    if !isValidSide m.side || !isValidOrderType m.orderType || m.qty = 0 then false
    else if m.orderType ≠ OrderType.MARKET.byte ∧ m.price = 0 then false
    else true
  else if m.msgType = MsgType.CANCEL.byte then true
  else if m.msgType = MsgType.MODIFY.byte then m.price ≠ 0 ∧ m.qty ≠ 0
  else false

/-- What validation leaves of the three kinds of message. -/
inductive Accepted (m : FeedMessage) : Prop where
  | add (kind : m.msgType = MsgType.ADD.byte) (qty : m.qty ≠ 0)
      (price : OrderType.ofByte m.orderType ≠ .MARKET → m.price ≠ 0)
  | cancel (kind : m.msgType = MsgType.CANCEL.byte)
  | modify (kind : m.msgType = MsgType.MODIFY.byte) (price : m.price ≠ 0) (qty : m.qty ≠ 0)

theorem accepted_of_valid {m : FeedMessage} (valid : isValidFeedMessage m = true) : Accepted m := by
  unfold isValidFeedMessage at valid
  split at valid
  · cases valid
  next known =>
    split at valid
    next kind =>
      split at valid
      · cases valid
      next fields =>
        split at valid
        · cases valid
        next priced =>
          simp only [Bool.or_eq_true, not_or, decide_eq_true_eq, Bool.not_eq_true'] at fields
          apply Accepted.add kind fields.2
          intro notMarket zero
          apply priced
          refine ⟨?_, zero⟩
          intro isMarket
          apply notMarket
          rw [isMarket]
          decide
    next notAdd =>
      split at valid
      next kind => exact Accepted.cancel kind
      next notCancel =>
        split at valid
        next kind =>
          rw [decide_eq_true_eq] at valid
          exact Accepted.modify kind valid.1 valid.2
        · cases valid

theorem orderId_of_valid {m : FeedMessage} (valid : isValidFeedMessage m = true) : m.orderId ≠ 0 := by
  intro zero
  unfold isValidFeedMessage at valid
  rw [if_pos (by simp [zero])] at valid
  cases valid

/-- An ADD that is accepted and does not rest is a MARKET or an IOC order. -/
theorem orderType_of_valid {m : FeedMessage} (valid : isValidFeedMessage m = true) (kind : m.msgType = MsgType.ADD.byte)
    (leaves : OrderType.ofByte m.orderType ≠ .LIMIT) :
    m.orderType = OrderType.MARKET.byte ∨ m.orderType = OrderType.IOC.byte := by
  have known : isValidOrderType m.orderType = true := by
    by_contra unknown
    unfold isValidFeedMessage at valid
    simp [kind, unknown] at valid
  simp only [isValidOrderType, Bool.or_eq_true, decide_eq_true_eq] at known
  rcases known with (limit | market) | ioc
  · rw [limit, OrderType.ofByte_byte] at leaves
    exact absurd rfl leaves
  · exact Or.inl market
  · exact Or.inr ioc

/-- A CANCEL is refused for its id only. -/
theorem orderId_of_refused {m : FeedMessage} (kind : m.msgType = MsgType.CANCEL.byte)
    (refused : isValidFeedMessage m = false) : m.orderId = 0 := by
  by_contra named
  unfold isValidFeedMessage at refused
  have known : isValidMsgType m.msgType = true := by rw [kind]; decide
  rw [if_neg (by simp [known, named]), if_neg (by rw [kind]; decide), if_pos kind] at refused
  cases refused

end ChronoBook
