import ChronoBook.Matching.LadderRun

/-! Other names for the same feed. Matching sees of prices their order, of ids whether
they are equal, and of symbols and sequence numbers nothing; and it treats both sides
alike. A feed in other names gives the same fills in these names. -/

namespace ChronoBook
open Library Priority

/-- Other names for some prices, and for ids, symbols and sequence numbers. If the sides are exchanged, the order of the
prices is reversed. Zero stands for no id and no price, and stays. -/
structure Relabelling where
  flips : Bool
  prices : UInt32 → Prop
  price : UInt32 → UInt32
  id : UInt64 → UInt64
  symbol : UInt64 → UInt64
  sequence : UInt64 → UInt64
  price_zero : ∀ price', prices price' → (price price' = 0 ↔ price' = 0)
  price_lt : ∀ first second, prices first → prices second → first ≠ 0 → second ≠ 0 →
    (price first < price second ↔ if flips then second < first else first < second)
  id_zero : ∀ id', id id' = 0 ↔ id' = 0
  id_injective : Function.Injective id

namespace Relabelling

variable (names : Relabelling)

def side (side : Side) : Side := if names.flips then side.opposite else side

/-- A byte that is no side stays. -/
def sideByte (byte : UInt8) : UInt8 := if isValidSide byte then (names.side (Side.ofByte byte)).byte else byte

def order (order : Resting) : Resting where
  orderId := names.id order.orderId
  symbolPacked := names.symbol order.symbolPacked
  price := names.price order.price
  qty := order.qty
  filledQty := order.filledQty
  side := names.side order.side

def fill (fill : Fill) : Fill where
  buyOrderId := names.id (if names.flips then fill.sellOrderId else fill.buyOrderId)
  sellOrderId := names.id (if names.flips then fill.buyOrderId else fill.sellOrderId)
  price := names.price fill.price
  qty := fill.qty
  timestamp := names.sequence fill.timestamp
  symbolPacked := names.symbol fill.symbolPacked

def message (m : FeedMessage) : FeedMessage :=
  { m with
    sequence := names.sequence m.sequence
    orderId := names.id m.orderId
    symbolPacked := names.symbol m.symbolPacked
    price := names.price m.price
    side := names.sideByte m.side }

def ladder (ladder : Ladder) : Ladder := fun side => (ladder (names.side side)).map names.order

def sweep (swept : Sweep) : Sweep := ⟨swept.fills.map names.fill, swept.left, swept.rest.map names.order⟩

def Priced (price : UInt32) : Prop := names.prices price ∧ price ≠ 0

def Covers (ladder : Ladder) : Prop := ∀ side, ∀ order ∈ ladder side, names.Priced order.price

/-! The names of single things. -/

@[simp] theorem side_side (side : Side) : names.side (names.side side) = side := by
  unfold Relabelling.side
  split
  · exact side.opposite_opposite
  · rfl

theorem side_opposite (side : Side) : names.side side.opposite = (names.side side).opposite := by
  unfold Relabelling.side
  split <;> rfl

theorem ahead_iff (side : Side) {first second : UInt32} (priced : names.Priced first) (priced' : names.Priced second) :
    (names.side side).Ahead (names.price first) (names.price second) ↔ side.Ahead first second := by
  have forward := names.price_lt first second priced.1 priced'.1 priced.2 priced'.2
  have backward := names.price_lt second first priced'.1 priced.1 priced'.2 priced.2
  unfold Relabelling.side
  cases flips : names.flips <;> rw [flips] at forward backward <;> cases side
  · exact backward
  · exact forward
  · exact forward
  · exact backward

theorem crosses_eq (side : Side) {rest limit : UInt32} (priced : names.Priced rest) (priced' : names.Priced limit) :
    (names.side side).crosses (names.price rest) (names.price limit) = side.crosses rest limit := by
  rw [Bool.eq_iff_iff, Side.crosses_iff, Side.crosses_iff, ← side_opposite, ahead_iff names _ priced' priced]

theorem order_price (order : Resting) : (names.order order).price = names.price order.price := rfl

theorem order_remainingQty (order : Resting) : (names.order order).remainingQty = order.remainingQty := rfl

theorem fillBy_order (maker taker : Resting) (seq : UInt64) (qty : UInt32) :
    (names.order maker).fillBy (names.order taker) (names.sequence seq) qty =
      names.fill (maker.fillBy taker seq qty) := by
  unfold Resting.fillBy Relabelling.fill Relabelling.order Relabelling.side
  cases names.flips <;> cases taker.side <;> rfl

theorem isValidSide_sideByte (byte : UInt8) : isValidSide (names.sideByte byte) = isValidSide byte := by
  unfold sideByte
  split
  next valid =>
    rw [valid]
    cases names.side (Side.ofByte byte) <;> rfl
  next => rfl

theorem ofByte_sideByte {byte : UInt8} (valid : isValidSide byte = true) :
    Side.ofByte (names.sideByte byte) = names.side (Side.ofByte byte) := by
  unfold sideByte
  rw [if_pos valid, Side.ofByte_byte]

theorem isValid_message {m : FeedMessage} (named : names.prices m.price) :
    isValidFeedMessage (names.message m) = isValidFeedMessage m := by
  unfold isValidFeedMessage message
  simp only [isValidSide_sideByte, names.id_zero, names.price_zero _ named, ne_eq]

/-! Sweeps and lists. -/

theorem sweep_order {accepts accepts' : UInt32 → Bool} {taker : Resting} {seq : UInt64} (makers : List Resting)
    (same : ∀ maker ∈ makers, accepts' (names.price maker.price) = accepts maker.price) (left : UInt32) :
    ChronoBook.sweep accepts' (fun maker => maker.fillBy (names.order taker) (names.sequence seq)) left
        (makers.map names.order) =
      names.sweep (ChronoBook.sweep accepts (fun maker => maker.fillBy taker seq) left makers) := by
  induction makers generalizing left with
  | nil => rfl
  | cons maker rest ih =>
    have ⟨here, later⟩ := List.forall_mem_cons.mp same
    rw [List.map_cons, ChronoBook.sweep, ChronoBook.sweep, order_price, order_remainingQty, here]
    by_cases stops : left = 0 ∨ accepts maker.price = false
    · rw [if_pos stops, if_pos stops]
      rfl
    · rw [if_neg stops, if_neg stops]
      by_cases covered : maker.remainingQty ≤ left
      · rw [if_pos covered, if_pos covered, ih later, fillBy_order]
        rfl
      · rw [if_neg covered, if_neg covered, fillBy_order]
        rfl

variable {ladder' : Ladder} {m : FeedMessage}

theorem mem_ladder {side : Side} {order' : Resting} :
    order' ∈ names.ladder ladder' side ↔ ∃ order ∈ ladder' (names.side side), names.order order = order' := List.mem_map

theorem wellFormed (wellFormed : ladder'.WellFormed) (covers : names.Covers ladder') :
    (names.ladder ladder').WellFormed where
  sided := by
    intro side order' inside
    obtain ⟨order, there, rfl⟩ := names.mem_ladder.mp inside
    change names.side order.side = side
    rw [wellFormed.sided _ order there, side_side]
  opened := by
    intro side order' inside
    obtain ⟨order, there, rfl⟩ := names.mem_ladder.mp inside
    exact wellFormed.opened _ order there
  priced := by
    intro side order' inside zero
    obtain ⟨order, there, rfl⟩ := names.mem_ladder.mp inside
    exact wellFormed.priced _ order there ((names.price_zero _ (covers _ order there).1).mp zero)
  ordered := by
    intro side
    refine List.pairwise_map.mpr ((wellFormed.ordered (names.side side)).imp_of_mem ?_)
    intro first second here there behind ahead
    have same := names.ahead_iff (names.side side) (covers _ second there) (covers _ first here)
    rw [side_side] at same
    exact behind (same.mp ahead)
  distinct := by
    intro side
    have same : (names.ladder ladder' side).map Resting.orderId =
        ((ladder' (names.side side)).map Resting.orderId).map names.id := by
      unfold ladder
      rw [List.map_map, List.map_map]
      rfl
    rw [same]
    exact (wellFormed.distinct (names.side side)).map names.id_injective
  apart := by
    intro side order' inside other' beside same
    rw [mem_ladder, side_opposite] at beside
    obtain ⟨order, there, rfl⟩ := names.mem_ladder.mp inside
    obtain ⟨other, opposite, rfl⟩ := beside
    exact wellFormed.apart _ order there other opposite (names.id_injective same)
  uncrossed := by
    intro side order' inside other' beside
    rw [mem_ladder, side_opposite] at beside
    obtain ⟨order, there, rfl⟩ := names.mem_ladder.mp inside
    obtain ⟨other, opposite, rfl⟩ := beside
    have same := names.crosses_eq (names.side side) (covers _ other opposite) (covers _ order there)
    rw [side_side] at same
    exact same.trans (wellFormed.uncrossed _ order there other opposite)

theorem order_mem {side : Side} {order' : Resting} (inside : order' ∈ ladder' side) :
    names.order order' ∈ names.ladder ladder' (names.side side) := by
  refine names.mem_ladder.mpr ⟨order', ?_, rfl⟩
  rw [side_side]
  exact inside

theorem find?_ladder (wellFormed : ladder'.WellFormed) (covers : names.Covers ladder') (id : UInt64) :
    (names.ladder ladder').find? (names.id id) = (ladder'.find? id).map names.order := by
  cases found : ladder'.find? id with
  | none =>
    refine Ladder.find?_eq_none.mpr (fun side order' inside same => ?_)
    obtain ⟨order, there, rfl⟩ := names.mem_ladder.mp inside
    exact Ladder.find?_eq_none.mp found _ order there (names.id_injective same)
  | some order' =>
    obtain ⟨⟨side, inside⟩, rfl⟩ := Ladder.mem_of_find? found
    exact (names.wellFormed wellFormed covers).find?_eq_some (names.order_mem inside)

theorem remove_ladder (id : UInt64) :
    (names.ladder ladder').remove (names.id id) = names.ladder (ladder'.remove id) := by
  funext side
  unfold Ladder.remove ladder
  rw [List.filter_map]
  congr 1
  apply List.filter_congr
  intro order' _
  simp [order, names.id_injective.eq_iff]

theorem cleared_ladder : (names.ladder ladder').cleared (names.message m) = names.ladder (ladder'.cleared m) := by
  unfold Ladder.cleared
  rw [apply_ite names.ladder, ← remove_ladder]
  rfl

theorem taker_message (valid : isValidFeedMessage m = true) (kind : m.msgType = MsgType.ADD.byte) :
    (names.message m).taker = names.order m.taker := by
  have known : isValidSide m.side = true := by
    by_contra unknown
    unfold isValidFeedMessage at valid
    split at valid
    · cases valid
    · rw [if_pos (by simp [unknown])] at valid
      cases valid
  unfold FeedMessage.taker
  change Resting.mk _ _ _ _ _ (Side.ofByte (names.sideByte m.side)) = _
  rw [names.ofByte_sideByte known]
  rfl

theorem incoming_ladder (wellFormed : ladder'.WellFormed) (covers : names.Covers ladder')
    (valid : isValidFeedMessage m = true) : (names.ladder ladder').incoming (names.message m) =
      (ladder'.incoming m).map (fun brings => (names.order brings.1, brings.2)) := by
  have found : (names.ladder ladder').find? (names.message m).orderId = (ladder'.find? m.orderId).map names.order :=
    names.find?_ladder wellFormed covers m.orderId
  cases accepted_of_valid valid with
  | add kind _ _ =>
    unfold Ladder.incoming
    rw [if_pos (show (names.message m).msgType = _ from kind), if_pos kind, found, Option.isSome_map,
      names.taker_message valid kind]
    split <;> rfl
  | cancel kind =>
    rw [Ladder.incoming_cancel (show (names.message m).msgType = _ from kind), Ladder.incoming_cancel kind]
    rfl
  | modify kind _ _ =>
    rw [Ladder.incoming_modify (show (names.message m).msgType = _ from kind), Ladder.incoming_modify kind, found,
      Option.map_map, Option.map_map]
    rfl

theorem swept_ladder (covers : names.Covers ladder') {taker : Resting} {type : OrderType}
    (priced : type ≠ .MARKET → names.Priced taker.price) (seq : UInt64) :
    (names.ladder ladder').swept (names.order taker) type (names.sequence seq) =
      names.sweep (ladder'.swept taker type seq) := by
  have makers : names.ladder ladder' (names.order taker).side.opposite =
      (ladder' taker.side.opposite).map names.order := by
    unfold ladder
    rw [side_opposite]
    change (ladder' (names.side (names.side taker.side)).opposite).map names.order = _
    rw [side_side]
  unfold Ladder.swept
  rw [makers]
  refine names.sweep_order _ (fun maker inside => ?_) _
  unfold Ladder.accepts
  by_cases market : type = .MARKET
  · simp [market]
  · have same := names.crosses_eq taker.side (covers _ maker inside) (priced market)
    change (decide (type = .MARKET) || (names.side taker.side).crosses (names.price maker.price) (names.price taker.price)) = _
    rw [same]

theorem enter_ladder (covers : names.Covers ladder') {taker : Resting} {type : OrderType}
    (priced : type ≠ .MARKET → names.Priced taker.price) (seq : UInt64) :
    (names.ladder ladder').enter (names.order taker) type (names.sequence seq) =
      names.ladder (ladder'.enter taker type seq) := by
  have swept := names.swept_ladder covers priced seq
  have residual : (names.ladder ladder').residual (names.order taker) type (names.sequence seq) =
      names.order (ladder'.residual taker type seq) := by
    unfold Ladder.residual
    rw [swept]
    rfl
  have own : names.ladder ladder' (names.side taker.side) = (ladder' taker.side).map names.order := by
    unfold ladder
    rw [side_side]
  funext side
  rcases Side.eq_or_opposite (names.order taker).side side with rfl | rfl
  · rw [Ladder.enter_own, swept, residual]
    change _ = (ladder'.enter taker type seq (names.side (names.side taker.side))).map names.order
    rw [side_side, Ladder.enter_own]
    by_cases rests : (ladder'.swept taker type seq).left ≠ 0 ∧ type = .LIMIT
    · rw [if_pos rests, if_pos (show (names.sweep _).left ≠ 0 ∧ _ from rests)]
      change enqueue (names.side taker.side).Ahead _ _ (names.ladder ladder' (names.side taker.side)) = _
      rw [own]
      refine enqueue_map names.order _ _ (fun other inside => ?_)
      exact names.ahead_iff taker.side (priced (by rw [rests.2]; decide)) (covers _ other inside)
    · rw [if_neg rests, if_neg (show ¬((names.sweep _).left ≠ 0 ∧ _) from rests)]
      exact own
  · rw [Ladder.enter_opposite, swept]
    change _ = (ladder'.enter taker type seq (names.side (names.side taker.side).opposite)).map names.order
    rw [side_opposite, side_side, Ladder.enter_opposite]
    rfl

theorem apply_ladder (wellFormed : ladder'.WellFormed) (covers : names.Covers ladder')
    (valid : isValidFeedMessage m = true) (named : names.prices m.price) :
    (names.ladder ladder').apply (names.message m) =
      ((ladder'.apply m).1.map names.fill, names.ladder (ladder'.apply m).2) := by
  unfold Ladder.apply
  rw [incoming_ladder names wellFormed covers valid, cleared_ladder]
  cases brings : ladder'.incoming m with
  | none => rfl
  | some pair =>
    obtain ⟨taker, type⟩ := pair
    obtain ⟨_, _, _, _, priced, same, _⟩ := Ladder.incoming_spec valid brings
    have left : names.Covers (ladder'.cleared m) := fun side order inside => covers side order (Ladder.mem_of_cleared inside)
    have priced : type ≠ .MARKET → names.Priced taker.price := fun limited => ⟨by rw [same]; exact named, priced limited⟩
    change (((names.ladder (ladder'.cleared m)).swept (names.order taker) type (names.sequence m.sequence)).fills,
      (names.ladder (ladder'.cleared m)).enter (names.order taker) type (names.sequence m.sequence)) = _
    rw [swept_ladder names left priced, enter_ladder names left priced]
    rfl

/-- What rests after a message rested before, up to its matched units, or has the price of the message. -/
theorem Covers.apply (covers : names.Covers ladder') (wellFormed : (ladder'.apply m).2.WellFormed)
    (valid : isValidFeedMessage m = true) (named : names.prices m.price) : names.Covers (ladder'.apply m).2 := by
  intro side order' inside
  refine ⟨?_, wellFormed.priced side order' inside⟩
  rcases Ladder.mem_apply_terms inside with ⟨taker, type, brings, same⟩ | ⟨place, old, there, same⟩
  · obtain ⟨_, _, _, _, _, price, _⟩ := Ladder.incoming_spec valid brings
    change names.prices order'.terms.price
    rw [same]
    change names.prices taker.price
    rw [price]
    exact named
  · change names.prices order'.terms.price
    rw [← same]
    exact (covers place old there).1

theorem orders_length (ladder' : Ladder) : (names.ladder ladder').orders.length = ladder'.orders.length := by
  unfold Ladder.orders ladder Relabelling.side
  rw [List.length_append, List.length_append, List.length_map, List.length_map]
  split
  · exact Nat.add_comm _ _
  · rfl

/-! The engine. -/

open MatchingEngine

/-- Two engines of one capacity whose books differ in the names have the same number of free slots. -/
theorem ignored_message {engine other : MatchingEngine} {queues queues' : Queues} {free free' : List Slot}
    (idle : engine.Idle queues free []) (idle' : other.Idle queues' free' [])
    (named : other.ladder queues' = names.ladder (engine.ladder queues))
    (capacity : other.pool.capacity = engine.pool.capacity) {m : FeedMessage} (priced : names.prices m.price) :
    Ignored (names.message m) free' ↔ Ignored m free := by
  have count := idle.steady.sound.free_length
  have count' := idle'.steady.sound.free_length
  rw [named, names.orders_length, capacity] at count'
  have full : free' = [] ↔ free = [] := by
    rw [← List.length_eq_zero_iff, ← List.length_eq_zero_iff]
    omega
  unfold Ignored
  rw [names.isValid_message priced, full]
  rfl

theorem feed_message (messages : List FeedMessage) (priced : ∀ m ∈ messages, names.prices m.price) :
    ∀ {engine other : MatchingEngine} {queues queues' : Queues} {free free' : List Slot}, engine.Idle queues free [] →
      other.Idle queues' free' [] → names.Covers (engine.ladder queues) →
      other.ladder queues' = names.ladder (engine.ladder queues) → other.pool.capacity = engine.pool.capacity →
      ∃ fills last last' queues₁ queues₁' free₁ free₁', engine.feed messages = some (fills, last) ∧
        other.feed (messages.map names.message) = some (fills.map names.fill, last') ∧ last.Idle queues₁ free₁ [] ∧
        last'.Idle queues₁' free₁' [] ∧ last'.ladder queues₁' = names.ladder (last.ladder queues₁) := by
  induction messages with
  | nil =>
    intro engine other queues queues' free free' idle idle' covers named capacity
    exact ⟨[], engine, other, queues, queues', free, free', rfl, rfl, idle, idle', named⟩
  | cons m later ih =>
    intro engine other queues queues' free free' idle idle' covers named capacity
    have ⟨here, later'⟩ := List.forall_mem_cons.mp priced
    have both := names.ignored_message idle idle' named capacity here
    rcases idle.deliver m with ⟨ignored, result⟩ | ⟨taken, valid, engine₁, queues₁, free₁, result, delivered⟩
    · rcases idle'.deliver (names.message m) with ⟨_, result'⟩ | ⟨taken', _⟩
      · obtain ⟨fills, last, last', q, q', f, f', ran, ran', rest⟩ := ih later' idle idle' covers named capacity
        refine ⟨fills, last, last', q, q', f, f', ?_, ?_, rest⟩
        · rw [feed_cons engine m later result, ran]
          rfl
        · rw [List.map_cons, feed_cons other _ _ result', ran']
          rfl
      · exact absurd (both.mpr ignored) taken'
    · rcases idle'.deliver (names.message m) with ⟨ignored', _⟩ | ⟨_, _, other₁, queues₁', free₁', result', delivered'⟩
      · exact absurd (both.mp ignored') taken
      · have applied := names.apply_ladder idle.steady.wellFormed covers valid here
        rw [← named] at applied
        have named₁ : other₁.ladder queues₁' = names.ladder (engine₁.ladder queues₁) := by
          rw [delivered'.ladder, delivered.ladder, applied]
        have capacity₁ : other₁.pool.capacity = engine₁.pool.capacity := by
          rw [delivered'.capacity, delivered.capacity, capacity]
        have covers₁ : names.Covers (engine₁.ladder queues₁) := by
          have shaped := delivered.idle.steady.wellFormed
          rw [delivered.ladder] at shaped ⊢
          exact Covers.apply names covers shaped valid here
        obtain ⟨fills, last, last', q, q', f, f', ran, ran', rest⟩ :=
          ih later' delivered.idle delivered'.idle covers₁ named₁ capacity₁
        refine ⟨((engine.ladder queues).apply m).1 ++ fills, last, last', q, q', f, f', ?_, ?_, rest⟩
        · rw [feed_cons engine m later result, ran]
          rfl
        · rw [List.map_cons, feed_cons other _ _ result', ran', applied, List.map_append]
          rfl

end Relabelling

/-- A feed in other names, with the sides exchanged or not, gives the same fills in these names and leaves the same book in
these names, whatever the capacity of the pool. -/
theorem MatchingEngine.feed_relabelled (names : Relabelling) (capacity : Nat) (feed : List FeedMessage)
    (priced : ∀ m ∈ feed, names.prices m.price) :
    ∃ fills engine engine', (create capacity).feed feed = some (fills, engine) ∧
      (create capacity).feed (feed.map names.message) = some (fills.map names.fill, engine') ∧
      ∀ side, engine'.listing (names.side side) = (engine.listing side).map names.order := by
  have named : (create capacity).ladder Queues.empty = names.ladder ((create capacity).ladder Queues.empty) := by
    rw [create_ladder]
    rfl
  have covers : names.Covers ((create capacity).ladder Queues.empty) := by
    rw [create_ladder]
    intro side order inside
    cases inside
  obtain ⟨fills, engine, engine', queues, queues', free, free', ran, ran', idle, idle', named'⟩ :=
    names.feed_message feed priced (Idle.create capacity) (Idle.create capacity) covers named rfl
  refine ⟨fills, engine, engine', ran, ran', fun side => ?_⟩
  rw [idle'.steady.sound.listing_eq, idle.steady.sound.listing_eq, named']
  unfold Relabelling.ladder
  rw [names.side_side]

/-- Buyers and sellers change places, and a price below `top` becomes its distance from it. -/
def Relabelling.mirror (top : UInt32) : Relabelling where
  flips := true
  prices price := price < top
  price price := if price = 0 then 0 else top - price
  id id := id
  symbol symbol := symbol
  sequence sequence := sequence
  price_zero := by
    intro price below
    have distance := UInt32.toNat_sub_of_le top price (UInt32.le_of_lt below)
    rw [UInt32.lt_iff_toNat_lt] at below
    by_cases zero : price = 0
    · simp [zero]
    · rw [if_neg zero, ← UInt32.toNat_inj, distance, UInt32.toNat_zero]
      exact ⟨fun none => by omega, fun none => absurd none zero⟩
  price_lt := by
    intro first second below below' priced priced'
    have distance := UInt32.toNat_sub_of_le top first (UInt32.le_of_lt below)
    have distance' := UInt32.toNat_sub_of_le top second (UInt32.le_of_lt below')
    rw [UInt32.lt_iff_toNat_lt] at below below'
    rw [if_neg priced, if_neg priced', if_pos rfl, UInt32.lt_iff_toNat_lt, UInt32.lt_iff_toNat_lt, distance, distance']
    omega
  id_zero _ := Iff.rfl
  id_injective := Function.injective_id

/-- Two offers, and a bid for both. -/
def bidForBoth : List FeedMessage :=
  [makeAdd 1 1 .SELL .LIMIT 101 5 7, makeAdd 2 2 .SELL .LIMIT 100 5 7, makeAdd 3 3 .BUY .LIMIT 101 8 7]

theorem MatchingEngine.feed_relabelled_bidForBoth : ∃ engine engine',
    (create 3).feed bidForBoth = some ([⟨3, 2, 100, 5, 3, 7⟩, ⟨3, 1, 101, 3, 3, 7⟩], engine) ∧
      (create 3).feed (bidForBoth.map (Relabelling.mirror 1000).message) =
        some ([⟨2, 3, 900, 5, 3, 7⟩, ⟨1, 3, 899, 3, 3, 7⟩], engine') ∧
      engine'.listing .BUY = (engine.listing .SELL).map (Relabelling.mirror 1000).order := by
  obtain ⟨fills, engine, engine', ran, ran', same⟩ :=
    feed_relabelled (Relabelling.mirror 1000) 3 bidForBoth (by unfold Relabelling.mirror; decide)
  cases Option.some.inj ran
  exact ⟨_, engine', rfl, ran', same .SELL⟩

end ChronoBook
