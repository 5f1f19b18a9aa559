import ChronoBook.Matching.BookInvariant

/-! The defensive branches of the matching path. Every state the loop passes
through while a message is handled has a level under its best price, an order at
the front of that level and units to trade, and the calls around the loop find
what they look for. No counter wraps on a pool of fewer than 2^32 slots. -/

namespace ChronoBook
open Library Priority

namespace OrderBook

def Removable (book : OrderBook) (memory : Memory) (order : Slot) (exact : Prop) : Prop :=
  ∃ level, (book.levels (memory order).side).find? (memory order).price = some level ∧
    (exact → (memory order).remainingQty.toNat ≤ level.totalQty.toNat ∧ 1 ≤ level.orderCount.toNat)

/-- Adding the order passes the check for duplicates and succeeds, and the level's counters have room. -/
structure Addable (book : OrderBook) (memory : Memory) (order : Slot) (exact : Prop) : Prop where
  fresh : book.orderMap (memory order).orderId = none
  added : (book.addOrder memory (some order)).1 = true
  room : exact → ∀ level, ((book.levels (memory order).side).find? (memory order).price).getD {} = level →
    level.totalQty.toNat + (memory order).remainingQty.toNat < 2 ^ 64 ∧ level.orderCount.toNat + 1 < 2 ^ 32

end OrderBook

namespace MatchingEngine

/-- A trade of `qty` units between the front of a level and the incoming order. -/
structure TradeSafe (engine : MatchingEngine) (incoming resting : Slot) (level : PriceLevel) (qty : UInt32) : Prop where
  units : 1 ≤ qty.toNat
  taker : (engine.order incoming).filledQty.toNat + qty.toNat ≤ (engine.order incoming).qty.toNat
  maker : (engine.order resting).filledQty.toNat + qty.toNat ≤ (engine.order resting).qty.toNat
  -- `decreaseTotalQty` subtracts and does not clamp
  unclamped : engine.pool.capacity < 2 ^ 32 → qty.toNat ≤ level.totalQty.toNat
  turn : ∃ next, engine.tradeTurn incoming level (engine.order resting).price = some next ∧
    (next.order incoming).remainingQty.toNat = (engine.order incoming).remainingQty.toNat - qty.toNat ∧
    (next.order incoming).remainingQty.toNat < (engine.order incoming).remainingQty.toNat
  -- a maker that is used up is taken out between `decreaseTotalQty` and the end of the turn
  removes : ((engine.traded resting incoming qty).order resting).isFilled = true →
    (engine.traded resting incoming qty).book.Removable (engine.traded resting incoming qty).pool.slab resting
      (engine.pool.capacity < 2 ^ 32)

/-- A state at the head of the loop: no order is overfilled, and if the loop can go on, its turn is safe. -/
structure HeadSafe (engine : MatchingEngine) (incoming : Slot) : Prop where
  bounded : ∀ slot, slot = incoming ∨ engine.Rests slot → (engine.order slot).filledQty ≤ (engine.order slot).qty
  front : (engine.order incoming).isFilled = false →
    engine.book.bestPrice (engine.order incoming).side.opposite ≠ 0 →
    ∃ level resting, (engine.book.levels (engine.order incoming).side.opposite).find?
        (engine.book.bestPrice (engine.order incoming).side.opposite) = some level ∧
      level.front = some resting ∧
      (engine.order resting).price = engine.book.bestPrice (engine.order incoming).side.opposite ∧
      engine.TradeSafe incoming resting level
        (min (engine.order incoming).remainingQty (engine.order resting).remainingQty)

/-- The states at the head of the loop that starts in `start`. -/
inductive AtHead (incoming : Slot) (respectPrice : Bool) (start : MatchingEngine) : MatchingEngine → Prop where
  | entry : AtHead incoming respectPrice start start
  | again {engine next : MatchingEngine} {level : PriceLevel} {restPrice : UInt32}
      (here : AtHead incoming respectPrice start engine)
      (decides : engine.nextTurn incoming respectPrice = .trade level restPrice)
      (turns : engine.tradeTurn incoming level restPrice = some next) : AtHead incoming respectPrice start next

/-- `matchOneSide` is safe in every state it passes through, and returns one in which the loop has ended. -/
structure LoopSafe (start : MatchingEngine) (incoming : Slot) (respectPrice : Bool) : Prop where
  heads : ∀ engine, AtHead incoming respectPrice start engine → engine.HeadSafe incoming
  ends : ∃ last, start.matchOneSide incoming respectPrice = some last ∧ AtHead incoming respectPrice start last ∧
    last.nextTurn incoming respectPrice = .leave ∧
    last.book.Addable last.pool.slab incoming (start.pool.capacity < 2 ^ 32)

structure MessageSafe (engine : MatchingEngine) (m : FeedMessage) : Prop where
  removes : ∀ slot, engine.book.orderMap m.orderId = some slot →
    engine.book.Removable engine.pool.slab slot (engine.pool.capacity < 2 ^ 32)
  matching : ∀ engine₁ slot, engine.presented m = some (engine₁, slot) →
    engine₁.book.containsOrder (engine₁.order slot).orderId = false →
    ({ engine₁ with currentSeq := m.sequence } : MatchingEngine).LoopSafe slot
      (decide ((engine₁.order slot).type ≠ .MARKET))
  returns : ∃ handling engine', engine.dispatch m = some (handling, engine') ∧
    ∀ slot, engine'.Rests slot → (engine'.order slot).filledQty ≤ (engine'.order slot).qty

variable {engine : MatchingEngine} {queues : Queues} {free others : List Slot} {slot incoming : Slot}

theorem Sound.removable (sound : engine.Sound queues free others) (member : slot ∈ engine.book.slots queues) :
    engine.book.Removable engine.pool.slab slot (engine.pool.capacity < 2 ^ 32) := by
  have queued := sound.laid.mem_slots.mp member
  cases found : (engine.book.levels (engine.pool.slab slot).side).find? (engine.pool.slab slot).price with
  | none =>
    rw [sound.laid.absent _ _ found] at queued
    cases queued
  | some level =>
    refine ⟨level, found, ?_⟩
    intro small
    have counted := sound.tallied small _ _ level found
    obtain ⟨before, later, split⟩ := List.append_of_mem queued
    rw [split] at counted
    have total := counted.totalQty
    have count := counted.orderCount
    rw [PriceLevel.depth_middle] at total
    rw [List.length_append, List.length_cons] at count
    omega

theorem Sound.addable (sound : engine.Sound queues free (slot :: others))
    (fresh : engine.book.orderMap (engine.order slot).orderId = none) :
    engine.book.Addable engine.pool.slab slot (engine.pool.capacity < 2 ^ 32) := by
  refine ⟨fresh, ?_, ?_⟩
  · exact congrArg Prod.fst (OrderBook.addOrder_eq engine.book engine.pool.slab slot fresh)
  · intro small level isLevel
    have units := (engine.pool.slab slot).remainingQty.toNat_lt
    cases found : (engine.book.levels (engine.pool.slab slot).side).find? (engine.pool.slab slot).price with
    | none =>
      rw [found] at isLevel
      cases isLevel
      change 0 + _ < 2 ^ 64 ∧ 0 + 1 < 2 ^ 32
      omega
    | some there =>
      rw [found, Option.getD_some] at isLevel
      subst isLevel
      have counted := sound.tallied small _ _ there found
      have shorter := sound.queue_length (engine.pool.slab slot).side (engine.pool.slab slot).price
      have bound := PriceLevel.depth_bound engine.pool.slab
        (queues (engine.pool.slab slot).side (engine.pool.slab slot).price)
      rw [counted.totalQty, counted.orderCount]
      rw [List.length_cons] at shorter
      omega

theorem Sound.rests_bounded (sound : engine.Sound queues free others) (resting : engine.Rests slot) :
    (engine.order slot).filledQty ≤ (engine.order slot).qty :=
  sound.bounded slot (sound.rests_iff.mp resting)

theorem Sound.first (sound : engine.Sound queues free others) {side : Side} (some : engine.book.bestPrice side ≠ 0) :
    ∃ first rest, engine.book.sideSlots queues side = first :: rest := by
  cases slots : engine.book.sideSlots queues side with
  | nil =>
    unfold OrderBook.bestPrice at some
    rw [sound.laid.side_nil slots] at some
    exact absurd rfl some
  | cons first rest => exact ⟨first, rest, rfl⟩

theorem fill_within {order : Order} {qty : UInt32} (bounded : order.filledQty ≤ order.qty)
    (available : qty ≤ order.remainingQty) : order.filledQty.toNat + qty.toNat ≤ order.qty.toNat := by
  rw [UInt32.le_iff_toNat_le] at bounded
  rw [UInt32.le_iff_toNat_le, Order.remainingQty_toNat] at available
  omega

theorem Matching.tradeSafe (matching : engine.Matching queues free incoming others) {resting : Slot} {rest : List Slot}
    {level : PriceLevel} (units : (engine.order incoming).remainingQty ≠ 0)
    (slots : engine.book.sideSlots queues (engine.order incoming).side.opposite = resting :: rest)
    (found : (engine.book.levels (engine.order incoming).side.opposite).find? (engine.order resting).price = some level)
    (front : level.front = some resting) :
    engine.TradeSafe incoming resting level
      (min (engine.order incoming).remainingQty (engine.order resting).remainingQty) := by
  have sound := matching.sound
  have member : resting ∈ engine.book.sideSlots queues (engine.order incoming).side.opposite := by simp [slots]
  have inBook := OrderBook.Laid.mem_slots_of_mem_side member
  have side : (engine.order resting).side = (engine.order incoming).side.opposite :=
    (sound.laid.mem_sideSlots_iff.mp member).1
  have makerOpen : (engine.order resting).remainingQty ≠ 0 :=
    matching.opened _ (mem_ladder.mpr ⟨resting, member, rfl⟩)
  have fromTaker := least_le_left (engine.order incoming).remainingQty (engine.order resting).remainingQty
  have fromMaker := least_le_right (engine.order incoming).remainingQty (engine.order resting).remainingQty
  have positive : 1 ≤ (min (engine.order incoming).remainingQty (engine.order resting).remainingQty).toNat := by
    have nonzero := least_ne_zero units makerOpen
    rw [Ne, ← UInt32.toNat_inj, UInt32.toNat_zero] at nonzero
    omega
  obtain ⟨next, queues', free', turn, _, _, _, turned⟩ := sound.tradeTurn slots matching.bounded front rfl rfl rfl
  change Turned engine incoming others _ ((engine.order incoming).remainingQty -
    min (engine.order incoming).remainingQty (engine.order resting).remainingQty) next at turned
  have after := UInt32.toNat_sub_of_le _ _ fromTaker
  have least := UInt32.le_iff_toNat_le.mp fromTaker
  have whole := UInt32.le_iff_toNat_le.mp (engine.order incoming).remainingQty_le
  have left := (turned.remaining (UInt32.le_iff_toNat_le.mpr (by omega))).1
  refine ⟨positive, fill_within matching.bounded fromTaker, fill_within (sound.bounded resting inBook) fromMaker, ?_,
    ⟨next, turn, ?_, ?_⟩, ?_⟩
  · intro small
    obtain ⟨there, foundThere, counters⟩ := sound.removable inBook
    change (engine.book.levels (engine.order resting).side).find? (engine.order resting).price = some there at foundThere
    rw [side, found] at foundThere
    cases foundThere
    exact Nat.le_trans (UInt32.le_iff_toNat_le.mp fromMaker) (counters small).1
  · rw [left, after]
  · rw [left, after]
    omega
  · intro _
    apply (sound.traded member fromMaker).removable
    rw [traded_slots]
    exact inBook

theorem Matching.headSafe (matching : engine.Matching queues free incoming others) : engine.HeadSafe incoming := by
  have sound := matching.sound
  refine ⟨?_, ?_⟩
  · intro slot place
    rcases place with same | resting
    · rw [same]
      exact matching.bounded
    · exact sound.rests_bounded resting
  · intro unfilled priced
    obtain ⟨resting, rest, slots⟩ := sound.first priced
    obtain ⟨level, head, found, front⟩ := sound.laid.front slots
    have best : engine.book.bestPrice (engine.order incoming).side.opposite = (engine.order resting).price := by
      unfold OrderBook.bestPrice
      rw [head]
      rfl
    have units : (engine.order incoming).remainingQty ≠ 0 := by
      intro zero
      rw [(Order.isFilled_iff _).mpr zero] at unfilled
      cases unfilled
    rw [best]
    exact ⟨level, resting, found, front, rfl, matching.tradeSafe units slots found front⟩

theorem AtHead.matching {respectPrice : Bool} {start : MatchingEngine}
    (reached : AtHead incoming respectPrice start engine) {queues : Queues} {free : List Slot}
    (matching : start.Matching queues free incoming others) :
    ∃ queues' free', engine.Matching queues' free' incoming others := by
  induction reached with
  | entry => exact ⟨queues, free, matching⟩
  | again here decides turns ih =>
    obtain ⟨queues₁, free₁, matching₁⟩ := ih
    obtain ⟨resting, rest, units, slots, accepted, _⟩ := matching₁.trading decides
    obtain ⟨level, next, queues', free', decides', turns', matching', _⟩ := matching₁.turn units slots accepted
    rw [decides] at decides'
    cases decides'
    rw [turns] at turns'
    cases turns'
    exact ⟨queues', free', matching'⟩

theorem matchLoop_atHead {respectPrice : Bool} {start last : MatchingEngine} (turns : Nat)
    (here : AtHead incoming respectPrice start engine)
    (returned : engine.matchLoop incoming respectPrice turns = some last) :
    AtHead incoming respectPrice start last ∧ last.nextTurn incoming respectPrice = .leave := by
  induction turns generalizing engine with
  | zero => cases returned
  | succ turns ih =>
    rw [matchLoop] at returned
    cases decides : engine.nextTurn incoming respectPrice with
    | leave =>
      rw [decides] at returned
      cases returned
      exact ⟨here, decides⟩
    | trade level restPrice =>
      rw [decides] at returned
      obtain ⟨next, turned, rest⟩ := Option.bind_eq_some_iff.mp returned
      exact ih (here.again decides turned) rest

theorem Presented.loopSafe {ladder : Ladder} {m : FeedMessage} (wellFormed : ladder.WellFormed)
    (presented : Presented ladder others m engine queues free slot)
    (fresh : engine.book.containsOrder (engine.order slot).orderId = false) (seq : UInt64) :
    ({ engine with currentSeq := seq } : MatchingEngine).LoopSafe slot (decide ((engine.order slot).type ≠ .MARKET)) := by
  have opened : ∀ side, ∀ maker ∈ engine.ladder queues side, maker.filledQty < maker.qty := by
    rw [presented.ladder]
    exact (wellFormed.cleared m).opened
  have absent : (engine.ladder queues).find? (engine.order slot).orderId = none := by
    apply presented.sound.orderMap_eq_none.mp
    simpa [OrderBook.containsOrder] using fresh
  have bounded : (engine.order slot).filledQty ≤ (engine.order slot).qty := by
    rw [presented.unfilled]
    exact UInt32.zero_le
  have sound := presented.sound.withSeq seq
  refine ⟨?_, ?_⟩
  · intro head reached
    obtain ⟨_, _, matching⟩ := reached.matching (sound.matching bounded opened)
    exact matching.headSafe
  · obtain ⟨last, queues', free', result, swept⟩ :=
      sound.matchOneSide bounded opened (decide ((engine.order slot).type ≠ .MARKET))
        decide_eq_true_iff
    obtain ⟨reached, leaves⟩ := matchLoop_atHead _ AtHead.entry result
    refine ⟨last, result, reached, leaves, ?_⟩
    have addable := swept.sound.addable (swept.fresh absent)
    rw [swept.turned.capacity] at addable
    exact addable

theorem Steady.messageSafe (steady : engine.Steady queues free others) {m : FeedMessage}
    (valid : isValidFeedMessage m = true) : engine.MessageSafe m := by
  refine ⟨?_, ?_, ?_⟩
  · intro slot mapped
    exact steady.sound.removable (steady.sound.laid.orderMap_eq_some.mp mapped).2
  · intro engine₁ slot given fresh
    obtain ⟨queues₁, free₁, presented⟩ := steady.presented valid given
    exact presented.loopSafe steady.wellFormed fresh m.sequence
  · rcases steady.dispatch valid with ⟨_, _, result⟩ | ⟨_, engine', queues', free', result, stepped⟩
    · exact ⟨_, engine, result, fun slot resting => steady.sound.rests_bounded resting⟩
    · exact ⟨_, engine', result, fun slot resting => stepped.sound.rests_bounded resting⟩

/-- In every state that a feed can lead to, the next valid message is handled without a defensive branch. -/
theorem defensive_branches_dead (capacity : Nat) (messages : List FeedMessage) {fills : List Fill}
    {engine : MatchingEngine} (reached : (MatchingEngine.create capacity).feed messages = some (fills, engine))
    {m : FeedMessage} (valid : isValidFeedMessage m = true) : engine.MessageSafe m ∧ engine.pool.capacity = capacity := by
  obtain ⟨_, _, queues, free, ran, idle, same⟩ := Idle.feed messages (Idle.create capacity)
  rw [reached] at ran
  cases ran
  exact ⟨idle.steady.messageSafe valid, same.trans (create_capacity capacity)⟩

theorem defensive_branches_dead_sample :
    ∃ fills engine, (MatchingEngine.create 2).feed sampleFeed = some (fills, engine) ∧
      engine.MessageSafe (makeModify 3 1 99 4) := by
  have reached : (MatchingEngine.create 2).feed sampleFeed = some (_, _) := rfl
  exact ⟨_, _, reached, (defensive_branches_dead 2 sampleFeed reached rfl).1⟩

end MatchingEngine

end ChronoBook
