import ChronoBook.Matching.Refinement

/-! The representation invariant of the book, stated on what the engine stores:
level maps, links, counters and the id map. -/

namespace ChronoBook
open Library Priority Linked

namespace MatchingEngine

/-- The slots met from the head of the level of a price, and none where there is no level. -/
def queueAt (engine : MatchingEngine) (side : Side) (price : UInt32) : List Slot :=
  match (engine.book.levels side).find? price with
  | none => []
  | some level => walk (fun slot => (engine.order slot).next) engine.pool.capacity level.head

def Rests (engine : MatchingEngine) (slot : Slot) : Prop := ∃ side price, slot ∈ engine.queueAt side price

structure BookInvariant (engine : MatchingEngine) : Prop where
  linked : ∀ side price level, (engine.book.levels side).find? price = some level →
    Threaded (fun slot => (engine.order slot).next) (fun slot => (engine.order slot).prev) level.head level.tail
      (engine.queueAt side price)
  placed : ∀ slot, engine.Rests slot → ∀ side price, (engine.queueAt side price).count slot =
    if side = (engine.order slot).side ∧ price = (engine.order slot).price then 1 else 0
  mapped : ∀ id slot, engine.book.orderMap id = some slot ↔ engine.Rests slot ∧ (engine.order slot).orderId = id
  occupied : ∀ side price level, (engine.book.levels side).find? price = some level → engine.queueAt side price ≠ []
  tallied : ∀ side price level, (engine.book.levels side).find? price = some level →
    level.totalQty.toNat = ((engine.queueAt side price).map (fun slot => (engine.order slot).remainingQty.toNat)).sum ∧
      level.orderCount.toNat = (engine.queueAt side price).length
  orders : ∀ slot, engine.Rests slot →
    (engine.order slot).filledQty < (engine.order slot).qty ∧ 0 < (engine.order slot).price ∧
      (engine.order slot).type = .LIMIT
  bids : engine.book.bids.keys.Pairwise (fun first second => second < first)
  asks : engine.book.asks.keys.Pairwise (fun first second => first < second)

variable {engine : MatchingEngine} {queues : Queues} {free others : List Slot}

theorem Sound.queueAt_eq (sound : engine.Sound queues free others) (side : Side) (price : UInt32) :
    engine.queueAt side price = queues side price := by
  unfold queueAt
  split
  next missing => exact (sound.laid.absent side price missing).symm
  next level found => exact sound.walk_level found

theorem Sound.rests_iff (sound : engine.Sound queues free others) {slot : Slot} :
    engine.Rests slot ↔ slot ∈ engine.book.slots queues := by
  unfold Rests
  simp only [sound.queueAt_eq]
  constructor
  · intro resting
    obtain ⟨side, price, inside⟩ := resting
    exact sound.laid.mem_slots_of_mem inside
  · intro inside
    exact ⟨_, _, sound.laid.mem_slots.mp inside⟩

theorem Steady.bookInvariant (steady : engine.Steady queues free others) (small : engine.pool.capacity < 2 ^ 32) :
    engine.BookInvariant := by
  have sound := steady.sound
  refine ⟨?_, ?_, ?_, ?_, ?_, ?_, SortedMap.keys_sorted engine.book.bids, SortedMap.keys_sorted engine.book.asks⟩
  · intro side price level found
    rw [sound.queueAt_eq]
    exact (sound.laid.level side price level found).1
  · intro slot resting side price
    have here := sound.laid.mem_slots.mp (sound.rests_iff.mp resting)
    rw [sound.queueAt_eq]
    split
    next own =>
      rw [own.1, own.2]
      exact List.count_eq_one_of_mem (sound.laid.queue_nodup _ _) here
    next elsewhere =>
      rw [List.count_eq_zero]
      intro there
      exact elsewhere (sound.laid.place_unique here there)
  · intro id slot
    rw [sound.laid.orderMap_eq_some, sound.rests_iff]
    exact And.comm
  · intro side price level found
    rw [sound.queueAt_eq]
    exact (sound.laid.level side price level found).2
  · intro side price level found
    have counted := sound.tallied small side price level found
    rw [sound.queueAt_eq]
    exact ⟨counted.totalQty, counted.orderCount⟩
  · intro slot resting
    have inside := sound.rests_iff.mp resting
    have onSide := sound.laid.mem_sideSlots_iff.mpr ⟨rfl, sound.laid.mem_slots.mp inside⟩
    have opened := steady.wellFormed.opened _ _ (mem_ladder.mpr ⟨slot, onSide, rfl⟩)
    exact ⟨opened, units_pos.mpr (sound.priced slot inside), sound.limit slot inside⟩

/-- In every state an engine on a pool of fewer than 2^32 slots can reach, the representation is intact. -/
theorem book_invariant_always (capacity : Nat) (small : capacity < 2 ^ 32) (messages : List FeedMessage) :
    ∃ fills engine, (MatchingEngine.create capacity).feed messages = some (fills, engine) ∧ engine.BookInvariant := by
  obtain ⟨fills, engine, queues, free, ran, idle, same⟩ := Idle.feed messages (Idle.create capacity)
  refine ⟨fills, engine, ran, idle.steady.bookInvariant ?_⟩
  rw [same, create_capacity]
  exact small

theorem book_invariant_always_sample :
    ∃ fills engine, (MatchingEngine.create 2).feed sampleFeed = some (fills, engine) ∧ engine.BookInvariant :=
  book_invariant_always 2 (by decide) sampleFeed

theorem Sound.bestPrice_eq (sound : engine.Sound queues free others) (side : Side) :
    engine.book.bestPrice side = ((engine.ladder queues side).head?.map Resting.price).getD 0 := by
  unfold OrderBook.bestPrice ladder
  cases slots : engine.book.sideSlots queues side with
  | nil =>
    rw [sound.laid.side_nil slots]
    rfl
  | cons first rest =>
    obtain ⟨level, head, _, _⟩ := sound.laid.front slots
    rw [head]
    rfl

/-- Best prices and spread of a book that is neither crossed nor locked. -/
structure Uncrossed (engine : MatchingEngine) : Prop where
  separated : engine.listing .BUY ≠ [] → engine.listing .SELL ≠ [] →
    engine.book.getBestBid < engine.book.getBestAsk ∧
      engine.book.getSpread.toNat = engine.book.getBestAsk.toNat - engine.book.getBestBid.toNat ∧
      0 < engine.book.getSpread
  bid : engine.book.getBestBid = 0 ↔ engine.listing .BUY = []
  ask : engine.book.getBestAsk = 0 ↔ engine.listing .SELL = []

theorem Steady.bestPrice_zero (steady : engine.Steady queues free others) (side : Side) :
    engine.book.bestPrice side = 0 ↔ engine.listing side = [] := by
  have priced := steady.wellFormed.priced side
  rw [steady.sound.bestPrice_eq, steady.sound.listing_eq]
  cases list : engine.ladder queues side with
  | nil => simp
  | cons first rest =>
    have nonzero := priced first (by simp [list])
    simp [nonzero]

theorem getSpread_toNat {book : OrderBook} (bid : book.getBestBid ≠ 0) (ask : book.getBestAsk ≠ 0)
    (below : book.getBestBid < book.getBestAsk) :
    book.getSpread.toNat = book.getBestAsk.toNat - book.getBestBid.toNat ∧ 0 < book.getSpread := by
  have spread : book.getSpread = book.getBestAsk - book.getBestBid := by
    unfold OrderBook.getSpread
    exact if_pos ⟨units_pos.mpr bid, units_pos.mpr ask, UInt32.le_of_lt below⟩
  have value := UInt32.toNat_sub_of_le _ _ (UInt32.le_of_lt below)
  rw [UInt32.lt_iff_toNat_lt] at below ⊢
  rw [spread, value, UInt32.toNat_zero]
  exact ⟨rfl, by omega⟩

theorem Steady.uncrossed (steady : engine.Steady queues free others) : engine.Uncrossed := by
  have bid := steady.bestPrice_zero .BUY
  have ask := steady.bestPrice_zero .SELL
  refine ⟨?_, bid, ask⟩
  intro someBid someAsk
  have below : engine.book.getBestBid < engine.book.getBestAsk := by
    have bestBid := steady.sound.bestPrice_eq .BUY
    have bestAsk := steady.sound.bestPrice_eq .SELL
    rw [steady.sound.listing_eq] at someBid someAsk
    obtain ⟨topBid, bids, bidList⟩ := List.exists_cons_of_ne_nil someBid
    obtain ⟨topAsk, asks, askList⟩ := List.exists_cons_of_ne_nil someAsk
    have apart := steady.wellFormed.uncrossed .BUY topBid (by simp [bidList]) topAsk (by simp [Side.opposite, askList])
    rw [bidList] at bestBid
    rw [askList] at bestAsk
    change engine.book.getBestBid = topBid.price at bestBid
    change engine.book.getBestAsk = topAsk.price at bestAsk
    rw [bestBid, bestAsk]
    exact UInt32.not_le.mp (of_decide_eq_false apart)
  exact ⟨below, getSpread_toNat (fun zero => someBid (bid.mp zero)) (fun zero => someAsk (ask.mp zero)) below⟩

/-- After every message the book is neither crossed nor locked. -/
theorem uncrossed_always (capacity : Nat) (messages : List FeedMessage) :
    ∃ fills engine, (MatchingEngine.create capacity).feed messages = some (fills, engine) ∧ engine.Uncrossed := by
  obtain ⟨fills, engine, queues, free, ran, idle, _⟩ := Idle.feed messages (Idle.create capacity)
  exact ⟨fills, engine, ran, idle.steady.uncrossed⟩

end MatchingEngine

end ChronoBook
