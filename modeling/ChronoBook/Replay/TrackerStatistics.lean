import ChronoBook.Library.Welford
import ChronoBook.Matching.BookInvariant
import ChronoBook.Matching.Conservation
import ChronoBook.Replay.Analytics
import Mathlib.Data.List.MinMax

/-! What the trackers of a NORMAL replay report. They read cached prices and totals of
the book; these are the prices and units of the orders at its top, so the numbers that
the trackers add up can be read off the orders, message by message. The running
statistics are stated in exact arithmetic: the same steps on rational numbers. -/

namespace ChronoBook
open Library Priority

/-- `RunningStats` on rational numbers; the infinities are the ends of the order. -/
structure ExactStats extends Welford.Running ℚ (WithTop ℚ) (WithBot ℚ) where
  n := 0
  mean := 0
  m2 := 0
  minV := ⊤
  maxV := ⊥

namespace ExactStats

def add (stats : ExactStats) (x : ℚ) : ExactStats :=
  ⟨stats.toRunning.add (fun n => (n.toNat : ℚ)) WithTop.some WithBot.some x⟩

def variance (stats : ExactStats) : ℚ := if stats.n > 1 then stats.m2 / ((stats.n - 1).toNat : ℚ) else 0

def of (xs : List ℚ) : ExactStats := xs.foldl add {}

/-- Mean, sample variance and extremes of the stream. -/
structure Describes (stats : ExactStats) (xs : List ℚ) : Prop where
  count : stats.n.toNat = xs.length
  mean : xs ≠ [] → stats.mean = xs.sum / xs.length
  variance : stats.variance = if 1 < xs.length then Welford.squares stats.mean xs / ((xs.length - 1 : Nat) : ℚ) else 0
  least : stats.minV = xs.minimum
  greatest : stats.maxV = xs.maximum

/-- What the running numbers are at every point of the stream. -/
structure Follows (stats : ExactStats) (xs : List ℚ) : Prop where
  count : stats.n = UInt64.ofNat xs.length
  summary : Welford.Summary xs stats.mean stats.m2
  least : stats.minV = xs.minimum
  greatest : stats.maxV = xs.maximum

theorem Follows.add {stats : ExactStats} {xs : List ℚ} (follows : stats.Follows xs) (small : xs.length + 1 < 2 ^ 64)
    (x : ℚ) : (stats.add x).Follows (xs ++ [x]) := by
  have count : stats.n + 1 = UInt64.ofNat (xs.length + 1) := by
    rw [follows.count, UInt64.ofNat_add]
    rfl
  have number : (stats.n + 1).toNat = xs.length + 1 := by rw [count, UInt64.toNat_ofNat_of_lt' small]
  refine ⟨?_, ?_, ?_, ?_⟩
  · rw [List.length_append]
    exact count
  · have summary := follows.summary.step x
    rw [← number] at summary
    exact summary
  · rw [List.minimum_concat, ← follows.least, min_comm, min_def_lt]
    rfl
  · rw [List.maximum_concat, ← follows.greatest, max_def_lt]
    rfl

theorem follows (xs : List ℚ) (small : xs.length < 2 ^ 64) : (of xs).Follows xs := by
  induction xs using List.reverseRecOn with
  | nil => exact ⟨rfl, Welford.Summary.empty, rfl, rfl⟩
  | append_singleton xs x ih =>
    rw [List.length_append, List.length_singleton] at small
    have before := ih (by omega)
    unfold of at before ⊢
    rw [List.foldl_append]
    exact before.add small x

theorem describes (xs : List ℚ) (small : xs.length < 2 ^ 64) : (of xs).Describes xs := by
  have running := follows xs small
  have count : (of xs).n.toNat = xs.length := by rw [running.count, UInt64.toNat_ofNat_of_lt' small]
  refine ⟨count, ?_, ?_, running.least, running.greatest⟩
  · intro some
    have number : (xs.length : ℚ) ≠ 0 := Nat.cast_ne_zero.mpr (fun none => some (List.length_eq_zero_iff.mp none))
    rw [eq_div_iff number, mul_comm]
    exact running.summary.centred
  · unfold variance
    have several : (of xs).n > 1 ↔ 1 < xs.length := by
      rw [gt_iff_lt, UInt64.lt_iff_toNat_lt, count]
      rfl
    by_cases more : 1 < xs.length
    · have rest : ((of xs).n - 1).toNat = xs.length - 1 := by
        rw [UInt64.toNat_sub_of_le _ _ (by rw [UInt64.le_iff_toNat_le, count]; exact Nat.le_of_lt more), count]
        rfl
      rw [if_pos (several.mpr more), if_pos more, rest, running.summary.deviates]
    · rw [if_neg (fun many => more (several.mp many)), if_neg more]

end ExactStats

/-- The price of the first order, and 0 where nothing rests. -/
def topPrice (orders : List Resting) : UInt32 := (orders.head?.map Resting.price).getD 0

/-- The open units of the orders at that price. -/
def topUnits (orders : List Resting) : Nat :=
  ((orders.filter (fun order => order.price = topPrice orders)).map (fun order => order.remainingQty.toNat)).sum

/-- The cached total of the best level of a side. -/
def OrderBook.bestQty (book : OrderBook) (side : Side) : UInt64 :=
  (((book.levels side).entries.head?).map (fun entry => entry.2.getTotalQty)).getD 0

namespace MatchingEngine

variable {engine : MatchingEngine} {queues : Queues} {free others : List Slot}

theorem Sound.top_level (sound : engine.Sound queues free others) {side : Side} {price : UInt32} {level : PriceLevel}
    {rest : List (UInt32 × PriceLevel)} (first : (engine.book.levels side).entries = (price, level) :: rest) :
    (engine.ladder queues side).filter (fun order => order.price = price) =
      (queues side price).map (fun slot => (engine.order slot).resting) := by
  have keys : (engine.book.levels side).keys = price :: rest.map Prod.fst := by
    rw [SortedMap.keys, first]
    rfl
  have sorted := SortedMap.keys_sorted (engine.book.levels side)
  rw [keys, List.pairwise_cons] at sorted
  unfold ladder OrderBook.sideSlots
  rw [keys, List.flatMap_cons, List.map_append, List.filter_append, List.filter_eq_self.mpr, List.filter_eq_nil_iff.mpr,
    List.append_nil]
  · intro order behind
    obtain ⟨slot, inside, rfl⟩ := List.mem_map.mp behind
    obtain ⟨other, listed, there⟩ := List.mem_flatMap.mp inside
    have placed : (engine.order slot).price = other := (sound.laid.placed side other slot there).2
    rw [decide_eq_true_eq]
    intro same
    change (engine.order slot).price = price at same
    have ahead := sorted.1 other listed
    rw [← placed, same] at ahead
    exact irrefl_of side.Ahead price ahead
  · intro order here
    obtain ⟨slot, inside, rfl⟩ := List.mem_map.mp here
    exact decide_eq_true (sound.laid.placed side price slot inside).2

theorem Sound.bestQty_eq (sound : engine.Sound queues free others) (small : engine.pool.capacity < 2 ^ 32) (side : Side) :
    (engine.book.bestQty side).toNat = topUnits (engine.ladder queues side) := by
  have best := sound.bestPrice_eq side
  unfold OrderBook.bestPrice SortedMap.keys at best
  unfold OrderBook.bestQty topUnits topPrice
  rw [← best]
  cases entries : (engine.book.levels side).entries with
  | nil =>
    have none : engine.ladder queues side = [] := by
      unfold ladder OrderBook.sideSlots SortedMap.keys
      rw [entries]
      rfl
    rw [none]
    rfl
  | cons entry rest =>
    obtain ⟨price, level⟩ := entry
    have found : (engine.book.levels side).find? price = some level :=
      SortedMap.find?_of_mem (by rw [entries]; exact List.mem_cons_self)
    have counted := (sound.tallied small side price level found).totalQty
    change level.totalQty.toNat = (((engine.ladder queues side).filter (fun order => order.price = price)).map _).sum
    rw [counted, sound.top_level entries, List.map_map]
    rfl

theorem topUnits_pos {orders : List Resting} (opened : ∀ order ∈ orders, order.filledQty < order.qty) :
    topUnits orders = 0 ↔ orders = [] := by
  cases orders with
  | nil => exact ⟨fun _ => rfl, fun _ => rfl⟩
  | cons first rest =>
    have positive := opened first List.mem_cons_self
    have first_units : first.remainingQty.toNat ≤ topUnits (first :: rest) := by
      refine List.single_le_sum (fun _ _ => Nat.zero_le _) _ (List.mem_map_of_mem ?_)
      exact List.mem_filter.mpr ⟨List.mem_cons_self, decide_eq_true rfl⟩
    rw [Resting.remainingQty_toNat] at first_units
    rw [UInt32.lt_iff_toNat_lt] at positive
    exact ⟨fun none => by omega, fun none => by cases none⟩

theorem topUnits_le (orders : List Resting) : topUnits orders ≤ orders.length * (2 ^ 32 - 1) := by
  have each : ∀ units ∈ (orders.filter (fun order => order.price = topPrice orders)).map
      (fun order => order.remainingQty.toNat), units ≤ 2 ^ 32 - 1 := by
    intro units inside
    obtain ⟨order, _, rfl⟩ := List.mem_map.mp inside
    exact Nat.le_of_lt_succ order.remainingQty.toNat_lt
  have total := List.sum_le_card_nsmul _ _ each
  rw [List.length_map, nsmul_eq_mul, Nat.cast_id] at total
  exact Nat.le_trans total (Nat.mul_le_mul_right _ (List.length_filter_le _ _))

theorem Sound.tops_fit (sound : engine.Sound queues free []) (small : engine.pool.capacity < 2 ^ 32) :
    topUnits (engine.ladder queues .BUY) + topUnits (engine.ladder queues .SELL) < 2 ^ 64 := by
  have bids := topUnits_le (engine.ladder queues .BUY)
  have asks := topUnits_le (engine.ladder queues .SELL)
  have room := sound.free_length
  unfold Ladder.orders at room
  rw [List.length_append] at room
  omega

def listings (engine : MatchingEngine) : List FeedMessage → List Ladder
  | [] => []
  | m :: later => (engine.deliver m).elim [] (fun result => result.2.listing :: result.2.listings later)

end MatchingEngine

/-- The difference of the best prices, where both sides have one. -/
def Ladder.spread (ladder : Ladder) : Option UInt32 :=
  if ladder .BUY = [] ∨ ladder .SELL = [] then none else some (topPrice (ladder .SELL) - topPrice (ladder .BUY))

def Ladder.tops (ladder : Ladder) : UInt64 × UInt64 :=
  (UInt64.ofNat (topUnits (ladder .BUY)), UInt64.ofNat (topUnits (ladder .SELL)))

/-- What the spread tracker takes from a book. -/
def SpreadTracker.reads (book : OrderBook) : Option UInt32 :=
  if book.getBestBid ≠ 0 ∧ book.getBestAsk ≠ 0 then some book.getSpread else none

/-- What the other two take. -/
def QueueDepthTracker.reads (book : OrderBook) : UInt64 × UInt64 := (book.getBestBidQty, book.getBestAskQty)

namespace Analytics

variable (shown : List Sample) (analytics : Analytics)

theorem foldl_spread : (shown.foldl sample analytics).spread =
    (shown.filterMap (fun sample => SpreadTracker.reads sample.book)).foldl
      (fun tracker s => ⟨s, tracker.stats.add s.toFloat⟩) analytics.spread := by
  induction shown generalizing analytics with
  | nil => rfl
  | cons first rest ih =>
    rw [List.foldl_cons, ih, List.filterMap_cons]
    unfold sample SpreadTracker.update SpreadTracker.reads
    by_cases both : first.book.getBestBid ≠ 0 ∧ first.book.getBestAsk ≠ 0
    · simp only [if_pos both, List.foldl_cons]
    · simp only [if_neg both]

theorem foldl_queueDepth : (shown.foldl sample analytics).queueDepth =
    (shown.map (fun sample => QueueDepthTracker.reads sample.book)).foldl
      (fun tracker tops => ⟨tops.1, tops.2, tracker.depthStats.add (tops.1 + tops.2).toFloat⟩) analytics.queueDepth := by
  induction shown generalizing analytics with
  | nil => rfl
  | cons first rest ih =>
    rw [List.foldl_cons, ih, List.map_cons, List.foldl_cons]
    rfl

theorem foldl_imbalance : (shown.foldl sample analytics).imbalance =
    ((shown.map (fun sample => QueueDepthTracker.reads sample.book)).filter (fun tops => tops.1 + tops.2 ≠ 0)).foldl
      (fun tracker tops => ⟨(tops.1.toFloat - tops.2.toFloat) / (tops.1 + tops.2).toFloat,
        tracker.stats.add ((tops.1.toFloat - tops.2.toFloat) / (tops.1 + tops.2).toFloat)⟩) analytics.imbalance := by
  induction shown generalizing analytics with
  | nil => rfl
  | cons first rest ih =>
    rw [List.foldl_cons, ih, List.map_cons, List.filter_cons]
    unfold sample ImbalanceTracker.update QueueDepthTracker.reads
    by_cases none : first.book.getBestBidQty + first.book.getBestAskQty = 0
    · simp [none]
    · simp [none]

end Analytics

namespace MatchingEngine

variable {engine : MatchingEngine} {queues : Queues} {free others : List Slot}

theorem Idle.best (idle : engine.Idle queues free []) (side : Side) :
    engine.book.bestPrice side = topPrice (engine.listing side) := by
  rw [idle.steady.sound.bestPrice_eq, idle.steady.sound.listing_eq]
  rfl

theorem Idle.reads_spread (idle : engine.Idle queues free []) :
    SpreadTracker.reads engine.book = Ladder.spread engine.listing := by
  have uncrossed := idle.steady.uncrossed
  unfold SpreadTracker.reads Ladder.spread
  by_cases onesided : engine.listing .BUY = [] ∨ engine.listing .SELL = []
  · rw [if_pos onesided, if_neg]
    rintro ⟨bid, ask⟩
    rcases onesided with none | none
    · exact bid (uncrossed.bid.mpr none)
    · exact ask (uncrossed.ask.mpr none)
  · obtain ⟨bids, asks⟩ := not_or.mp onesided
    have bid : engine.book.getBestBid ≠ 0 := fun zero => bids (uncrossed.bid.mp zero)
    have ask : engine.book.getBestAsk ≠ 0 := fun zero => asks (uncrossed.ask.mp zero)
    have below := (uncrossed.separated bids asks).1
    have spread : engine.book.getSpread = engine.book.bestPrice .SELL - engine.book.bestPrice .BUY :=
      if_pos ⟨units_pos.mpr bid, units_pos.mpr ask, UInt32.le_of_lt below⟩
    rw [if_pos ⟨bid, ask⟩, if_neg onesided, spread, idle.best, idle.best]

/-- The spread of the orders is at least one tick, and no subtraction wraps. -/
theorem Idle.spread_pos (idle : engine.Idle queues free []) {s : UInt32} (read : Ladder.spread engine.listing = some s) :
    1 ≤ s.toNat ∧ s.toNat + (topPrice (engine.listing .BUY)).toNat = (topPrice (engine.listing .SELL)).toNat := by
  have uncrossed := idle.steady.uncrossed
  unfold Ladder.spread at read
  split at read
  · cases read
  next both =>
    cases read
    obtain ⟨bids, asks⟩ := not_or.mp both
    have below : engine.book.bestPrice .BUY < engine.book.bestPrice .SELL := (uncrossed.separated bids asks).1
    rw [idle.best, idle.best] at below
    rw [UInt32.toNat_sub_of_le _ _ (UInt32.le_of_lt below)]
    rw [UInt32.lt_iff_toNat_lt] at below
    omega

theorem Idle.reads_tops (idle : engine.Idle queues free []) (small : engine.pool.capacity < 2 ^ 32) :
    QueueDepthTracker.reads engine.book = Ladder.tops engine.listing := by
  have total : ∀ side, engine.book.bestQty side = UInt64.ofNat (topUnits (engine.listing side)) := by
    intro side
    rw [idle.steady.sound.listing_eq, ← idle.steady.sound.bestQty_eq small, UInt64.ofNat_toNat]
  exact Prod.ext (total .BUY) (total .SELL)

theorem listings_cons (m : FeedMessage) (later : List FeedMessage) {batch : List Fill} {engine' : MatchingEngine}
    (first : engine.deliver m = some (batch, engine')) :
    engine.listings (m :: later) = engine'.listing :: engine'.listings later := by
  rw [listings, first]
  rfl

/-- Every listed book is that of an engine between two messages, and there is one for each message. -/
theorem listings_idle (feed : List FeedMessage) :
    ∀ {engine : MatchingEngine} {queues : Queues} {free : List Slot}, engine.Idle queues free [] →
      (engine.listings feed).length = feed.length ∧ ∀ book ∈ engine.listings feed, ∃ (engine' : MatchingEngine)
        (queues' : Queues) (free' : List Slot), engine'.Idle queues' free' [] ∧
          engine'.pool.capacity = engine.pool.capacity ∧ book = engine'.listing := by
  induction feed with
  | nil =>
    intro engine queues free _
    exact ⟨rfl, List.forall_mem_nil _⟩
  | cons m later ih =>
    intro engine queues free idle
    obtain ⟨batch, engine₁, queues₁, free₁, delivered, idle₁, size₁⟩ := Idle.feed [m] idle
    rw [feed_singleton] at delivered
    obtain ⟨length, each⟩ := ih idle₁
    rw [listings_cons m later delivered]
    refine ⟨congrArg Nat.succ length, List.forall_mem_cons.mpr ⟨⟨engine₁, queues₁, free₁, idle₁, size₁, rfl⟩, ?_⟩⟩
    intro book inside
    obtain ⟨engine', queues', free', idle', size, same⟩ := each book inside
    exact ⟨engine', queues', free', idle', size.trans size₁, same⟩

theorem samples_listings {α : Type} {read : OrderBook → α} {see : Ladder → α} {capacity : Nat}
    (same : ∀ (engine : MatchingEngine) (queues : Queues) (free : List Slot), engine.Idle queues free [] →
      engine.pool.capacity = capacity → read engine.book = see engine.listing) (feed : List FeedMessage) :
    ∀ {engine : MatchingEngine} {queues : Queues} {free : List Slot}, engine.Idle queues free [] →
      engine.pool.capacity = capacity →
      (engine.samples feed).map (fun sample => read sample.book) = (engine.listings feed).map see := by
  induction feed with
  | nil =>
    intro engine queues free _ _
    rfl
  | cons m later ih =>
    intro engine queues free idle size
    obtain ⟨batch, engine₁, queues₁, free₁, delivered, idle₁, size₁⟩ := Idle.feed [m] idle
    rw [feed_singleton] at delivered
    rw [ReplayEngine.samples_cons m later delivered, listings_cons m later delivered, List.map_cons, List.map_cons,
      ih idle₁ (size₁.trans size), same engine₁ queues₁ free₁ idle₁ (size₁.trans size)]

end MatchingEngine

namespace Ladder

/-- The best bid outweighs the best ask by this share of both. -/
def imbalance (tops : UInt64 × UInt64) : ℚ := ((tops.1.toNat : ℚ) - tops.2.toNat) / ((tops.1 + tops.2).toNat : ℚ)

theorem imbalance_bounds {tops : UInt64 × UInt64} (fits : tops.1.toNat + tops.2.toNat < 2 ^ 64) :
    -1 ≤ imbalance tops ∧ imbalance tops ≤ 1 := by
  have total : ((tops.1 + tops.2).toNat : ℚ) = tops.1.toNat + tops.2.toNat := by
    rw [UInt64.toNat_add, Nat.mod_eq_of_lt fits, Nat.cast_add]
  have bids : (0 : ℚ) ≤ tops.1.toNat := Nat.cast_nonneg _
  have asks : (0 : ℚ) ≤ tops.2.toNat := Nat.cast_nonneg _
  unfold imbalance
  rw [total]
  rcases (add_nonneg bids asks).eq_or_lt with zero | positive
  · rw [← zero, div_zero]
    norm_num
  · rw [le_div_iff₀ positive, div_le_iff₀ positive]
    constructor <;> linarith

end Ladder

namespace ReplayEngine
open MatchingEngine

/-- The books of a feed are such that their tops fit, their spreads are positive and only an empty book has no depth. -/
theorem listings_tops {capacity : Nat} (small : capacity < 2 ^ 32) (feed : List FeedMessage) :
    ∀ book ∈ (MatchingEngine.create capacity).listings feed,
      (∀ s, book.spread = some s →
        1 ≤ s.toNat ∧ s.toNat + (topPrice (book .BUY)).toNat = (topPrice (book .SELL)).toNat) ∧
      (book.tops.1 + book.tops.2).toNat = topUnits (book .BUY) + topUnits (book .SELL) ∧
      book.tops.1.toNat + book.tops.2.toNat < 2 ^ 64 ∧
      (book.tops.1 + book.tops.2 = 0 ↔ book .BUY = [] ∧ book .SELL = []) := by
  intro book inside
  obtain ⟨engine, queues, free, idle, size, rfl⟩ := (listings_idle feed (Idle.create capacity)).2 book inside
  rw [create_capacity] at size
  have fits := idle.steady.sound.tops_fit (by rw [size]; exact small)
  have opened := idle.steady.wellFormed.opened
  rw [← idle.steady.sound.listing_eq, ← idle.steady.sound.listing_eq] at fits
  have bids : (Ladder.tops engine.listing).1.toNat = topUnits (engine.listing .BUY) :=
    UInt64.toNat_ofNat_of_lt' (show _ < 2 ^ 64 by omega)
  have asks : (Ladder.tops engine.listing).2.toNat = topUnits (engine.listing .SELL) :=
    UInt64.toNat_ofNat_of_lt' (show _ < 2 ^ 64 by omega)
  have total : ((Ladder.tops engine.listing).1 + (Ladder.tops engine.listing).2).toNat =
      topUnits (engine.listing .BUY) + topUnits (engine.listing .SELL) := by
    rw [UInt64.toNat_add, bids, asks, Nat.mod_eq_of_lt fits]
  have empty : ∀ side, topUnits (engine.listing side) = 0 ↔ engine.listing side = [] := by
    intro side
    rw [idle.steady.sound.listing_eq]
    exact topUnits_pos (opened side)
  refine ⟨fun s read => idle.spread_pos read, total, by rwa [bids, asks], ?_⟩
  rw [← empty, ← empty, ← UInt64.toNat_inj, total]
  exact Nat.add_eq_zero_iff

theorem samples_spreads (feed : List FeedMessage) {engine : MatchingEngine} {queues : Queues} {free : List Slot}
    (idle : engine.Idle queues free []) :
    (engine.samples feed).filterMap (fun sample => SpreadTracker.reads sample.book) =
      (engine.listings feed).filterMap Ladder.spread := by
  have shown : (engine.samples feed).map (fun sample => SpreadTracker.reads sample.book) =
      (engine.listings feed).map Ladder.spread :=
    samples_listings (fun _ _ _ idle _ => idle.reads_spread) feed idle rfl
  have both := congrArg (List.filterMap id) shown
  rw [List.filterMap_map, List.filterMap_map] at both
  exact both

/-- What a NORMAL replay reports. The trackers add up, message by message, the spread of the orders at the top of the book
where both sides have some, their units, and the imbalance where there are any; the spread is at least one, the units
do not wrap and the imbalance lies between -1 and 1. In exact arithmetic the running statistics are the mean, the sample
variance and the extremes of these numbers. -/
theorem normal_analytics (capacity : Nat) (small : capacity < 2 ^ 32) (feed : List FeedMessage)
    (countable : feed.length < 2 ^ 64) :
    let books := (MatchingEngine.create capacity).listings feed
    let spreads := books.filterMap Ladder.spread
    let tops := books.map Ladder.tops
    let held := tops.filter (fun tops => tops.1 + tops.2 ≠ 0)
    let ticks := spreads.map (fun s => (s.toNat : ℚ))
    let depths := tops.map (fun tops => ((tops.1 + tops.2).toNat : ℚ))
    let balances := held.map Ladder.imbalance
    books.length = feed.length ∧
    (∃ replay analytics, runNormal ⟨MatchingEngine.create capacity, {}⟩ {} feed = some (replay, analytics) ∧
      run ⟨MatchingEngine.create capacity, {}⟩ feed .NORMAL 0 = some replay ∧
      analytics.spread = spreads.foldl (fun tracker s => ⟨s, tracker.stats.add s.toFloat⟩) {} ∧
      analytics.queueDepth = tops.foldl
        (fun tracker tops => ⟨tops.1, tops.2, tracker.depthStats.add (tops.1 + tops.2).toFloat⟩) {} ∧
      analytics.imbalance = held.foldl
        (fun tracker tops => ⟨(tops.1.toFloat - tops.2.toFloat) / (tops.1 + tops.2).toFloat,
          tracker.stats.add ((tops.1.toFloat - tops.2.toFloat) / (tops.1 + tops.2).toFloat)⟩) {}) ∧
    (∀ book ∈ books,
      (∀ s, book.spread = some s →
        1 ≤ s.toNat ∧ s.toNat + (topPrice (book .BUY)).toNat = (topPrice (book .SELL)).toNat) ∧
      (book.tops.1 + book.tops.2).toNat = topUnits (book .BUY) + topUnits (book .SELL) ∧
      (book.tops.1 + book.tops.2 = 0 ↔ book .BUY = [] ∧ book .SELL = []) ∧
      -1 ≤ Ladder.imbalance book.tops ∧ Ladder.imbalance book.tops ≤ 1) ∧
    (ExactStats.of ticks).Describes ticks ∧ (spreads ≠ [] → 1 ≤ (ExactStats.of ticks).mean) ∧
    (ExactStats.of depths).Describes depths ∧
    (ExactStats.of balances).Describes balances ∧
    (held ≠ [] → -1 ≤ (ExactStats.of balances).mean ∧ (ExactStats.of balances).mean ≤ 1) := by
  intro books spreads tops held ticks depths balances
  have idle := Idle.create capacity
  have length : books.length = feed.length := (listings_idle feed idle).1
  have facts := listings_tops small feed
  have fewTicks : ticks.length < 2 ^ 64 := by
    have few : spreads.length ≤ books.length := List.length_filterMap_le _ _
    rw [List.length_map]
    omega
  have fewTops : tops.length < 2 ^ 64 := by
    rw [List.length_map, length]
    exact countable
  have fewBalances : balances.length < 2 ^ 64 := by
    rw [List.length_map]
    exact Nat.lt_of_le_of_lt (List.length_filter_le _ _) fewTops
  have inside : ∀ s ∈ spreads, (1 : ℚ) ≤ (s.toNat : ℚ) := by
    intro s read
    obtain ⟨book, listed, same⟩ := List.mem_filterMap.mp read
    exact_mod_cast ((facts book listed).1 s same).1
  have balanced : ∀ tops ∈ held, -1 ≤ Ladder.imbalance tops ∧ Ladder.imbalance tops ≤ 1 := by
    intro tops kept
    obtain ⟨book, listed, rfl⟩ := List.mem_map.mp (List.mem_of_mem_filter kept)
    exact Ladder.imbalance_bounds (facts book listed).2.2.1
  refine ⟨length, ?_, ?_, ?_, ?_, ?_, ?_, ?_⟩
  · obtain ⟨fills, engine, _, _, _, _, _, applied⟩ := applyAll_counts feed idle
    have ran := runNormal_samples feed idle {} {}
    have counted := applied {}
    rw [counted] at ran
    have shownTops : ((MatchingEngine.create capacity).samples feed).map
        (fun sample => QueueDepthTracker.reads sample.book) = tops :=
      samples_listings (fun _ _ _ idle size => idle.reads_tops (by rw [size]; exact small)) feed idle (create_capacity capacity)
    refine ⟨_, _, ran, ?_, ?_, ?_, ?_⟩
    · rw [← runNormal_replay _ {}, ran]
      rfl
    · rw [Analytics.foldl_spread, samples_spreads feed idle]
    · rw [Analytics.foldl_queueDepth, shownTops]
    · rw [Analytics.foldl_imbalance, shownTops]
  · intro book listed
    obtain ⟨spread, total, fits, empty⟩ := facts book listed
    exact ⟨spread, total, empty, Ladder.imbalance_bounds fits⟩
  · exact ExactStats.describes ticks fewTicks
  · intro some
    refine (ExactStats.follows ticks fewTicks).summary.le_mean (fun none => some (List.map_eq_nil_iff.mp none)) ?_
    exact List.forall_mem_map.mpr inside
  · exact ExactStats.describes depths (by rwa [List.length_map])
  · exact ExactStats.describes balances fewBalances
  · intro some
    have running := (ExactStats.follows balances fewBalances).summary
    have nonempty : balances ≠ [] := fun none => some (List.map_eq_nil_iff.mp none)
    exact ⟨running.le_mean nonempty (List.forall_mem_map.mpr (fun tops kept => (balanced tops kept).1)),
      running.mean_le nonempty (List.forall_mem_map.mpr (fun tops kept => (balanced tops kept).2))⟩

/-- A bid and an ask two ticks apart. -/
def bidAndAsk : List FeedMessage := [makeAdd 1 1 .BUY .LIMIT 99 5 7, makeAdd 2 2 .SELL .LIMIT 101 3 7]

theorem normal_analytics_bidAndAsk : (ExactStats.of [2]).mean = 2 ∧
    ∃ replay analytics, runNormal ⟨MatchingEngine.create 2, {}⟩ {} bidAndAsk = some (replay, analytics) ∧
      analytics.spread = ⟨2, ({} : RunningStats).add (2 : UInt32).toFloat⟩ := by
  have spreads : ((MatchingEngine.create 2).listings bidAndAsk).filterMap Ladder.spread = [2] := by decide +kernel
  obtain ⟨_, ⟨replay, analytics, ran, _, spread, _⟩, _, described, _⟩ := normal_analytics 2 (by decide) bidAndAsk (by decide)
  rw [spreads] at spread described
  refine ⟨?_, replay, analytics, ran, spread⟩
  have mean := described.mean (by simp)
  simpa using mean

end ReplayEngine

end ChronoBook
