import ChronoBook.Matching.ShardedRun

/-! Symbols never meet in the sharded engine. An engine does not look at the symbol
of an order, so this rests on the router, on the engine table and on what the pool
hands out: every order that can be reached from an engine came with its symbol. -/

namespace ChronoBook
open Library Linked

def AddedAs (messages : List FeedMessage) (symbol : UInt64) (side : Side) (id : UInt64) : Prop :=
  ∃ m ∈ messages, isValidFeedMessage m = true ∧ m.msgType = MsgType.ADD.byte ∧ m.symbolPacked = symbol ∧
    Side.ofByte m.side = side ∧ m.orderId = id

theorem AddedAs.mono {messages messages' : List FeedMessage} {symbol : UInt64} {side : Side} {id : UInt64}
    (added : AddedAs messages symbol side id) (subset : messages ⊆ messages') : AddedAs messages' symbol side id := by
  obtain ⟨m, inside, facts⟩ := added
  exact ⟨m, subset inside, facts⟩

/-- The fill pairs a buy and a sell order that were ADDed with its symbol. -/
structure Fill.Paired (fill : Fill) (messages : List FeedMessage) : Prop where
  buy : AddedAs messages fill.symbolPacked .BUY fill.buyOrderId
  sell : AddedAs messages fill.symbolPacked .SELL fill.sellOrderId

theorem Fill.Paired.mono {fill : Fill} {messages messages' : List FeedMessage} (paired : fill.Paired messages)
    (subset : messages ⊆ messages') : fill.Paired messages' :=
  ⟨paired.buy.mono subset, paired.sell.mono subset⟩

theorem Resting.of_terms {order other : Resting} (same : order.terms = other.terms) :
    order.symbolPacked = other.symbolPacked ∧ order.side = other.side ∧ order.orderId = other.orderId := by
  have symbol := congrArg Resting.symbolPacked same
  have side := congrArg Resting.side same
  have id := congrArg Resting.orderId same
  exact ⟨symbol, side, id⟩

namespace Ladder

def Known (ladder : Ladder) (messages : List FeedMessage) (symbol : UInt64) : Prop :=
  ∀ side, ∀ order ∈ ladder side, order.symbolPacked = symbol ∧ AddedAs messages symbol order.side order.orderId

variable {ladder : Ladder} {messages : List FeedMessage} {m : FeedMessage} {symbol : UInt64}

theorem Known.mono (known : ladder.Known messages symbol) {messages' : List FeedMessage}
    (subset : messages ⊆ messages') : ladder.Known messages' symbol :=
  fun side order inside => ⟨(known side order inside).1, (known side order inside).2.mono subset⟩

/-- What a message brings in is its own order or one that was known. -/
theorem Known.incoming (known : ladder.Known messages m.symbolPacked) (valid : isValidFeedMessage m = true)
    {taker : Resting} {type : OrderType} (brings : ladder.incoming m = some (taker, type)) :
    taker.symbolPacked = m.symbolPacked ∧ AddedAs (messages ++ [m]) m.symbolPacked taker.side taker.orderId := by
  unfold Ladder.incoming at brings
  split at brings
  next kind =>
    split at brings
    · cases brings
    · cases brings
      exact ⟨rfl, m, by simp, valid, kind, rfl, rfl, rfl⟩
  split at brings
  · cases brings
  · obtain ⟨old, found, same⟩ := Option.map_eq_some_iff.mp brings
    cases same
    obtain ⟨⟨side, inside⟩, _⟩ := mem_of_find? found
    obtain ⟨own, added⟩ := known side old inside
    exact ⟨own, added.mono (List.subset_append_left _ _)⟩

theorem Known.apply (known : ladder.Known messages m.symbolPacked) (valid : isValidFeedMessage m = true) :
    (ladder.apply m).2.Known (messages ++ [m]) m.symbolPacked := by
  intro side order inside
  have carried : ∀ {other : Resting}, order.terms = other.terms → other.symbolPacked = m.symbolPacked →
      AddedAs (messages ++ [m]) m.symbolPacked other.side other.orderId →
      order.symbolPacked = m.symbolPacked ∧ AddedAs (messages ++ [m]) m.symbolPacked order.side order.orderId := by
    intro other same own added
    obtain ⟨symbol, side, id⟩ := Resting.of_terms same
    rw [symbol, side, id]
    exact ⟨own, added⟩
  rcases mem_apply_terms inside with ⟨taker, type, brings, same⟩ | ⟨place, old, there, same⟩
  · obtain ⟨own, added⟩ := known.incoming valid brings
    exact carried same own added
  · obtain ⟨own, added⟩ := known place old there
    exact carried same.symm own (added.mono (List.subset_append_left _ _))

/-- Taker and maker stand on opposite sides of one symbol. -/
theorem Known.fills (known : ladder.Known messages m.symbolPacked) (wellFormed : ladder.WellFormed)
    (valid : isValidFeedMessage m = true) : ∀ fill ∈ (ladder.apply m).1, fill.Paired (messages ++ [m]) := by
  intro fill inside
  obtain ⟨taker, type, maker, qty, brings, there, same⟩ := mem_apply_fills inside
  obtain ⟨own, took⟩ := known.incoming valid brings
  obtain ⟨_, made⟩ := (known.mono (List.subset_append_left _ [m])) _ maker there
  rw [wellFormed.sided _ maker there] at made
  rw [← own] at took made
  rw [same]
  cases side : taker.side with
  | BUY =>
    rw [side] at took made
    change AddedAs _ _ .SELL _ at made
    refine ⟨?_, ?_⟩
    · simpa [Resting.fillBy, side] using took
    · simpa [Resting.fillBy, side] using made
  | SELL =>
    rw [side] at took made
    change AddedAs _ _ .BUY _ at made
    refine ⟨?_, ?_⟩
    · simpa [Resting.fillBy, side] using made
    · simpa [Resting.fillBy, side] using took

end Ladder

namespace Shard

variable {shard shard' : Shard} {queues : UInt64 → Queues} {free : List Slot} {ladders : UInt64 → Ladder}
  {messages : List FeedMessage}

theorem Holds.wellFormed (holds : shard.Holds queues free ladders) (symbol : UInt64) :
    (ladders symbol).WellFormed := by
  by_cases present : symbol ∈ shard.engines.map Prod.fst
  · obtain ⟨entry, inside, same⟩ := List.mem_map.mp present
    rw [← same, ← holds.ladder entry inside]
    exact (holds.idle entry inside).steady.wellFormed
  · rw [holds.absent symbol present]
    exact Ladder.WellFormed.empty

theorem getEngine_names (shard : Shard) (symbol : UInt64) :
    ∀ name ∈ (shard.getEngine symbol).2.engines.map Prod.fst, name = symbol ∨ name ∈ shard.engines.map Prod.fst := by
  intro name inside
  unfold getEngine at inside
  split at inside
  · exact Or.inr inside
  · rw [List.map_append, List.mem_append] at inside
    rcases inside with old | new
    · exact Or.inr old
    · exact Or.inl (List.mem_singleton.mp new)

theorem applyMessage_names {m : FeedMessage} (applied : shard.applyMessage m = some shard') :
    ∀ name ∈ shard'.engines.map Prod.fst, name = m.symbolPacked ∨ name ∈ shard.engines.map Prod.fst := by
  have opened := shard.getEngine_names m.symbolPacked
  unfold Shard.applyMessage at applied
  split at applied
  · cases applied
    exact fun name inside => Or.inr inside
  dsimp only at applied
  split at applied <;> cases applied
  · exact opened
  · intro name inside
    dsimp only at inside
    rw [putEngine_names] at inside
    exact opened name inside

/-- What a shard has become of the messages it applied: its books and fills hold nothing but their orders. -/
structure Tracked (shard : Shard) (messages : List FeedMessage) (queues : UInt64 → Queues) (free : List Slot)
    (ladders : UInt64 → Ladder) : Prop where
  holds : shard.Holds queues free ladders
  known : ∀ symbol, (ladders symbol).Known messages symbol
  fills : ∀ fill ∈ shard.fills, fill.Paired messages
  named : ∀ name ∈ shard.engines.map Prod.fst, ∃ m ∈ messages, m.symbolPacked = name

theorem Tracked.fresh (poolCap : Nat) :
    (Shard.fresh poolCap).Tracked [] (fun _ => Queues.empty) (List.range poolCap).reverse (fun _ => Ladder.empty) where
  holds := Holds.fresh poolCap
  known := by
    intro symbol side order inside
    cases inside
  fills := by
    intro fill inside
    cases inside
  named := by
    intro name inside
    cases inside

theorem Tracked.applyMessage (tracked : shard.Tracked messages queues free ladders) {m : FeedMessage}
    (applied : shard.applyMessage m = some shard') :
    ∃ queues' free' ladders', shard'.Tracked (messages ++ [m]) queues' free' ladders' := by
  have more : messages ⊆ messages ++ [m] := List.subset_append_left _ _
  have known : ∀ symbol, (ladders symbol).Known (messages ++ [m]) symbol := fun symbol => (tracked.known symbol).mono more
  have named : ∀ name ∈ shard'.engines.map Prod.fst, ∃ own ∈ messages ++ [m], own.symbolPacked = name := by
    intro name inside
    rcases applyMessage_names applied name inside with new | old
    · exact ⟨m, by simp, new.symm⟩
    · obtain ⟨own, there, same⟩ := tracked.named name old
      exact ⟨own, more there, same⟩
  have kept : ∀ fill ∈ shard.fills, fill.Paired (messages ++ [m]) := fun fill inside => (tracked.fills fill inside).mono more
  rcases tracked.holds.applyMessage m with ⟨_, next, queues', result, holds', same⟩ |
    ⟨_, valid, next, queues', free', result, holds', fills, _, _⟩
  · rw [applied] at result
    cases result
    refine ⟨queues', free, ladders, holds', known, ?_, named⟩
    rw [same.fills]
    exact kept
  · rw [applied] at result
    cases result
    refine ⟨queues', free', _, holds', ?_, ?_, named⟩
    · intro symbol
      by_cases here : symbol = m.symbolPacked
      · rw [here, Function.update_self]
        exact (tracked.known m.symbolPacked).apply valid
      · rw [Function.update_of_ne here]
        exact known symbol
    · intro fill inside
      rw [fills, List.mem_append] at inside
      rcases inside with old | new
      · exact kept fill old
      · exact (tracked.known m.symbolPacked).fills (tracked.holds.wellFormed _) valid fill new

theorem Tracked.applyAll (later : List FeedMessage) :
    ∀ {shard : Shard} {messages : List FeedMessage} {queues : UInt64 → Queues} {free : List Slot}
      {ladders : UInt64 → Ladder}, shard.Tracked messages queues free ladders → shard.applyAll later = some shard' →
      ∃ queues' free' ladders', shard'.Tracked (messages ++ later) queues' free' ladders' := by
  induction later with
  | nil =>
    intro shard messages queues free ladders tracked applied
    cases applied
    rw [List.append_nil]
    exact ⟨queues, free, ladders, tracked⟩
  | cons m later ih =>
    intro shard messages queues free ladders tracked applied
    rw [Shard.applyAll] at applied
    obtain ⟨next, first, rest⟩ := Option.bind_eq_some_iff.mp applied
    obtain ⟨queues', free', ladders', tracked'⟩ := tracked.applyMessage first
    rw [List.append_cons]
    exact ih tracked' rest

end Shard

/-- The slots that can be reached from an engine's book through any of its pointers. -/
inductive MatchingEngine.Reaches (engine : MatchingEngine) : Slot → Prop
  | head {side : Side} {price : UInt32} {level : PriceLevel} {slot : Slot}
      (found : (engine.book.levels side).find? price = some level) (first : level.head = some slot) :
      engine.Reaches slot
  | tail {side : Side} {price : UInt32} {level : PriceLevel} {slot : Slot}
      (found : (engine.book.levels side).find? price = some level) (last : level.tail = some slot) :
      engine.Reaches slot
  | mapped {id : UInt64} {slot : Slot} (found : engine.book.orderMap id = some slot) : engine.Reaches slot
  | next {slot other : Slot} (here : engine.Reaches slot) (link : (engine.order slot).next = some other) :
      engine.Reaches other
  | prev {slot other : Slot} (here : engine.Reaches slot) (link : (engine.order slot).prev = some other) :
      engine.Reaches other

namespace MatchingEngine.Sound

variable {engine : MatchingEngine} {queues : Queues} {free others : List Slot}

theorem threaded (sound : engine.Sound queues free others) {slot : Slot} (inside : slot ∈ engine.book.slots queues) :
    ∃ level side price, slot ∈ queues side price ∧
      PriceLevel.Holds level engine.pool.slab (queues side price) := by
  have queued := sound.laid.mem_slots.mp inside
  cases found : (engine.book.levels (engine.pool.slab slot).side).find? (engine.pool.slab slot).price with
  | none =>
    rw [sound.laid.absent _ _ found] at queued
    cases queued
  | some level => exact ⟨level, _, _, queued, (sound.laid.level _ _ level found).1⟩

theorem reaches (sound : engine.Sound queues free others) {slot : Slot} (reached : engine.Reaches slot) :
    slot ∈ engine.book.slots queues := by
  induction reached with
  | head found first =>
    have holds := (sound.laid.level _ _ _ found).1
    rw [holds.head_eq] at first
    exact sound.laid.mem_slots_of_mem (List.mem_of_mem_head? first)
  | tail found last =>
    have holds := (sound.laid.level _ _ _ found).1
    rw [holds.tail_eq] at last
    exact sound.laid.mem_slots_of_mem (List.mem_of_mem_getLast? last)
  | mapped found => exact sound.laid.mem_slots.mpr ((sound.laid.mapped _ _).mp found).2
  | next here link inside =>
    obtain ⟨level, side, price, queued, holds⟩ := sound.threaded inside
    exact sound.laid.mem_slots_of_mem (holds.next_mem queued link)
  | prev here link inside =>
    obtain ⟨level, side, price, queued, holds⟩ := sound.threaded inside
    exact sound.laid.mem_slots_of_mem (holds.prev_mem queued link)

theorem mem_ladder (sound : engine.Sound queues free others) {slot : Slot} (inside : slot ∈ engine.book.slots queues) :
    (engine.order slot).resting ∈ engine.ladder queues (engine.order slot).side := by
  have queued := sound.laid.mem_slots.mp inside
  exact List.mem_map_of_mem (sound.laid.mem_sideSlots.mpr ⟨_, queued⟩)

end MatchingEngine.Sound

namespace Shard.Tracked

variable {shard : Shard} {queues : UInt64 → Queues} {free : List Slot} {ladders : UInt64 → Ladder}
  {messages : List FeedMessage}

theorem symbol (tracked : shard.Tracked messages queues free ladders) {entry : UInt64 × EngineState}
    (inside : entry ∈ shard.engines) {slot : Slot} (reached : (entry.2.on shard.pool).Reaches slot) :
    (shard.pool.slab slot).symbolPacked = entry.1 := by
  have sound := (tracked.holds.idle entry inside).steady.sound
  have resting := sound.mem_ladder (sound.reaches reached)
  rw [tracked.holds.ladder entry inside] at resting
  exact (tracked.known entry.1 _ _ resting).1

theorem apart (tracked : shard.Tracked messages queues free ladders) {entry other : UInt64 × EngineState}
    (here : entry ∈ shard.engines) (there : other ∈ shard.engines) (different : entry.1 ≠ other.1) {slot : Slot}
    (reached : (entry.2.on shard.pool).Reaches slot) : ¬(other.2.on shard.pool).Reaches slot := by
  intro also
  have first := (tracked.holds.idle entry here).steady.sound.reaches reached
  have sound := (tracked.holds.idle other there).steady.sound
  exact sound.others_outside (mem_others here different first) (sound.reaches also)

end Shard.Tracked

namespace System

variable {n : Nat} [NeZero n]

/-- No two symbols have an engine, an order or a fill in common. -/
structure Isolated (s : System n) (routed : List FeedMessage) : Prop where
  home : ∀ i, ∀ entry ∈ (s.engine.shards i).engines, ShardedEngine.shardIndex n entry.1 = i
  single : ∀ i, ((s.engine.shards i).engines.map Prod.fst).Nodup
  elsewhere : ∀ i j, ∀ entry ∈ (s.engine.shards i).engines, ∀ other ∈ (s.engine.shards j).engines,
    entry.1 = other.1 → i = j
  labelled : ∀ i, ∀ entry ∈ (s.engine.shards i).engines, ∀ slot,
    (entry.2.on (s.engine.shards i).pool).Reaches slot →
      ((s.engine.shards i).pool.slab slot).symbolPacked = entry.1
  separate : ∀ i, ∀ entry ∈ (s.engine.shards i).engines, ∀ other ∈ (s.engine.shards i).engines,
    entry.1 ≠ other.1 → ∀ slot, (entry.2.on (s.engine.shards i).pool).Reaches slot →
      ¬(other.2.on (s.engine.shards i).pool).Reaches slot
  recorded : ∀ i, ∀ fill ∈ (s.engine.shards i).fills,
    ShardedEngine.shardIndex n fill.symbolPacked = i ∧ fill.Paired routed
  drained : ∀ i, ∀ entry ∈ (s.engine.shards i).engines, entry.2.fills = []

theorem bound_home {i : Fin n} {messages : List FeedMessage} {m : FeedMessage} (inside : m ∈ bound n i messages) :
    ShardedEngine.shardIndex n m.symbolPacked = i :=
  of_decide_eq_true (List.mem_filter.mp inside).2

/-- What was applied came through the router. -/
theorem isolated_of_tracked {s : System n} {routed : List FeedMessage}
    (tracked : ∀ i, ∃ done queues free ladders, done ⊆ bound n i routed ∧
      (s.engine.shards i).toShard.Tracked done queues free ladders) : s.Isolated routed := by
  have home : ∀ i, ∀ entry ∈ (s.engine.shards i).engines, ShardedEngine.shardIndex n entry.1 = i := by
    intro i entry inside
    obtain ⟨done, _, _, _, within, track⟩ := tracked i
    obtain ⟨m, there, same⟩ := track.named entry.1 (List.mem_map_of_mem inside)
    rw [← same]
    exact bound_home (within there)
  refine ⟨home, ?_, ?_, ?_, ?_, ?_, ?_⟩
  · intro i
    obtain ⟨_, _, _, _, _, track⟩ := tracked i
    exact track.holds.names
  · intro i j entry here other there same
    rw [← home i entry here, ← home j other there, same]
  · intro i entry inside slot reached
    obtain ⟨_, _, _, _, _, track⟩ := tracked i
    exact track.symbol inside reached
  · intro i entry here other there different slot reached
    obtain ⟨_, _, _, _, _, track⟩ := tracked i
    exact track.apart here there different reached
  · intro i fill inside
    obtain ⟨done, _, _, _, within, track⟩ := tracked i
    have paired := track.fills fill inside
    obtain ⟨m, there, _, _, same, _⟩ := paired.buy
    refine ⟨?_, paired.mono (fun m there => List.mem_of_mem_filter (within there))⟩
    rw [← same]
    exact bound_home (within there)
  · intro i entry inside
    obtain ⟨_, _, _, _, _, track⟩ := tracked i
    exact (track.holds.idle entry inside).drained

end System

/-- In every state that a schedule reaches, for every feed, symbols share no engine, no order and no fill. -/
theorem sharded_symbols_isolated {n : Nat} [NeZero n] {poolCap ringCap : UInt64} {feed : List FeedMessage}
    {start : System n} (made : System.create n poolCap ringCap feed = .ok start) {moves : List (Move n)} {s : System n}
    (reached : start.run moves = some s) :
    ∃ routed, feed = routed ++ s.remaining ∧ s.Isolated routed := by
  obtain ⟨routed, split, applied⟩ := System.run_applied made reached
  refine ⟨routed, split, System.isolated_of_tracked (fun i => ?_)⟩
  obtain ⟨done, later, parts, result⟩ := applied i
  obtain ⟨queues, free, ladders, tracked⟩ := (Shard.Tracked.fresh poolCap.toNat).applyAll done result
  refine ⟨done, queues, free, ladders, ?_, tracked⟩
  rw [parts]
  exact List.subset_append_left _ _

/-- One id under two symbols with crossing prices: each symbol keeps its own book, and the fill is of one of them. -/
theorem sharded_symbols_isolated_sample :
    let feed := [makeAdd 1 7 .SELL .LIMIT 100 5 1, makeAdd 2 7 .BUY .LIMIT 120 5 2, makeAdd 3 8 .BUY .LIMIT 110 2 1]
    ∃ (start s : System 1) (moves : List (Move 1)) (routed : List FeedMessage),
      System.create 1 4 4 feed = .ok start ∧ start.run moves = some s ∧
      ((s.engine.shards 0).engines.map Prod.fst, (s.engine.shards 0).fills) = ([1, 2], [⟨8, 7, 100, 2, 3, 1⟩]) ∧
      feed = routed ++ s.remaining ∧ s.Isolated routed := by
  intro feed
  let moves : List (Move 1) := .start :: (List.replicate 4 .control ++ List.replicate 9 .route ++
    List.replicate 18 (.work 0))
  have whole : (System.create 1 4 4 feed).toOption.bind (fun start => (start.run moves).map
      (fun s => ((s.engine.shards 0).engines.map Prod.fst, (s.engine.shards 0).fills))) =
      some ([1, 2], [⟨8, 7, 100, 2, 3, 1⟩]) := by decide +kernel
  obtain ⟨start, made, rest⟩ := Option.bind_eq_some_iff.mp whole
  obtain ⟨s, reached, facts⟩ := Option.map_eq_some_iff.mp rest
  obtain ⟨routed, split, isolated⟩ := sharded_symbols_isolated (ok_of_toOption made) reached
  exact ⟨start, s, moves, routed, ok_of_toOption made, reached, facts, split, isolated⟩

end ChronoBook
