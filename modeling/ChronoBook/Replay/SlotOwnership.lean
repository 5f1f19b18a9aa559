import ChronoBook.Matching.Refinement
import ChronoBook.Matching.Shard
import ChronoBook.Replay.ReplayEngine

/-! Who owns a slot between messages: the free list or a resting order, and never
both. The books are read as a reader of memory would, along the links. -/

namespace ChronoBook
open Library Linked

def SlabPool.freeSlots (pool : OrderPool) : List Slot :=
  walk (fun slot => FirstWord.word (pool.slab slot)) pool.capacity pool.freeHead

/-- The slots met from the heads of the levels of both sides. -/
def MatchingEngine.restingSlots (engine : MatchingEngine) : List Slot :=
  [Side.BUY, Side.SELL].flatMap (fun side => (engine.book.levels side).entries.flatMap (fun entry =>
    walk (fun slot => (engine.order slot).next) engine.pool.capacity entry.2.head))

def Shard.restingSlots (shard : Shard) : List Slot :=
  shard.engines.flatMap (fun entry => (entry.2.on shard.pool).restingSlots)

/-- The slots of the resting orders are those that are out, no slot is in two places and none is lost. -/
structure SlabPool.Owned (pool : OrderPool) (resting : List Slot) : Prop where
  distinct : resting.Nodup
  allocated : ∀ slot, slot ∈ liveAfter pool.calls ↔ slot ∈ resting
  allocatedCount : pool.allocatedCount = resting.length
  linked : Chained (fun slot => FirstWord.word (pool.slab slot)) pool.freeHead pool.freeSlots
  separate : ∀ slot ∈ pool.freeSlots, slot ∉ resting
  whole : ∀ slot, slot < pool.capacity ↔ slot ∈ pool.freeSlots ∨ slot ∈ resting
  disciplined : Disciplined pool.calls
  exclusive : Exclusive pool.calls

namespace SlabPool.Valid

variable {pool : OrderPool} {free live : List Slot}

theorem freeSlots_eq (valid : pool.Valid free live) : pool.freeSlots = free := by
  have total := valid.cover.length_eq
  rw [List.length_append, List.length_range] at total
  exact valid.chain.walk_eq (by omega)

theorem owned (valid : pool.Valid free live) : pool.Owned live where
  distinct := (List.nodup_append.mp valid.nodup).2.1
  allocated := fun _ => valid.history.mem_iff
  allocatedCount := valid.count
  linked := by
    rw [valid.freeSlots_eq]
    exact valid.chain
  separate := by
    intro slot isFree isLive
    rw [valid.freeSlots_eq] at isFree
    exact valid.disjoint isFree isLive
  whole := by
    intro slot
    rw [valid.freeSlots_eq, ← List.mem_append, valid.cover.mem_iff, List.mem_range]
  disciplined := valid.disciplined
  exclusive := valid.exclusive

theorem full_iff (valid : pool.Valid free live) : free = [] ↔ live.length = pool.capacity := by
  rw [← valid.freeHead_eq_none, valid.freeHead_eq, List.head?_eq_none_iff]

end SlabPool.Valid

theorem MatchingEngine.Sound.restingSlots_eq {engine : MatchingEngine} {queues : Queues} {free others : List Slot}
    (sound : engine.Sound queues free others) : engine.restingSlots = engine.book.slots queues := by
  have oneSide : ∀ side, (engine.book.levels side).entries.flatMap (fun entry =>
      walk (fun slot => (engine.order slot).next) engine.pool.capacity entry.2.head) =
        engine.book.sideSlots queues side := by
    intro side
    unfold OrderBook.sideSlots SortedMap.keys
    rw [List.flatMap_map]
    apply List.flatMap_congr
    intro entry inside
    exact sound.walk_level (SortedMap.find?_of_mem inside)
  unfold restingSlots OrderBook.slots
  rw [List.flatMap_cons, List.flatMap_cons, List.flatMap_nil, List.append_nil, oneSide, oneSide]

theorem MatchingEngine.Idle.owned {engine : MatchingEngine} {queues : Queues} {free : List Slot}
    (idle : engine.Idle queues free []) :
    engine.pool.Owned engine.restingSlots ∧ (free = [] ↔ engine.restingSlots.length = engine.pool.capacity) := by
  have valid := idle.steady.sound.pool
  rw [List.append_nil] at valid
  rw [idle.steady.sound.restingSlots_eq]
  exact ⟨valid.owned, valid.full_iff⟩

theorem Shard.Holds.owned {shard : Shard} {queues : UInt64 → Queues} {free : List Slot} {ladders : UInt64 → Ladder}
    (holds : shard.Holds queues free ladders) :
    shard.pool.Owned shard.restingSlots ∧ (free = [] ↔ shard.restingSlots.length = shard.pool.capacity) := by
  have same : shard.restingSlots = Shard.slotsOf shard.engines queues := by
    apply List.flatMap_congr
    intro entry inside
    exact (holds.idle entry inside).steady.sound.restingSlots_eq
  rw [same]
  exact ⟨holds.pool.owned, holds.pool.full_iff⟩

/-- The next message of a replay: slots are owned before and after it, and an ADD is dropped exactly at a full pool. -/
structure ReplayEngine.Accounted (replay : ReplayEngine) (m : FeedMessage) (replay' : ReplayEngine) : Prop where
  before : replay.engine.pool.Owned replay.engine.restingSlots
  after : replay'.engine.pool.Owned replay'.engine.restingSlots
  dropped : isValidFeedMessage m = true → m.msgType = MsgType.ADD.byte →
    (replay'.stats.droppedAdds = replay.stats.droppedAdds + 1 ↔
      replay.engine.restingSlots.length = replay.engine.pool.capacity)
  unchanged : isValidFeedMessage m = true → m.msgType = MsgType.ADD.byte →
    replay.engine.restingSlots.length = replay.engine.pool.capacity →
      replay' = ⟨replay.engine, { replay.stats.seen m with droppedAdds := replay.stats.droppedAdds + 1 }⟩
  kept : isValidFeedMessage m = true → m.msgType = MsgType.ADD.byte →
    replay.engine.restingSlots.length ≠ replay.engine.pool.capacity →
      replay'.stats.droppedAdds = replay.stats.droppedAdds

structure Shard.Accounted (shard : Shard) (m : FeedMessage) (shard' : Shard) : Prop where
  before : shard.pool.Owned shard.restingSlots
  after : shard'.pool.Owned shard'.restingSlots
  dropped : isValidFeedMessage m = true → m.msgType = MsgType.ADD.byte →
    (shard.pool.allocate m.order = none ↔ shard.restingSlots.length = shard.pool.capacity)
  unchanged : isValidFeedMessage m = true → m.msgType = MsgType.ADD.byte →
    shard.restingSlots.length = shard.pool.capacity → shard.Unchanged shard'

theorem ReplayEngine.accounted {replay : ReplayEngine} {queues : Queues} {free : List Slot}
    (idle : replay.engine.Idle queues free []) (m : FeedMessage) :
    ∃ fills replay' queues' free', replay.applyMessage m = some (fills, replay') ∧
      replay'.engine.Idle queues' free' [] ∧ replay.Accounted m replay' := by
  obtain ⟨fills, replay', queues', free', applied, _, idle', _, add⟩ := applyMessage_spec idle m
  obtain ⟨owned, full⟩ := idle.owned
  refine ⟨fills.length, replay', queues', free', applied, idle', owned, idle'.owned.1, ?_, ?_, ?_⟩
  · intro valid kind
    rw [← full]
    rcases add valid kind with ⟨empty, rfl⟩ | ⟨room, counted⟩
    · exact ⟨fun _ => empty, fun _ => rfl⟩
    · refine ⟨?_, fun empty => absurd empty room⟩
      intro more
      rw [counted] at more
      exact absurd more.symm (by simp)
  · intro valid kind all
    rcases add valid kind with ⟨_, same⟩ | ⟨room, _⟩
    · exact same
    · exact absurd (full.mpr all) room
  · intro valid kind notAll
    rcases add valid kind with ⟨empty, _⟩ | ⟨_, counted⟩
    · exact absurd (full.mp empty) notAll
    · exact counted

theorem Shard.accounted {shard : Shard} {queues : UInt64 → Queues} {free : List Slot} {ladders : UInt64 → Ladder}
    (holds : shard.Holds queues free ladders) (m : FeedMessage) :
    ∃ shard', shard.applyMessage m = some shard' ∧ shard.Accounted m shard' := by
  obtain ⟨owned, full⟩ := holds.owned
  have allocates : shard.pool.allocate m.order = none ↔ shard.restingSlots.length = shard.pool.capacity := by
    rw [← full]
    unfold SlabPool.allocate
    rw [holds.pool.freeHead_eq]
    cases free <;> simp
  rcases holds.applyMessage m with ⟨_, shard', queues', applied, holds', same⟩ |
    ⟨taken, _, shard', queues', free', applied, holds', _, _, _⟩
  · exact ⟨shard', applied, owned, holds'.owned.1, fun _ _ => allocates, fun _ _ _ => same⟩
  · refine ⟨shard', applied, owned, holds'.owned.1, fun _ _ => allocates, ?_⟩
    intro _ kind all
    exact absurd (Or.inr ⟨kind, full.mpr all⟩) taken

/-- In every replay, and in every run of a shard whose engines share one pool, each slot is in the free list or held by
exactly one resting order after every message. -/
theorem slots_owned_always (capacity : Nat) (earlier : List FeedMessage) (m : FeedMessage) (later : List FeedMessage) :
    (∃ replay fills replay' last,
      ({ engine := MatchingEngine.create capacity } : ReplayEngine).applyAll earlier = some replay ∧
      replay.engine.pool.capacity = capacity ∧ replay.applyMessage m = some (fills, replay') ∧
      replay.Accounted m replay' ∧ replay'.applyAll later = some last ∧
      ∀ mode warmup, ({ engine := MatchingEngine.create capacity } : ReplayEngine).run (earlier ++ m :: later) mode
        warmup = some last) ∧
    ∃ shard shard', (Shard.fresh capacity).applyAll earlier = some shard ∧ shard.pool.capacity = capacity ∧
      shard.applyMessage m = some shard' ∧ shard.Accounted m shard' := by
  constructor
  · obtain ⟨replay, queues, free, ran, idle, same⟩ := ReplayEngine.applyAll_spec earlier
      (show ({ engine := MatchingEngine.create capacity } : ReplayEngine).engine.Idle _ _ [] from
        MatchingEngine.Idle.create capacity)
    obtain ⟨fills, replay', queues', free', applied, idle', accounted⟩ := ReplayEngine.accounted idle m
    obtain ⟨last, _, _, rest, _, _⟩ := ReplayEngine.applyAll_spec later idle'
    refine ⟨replay, fills, replay', last, ran, ?_, applied, accounted, rest, ?_⟩
    · rw [same]
      exact MatchingEngine.create_capacity capacity
    · intro mode warmup
      have next : replay.applyAll (m :: later) = some last := by
        change (replay.applyMessage m).bind (fun result => result.2.applyAll later) = _
        rw [applied]
        exact rest
      rw [ReplayEngine.run_eq, ReplayEngine.applyAll_append, ran]
      exact next
  · obtain ⟨shard, queues, free, ladders, ran, holds, same⟩ := Shard.Holds.applyAll earlier (Shard.Holds.fresh capacity)
    obtain ⟨shard', applied, accounted⟩ := Shard.accounted holds m
    refine ⟨shard, shard', ran, ?_, applied, accounted⟩
    rw [same]
    exact MatchingEngine.create_capacity capacity

end ChronoBook
