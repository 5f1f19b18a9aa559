import ChronoBook.Matching.Dispatch

/-! One engine fed message by message and drained after each. -/

namespace ChronoBook
open Library Priority

namespace MatchingEngine

/-- One message of the feed: invalid ones are skipped, the fills of the others are drained. -/
def deliver (engine : MatchingEngine) (m : FeedMessage) : Option (List Fill × MatchingEngine) :=
  if isValidFeedMessage m then (engine.dispatch m).map (fun outcome => outcome.2.drainFills) else some ([], engine)

def feed (engine : MatchingEngine) : List FeedMessage → Option (List Fill × MatchingEngine)
  | [] => some ([], engine)
  | m :: later => do
      let (batch, engine) ← engine.deliver m
      let (fills, engine) ← engine.feed later
      some (batch ++ fills, engine)

structure Idle (engine : MatchingEngine) (queues : Queues) (free others : List Slot) : Prop where
  steady : engine.Steady queues free others
  drained : engine.fills = []

structure Delivered (engine : MatchingEngine) (queues : Queues) (others : List Slot) (m : FeedMessage)
    (engine' : MatchingEngine) (queues' : Queues) (free' : List Slot) : Prop where
  idle : engine'.Idle queues' free' others
  ladder : engine'.ladder queues' = ((engine.ladder queues).apply m).2
  untouched : ∀ other ∈ others, engine'.order other = engine.order other
  capacity : engine'.pool.capacity = engine.pool.capacity
  residual : ∀ taker type, (engine.ladder queues).incoming m = some (taker, type) →
    ¬((((engine.ladder queues).cleared m).swept taker type m.sequence).left ≠ 0 ∧ type = .LIMIT) →
    ∃ slot calls object, engine'.pool.calls = calls ++ [.deallocate slot object] ∧
      object.remainingQty = (((engine.ladder queues).cleared m).swept taker type m.sequence).left

/-- A message without effect: it is invalid, or it is an ADD and no slot is free. -/
def Ignored (m : FeedMessage) (free : List Slot) : Prop :=
  isValidFeedMessage m = false ∨ (m.msgType = MsgType.ADD.byte ∧ free = [])

variable {engine : MatchingEngine} {queues : Queues} {free others : List Slot} {m : FeedMessage}

theorem create_ladder (capacity : Nat) : (MatchingEngine.create capacity).ladder Queues.empty = Ladder.empty := by
  funext side
  cases side <;> rfl

theorem create_capacity (capacity : Nat) : (MatchingEngine.create capacity).pool.capacity = capacity := by
  have cover := (Sound.create capacity).pool.cover.length_eq
  simpa [OrderBook.slots, OrderBook.sideSlots, Queues.empty] using cover.symm

theorem Idle.create (capacity : Nat) :
    (MatchingEngine.create capacity).Idle Queues.empty (List.range capacity).reverse [] := by
  refine ⟨⟨Sound.create capacity, ?_⟩, rfl⟩
  rw [create_ladder]
  exact Ladder.WellFormed.empty

theorem Stepped.drain {engine' : MatchingEngine} {queues' : Queues} {free' : List Slot}
    (stepped : Stepped engine queues others m engine' queues' free') (idle : engine.Idle queues free others)
    (valid : isValidFeedMessage m = true) :
    engine'.drainFills = (((engine.ladder queues).apply m).1, { engine' with fills := [] }) ∧
      Delivered engine queues others m { engine' with fills := [] } queues' free' := by
  have steady := stepped.steady idle.steady.wellFormed valid
  have sound := steady.sound
  refine ⟨?_, ⟨⟨⟨⟨sound.pool, sound.laid, sound.bounded, sound.limit, sound.priced, sound.tallied⟩,
    steady.wellFormed⟩, rfl⟩, stepped.ladder, stepped.untouched, stepped.capacity, stepped.residual⟩⟩
  unfold drainFills
  rw [stepped.fills, idle.drained, List.nil_append]

theorem Idle.drain (idle : engine.Idle queues free others) : engine.drainFills = ([], engine) := by
  unfold drainFills
  rw [idle.drained]
  cases engine
  cases idle.drained
  rfl

theorem Sound.free_length (sound : engine.Sound queues free others) :
    free.length + (engine.ladder queues).orders.length + others.length = engine.pool.capacity := by
  have total := sound.pool.cover.length_eq
  have orders : (engine.ladder queues).orders.length = (engine.book.slots queues).length := by
    unfold Ladder.orders ladder OrderBook.slots
    rw [List.length_append, List.length_append, List.length_map, List.length_map]
  rw [List.length_append, List.length_append, List.length_range] at total
  omega

theorem Delivered.free_length {engine' : MatchingEngine} {queues' : Queues} {free' : List Slot}
    (delivered : Delivered engine queues others m engine' queues' free') (idle : engine.Idle queues free others) :
    free.length ≤ free'.length + (if m.msgType = MsgType.ADD.byte then 1 else 0) := by
  have before := idle.steady.sound.free_length
  have after := delivered.idle.steady.sound.free_length
  have grown := (engine.ladder queues).apply_length m
  rw [delivered.capacity, delivered.ladder] at after
  omega

/-- One message, in every state: ignored, or applied as the priority lists say. -/
theorem Idle.deliver (idle : engine.Idle queues free others) (m : FeedMessage) :
    (Ignored m free ∧ engine.deliver m = some ([], engine)) ∨
      (¬Ignored m free ∧ isValidFeedMessage m = true ∧ ∃ engine' queues' free',
        engine.deliver m = some (((engine.ladder queues).apply m).1, engine') ∧
        Delivered engine queues others m engine' queues' free') := by
  unfold MatchingEngine.deliver
  by_cases valid : isValidFeedMessage m = true
  · rw [if_pos valid]
    rcases idle.steady.dispatch valid with dropped | applied
    · obtain ⟨kind, none, result⟩ := dropped
      refine Or.inl ⟨Or.inr ⟨kind, none⟩, ?_⟩
      rw [result, Option.map_some, idle.drain]
    · obtain ⟨room, engine', queues', free', result, stepped⟩ := applied
      obtain ⟨drained, delivered⟩ := stepped.drain idle valid
      refine Or.inr ⟨?_, valid, _, queues', free', ?_, delivered⟩
      · intro ignored
        rcases ignored with invalid | ⟨kind, none⟩
        · rw [valid] at invalid
          cases invalid
        · exact room kind none
      · rw [result, Option.map_some, drained]
  · rw [if_neg valid]
    exact Or.inl ⟨Or.inl (Bool.eq_false_of_not_eq_true valid), rfl⟩

theorem feed_cons (engine : MatchingEngine) (m : FeedMessage) (later : List FeedMessage) {batch : List Fill}
    {engine' : MatchingEngine} (first : engine.deliver m = some (batch, engine')) :
    engine.feed (m :: later) = (engine'.feed later).map (fun result => (batch ++ result.1, result.2)) := by
  rw [feed, first]
  change (engine'.feed later).bind (fun result => some (batch ++ result.1, result.2)) = _
  cases engine'.feed later <;> rfl

theorem feed_append (engine : MatchingEngine) (earlier later : List FeedMessage) {fills : List Fill}
    {engine' : MatchingEngine} (first : engine.feed earlier = some (fills, engine')) :
    engine.feed (earlier ++ later) = (engine'.feed later).map (fun result => (fills ++ result.1, result.2)) := by
  induction earlier generalizing engine fills with
  | nil =>
    cases first
    simp
  | cons m rest ih =>
    cases delivered : engine.deliver m with
    | none =>
      rw [feed, delivered] at first
      cases first
    | some result =>
      rw [feed_cons engine m rest delivered] at first
      obtain ⟨⟨tail, last⟩, ran, same⟩ := Option.map_eq_some_iff.mp first
      cases same
      rw [List.cons_append, feed_cons engine m (rest ++ later) delivered, ih result.2 ran, Option.map_map]
      congr 1
      funext next
      simp

theorem feed_singleton (engine : MatchingEngine) (m : FeedMessage) : engine.feed [m] = engine.deliver m := by
  cases delivered : engine.deliver m with
  | none =>
    rw [feed, delivered]
    rfl
  | some result =>
    rw [feed_cons engine m [] delivered]
    simp [feed]

def PoolSuffices (engine : MatchingEngine) (messages : List FeedMessage) : Prop :=
  ∀ earlier m later, messages = earlier ++ m :: later → isValidFeedMessage m = true →
    m.msgType = MsgType.ADD.byte → ∀ fills engine', engine.feed earlier = some (fills, engine') →
      engine'.pool.allocate m.order ≠ none

theorem Idle.taken (idle : engine.Idle queues free others) (valid : isValidFeedMessage m = true)
    (room : m.msgType = MsgType.ADD.byte → engine.pool.allocate m.order ≠ none) : ¬Ignored m free := by
  intro ignored
  rcases ignored with invalid | ⟨kind, nothing⟩
  · rw [valid] at invalid
    cases invalid
  · apply room kind
    have empty : engine.pool.freeHead = none := by
      rw [idle.steady.sound.pool.freeHead_eq, nothing]
      rfl
    unfold SlabPool.allocate
    rw [empty]

theorem PoolSuffices.head {later : List FeedMessage} (room : engine.PoolSuffices (m :: later))
    (valid : isValidFeedMessage m = true) (kind : m.msgType = MsgType.ADD.byte) :
    engine.pool.allocate m.order ≠ none :=
  room [] m later rfl valid kind [] engine rfl

theorem PoolSuffices.tail {later : List FeedMessage} (room : engine.PoolSuffices (m :: later))
    {batch : List Fill} {engine' : MatchingEngine} (first : engine.deliver m = some (batch, engine')) :
    engine'.PoolSuffices later := by
  intro earlier n rest split valid kind fills last ran
  apply room (m :: earlier) n rest (by rw [split, List.cons_append]) valid kind (batch ++ fills) last
  rw [feed_cons engine m earlier first, ran]
  rfl

theorem Idle.feed (messages : List FeedMessage) :
    ∀ {engine : MatchingEngine} {queues : Queues} {free : List Slot}, engine.Idle queues free others →
      ∃ fills engine' queues' free', engine.feed messages = some (fills, engine') ∧
        engine'.Idle queues' free' others ∧ engine'.pool.capacity = engine.pool.capacity := by
  induction messages with
  | nil =>
    intro engine queues free idle
    exact ⟨[], engine, queues, free, rfl, idle, rfl⟩
  | cons m later ih =>
    intro engine queues free idle
    rcases idle.deliver m with ⟨_, result⟩ | ⟨_, _, engine₁, queues₁, free₁, result, delivered⟩
    · obtain ⟨fills, engine', queues', free', rest, idle', capacity⟩ := ih idle
      refine ⟨fills, engine', queues', free', ?_, idle', capacity⟩
      rw [feed_cons engine m later result, rest]
      rfl
    · obtain ⟨fills, engine', queues', free', rest, idle', capacity⟩ := ih delivered.idle
      refine ⟨((engine.ladder queues).apply m).1 ++ fills, engine', queues', free', ?_, idle',
        capacity.trans delivered.capacity⟩
      rw [feed_cons engine m later result, rest]
      rfl

theorem Idle.feed_free (messages : List FeedMessage) :
    ∀ {engine : MatchingEngine} {queues : Queues} {free : List Slot} {fills : List Fill} {last : MatchingEngine},
      engine.Idle queues free others → engine.feed messages = some (fills, last) →
      ∃ queues' free', last.Idle queues' free' others ∧
        free.length ≤ free'.length + messages.countP (fun m => m.msgType = MsgType.ADD.byte) := by
  induction messages with
  | nil =>
    intro engine queues free fills last idle ran
    cases ran
    exact ⟨queues, free, idle, Nat.le_refl _⟩
  | cons m later ih =>
    intro engine queues free fills last idle ran
    rw [List.countP_cons]
    rcases idle.deliver m with ⟨_, result⟩ | ⟨_, _, engine₁, queues₁, free₁, result, delivered⟩
    · rw [feed_cons engine m later result] at ran
      obtain ⟨⟨fills₁, last₁⟩, ran₁, same⟩ := Option.map_eq_some_iff.mp ran
      cases same
      obtain ⟨queues', free', idle', bound⟩ := ih idle ran₁
      exact ⟨queues', free', idle', by omega⟩
    · rw [feed_cons engine m later result] at ran
      obtain ⟨⟨fills₁, last₁⟩, ran₁, same⟩ := Option.map_eq_some_iff.mp ran
      cases same
      obtain ⟨queues', free', idle', bound⟩ := ih delivered.idle ran₁
      have taken := delivered.free_length idle
      refine ⟨queues', free', idle', ?_⟩
      by_cases kind : m.msgType = MsgType.ADD.byte
      · rw [if_pos kind] at taken
        simp only [kind, decide_true, if_true]
        omega
      · rw [if_neg kind] at taken
        simp only [kind, decide_false]
        omega

theorem Idle.room (idle : engine.Idle queues free others) {messages : List FeedMessage}
    (enough : messages.countP (fun m => m.msgType = MsgType.ADD.byte) ≤ free.length) : engine.PoolSuffices messages := by
  intro earlier m later split valid kind fills last ran empty
  obtain ⟨queues', free', idle', bound⟩ := Idle.feed_free earlier idle ran
  rw [split, List.countP_append, List.countP_cons, if_pos (by simpa using kind)] at enough
  cases free' with
  | nil =>
    rw [List.length_nil] at bound
    omega
  | cons slot rest =>
    have head := idle'.steady.sound.pool.freeHead_eq
    unfold SlabPool.allocate at empty
    rw [head] at empty
    cases empty

end MatchingEngine

end ChronoBook
