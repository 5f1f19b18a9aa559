import ChronoBook.Matching.SymbolRouting
import ChronoBook.Replay.RecoveryReconciler

/-! What the recovery replay computes: the fills of one pair of priority lists over
the whole feed, whatever the symbols of its messages. The sharded engine keeps a
book for each symbol, so its fills are recovered from each symbol's own messages. -/

namespace ChronoBook

namespace RecoveryReconciler

theorem replayMessages_cons {engine : MatchingEngine} {queues : Queues} {free : List Slot} {m : FeedMessage}
    (idle : engine.Idle queues free []) (valid : isValidFeedMessage m = true) (later : List FeedMessage)
    (room : validAdds (m :: later) ≤ free.length) :
    ∃ engine' queues' free', engine'.Idle queues' free' [] ∧
      engine'.ladder queues' = ((engine.ladder queues).apply m).2 ∧ validAdds later ≤ free'.length ∧
      replayMessages engine (m :: later) =
        (replayMessages engine' later).map (fun fills => ((engine.ladder queues).apply m).1 ++ fills) := by
  rcases idle.steady.dispatch valid with ⟨kind, none, _⟩ | ⟨_, engine', queues', free', result, stepped⟩
  · have invalid := MatchingEngine.Ignored.invalid (Or.inr ⟨kind, none⟩) room
    rw [valid] at invalid
    cases invalid
  · obtain ⟨drained, delivered⟩ := stepped.drain idle valid
    refine ⟨_, queues', free', delivered.idle, delivered.ladder, room_after valid room (delivered.free_length idle), ?_⟩
    rw [replayMessages, if_neg (by simp [valid]), result]
    cases told : MatchingEngine.answer (engine.ladder queues) m with
    | dropped => exact absurd told (MatchingEngine.answer_ne_dropped _ m)
    | missed =>
      dsimp only
      rw [drained]
      cases replayMessages { engine' with fills := [] } later <;> rfl
    | applied =>
      dsimp only
      rw [drained]
      cases replayMessages { engine' with fills := [] } later <;> rfl

theorem replayMessages_run (feed : List FeedMessage) :
    ∀ {engine : MatchingEngine} {queues : Queues} {free : List Slot}, engine.Idle queues free [] →
      (∀ m ∈ feed, isValidFeedMessage m = true) → validAdds feed ≤ free.length →
      replayMessages engine feed = .ok ((engine.ladder queues).run feed).1 := by
  induction feed with
  | nil =>
    intro engine queues free _ _ _
    rfl
  | cons m later ih =>
    intro engine queues free idle valid room
    have first := valid m List.mem_cons_self
    obtain ⟨engine', queues', free', idle', ladder, room', result⟩ := replayMessages_cons idle first later room
    rw [result, ih idle' (fun n inside => valid n (List.mem_cons_of_mem _ inside)) room', ladder, Ladder.run_valid first]
    rfl

/-- A pool that can be made and has room for the feed: the one that the call chooses by itself, or one given. -/
def Roomy (feed : List FeedMessage) (poolCapacity : UInt64) : Prop :=
  poolCapacity.toNat * 48 < 2 ^ 64 ∧ (poolCapacity = 0 ∨ validAdds feed ≤ poolCapacity.toNat)

theorem replayFills_run {feed : List FeedMessage} {poolCapacity : UInt64}
    (valid : ∀ m ∈ feed, isValidFeedMessage m = true) (vector : feed.length ≤ maxSize)
    (roomy : Roomy feed poolCapacity) : replayFills feed poolCapacity = .ok (Ladder.empty.run feed).1 := by
  have few : validAdds feed ≤ feed.length := List.length_filter_le _ _
  have enough : validAdds feed ≤ (List.range (poolSize feed poolCapacity).toNat).reverse.length := by
    rw [List.length_reverse, List.length_range, poolSize_toNat vector]
    split
    · omega
    next given => exact roomy.2.resolve_left given
  unfold replayFills
  rw [construct_poolSize vector, if_pos roomy.1]
  dsimp only
  rw [replayMessages_run feed (MatchingEngine.Idle.create _) valid enough, MatchingEngine.create_ladder]

/-- The fills of one symbol are those of a replay of its own messages. -/
theorem replayFills_symbol {feed : List FeedMessage} {poolCapacity : UInt64}
    (valid : ∀ m ∈ feed, isValidFeedMessage m = true) (vector : feed.length ≤ maxSize) (roomy : Roomy feed poolCapacity)
    (symbol : UInt64) : replayFills (feed.filter (fun m => m.symbolPacked = symbol)) poolCapacity =
      .ok ((emitted (fun _ => Ladder.empty) feed).filter (fun fill => fill.symbolPacked = symbol)) := by
  have fewer : validAdds (feed.filter (fun m => m.symbolPacked = symbol)) ≤ validAdds feed :=
    (List.filter_sublist.filter _).length_le
  rw [replayFills_run (fun m inside => valid m (List.mem_of_mem_filter inside))
      ((List.length_filter_le _ _).trans vector) (roomy.imp_right (Or.imp_right fewer.trans)),
    ← emitted_filter symbol feed Labelled.empty, emitted_run _ (fun m inside => by simpa using (List.mem_filter.mp inside).2)]

end RecoveryReconciler

/-- After the last `stop`, the fills of each symbol in the sharded engine are those of the recovery replay of that
symbol's messages, and a journal of them passes the comparison; with one symbol the whole feed may be replayed. -/
theorem sharded_recovered_by_symbol {n : Nat} [NeZero n] {poolCap poolCapacity ringCap : UInt64}
    {feed : List FeedMessage} (valid : ∀ m ∈ feed, isValidFeedMessage m = true) (vector : feed.length ≤ maxSize)
    (sequenced : feed.Pairwise (fun first second => first.sequence < second.sequence))
    (room : validAdds feed ≤ poolCap.toNat) (roomy : RecoveryReconciler.Roomy feed poolCapacity)
    {before after : List (Move n)} {start s called last : System n}
    (made : System.create n poolCap ringCap feed = .ok start) (reached : start.run before = some s) (routed : s.Routed)
    (runs : s.engine.running = true) (stops : s.step .stop = some called) (ran : called.run after = some last)
    (stopped : last.Stopped) :
    (∀ symbol, ∃ fills, fills = last.engine.collectAllFills.filter (fun fill => fill.symbolPacked = symbol) ∧
      RecoveryReconciler.replayFills (feed.filter (fun m => m.symbolPacked = symbol)) poolCapacity = .ok fills ∧
      RecoveryReconciler.sameFills fills (fills.map Fill.record) = true) ∧
    ((∀ m ∈ feed, ∀ other ∈ feed, m.symbolPacked = other.symbolPacked) →
      RecoveryReconciler.replayFills feed poolCapacity = .ok last.engine.collectAllFills) := by
  rw [System.stopped_fills made reached routed runs stops ran stopped sequenced room]
  constructor
  · intro symbol
    exact ⟨_, rfl, RecoveryReconciler.replayFills_symbol valid vector roomy symbol,
      (RecoveryReconciler.sameFills_iff _ _).mpr rfl⟩
  · intro single
    rw [RecoveryReconciler.replayFills_run valid vector roomy]
    cases feed with
    | nil => rfl
    | cons m later => rw [emitted_run (m :: later) (fun other there => single other there m List.mem_cons_self)]

/-- Two symbols at one price: the sell order and the second buy order are of symbol 1, the first buy order of symbol 2. -/
def mixedFeed : List FeedMessage :=
  [makeAdd 1 1 .SELL .LIMIT 100 5 1, makeAdd 2 2 .BUY .LIMIT 100 5 2, makeAdd 3 3 .BUY .LIMIT 100 2 1]

theorem mixedFeed_run :
    ∃ start s called last : System 1, System.create 1 3 4 mixedFeed = .ok start ∧ start.run handleThree = some s ∧
      s.Routed ∧ s.engine.running = true ∧ s.step .stop = some called ∧ called.run finishOne = some last ∧ last.Stopped ∧
      last.engine.collectAllFills = [⟨3, 1, 100, 2, 3, 1⟩] := by
  have whole : (System.create 1 3 4 mixedFeed).toOption.bind (fun start => (start.run handleThree).bind (fun s =>
      (s.step .stop).bind (fun called => (called.run finishOne).map (fun last =>
        ((s.remaining, s.route, s.engine.running), last.control, last.engine.running,
          (last.engine.shards 0).fills))))) =
      some (([], .idle, true), .idle, false, [⟨3, 1, 100, 2, 3, 1⟩]) := by decide +kernel
  obtain ⟨start, made, rest⟩ := Option.bind_eq_some_iff.mp whole
  obtain ⟨s, reached, rest⟩ := Option.bind_eq_some_iff.mp rest
  obtain ⟨called, stops, rest⟩ := Option.bind_eq_some_iff.mp rest
  obtain ⟨last, ran, facts⟩ := Option.map_eq_some_iff.mp rest
  simp only [Prod.mk.injEq] at facts
  obtain ⟨⟨left, route, runs⟩, control, rests, fills⟩ := facts
  refine ⟨start, s, called, last, ok_of_toOption made, reached, ⟨left, route⟩, runs, stops, ran, ⟨control, rests⟩, ?_⟩
  unfold ShardedEngine.collectAllFills
  rw [show List.finRange 1 = [0] from rfl, List.flatMap_singleton, fills, List.mergeSort_singleton]

theorem sharded_recovered_by_symbol_sample :
    ∃ start last : System 1, System.create 1 3 4 mixedFeed = .ok start ∧
      start.run (handleThree ++ .stop :: finishOne) = some last ∧
      RecoveryReconciler.replayFills (mixedFeed.filter (fun m => m.symbolPacked = 1)) 0 =
        .ok (last.engine.collectAllFills.filter (fun fill => fill.symbolPacked = 1)) := by
  obtain ⟨start, s, called, last, made, reached, routed, runs, stops, ran, stopped, _⟩ := mixedFeed_run
  refine ⟨start, last, made, ?_, ?_⟩
  · rw [System.run_append _ _ reached, System.run, stops, Option.bind_some, ran]
  · obtain ⟨fills, same, replayed, _⟩ := (sharded_recovered_by_symbol (by decide) (by decide) (by decide) (by decide)
      ⟨by decide, Or.inl rfl⟩ made reached routed runs stops ran stopped).1 1
    rw [replayed, same]

/-- On the mixed feed the replay trades the buy order of symbol 2 with the sell order of symbol 1. -/
theorem sharded_recovery_crosses :
    (∃ start s called last : System 1, System.create 1 3 4 mixedFeed = .ok start ∧ start.run handleThree = some s ∧
      s.Routed ∧ s.engine.running = true ∧ s.step .stop = some called ∧ called.run finishOne = some last ∧ last.Stopped ∧
      last.engine.collectAllFills = [⟨3, 1, 100, 2, 3, 1⟩]) ∧
    (∀ m ∈ mixedFeed, isValidFeedMessage m = true) ∧
    mixedFeed.Pairwise (fun first second => first.sequence < second.sequence) ∧ validAdds mixedFeed ≤ 3 ∧
    RecoveryReconciler.replayFills mixedFeed 0 = .ok [⟨2, 1, 100, 5, 2, 2⟩] := by
  refine ⟨mixedFeed_run, by decide, by decide, by decide, ?_⟩
  rw [RecoveryReconciler.replayFills_run (by decide) (by decide) ⟨by decide, Or.inl rfl⟩]
  decide

end ChronoBook
