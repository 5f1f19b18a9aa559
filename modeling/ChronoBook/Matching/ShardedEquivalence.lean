import Mathlib.Algebra.BigOperators.Fin
import ChronoBook.Matching.ShardedStop

/-! The sharded engine against sequential matching. Whatever the schedule, after the
last `stop` the fills of all shards in timestamp order are those of one independent
engine for each symbol that handle the feed one message after the other. -/

namespace ChronoBook
open Library

theorem emitted_filter (symbol : UInt64) (feed : List FeedMessage) {ladders : UInt64 → Ladder}
    (labelled : Labelled ladders) :
    emitted ladders (feed.filter (fun m => m.symbolPacked = symbol)) =
      (emitted ladders feed).filter (fun fill => fill.symbolPacked = symbol) := by
  have stamped := trace_stamped feed labelled
  unfold emitted
  rw [trace_filter (fun other => decide (other = symbol)) feed (fun _ _ => rfl)]
  generalize trace ladders feed = entries at stamped
  induction entries with
  | nil => rfl
  | cons entry rest ih =>
    have rest := ih (fun other there => stamped other (List.mem_cons_of_mem _ there))
    have own := stamped entry List.mem_cons_self
    rw [List.flatMap_cons, List.filter_append, ← rest]
    by_cases here : entry.1.symbolPacked = symbol
    · rw [List.filter_cons_of_pos (by simp [here]), List.flatMap_cons]
      congr 1
      exact (List.filter_eq_self.mpr (fun fill inside => by simp [(own fill inside).2, here])).symm
    · rw [List.filter_cons_of_neg (by simp [here])]
      have none : entry.2.filter (fun fill => fill.symbolPacked = symbol) = [] :=
        List.filter_eq_nil_iff.mpr (fun fill inside => by simp [(own fill inside).2, here])
      rw [none, List.nil_append]

namespace ShardedEngine

variable {n : Nat} [NeZero n]

theorem sum_bound_length (feed : List FeedMessage) :
    ((List.finRange n).map (fun i => (System.bound n i feed).length)).sum = feed.length := by
  rw [← Fin.sum_univ_def]
  induction feed with
  | nil => simp [System.bound]
  | cons m later ih =>
    have each : ∀ i, (System.bound n i (m :: later)).length =
        (if shardIndex n m.symbolPacked = i then 1 else 0) + (System.bound n i later).length := by
      intro i
      unfold System.bound
      by_cases home : shardIndex n m.symbolPacked = i
      · rw [List.filter_cons_of_pos (by simp [home]), if_pos home, List.length_cons, Nat.add_comm]
      · rw [List.filter_cons_of_neg (by simp [home]), if_neg home, Nat.zero_add]
    simp only [each, Finset.sum_add_distrib, ih, Finset.sum_ite_eq, Finset.mem_univ, if_true, List.length_cons]
    omega

theorem collectAllFills_emitted {engine : ShardedEngine n} {feed : List FeedMessage}
    (sequenced : feed.Pairwise (fun first second => first.sequence < second.sequence))
    (fills : ∀ i, (engine.shards i).fills = emitted (fun _ => Ladder.empty) (System.bound n i feed)) :
    engine.collectAllFills = emitted (fun _ => Ladder.empty) feed := by
  have parts : ∀ i, (engine.shards i).fills =
      ((trace (fun _ => Ladder.empty) feed).filter
        (fun entry => shardIndex n entry.1.symbolPacked = i)).flatMap Prod.snd := by
    intro i
    rw [fills i]
    unfold emitted System.bound
    rw [trace_filter (fun symbol => decide (shardIndex n symbol = i)) feed (fun _ _ => rfl)]
  have increasing : (trace (fun _ => Ladder.empty) feed).Pairwise
      (fun first second => first.1.sequence.toNat < second.1.sequence.toNat) := by
    rw [← trace_messages feed (fun _ => Ladder.empty)] at sequenced
    rwa [List.pairwise_map] at sequenced
  have stamped : ∀ entry ∈ trace (fun _ => Ladder.empty) feed, ∀ fill ∈ entry.2,
      fill.timestamp.toNat = entry.1.sequence.toNat :=
    fun entry inside fill own => congrArg UInt64.toNat (trace_stamped feed Labelled.empty entry inside fill own).1
  have le_iff : ∀ a b : Fill,
      (!decide (b.timestamp < a.timestamp)) = true ↔ ¬b.timestamp.toNat < a.timestamp.toNat := by
    intro a b
    rw [← UInt64.lt_iff_toNat_lt]
    simp
  unfold collectAllFills emitted
  simp only [parts]
  exact Priority.mergeSort_parts (List.nodup_finRange n) (fun _ _ => List.mem_finRange _) stamped increasing le_iff

end ShardedEngine

namespace System

variable {n : Nat} [NeZero n] {poolCap : Nat} {feed : List FeedMessage} {s s' : System n}

theorem validAdds_bound (i : Fin n) (feed : List FeedMessage) : validAdds (bound n i feed) ≤ validAdds feed := by
  unfold validAdds bound
  exact (List.filter_sublist.filter _).length_le

theorem Closed.result (closed : s.Closed) (invariant : Invariant poolCap feed s) (stopped : s.Stopped)
    (sequenced : feed.Pairwise (fun first second => first.sequence < second.sequence))
    (room : validAdds feed ≤ poolCap) :
    s.engine.collectAllFills = emitted (fun _ => Ladder.empty) feed ∧ s.engine.totalProcessed = feed.length := by
  have drained := closed.drained invariant stopped
  constructor
  · apply ShardedEngine.collectAllFills_emitted sequenced
    intro i
    have enough : validAdds (bound n i feed) ≤ (List.range poolCap).reverse.length := by
      rw [List.length_reverse, List.length_range]
      exact (validAdds_bound i feed).trans room
    obtain ⟨shard, ran, fills⟩ := (Shard.Holds.fresh poolCap).applyAll_emitted _ enough
    rw [(drained i).1] at ran
    cases ran
    exact fills
  · unfold ShardedEngine.totalProcessed
    simp only [fun i => (drained i).2]
    exact ShardedEngine.sum_bound_length feed

/-- Every message was routed before a call of `stop`, and the engine is stopped after it. -/
theorem Invariant.result (invariant : Invariant poolCap feed s) (routed : s.Routed) (runs : s.engine.running = true)
    {called : System n} (stops : s.step .stop = some called) {after : List (Move n)} (ran : called.run after = some s')
    (stopped : s'.Stopped) (sequenced : feed.Pairwise (fun first second => first.sequence < second.sequence))
    (room : validAdds feed ≤ poolCap) :
    s'.engine.collectAllFills = emitted (fun _ => Ladder.empty) feed ∧ s'.engine.totalProcessed = feed.length := by
  have begun := invariant.step stops
  have closed := (invariant.closed routed runs stops).run after begun ran
  exact closed.result (begun.run after ran) stopped sequenced room

/-- The fills after such a call, whatever the size of the rings: without slots no message would have been routed. -/
theorem stopped_fills {poolCap ringCap : UInt64} {before after : List (Move n)} {start called : System n}
    (made : System.create n poolCap ringCap feed = .ok start) (reached : start.run before = some s) (routed : s.Routed)
    (runs : s.engine.running = true) (stops : s.step .stop = some called) (ran : called.run after = some s')
    (stopped : s'.Stopped) (sequenced : feed.Pairwise (fun first second => first.sequence < second.sequence))
    (room : validAdds feed ≤ poolCap.toNat) : s'.engine.collectAllFills = emitted (fun _ => Ladder.empty) feed := by
  by_cases wrapped : SPSCRingBuffer.nextPowerOfTwo (ringCap + 1) = 0
  · have barren := (Barren.create made wrapped).run before reached
    have nothing : feed = [] := barren.remaining.symm.trans routed.1
    have last := (barren.step stops).run after ran
    apply ShardedEngine.collectAllFills_emitted sequenced
    intro i
    rw [nothing, (last.threads i).shard]
    rfl
  · have invariant := (Invariant.create made wrapped).run before reached
    exact (invariant.result routed runs stops ran stopped sequenced room).1

end System

/-- What independent engines emit when each has room for every order of the feed. -/
theorem handleEach_create {capacity : Nat} {feed : List FeedMessage} (room : validAdds feed ≤ capacity) :
    handleEach (fun _ => MatchingEngine.create capacity) feed = some (emitted (fun _ => Ladder.empty) feed) := by
  have idle := fun _ : UInt64 => MatchingEngine.Idle.create capacity
  rw [handleEach_emitted feed idle (fun _ => by rw [List.length_reverse, List.length_range]; exact room)]
  simp only [MatchingEngine.create_ladder]

/-- The engine can be made, and no schedule makes a thread leave its memory; once every message is routed, a call of
`stop` can return, and whenever the engine has been stopped after that call its fills are those of sequential matching,
symbol by symbol. -/
theorem sharded_matching_sequential (n : Nat) [NeZero n] (poolCap ringCap : UInt64) (feed : List FeedMessage)
    (sequenced : feed.Pairwise (fun first second => first.sequence < second.sequence))
    (buildable : ShardedEngine.Buildable n poolCap ringCap) (room : validAdds feed ≤ poolCap.toNat) :
    ∃ start : System n, System.create n poolCap ringCap feed = .ok start ∧ ∀ before s, start.run before = some s →
      ¬s.Crashed ∧
      ∀ called, s.Routed → s.engine.running = true → s.step .stop = some called →
        (∃ after last, called.run after = some last ∧ last.Stopped) ∧
        ∀ after last, called.run after = some last → last.Stopped → ∀ capacity, validAdds feed ≤ capacity →
          handleEach (fun _ => MatchingEngine.create capacity) feed = some last.engine.collectAllFills ∧
          last.engine.totalProcessed = feed.length ∧
          ∀ symbol,
            handleEach (fun _ => MatchingEngine.create capacity) (feed.filter (fun m => m.symbolPacked = symbol)) =
              some (last.engine.collectAllFills.filter (fun fill => fill.symbolPacked = symbol)) := by
  obtain ⟨start, made⟩ := System.create_ok (n := n) buildable feed
  refine ⟨start, made, fun before s reached => ?_⟩
  have invariant := (System.Invariant.create made buildable.sizable.1).run before reached
  refine ⟨invariant.not_crashed, fun called routed runs stops => ⟨invariant.stops stops, ?_⟩⟩
  intro after last ran stopped capacity enough
  have result := invariant.result routed runs stops ran stopped sequenced room
  refine ⟨?_, result.2, fun symbol => ?_⟩
  · rw [result.1]
    exact handleEach_create enough
  · have fewer : validAdds (feed.filter (fun m => m.symbolPacked = symbol)) ≤ capacity := by
      unfold validAdds at enough ⊢
      exact (List.filter_sublist.filter _).length_le.trans enough
    rw [result.1, handleEach_create fewer, emitted_filter symbol feed Labelled.empty]

/-- A resting order and one that trades with it, in an inbox that holds one message. -/
theorem sharded_matching_sequential_sample :
    let feed := [makeAdd 1 1 .BUY .LIMIT 100 5 0, makeAdd 2 2 .SELL .LIMIT 100 3 0]
    ∃ (start s called last : System 2) (before after : List (Move 2)), System.create 2 2 1 feed = .ok start ∧
      start.run before = some s ∧ s.Routed ∧ s.engine.running = true ∧ s.step .stop = some called ∧ called.run after = some last ∧ last.Stopped ∧
      handleEach (fun _ => MatchingEngine.create 2) feed = some last.engine.collectAllFills := by
  intro feed
  let before : List (Move 2) := .start :: (List.replicate 6 .control ++ List.replicate 4 .route ++
    List.replicate 6 (.work 0) ++ List.replicate 3 .route)
  let after : List (Move 2) := List.replicate 3 .control ++ List.replicate 10 (.work 0) ++ [.control] ++
    List.replicate 3 (.work 1) ++ List.replicate 3 .control
  have whole : (System.create 2 2 1 feed).toOption.bind (fun start => (start.run before).bind (fun s =>
      (s.step .stop).bind (fun called => (called.run after).map (fun last =>
        (s.remaining, s.route, s.engine.running, last.control, last.engine.running))))) =
      some ([], .idle, true, .idle, false) := by decide +kernel
  obtain ⟨start, made, rest⟩ := Option.bind_eq_some_iff.mp whole
  obtain ⟨s, reached, rest⟩ := Option.bind_eq_some_iff.mp rest
  obtain ⟨called, stops, rest⟩ := Option.bind_eq_some_iff.mp rest
  obtain ⟨last, ran, facts⟩ := Option.map_eq_some_iff.mp rest
  simp only [Prod.mk.injEq] at facts
  obtain ⟨left, route, runs, control, rests⟩ := facts
  obtain ⟨start', made', holds⟩ := sharded_matching_sequential 2 2 1 feed (by decide)
    ⟨by decide, by decide, by decide⟩ (by decide)
  rw [ok_of_toOption made] at made'
  cases made'
  have result := (holds before s reached).2 called ⟨left, route⟩ runs stops
  exact ⟨start, s, called, last, before, after, ok_of_toOption made, reached, ⟨left, route⟩, runs, stops, ran,
    ⟨control, rests⟩, (result.2 after last ran ⟨control, rests⟩ 2 (by decide)).1⟩

/-- A ring of capacity 2^63 has no slots: the first message routed to it is written outside of the vector. -/
theorem sharded_ring_overflow :
    (System.create 1 1 9223372036854775808 [makeAdd 1 1 .BUY .LIMIT 100 5 0]).toOption.bind
      (fun start => (start.run [.start, .route, .route]).map (fun s => s.route)) = some .crashed := by
  decide +kernel

end ChronoBook
