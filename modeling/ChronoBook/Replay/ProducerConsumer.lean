import ChronoBook.Infra.QueueHandoff
import ChronoBook.Replay.ReplayCounters

/-! Replay behind the blocking queue: one thread pushes the feed and closes, the other
pops and replays message by message. -/

namespace ChronoBook
open Library Monitor MatchingEngine

/-- The counters that the consumer adds up. -/
def ReplayStats.summed (stats : ReplayStats) : ReplayStats :=
  { fills := stats.fills, matchedVolume := stats.matchedVolume, messages := stats.messages }

theorem ReplayStats.summed_add (first second : ReplayStats) : (first + second).summed = first.summed + second.summed := by
  apply ReplayStats.ext <;> rfl

namespace ReplayEngine

/-- One turn of the consumer's loop: a run of its own for every message. -/
def consumeMessage (state : ReplayEngine) (m : FeedMessage) : Option ReplayEngine := do
  let replay ← (⟨state.engine, {}⟩ : ReplayEngine).run [m] .NORMAL 0
  some ⟨replay.engine, { state.stats with
    fills := state.stats.fills + replay.stats.fills
    matchedVolume := state.stats.matchedVolume + replay.stats.matchedVolume
    messages := state.stats.messages + replay.stats.messages }⟩

theorem consumeMessage_eq {engine engine' : MatchingEngine} {counters : ReplayStats} {m : FeedMessage}
    (applied : applyAll ⟨engine, 0⟩ [m] = some ⟨engine', counters⟩) (stats : ReplayStats) :
    consumeMessage ⟨engine, stats⟩ m = some ⟨engine', stats + counters.summed⟩ := by
  have replayed : (⟨engine, {}⟩ : ReplayEngine).run [m] .NORMAL 0 = some ⟨engine', counters⟩ := applied
  unfold consumeMessage
  dsimp only
  rw [replayed]
  refine congrArg (fun stats => some (ReplayEngine.mk engine' stats)) ?_
  apply ReplayStats.ext <;> first | rfl | exact (UInt64.add_zero _).symm

theorem consume_all (feed : List FeedMessage) :
    ∀ {engine : MatchingEngine} {queues : Queues} {free : List Slot}, engine.Idle queues free [] →
      ∃ engine' counters, (∀ stats, applyAll ⟨engine, stats⟩ feed = some ⟨engine', stats + counters⟩) ∧
        ∀ stats, feed.foldlM consumeMessage ⟨engine, stats⟩ = some ⟨engine', stats + counters.summed⟩ := by
  induction feed with
  | nil =>
    intro engine queues free idle
    refine ⟨engine, 0, fun stats => ?_, fun stats => ?_⟩ <;>
      exact congrArg (fun stats => some (ReplayEngine.mk engine stats)) (ReplayStats.add_zero stats).symm
  | cons m later ih =>
    intro engine queues free idle
    obtain ⟨fills, engine₁, queues₁, free₁, _, idle₁, _, first⟩ := applyAll_counts [m] idle
    obtain ⟨engine', counters, rest, consumed⟩ := ih idle₁
    refine ⟨engine', ReplayStats.tally (engine.encounters [m]) fills + counters, fun stats => ?_, fun stats => ?_⟩
    · rw [← List.singleton_append, applyAll_append, first, Option.bind_some, rest, ReplayStats.add_assoc]
    · have alone := first 0
      rw [ReplayStats.zero_add] at alone
      rw [List.foldlM_cons, consumeMessage_eq alone]
      change later.foldlM consumeMessage ⟨engine₁, _⟩ = _
      rw [consumed, ReplayStats.summed_add, ReplayStats.add_assoc]

theorem consume_total (capacity : Nat) (done : List FeedMessage) (m : FeedMessage) (state : ReplayEngine)
    (reached : done.foldlM consumeMessage ⟨create capacity, {}⟩ = some state) : (consumeMessage state m).isSome = true := by
  obtain ⟨engine, counters, _, consumed⟩ := consume_all (done ++ [m]) (Idle.create capacity)
  have whole := consumed {}
  rw [List.foldlM_append, reached] at whole
  change [m].foldlM consumeMessage state = _ at whole
  cases last : consumeMessage state m with
  | none =>
    rw [List.foldlM_cons, last] at whole
    cases whole
  | some _ => rfl

/-- The threads, the new queue, and an engine over a pool of this capacity. -/
def handoff (m capacity : Nat) (feed : List FeedMessage) : Handoff m FeedMessage ReplayEngine :=
  Handoff.create m feed ⟨create capacity, {}⟩

/-- In every interleaving of the two threads the consumer has replayed a first part of the feed, with the engine and the
counters of one pass over that part. The threads never block each other for good: when none can go on, the producer has
closed and the consumer has replayed the whole feed. They get there within 18 steps for each message and a few more,
and 4 more for each sleep that ends without a reason. -/
theorem producer_consumer_equiv (m capacity : Nat) (producer consumer : Fin m) (different : producer ≠ consumer)
    (feed : List FeedMessage) (moves : List (HandoffMove m FeedMessage)) (s : Handoff m FeedMessage ReplayEngine)
    (ran : (handoff m capacity feed).run producer consumer consumeMessage moves = some s) :
    (s.applied <+: feed ∧ ∃ counters, (⟨create capacity, {}⟩ : ReplayEngine).run s.applied .NORMAL 0 =
        some ⟨s.state.engine, counters⟩ ∧ s.state.stats = counters.summed) ∧
      (s.finished = true → s.applied = feed) ∧
      (s.Stuck producer consumer consumeMessage →
        s.finished = true ∧ s.queue.threads producer = .running (.returned .close)) ∧
      moves.length ≤ 18 * feed.length + 3 * m + 15 + (moves.map Handoff.charge).sum := by
  have handed := Handoff.Handed.run different ran
  obtain ⟨_, _, placed, fits⟩ := handed.fits
  obtain ⟨_, _, first⟩ := handed.applied
  refine ⟨⟨(List.prefix_append _ _).trans first, ?_⟩, handed.finished, fun stuck => ?_, ?_⟩
  · obtain ⟨engine, counters, replayed, consumed⟩ := consume_all s.applied (Idle.create capacity)
    have state := (consumed 0).symm.trans fits.state
    have replayed := replayed 0
    rw [ReplayStats.zero_add] at state replayed
    rw [← Option.some_inj.mp state]
    exact ⟨counters, replayed, rfl⟩
  · obtain ⟨closed, shut⟩ := handed.producer_stuck stuck
    exact ⟨handed.consumer_stuck (fun done m _ _ => consume_total capacity done m) stuck shut, closed⟩
  · have bound := Handoff.run_pays different ran
    rw [Handoff.create_steps] at bound
    omega

/-- The consumer sleeps when the only message comes, and ends after the queue was closed. -/
def oneMessage (producer consumer : Fin 2) : List (HandoffMove 2 FeedMessage) :=
  [.consume, .inside (.next consumer), .inside (.next consumer), .inside (.next consumer),
    .produce, .inside (.next producer), .inside (.next producer), .inside (.next producer),
    .inside (.signal producer consumer), .inside (.next consumer), .inside (.next consumer), .inside (.next consumer),
    .inside (.next consumer), .inside (.next consumer), .inside (.next consumer), .consume,
    .produce, .inside (.next producer), .inside (.next producer), .inside (.next producer), .inside (.next producer),
    .consume, .inside (.next consumer), .inside (.next consumer), .inside (.next consumer), .inside (.next consumer),
    .consume]

theorem producer_consumer_equiv_oneMessage : ∃ producer consumer s,
    (handoff 2 1 [makeAdd 1 7 .BUY .LIMIT 100 10 0]).run producer consumer consumeMessage (oneMessage producer consumer) =
      some s ∧ s.finished = true ∧ s.applied = [makeAdd 1 7 .BUY .LIMIT 100 10 0] := by
  refine ⟨0, 1, _, rfl, rfl, ?_⟩
  exact (producer_consumer_equiv 2 1 0 1 (by decide) _ (oneMessage 0 1) _ rfl).2.1 rfl

end ReplayEngine

end ChronoBook
