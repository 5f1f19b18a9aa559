import ChronoBook.Matching.FeedRun

/-! The replay driver: one thread, messages in feed order, counters on the side.
The trackers that only read the book between messages have a module of their own. -/

namespace ChronoBook

structure ReplayStats where
  messages : UInt64 := 0
  adds : UInt64 := 0
  cancels : UInt64 := 0
  modifies : UInt64 := 0
  cancelMisses : UInt64 := 0
  invalidMessages : UInt64 := 0
  droppedAdds : UInt64 := 0
  fills : UInt64 := 0
  matchedVolume : UInt64 := 0
  deriving DecidableEq, Repr

inductive ReplayMode where
  | NORMAL
  | MAX
  deriving DecidableEq, Repr

/-- The counters before the engine is called for a valid message. -/
def ReplayStats.seen (stats : ReplayStats) (m : FeedMessage) : ReplayStats :=
  let stats := { stats with messages := stats.messages + 1 }
  if m.msgType = MsgType.ADD.byte then { stats with adds := stats.adds + 1 }
  else if m.msgType = MsgType.CANCEL.byte then { stats with cancels := stats.cancels + 1 }
  else { stats with modifies := stats.modifies + 1 }

def ReplayStats.drained (stats : ReplayStats) (scratch : List Fill) : ReplayStats :=
  { stats with
    fills := stats.fills + UInt64.ofNat scratch.length
    matchedVolume := scratch.foldl (fun volume fill => volume + fill.qty.toUInt64) stats.matchedVolume }

structure ReplayEngine where
  engine : MatchingEngine
  stats : ReplayStats := {}

namespace ReplayEngine

/-- One message; the number is that of the fills it produced. -/
def applyMessage (replay : ReplayEngine) (m : FeedMessage) : Option (Nat × ReplayEngine) :=
  let stats := replay.stats
  if !isValidFeedMessage m then
    some (0, { replay with stats := { stats with invalidMessages := stats.invalidMessages + 1 } })
  else
    let stats := stats.seen m
    match replay.engine.dispatch m with
    | none => none
    | some (.dropped, engine) => some (0, ⟨engine, { stats with droppedAdds := stats.droppedAdds + 1 }⟩)
    | some (.missed, engine) =>
        let stats := { stats with cancelMisses := stats.cancelMisses + 1 }
        let (scratch, engine) := engine.drainFills
        some (scratch.length, ⟨engine, stats.drained scratch⟩)
    | some (.applied, engine) =>
        let (scratch, engine) := engine.drainFills
        some (scratch.length, ⟨engine, stats.drained scratch⟩)

def applyAll (replay : ReplayEngine) : List FeedMessage → Option ReplayEngine
  | [] => some replay
  | m :: later => do
      let (_, replay) ← replay.applyMessage m
      replay.applyAll later

/-- In MAX mode the leading messages are applied by a loop of their own. -/
def run (replay : ReplayEngine) (feed : List FeedMessage) (mode : ReplayMode) (warmup : Nat) : Option ReplayEngine :=
  match mode with
  | .MAX => do
      let replay ← replay.applyAll (feed.take warmup)
      replay.applyAll (feed.drop warmup)
  | .NORMAL => replay.applyAll feed

open MatchingEngine

variable {replay : ReplayEngine} {queues : Queues} {free : List Slot}

theorem applyAll_append (replay : ReplayEngine) (earlier later : List FeedMessage) :
    replay.applyAll (earlier ++ later) = (replay.applyAll earlier).bind (fun replay => replay.applyAll later) := by
  induction earlier generalizing replay with
  | nil => rfl
  | cons m rest ih =>
    change (replay.applyMessage m).bind (fun result => result.2.applyAll (rest ++ later)) =
      ((replay.applyMessage m).bind (fun result => result.2.applyAll rest)).bind _
    cases replay.applyMessage m with
    | none => rfl
    | some result => exact ih result.2

/-- The two loops of a MAX run are one pass over the feed. -/
theorem run_eq (replay : ReplayEngine) (feed : List FeedMessage) (mode : ReplayMode) (warmup : Nat) :
    replay.run feed mode warmup = replay.applyAll feed := by
  cases mode with
  | NORMAL => rfl
  | MAX =>
    have joined := applyAll_append replay (feed.take warmup) (feed.drop warmup)
    rw [List.take_append_drop] at joined
    exact joined.symm

theorem applyMessage_invalid {m : FeedMessage} (invalid : isValidFeedMessage m = false) :
    replay.applyMessage m = some (0, { replay with
      stats := { replay.stats with invalidMessages := replay.stats.invalidMessages + 1 } }) := by
  unfold applyMessage
  rw [if_pos (by simp [invalid])]

theorem applyMessage_dropped {m : FeedMessage} (valid : isValidFeedMessage m = true) {engine : MatchingEngine}
    (result : replay.engine.dispatch m = some (.dropped, engine)) :
    replay.applyMessage m = some (0, ⟨engine, { replay.stats.seen m with
      droppedAdds := (replay.stats.seen m).droppedAdds + 1 }⟩) := by
  unfold applyMessage
  rw [if_neg (by simp [valid])]
  simp only [result]

theorem seen_droppedAdds (stats : ReplayStats) (m : FeedMessage) : (stats.seen m).droppedAdds = stats.droppedAdds := by
  unfold ReplayStats.seen
  split
  · rfl
  split <;> rfl

theorem applyMessage_handled {m : FeedMessage} (valid : isValidFeedMessage m = true) {handling : Handling}
    {engine : MatchingEngine} (result : replay.engine.dispatch m = some (handling, engine))
    (taken : handling ≠ .dropped) :
    ∃ stats, replay.applyMessage m = some (engine.drainFills.1.length, ⟨engine.drainFills.2, stats⟩) ∧
      stats.droppedAdds = replay.stats.droppedAdds := by
  unfold applyMessage
  rw [if_neg (by simp [valid])]
  cases handling with
  | dropped => exact absurd rfl taken
  | missed =>
    simp only [result]
    exact ⟨_, rfl, seen_droppedAdds replay.stats m⟩
  | applied =>
    simp only [result]
    exact ⟨_, rfl, seen_droppedAdds replay.stats m⟩

theorem applyMessage_spec (idle : replay.engine.Idle queues free []) (m : FeedMessage) :
    ∃ fills replay' queues' free', replay.applyMessage m = some (fills.length, replay') ∧
      replay.engine.deliver m = some (fills, replay'.engine) ∧ replay'.engine.Idle queues' free' [] ∧
      replay'.engine.pool.capacity = replay.engine.pool.capacity ∧
      (isValidFeedMessage m = true → m.msgType = MsgType.ADD.byte →
        (free = [] ∧ replay' = ⟨replay.engine, { replay.stats.seen m with
          droppedAdds := replay.stats.droppedAdds + 1 }⟩) ∨
        (free ≠ [] ∧ replay'.stats.droppedAdds = replay.stats.droppedAdds)) := by
  by_cases valid : isValidFeedMessage m = true
  · have delivered : replay.engine.deliver m =
        (replay.engine.dispatch m).map (fun outcome => outcome.2.drainFills) := if_pos valid
    rcases idle.steady.dispatch valid with ⟨kind, empty, result⟩ | ⟨room, engine', queues', free', result, stepped⟩
    · refine ⟨[], _, queues, free, applyMessage_dropped valid result, ?_, idle, rfl, ?_⟩
      · rw [delivered, result, Option.map_some, idle.drain]
      · intro _ _
        exact Or.inl ⟨empty, by rw [seen_droppedAdds]⟩
    · obtain ⟨drained, done⟩ := stepped.drain idle valid
      obtain ⟨stats, applied, dropped⟩ := applyMessage_handled valid result (answer_ne_dropped _ m)
      rw [drained] at applied
      refine ⟨_, _, queues', free', applied, ?_, done.idle, done.capacity, ?_⟩
      · rw [delivered, result, Option.map_some, drained]
      · intro _ kind
        exact Or.inr ⟨room kind, dropped⟩
  · have invalid := Bool.eq_false_of_not_eq_true valid
    refine ⟨[], _, queues, free, applyMessage_invalid invalid, ?_, idle, rfl, ?_⟩
    · exact if_neg valid
    · intro isValid
      exact absurd isValid valid

theorem applyAll_spec (messages : List FeedMessage) :
    ∀ {replay : ReplayEngine} {queues : Queues} {free : List Slot}, replay.engine.Idle queues free [] →
      ∃ replay' queues' free', replay.applyAll messages = some replay' ∧ replay'.engine.Idle queues' free' [] ∧
        replay'.engine.pool.capacity = replay.engine.pool.capacity := by
  induction messages with
  | nil =>
    intro replay queues free idle
    exact ⟨replay, queues, free, rfl, idle, rfl⟩
  | cons m later ih =>
    intro replay queues free idle
    obtain ⟨fills, replay₁, queues₁, free₁, applied, _, idle₁, capacity₁, _⟩ := applyMessage_spec idle m
    obtain ⟨replay', queues', free', rest, idle', capacity'⟩ := ih idle₁
    refine ⟨replay', queues', free', ?_, idle', capacity'.trans capacity₁⟩
    change (replay.applyMessage m).bind (fun result => result.2.applyAll later) = _
    rw [applied, Option.bind_some, rest]

end ReplayEngine

end ChronoBook
