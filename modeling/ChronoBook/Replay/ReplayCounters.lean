import ChronoBook.Replay.ReplayEngine

/-! The counters of a replay. What a message adds to them depends on the engine that
it meets and not on the counters, so runs over consecutive parts of a feed add up to
the run over the whole, and every counter is the number of messages of some kind. -/

namespace ChronoBook
open MatchingEngine

def FeedMessage.accepted (m : FeedMessage) (kind : MsgType) : Bool :=
  isValidFeedMessage m && decide (m.msgType = kind.byte)

/-- An ADD for which the pool has no slot left. -/
def meetsFullPool (engine : MatchingEngine) (m : FeedMessage) : Bool :=
  m.accepted .ADD && decide (engine.pool.freeCount = 0)

/-- A CANCEL or MODIFY of an id that does not rest. -/
def namesNoOrder (engine : MatchingEngine) (m : FeedMessage) : Bool :=
  (m.accepted .CANCEL || m.accepted .MODIFY) && !engine.book.containsOrder m.orderId

/-- The messages of a feed, each with the engine as it meets it. -/
def MatchingEngine.encounters (engine : MatchingEngine) : List FeedMessage → List (MatchingEngine × FeedMessage)
  | [] => []
  | m :: later => (engine, m) :: (engine.deliver m).elim [] (fun result => result.2.encounters later)

def Fill.volume (fills : List Fill) : Nat := (fills.map (fun fill => fill.qty.toNat)).sum

namespace ReplayStats

def plus (first second : ReplayStats) : ReplayStats where
  messages := first.messages + second.messages
  adds := first.adds + second.adds
  cancels := first.cancels + second.cancels
  modifies := first.modifies + second.modifies
  cancelMisses := first.cancelMisses + second.cancelMisses
  invalidMessages := first.invalidMessages + second.invalidMessages
  droppedAdds := first.droppedAdds + second.droppedAdds
  fills := first.fills + second.fills
  matchedVolume := first.matchedVolume + second.matchedVolume

instance : Add ReplayStats := ⟨plus⟩

instance : Zero ReplayStats := ⟨{}⟩

attribute [ext] ReplayStats

theorem add_assoc (first second third : ReplayStats) : first + second + third = first + (second + third) := by
  apply ReplayStats.ext <;> exact UInt64.add_assoc ..

theorem add_zero (stats : ReplayStats) : stats + 0 = stats := by
  apply ReplayStats.ext <;> exact UInt64.add_zero _

theorem zero_add (stats : ReplayStats) : 0 + stats = stats := by
  apply ReplayStats.ext <;> exact UInt64.zero_add _

theorem seen_add (stats : ReplayStats) (m : FeedMessage) : stats.seen m = stats + (0 : ReplayStats).seen m := by
  unfold seen
  dsimp only
  split
  · apply ReplayStats.ext <;> first | rfl | exact (UInt64.add_zero _).symm
  split <;> apply ReplayStats.ext <;> first | rfl | exact (UInt64.add_zero _).symm

theorem volume_foldl (fills : List Fill) (volume : UInt64) :
    fills.foldl (fun volume fill => volume + fill.qty.toUInt64) volume = volume + UInt64.ofNat (Fill.volume fills) := by
  induction fills generalizing volume with
  | nil => exact (UInt64.add_zero volume).symm
  | cons fill rest ih =>
    rw [List.foldl_cons, ih, UInt64.add_assoc, ← UInt64.ofNat_uInt32ToNat, ← UInt64.ofNat_add]
    rfl

theorem drained_eq (stats : ReplayStats) (batch : List Fill) : stats.drained batch =
    stats + { fills := UInt64.ofNat batch.length, matchedVolume := UInt64.ofNat (Fill.volume batch) } := by
  unfold drained
  rw [volume_foldl]
  apply ReplayStats.ext <;> first | rfl | exact (UInt64.add_zero _).symm

def change (engine : MatchingEngine) (m : FeedMessage) (batch : List Fill) : ReplayStats where
  messages := (isValidFeedMessage m).toUInt64
  adds := (m.accepted .ADD).toUInt64
  cancels := (m.accepted .CANCEL).toUInt64
  modifies := (m.accepted .MODIFY).toUInt64
  cancelMisses := (namesNoOrder engine m).toUInt64
  invalidMessages := (!isValidFeedMessage m).toUInt64
  droppedAdds := (meetsFullPool engine m).toUInt64
  fills := UInt64.ofNat batch.length
  matchedVolume := UInt64.ofNat (Fill.volume batch)

/-- The numbers of encounters of each kind, and of the fills. -/
def tally (met : List (MatchingEngine × FeedMessage)) (fills : List Fill) : ReplayStats where
  messages := UInt64.ofNat (met.countP (fun encounter => isValidFeedMessage encounter.2))
  adds := UInt64.ofNat (met.countP (fun encounter => encounter.2.accepted .ADD))
  cancels := UInt64.ofNat (met.countP (fun encounter => encounter.2.accepted .CANCEL))
  modifies := UInt64.ofNat (met.countP (fun encounter => encounter.2.accepted .MODIFY))
  cancelMisses := UInt64.ofNat (met.countP (fun encounter => namesNoOrder encounter.1 encounter.2))
  invalidMessages := UInt64.ofNat (met.countP (fun encounter => !isValidFeedMessage encounter.2))
  droppedAdds := UInt64.ofNat (met.countP (fun encounter => meetsFullPool encounter.1 encounter.2))
  fills := UInt64.ofNat fills.length
  matchedVolume := UInt64.ofNat (Fill.volume fills)

theorem ofNat_countP_cons {α : Type} (counts : α → Bool) (first : α) (rest : List α) :
    UInt64.ofNat ((first :: rest).countP counts) = (counts first).toUInt64 + UInt64.ofNat (rest.countP counts) := by
  rw [List.countP_cons, UInt64.ofNat_add, UInt64.add_comm]
  cases counts first <;> rfl

theorem tally_cons (engine : MatchingEngine) (m : FeedMessage) (met : List (MatchingEngine × FeedMessage))
    (batch fills : List Fill) :
    tally ((engine, m) :: met) (batch ++ fills) = change engine m batch + tally met fills := by
  have count : UInt64.ofNat (batch ++ fills).length = UInt64.ofNat batch.length + UInt64.ofNat fills.length := by
    rw [List.length_append, UInt64.ofNat_add]
  have volume : UInt64.ofNat (Fill.volume (batch ++ fills)) =
      UInt64.ofNat (Fill.volume batch) + UInt64.ofNat (Fill.volume fills) := by
    rw [Fill.volume, List.map_append, List.sum_append, UInt64.ofNat_add]
    rfl
  apply ReplayStats.ext
  case fills => exact count
  case matchedVolume => exact volume
  all_goals exact ofNat_countP_cons _ _ _

theorem seen_valid {m : FeedMessage} (valid : isValidFeedMessage m = true) (stats : ReplayStats) : stats.seen m =
    stats + { messages := 1, adds := (m.accepted .ADD).toUInt64, cancels := (m.accepted .CANCEL).toUInt64,
              modifies := (m.accepted .MODIFY).toUInt64 } := by
  rw [seen_add]
  congr 1
  unfold seen FeedMessage.accepted
  rw [valid]
  cases accepted_of_valid valid with
  | add kind _ _ => rw [kind]; rfl
  | cancel kind => rw [kind]; rfl
  | modify kind _ _ => rw [kind]; rfl

theorem missed_eq (stats : ReplayStats) (count : UInt64) :
    { stats with cancelMisses := stats.cancelMisses + count } = stats + { cancelMisses := count } := by
  apply ReplayStats.ext <;> first | rfl | exact (UInt64.add_zero _).symm

theorem dropped_eq (stats : ReplayStats) (count : UInt64) :
    { stats with droppedAdds := stats.droppedAdds + count } = stats + { droppedAdds := count } := by
  apply ReplayStats.ext <;> first | rfl | exact (UInt64.add_zero _).symm

theorem invalid_eq (stats : ReplayStats) (count : UInt64) :
    { stats with invalidMessages := stats.invalidMessages + count } = stats + { invalidMessages := count } := by
  apply ReplayStats.ext <;> first | rfl | exact (UInt64.add_zero _).symm

/-- A valid message adds to the counters of its kind, and then to those of what came of it. -/
theorem change_valid {engine : MatchingEngine} {m : FeedMessage} (valid : isValidFeedMessage m = true)
    (batch : List Fill) : change engine m batch =
      { messages := 1, adds := (m.accepted .ADD).toUInt64, cancels := (m.accepted .CANCEL).toUInt64,
        modifies := (m.accepted .MODIFY).toUInt64 } +
      ({ cancelMisses := (namesNoOrder engine m).toUInt64 } +
      ({ droppedAdds := (meetsFullPool engine m).toUInt64 } +
      { fills := UInt64.ofNat batch.length, matchedVolume := UInt64.ofNat (Fill.volume batch) })) := by
  change _ = plus _ (plus _ (plus _ _))
  have one : (true).toUInt64 = 1 := rfl
  have none : (false).toUInt64 = 0 := rfl
  simp [change, plus, valid, one, none]

theorem change_invalid {engine : MatchingEngine} {m : FeedMessage} (invalid : isValidFeedMessage m = false) :
    change engine m [] = { invalidMessages := 1 } := by
  unfold change namesNoOrder meetsFullPool FeedMessage.accepted
  rw [invalid]
  rfl

end ReplayStats

namespace ReplayEngine
open ReplayStats

variable {engine : MatchingEngine} {queues : Queues} {free : List Slot} {m : FeedMessage}

theorem answer_eq (idle : engine.Idle queues free []) (valid : isValidFeedMessage m = true) :
    answer (engine.ladder queues) m = if namesNoOrder engine m then .missed else .applied := by
  have absent : engine.book.orderMap m.orderId = none ↔ (engine.ladder queues).find? m.orderId = none :=
    idle.steady.sound.orderMap_eq_none
  have resting : m.msgType ≠ MsgType.ADD.byte → namesNoOrder engine m = !engine.book.containsOrder m.orderId →
      answer (engine.ladder queues) m = if namesNoOrder engine m then .missed else .applied := by
    intro notAdd names
    unfold answer
    rw [if_neg notAdd, names, OrderBook.containsOrder]
    by_cases none : engine.book.orderMap m.orderId = none
    · rw [if_pos (absent.mp none), none]
      rfl
    · rw [if_neg (fun found => none (absent.mpr found)), Option.isSome_iff_ne_none.mpr none]
      rfl
  unfold namesNoOrder FeedMessage.accepted at resting ⊢
  rw [valid] at resting ⊢
  cases accepted_of_valid valid with
  | add kind _ _ =>
    unfold answer
    rw [if_pos kind, kind]
    rfl
  | cancel kind =>
    rw [kind] at resting ⊢
    exact resting (by decide) rfl
  | modify kind _ _ =>
    rw [kind] at resting ⊢
    exact resting (by decide) rfl

theorem applyMessage_taken {stats : ReplayStats} {engine' : MatchingEngine} {missed : Bool}
    (valid : isValidFeedMessage m = true)
    (result : engine.dispatch m = some (if missed then .missed else .applied, engine')) :
    applyMessage ⟨engine, stats⟩ m = some (engine'.drainFills.1.length, ⟨engine'.drainFills.2,
      (stats.seen m + { cancelMisses := missed.toUInt64 }).drained engine'.drainFills.1⟩) := by
  unfold applyMessage
  rw [if_neg (by simp [valid])]
  cases missed with
  | false =>
    simp only [result]
    rw [show ({ cancelMisses := false.toUInt64 } : ReplayStats) = 0 from rfl, ReplayStats.add_zero]
    rfl
  | true =>
    simp only [result]
    rw [← missed_eq]
    rfl

theorem applyMessage_counts (idle : engine.Idle queues free []) (m : FeedMessage) :
    ∃ batch engine' queues' free', engine.deliver m = some (batch, engine') ∧ engine'.Idle queues' free' [] ∧
      ∀ stats, applyMessage ⟨engine, stats⟩ m = some (batch.length, ⟨engine', stats + change engine m batch⟩) := by
  by_cases valid : isValidFeedMessage m = true
  · have delivered : engine.deliver m =
        (engine.dispatch m).map (fun outcome => outcome.2.drainFills) := if_pos valid
    have count := idle.steady.sound.pool.freeCount_eq
    rcases idle.steady.dispatch valid with ⟨kind, empty, result⟩ | ⟨room, engine', queues', free', result, stepped⟩
    · have full : meetsFullPool engine m = true := by
        unfold meetsFullPool FeedMessage.accepted
        rw [valid, kind, count, empty]
        rfl
      have names : namesNoOrder engine m = false := by
        unfold namesNoOrder FeedMessage.accepted
        rw [valid, kind]
        rfl
      refine ⟨[], engine, queues, free, ?_, idle, ?_⟩
      · rw [delivered, result, Option.map_some, idle.drain]
      · intro stats
        rw [applyMessage_dropped valid result, change_valid valid, full, names, dropped_eq, seen_valid valid,
          ReplayStats.add_assoc]
        rfl
    · have roomy : meetsFullPool engine m = false := by
        unfold meetsFullPool FeedMessage.accepted
        rw [valid, count]
        by_cases kind : m.msgType = MsgType.ADD.byte
        · simp [room kind]
        · simp [kind]
      obtain ⟨drained, done⟩ := stepped.drain idle valid
      rw [answer_eq idle valid] at result
      refine ⟨((engine.ladder queues).apply m).1, _, queues', free', ?_, done.idle, ?_⟩
      · rw [delivered, result, Option.map_some, drained]
      · intro stats
        have none : ({ droppedAdds := false.toUInt64 } : ReplayStats) = 0 := rfl
        rw [applyMessage_taken valid result, drained, change_valid valid, roomy, none, seen_valid valid, drained_eq,
          ReplayStats.add_assoc, ReplayStats.add_assoc, ReplayStats.zero_add]
  · have invalid := Bool.eq_false_of_not_eq_true valid
    refine ⟨[], engine, queues, free, if_neg valid, idle, ?_⟩
    intro stats
    rw [applyMessage_invalid invalid, change_invalid invalid, ← invalid_eq]
    rfl

theorem encounters_cons (m : FeedMessage) (later : List FeedMessage) {batch : List Fill} {engine' : MatchingEngine}
    (first : engine.deliver m = some (batch, engine')) :
    engine.encounters (m :: later) = (engine, m) :: engine'.encounters later := by
  rw [encounters, first]
  rfl

theorem applyAll_counts (feed : List FeedMessage) :
    ∀ {engine : MatchingEngine} {queues : Queues} {free : List Slot}, engine.Idle queues free [] →
      ∃ fills engine' queues' free', engine.feed feed = some (fills, engine') ∧ engine'.Idle queues' free' [] ∧
        (engine.encounters feed).map Prod.snd = feed ∧
        ∀ stats, applyAll ⟨engine, stats⟩ feed = some ⟨engine', stats + tally (engine.encounters feed) fills⟩ := by
  induction feed with
  | nil =>
    intro engine queues free idle
    refine ⟨[], engine, queues, free, rfl, idle, rfl, ?_⟩
    intro stats
    exact congrArg (fun stats => some (ReplayEngine.mk engine stats)) (ReplayStats.add_zero stats).symm
  | cons m later ih =>
    intro engine queues free idle
    obtain ⟨batch, engine₁, queues₁, free₁, delivered, idle₁, applied⟩ := applyMessage_counts idle m
    obtain ⟨fills, engine', queues', free', ran, idle', met, rest⟩ := ih idle₁
    have encounters := encounters_cons m later delivered
    refine ⟨batch ++ fills, engine', queues', free', ?_, idle', ?_, ?_⟩
    · rw [feed_cons engine m later delivered, ran]
      rfl
    · rw [encounters, List.map_cons, met]
    · intro stats
      change (applyMessage ⟨engine, stats⟩ m).bind (fun result => result.2.applyAll later) = _
      rw [applied, Option.bind_some, rest, encounters, tally_cons, ReplayStats.add_assoc]

/-- The fills that `applyMessage` drains; it returns before that for an invalid message and for a dropped one. -/
def scratch (replay : ReplayEngine) (m : FeedMessage) : List Fill :=
  if !isValidFeedMessage m then []
  else
    match replay.engine.dispatch m with
    | none => []
    | some (.dropped, _) => []
    | some (_, engine) => engine.drainFills.1

/-- The fills drained by a run, one message after the other. -/
def drainedBy (replay : ReplayEngine) : List FeedMessage → List Fill
  | [] => []
  | m :: later => replay.scratch m ++ (replay.applyMessage m).elim [] (fun result => result.2.drainedBy later)

theorem scratch_eq (idle : engine.Idle queues free []) {m : FeedMessage} {batch : List Fill} {engine' : MatchingEngine}
    (delivered : engine.deliver m = some (batch, engine')) (stats : ReplayStats) :
    scratch ⟨engine, stats⟩ m = batch := by
  unfold MatchingEngine.deliver at delivered
  unfold scratch
  by_cases valid : isValidFeedMessage m = true
  · rw [if_neg (by simp [valid])]
    rw [if_pos valid] at delivered
    obtain ⟨⟨handling, after⟩, result, drained⟩ := Option.map_eq_some_iff.mp delivered
    dsimp only at drained ⊢
    rw [result]
    cases handling with
    | dropped =>
      rcases idle.steady.dispatch valid with ⟨_, _, same⟩ | ⟨_, _, _, _, other, _⟩
      · rw [result] at same
        cases same
        rw [idle.drain] at drained
        cases drained
        rfl
      · rw [result] at other
        have told := congrArg Prod.fst (Option.some.inj other)
        exact absurd told.symm (answer_ne_dropped _ m)
    | missed => exact congrArg Prod.fst drained
    | applied => exact congrArg Prod.fst drained
  · rw [if_pos (by simp [valid])]
    rw [if_neg valid] at delivered
    cases delivered
    rfl

theorem drainedBy_eq (feed : List FeedMessage) :
    ∀ {engine last : MatchingEngine} {queues : Queues} {free : List Slot} {fills : List Fill},
      engine.Idle queues free [] → engine.feed feed = some (fills, last) →
      ∀ stats, drainedBy ⟨engine, stats⟩ feed = fills := by
  induction feed with
  | nil =>
    intro engine last queues free fills _ ran stats
    cases ran
    rfl
  | cons m later ih =>
    intro engine last queues free fills idle ran stats
    obtain ⟨batch, engine₁, queues₁, free₁, delivered, idle₁, applied⟩ := applyMessage_counts idle m
    rw [feed_cons engine m later delivered] at ran
    obtain ⟨⟨tail, last₁⟩, rest, same⟩ := Option.map_eq_some_iff.mp ran
    cases same
    rw [drainedBy, applied, Option.elim_some, scratch_eq idle delivered, ih idle₁ rest]

end ReplayEngine

end ChronoBook
