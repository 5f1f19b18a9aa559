import ChronoBook.Core.Failure
import ChronoBook.Library.Welford
import ChronoBook.Replay.ReplayCounters

/-! The trackers of a NORMAL replay. They read the book after every message, whether
the message was accepted or not, and the fill rate also counts the ADDs. -/

namespace ChronoBook
open Library MatchingEngine

/-- Welford's step on machine numbers. -/
structure RunningStats extends Welford.Running Float Float Float where
  n := 0
  mean := 0
  m2 := 0
  minV := 1 / 0
  maxV := -1 / 0

def RunningStats.add (stats : RunningStats) (x : Float) : RunningStats := ⟨stats.toRunning.add UInt64.toFloat id id x⟩

structure SpreadTracker where
  last : UInt32 := 0
  stats : RunningStats := {}

def SpreadTracker.update (tracker : SpreadTracker) (book : OrderBook) : SpreadTracker :=
  let s := book.getSpread
  if book.getBestBid ≠ 0 ∧ book.getBestAsk ≠ 0 then { last := s, stats := tracker.stats.add s.toFloat } else tracker

structure QueueDepthTracker where
  bidQty : UInt64 := 0
  askQty : UInt64 := 0
  depthStats : RunningStats := {}

def QueueDepthTracker.update (tracker : QueueDepthTracker) (book : OrderBook) : QueueDepthTracker :=
  let bidQty := book.getBestBidQty
  let askQty := book.getBestAskQty
  { bidQty := bidQty, askQty := askQty, depthStats := tracker.depthStats.add (bidQty + askQty).toFloat }

structure ImbalanceTracker where
  last : Float := 0
  stats : RunningStats := {}

def ImbalanceTracker.update (tracker : ImbalanceTracker) (book : OrderBook) : ImbalanceTracker :=
  let b := book.getBestBidQty
  let a := book.getBestAskQty
  let denom := b + a
  if denom = 0 then tracker
  else
    let last := (b.toFloat - a.toFloat) / denom.toFloat
    { last := last, stats := tracker.stats.add last }

/-- The ring holds the last `window` outcomes. -/
structure FillRateTracker where
  ring : List UInt8
  window : Nat
  head : Nat := 0
  count : Nat := 0
  windowFilled : UInt64 := 0
  totalOrders : UInt64 := 0
  totalFilled : UInt64 := 0

namespace FillRateTracker

def ofWindow (window : Nat) : FillRateTracker := { ring := List.replicate window 0, window := window }

def create (window : Nat) : Except Failure FillRateTracker := do
  checkLength (maxSizeOf 1) window
  return ofWindow window

theorem create_ok_iff {window : Nat} {tracker : FillRateTracker} :
    create window = .ok tracker ↔ window ≤ maxSizeOf 1 ∧ tracker = ofWindow window := by
  unfold create
  by_cases fits : window ≤ maxSizeOf 1
  · rw [checkLength_ok fits]
    refine ⟨fun made => ?_, fun made => ?_⟩
    · cases made
      exact ⟨fits, rfl⟩
    · rw [made.2]
      rfl
  · rw [checkLength_error (Nat.lt_of_not_le fits)]
    exact ⟨nofun, fun made => absurd made.1 fits⟩

def onOrder (tracker : FillRateTracker) (filled : Bool) : FillRateTracker :=
  let v : UInt8 := if filled then 1 else 0
  { tracker with
    totalOrders := tracker.totalOrders + 1
    totalFilled := if filled then tracker.totalFilled + 1 else tracker.totalFilled
    windowFilled := tracker.windowFilled - (tracker.ring.getD tracker.head 0).toUInt64 + v.toUInt64
    ring := tracker.ring.set tracker.head v
    head := (tracker.head + 1) % tracker.window
    count := if tracker.count < tracker.window then tracker.count + 1 else tracker.count }

end FillRateTracker

structure Analytics where
  spread : SpreadTracker := {}
  fillRate : FillRateTracker := FillRateTracker.ofWindow 1000
  queueDepth : QueueDepthTracker := {}
  imbalance : ImbalanceTracker := {}

example : FillRateTracker.create 1000 = .ok ({} : Analytics).fillRate := rfl

structure Sample where
  book : OrderBook
  m : FeedMessage
  fills : Nat

def Analytics.sample (analytics : Analytics) (shown : Sample) : Analytics where
  spread := analytics.spread.update shown.book
  queueDepth := analytics.queueDepth.update shown.book
  imbalance := analytics.imbalance.update shown.book
  fillRate :=
    if shown.m.msgType = MsgType.ADD.byte then analytics.fillRate.onOrder (decide (shown.fills > 0))
    else analytics.fillRate

namespace ReplayEngine

/-- The loop of a NORMAL run, with the trackers. -/
def runNormal (replay : ReplayEngine) (analytics : Analytics) :
    List FeedMessage → Option (ReplayEngine × Analytics)
  | [] => some (replay, analytics)
  | m :: later => do
      let (fills, replay) ← replay.applyMessage m
      replay.runNormal (analytics.sample ⟨replay.engine.book, m, fills⟩) later

theorem runNormal_replay (replay : ReplayEngine) (analytics : Analytics) (feed : List FeedMessage) :
    (replay.runNormal analytics feed).map Prod.fst = replay.run feed .NORMAL 0 := by
  induction feed generalizing replay analytics with
  | nil => rfl
  | cons m later ih =>
    change ((replay.applyMessage m).bind _).map Prod.fst = (replay.applyMessage m).bind _
    cases replay.applyMessage m with
    | none => rfl
    | some result => exact ih result.2 _

end ReplayEngine

def MatchingEngine.samples (engine : MatchingEngine) : List FeedMessage → List Sample
  | [] => []
  | m :: later => (engine.deliver m).elim []
      (fun result => ⟨result.2.book, m, result.1.length⟩ :: result.2.samples later)

/-- The book that was shown last, or that the feed began with. -/
def MatchingEngine.lastBook (engine : MatchingEngine) (front : List Sample) : OrderBook :=
  (front.getLast?.map Sample.book).getD engine.book

theorem Analytics.foldl_fillRate (shown : List Sample) (analytics : Analytics) :
    (shown.foldl Analytics.sample analytics).fillRate =
      (shown.filter (fun sample => decide (sample.m.msgType = MsgType.ADD.byte))).foldl
        (fun fillRate sample => fillRate.onOrder (decide (sample.fills > 0))) analytics.fillRate := by
  induction shown generalizing analytics with
  | nil => rfl
  | cons sample rest ih =>
    rw [List.foldl_cons, ih, List.filter_cons, Analytics.sample]
    by_cases kind : sample.m.msgType = MsgType.ADD.byte
    · rw [if_pos kind, if_pos (decide_eq_true kind), List.foldl_cons]
    · rw [if_neg kind, if_neg (by simpa using kind)]

namespace ReplayEngine
open ReplayStats

variable {engine : MatchingEngine} {queues : Queues} {free : List Slot} {m : FeedMessage}

theorem samples_cons (m : FeedMessage) (later : List FeedMessage) {batch : List Fill} {engine' : MatchingEngine}
    (first : engine.deliver m = some (batch, engine')) :
    engine.samples (m :: later) = ⟨engine'.book, m, batch.length⟩ :: engine'.samples later := by
  rw [samples, first]
  rfl

theorem deliver_invalid (engine : MatchingEngine) (invalid : isValidFeedMessage m = false) :
    engine.deliver m = some ([], engine) := if_neg (Bool.eq_false_iff.mp invalid)

theorem runNormal_samples (feed : List FeedMessage) :
    ∀ {engine : MatchingEngine} {queues : Queues} {free : List Slot}, engine.Idle queues free [] →
      ∀ stats analytics, runNormal ⟨engine, stats⟩ analytics feed = (applyAll ⟨engine, stats⟩ feed).map
        (fun replay => (replay, (engine.samples feed).foldl Analytics.sample analytics)) := by
  induction feed with
  | nil => exact fun _ _ _ => rfl
  | cons m later ih =>
    intro engine queues free idle stats analytics
    obtain ⟨batch, engine₁, queues₁, free₁, delivered, idle₁, applied⟩ := applyMessage_counts idle m
    change (applyMessage ⟨engine, stats⟩ m).bind _ =
      ((applyMessage ⟨engine, stats⟩ m).bind (fun result => result.2.applyAll later)).map _
    rw [applied, Option.bind_some, Option.bind_some, samples_cons m later delivered, List.foldl_cons]
    exact ih idle₁ _ _

/-- Without its invalid messages a feed gives the same fills, and meets and shows the same at the others. -/
theorem filter_valid (feed : List FeedMessage) :
    ∀ {engine : MatchingEngine} {queues : Queues} {free : List Slot}, engine.Idle queues free [] →
      engine.feed (feed.filter isValidFeedMessage) = engine.feed feed ∧
      engine.encounters (feed.filter isValidFeedMessage) =
        (engine.encounters feed).filter (fun encounter => isValidFeedMessage encounter.2) ∧
      engine.samples (feed.filter isValidFeedMessage) =
        (engine.samples feed).filter (fun sample => isValidFeedMessage sample.m) := by
  induction feed with
  | nil => exact fun _ => ⟨rfl, rfl, rfl⟩
  | cons m later ih =>
    intro engine queues free idle
    by_cases valid : isValidFeedMessage m = true
    · obtain ⟨batch, engine₁, queues₁, free₁, delivered, idle₁, _⟩ := applyMessage_counts idle m
      obtain ⟨fed, met, shown⟩ := ih idle₁
      rw [List.filter_cons_of_pos valid]
      refine ⟨?_, ?_, ?_⟩
      · rw [feed_cons engine m _ delivered, feed_cons engine m _ delivered, fed]
      · rw [encounters_cons m _ delivered, encounters_cons m _ delivered, met]
        rw [List.filter_cons]
        exact (if_pos valid).symm
      · rw [samples_cons m _ delivered, samples_cons m _ delivered, shown]
        rw [List.filter_cons]
        exact (if_pos valid).symm
    · have delivered := deliver_invalid engine (Bool.eq_false_of_not_eq_true valid)
      obtain ⟨fed, met, shown⟩ := ih idle
      rw [List.filter_cons_of_neg valid]
      refine ⟨?_, ?_, ?_⟩
      · rw [feed_cons engine m _ delivered, fed]
        exact Option.map_id'.symm
      · rw [encounters_cons m _ delivered, met]
        rw [List.filter_cons]
        exact (if_neg valid).symm
      · rw [samples_cons m _ delivered, shown]
        rw [List.filter_cons]
        exact (if_neg valid).symm

theorem samples_messages (feed : List FeedMessage) :
    ∀ {engine : MatchingEngine} {queues : Queues} {free : List Slot}, engine.Idle queues free [] →
      (engine.samples feed).map Sample.m = feed := by
  induction feed with
  | nil => exact fun _ => rfl
  | cons m later ih =>
    intro engine queues free idle
    obtain ⟨_, _, _, _, delivered, idle₁, _⟩ := applyMessage_counts idle m
    rw [samples_cons m later delivered, List.map_cons, ih idle₁]

theorem tally_filter (met : List (MatchingEngine × FeedMessage)) (fills : List Fill) :
    tally (met.filter (fun encounter => isValidFeedMessage encounter.2)) fills =
      { tally met fills with invalidMessages := 0 } := by
  have count : ∀ (counts : MatchingEngine × FeedMessage → Bool), (∀ encounter, counts encounter = true →
      isValidFeedMessage encounter.2 = true) → UInt64.ofNat
        ((met.filter (fun encounter => isValidFeedMessage encounter.2)).countP counts) =
        UInt64.ofNat (met.countP counts) := by
    intro counts implies
    rw [List.countP_filter]
    congr 1
    apply List.countP_congr
    intro encounter _
    simpa using implies encounter
  have accepted : ∀ (m : FeedMessage) kind, m.accepted kind = true → isValidFeedMessage m = true := by
    intro m kind
    unfold FeedMessage.accepted
    simp +contextual
  apply ReplayStats.ext
  case messages => exact count _ (fun _ valid => valid)
  case adds => exact count _ (fun encounter => accepted encounter.2 .ADD)
  case cancels => exact count _ (fun encounter => accepted encounter.2 .CANCEL)
  case modifies => exact count _ (fun encounter => accepted encounter.2 .MODIFY)
  case cancelMisses =>
    apply count
    intro encounter names
    rcases Bool.or_eq_true_iff.mp (Bool.and_eq_true_iff.mp names).1 with cancel | modify
    · exact accepted _ _ cancel
    · exact accepted _ _ modify
  case invalidMessages =>
    change UInt64.ofNat _ = 0
    rw [List.countP_eq_zero.mpr]
    · rfl
    · intro encounter kept
      simp [(List.mem_filter.mp kept).2]
  case droppedAdds =>
    apply count
    intro encounter full
    exact accepted _ _ (Bool.and_eq_true_iff.mp full).1
  case fills => rfl
  case matchedVolume => rfl

theorem lastBook_cons (engine engine' : MatchingEngine) (m : FeedMessage) (fills : Nat) (front : List Sample) :
    engine.lastBook (⟨engine'.book, m, fills⟩ :: front) = engine'.lastBook front := by
  unfold lastBook
  rw [List.getLast?_cons]
  cases front.getLast? <;> rfl

/-- After an invalid message the trackers are shown the same book once more. -/
theorem samples_invalid (feed : List FeedMessage) :
    ∀ {engine : MatchingEngine} {queues : Queues} {free : List Slot}, engine.Idle queues free [] →
      ∀ front sample rest, engine.samples feed = front ++ sample :: rest → isValidFeedMessage sample.m = false →
        sample.fills = 0 ∧ sample.book = engine.lastBook front := by
  induction feed with
  | nil =>
    intro engine queues free _ front sample rest split
    cases front <;> cases split
  | cons m later ih =>
    intro engine queues free idle front sample rest split invalid
    obtain ⟨batch, engine₁, queues₁, free₁, delivered, idle₁, _⟩ := applyMessage_counts idle m
    rw [samples_cons m later delivered] at split
    cases front with
    | nil =>
      cases split
      rw [deliver_invalid engine invalid] at delivered
      cases delivered
      exact ⟨rfl, rfl⟩
    | cons first front =>
      obtain ⟨rfl, inside⟩ := List.cons.inj split
      rw [lastBook_cons]
      exact ih idle₁ front sample rest inside invalid

/-- A feed and the same feed without its invalid messages, from the same state and with the same trackers: fills, engine
and pool are the same, and all counters but that of the invalid messages. The trackers are shown the same at the valid
messages; at an invalid one they are shown the last book again. The fill rate is the same if no ADD is invalid. -/
theorem invalid_messages_inert {capacity : Nat} {earlier : List FeedMessage} {before : List Fill}
    (reached : (create capacity).feed earlier = some (before, engine)) (feed : List FeedMessage) (start : Analytics) :
    ∃ engine' fills stats stats' analytics analytics',
      runNormal ⟨engine, {}⟩ start feed = some (⟨engine', stats⟩, analytics) ∧
      runNormal ⟨engine, {}⟩ start (feed.filter isValidFeedMessage) = some (⟨engine', stats'⟩, analytics') ∧
      engine.feed feed = some (fills, engine') ∧
      engine.feed (feed.filter isValidFeedMessage) = some (fills, engine') ∧
      stats' = { stats with invalidMessages := 0 } ∧
      analytics = (engine.samples feed).foldl Analytics.sample start ∧
      analytics' = ((engine.samples feed).filter (fun sample => isValidFeedMessage sample.m)).foldl
        Analytics.sample start ∧
      (∀ front sample rest, engine.samples feed = front ++ sample :: rest → isValidFeedMessage sample.m = false →
        sample.fills = 0 ∧ sample.book = engine.lastBook front) ∧
      ((∀ m ∈ feed, m.msgType = MsgType.ADD.byte → isValidFeedMessage m = true) →
        analytics'.fillRate = analytics.fillRate) := by
  obtain ⟨_, _, queues, free, ran, idle, _⟩ := Idle.feed earlier (Idle.create capacity)
  rw [reached] at ran
  cases ran
  obtain ⟨fed, met, shown⟩ := filter_valid feed idle
  obtain ⟨fills, engine', _, _, whole, _, all, applied⟩ := applyAll_counts feed idle
  obtain ⟨fills', last, _, _, part, _, _, applied'⟩ := applyAll_counts (feed.filter isValidFeedMessage) idle
  rw [fed, whole] at part
  cases part
  have counted := applied 0
  have counted' := applied' 0
  rw [ReplayStats.zero_add] at counted counted'
  rw [met, tally_filter] at counted'
  refine ⟨engine', fills, tally (engine.encounters feed) fills,
    { tally (engine.encounters feed) fills with invalidMessages := 0 }, _, _, ?_, ?_, whole, fed.trans whole, rfl, rfl,
    rfl, samples_invalid feed idle, ?_⟩
  · rw [runNormal_samples feed idle]
    exact congrArg (Option.map _) counted
  · rw [runNormal_samples _ idle, shown]
    exact congrArg (Option.map _) counted'
  · intro valid
    rw [Analytics.foldl_fillRate, Analytics.foldl_fillRate, List.filter_filter]
    congr 1
    apply List.filter_congr
    intro sample inside
    have message : sample.m ∈ feed := by
      rw [← samples_messages feed idle]
      exact List.mem_map_of_mem inside
    by_cases kind : sample.m.msgType = MsgType.ADD.byte
    · rw [valid sample.m message kind, Bool.and_true]
    · rw [decide_eq_false kind, Bool.false_and]

/-- An ADD that names no side. -/
def sidelessAdd : FeedMessage := { makeAdd 1 1 .BUY .LIMIT 100 10 0 with side := 99 }

theorem invalid_messages_inert_sample : (create 8).feed [] = some ([], create 8) ∧
    ∃ fills engine', (create 8).feed [sidelessAdd, makeAdd 2 2 .BUY .LIMIT 100 10 0] = some (fills, engine') ∧
      (create 8).feed ([sidelessAdd, makeAdd 2 2 .BUY .LIMIT 100 10 0].filter isValidFeedMessage) =
        some (fills, engine') := by
  obtain ⟨engine', fills, _, _, _, _, _, _, whole, part, _⟩ :=
    @invalid_messages_inert (create 8) 8 [] [] rfl [sidelessAdd, makeAdd 2 2 .BUY .LIMIT 100 10 0] {}
  exact ⟨rfl, fills, engine', whole, part⟩

/-- The trackers count a rejected message: the depth as a sample, the fill rate as an order. -/
theorem invalid_message_sampled :
    (runNormal ⟨create 8, {}⟩ {} [sidelessAdd]).map
        (fun result => (result.2.queueDepth.depthStats.n, result.2.fillRate.totalOrders)) = some (1, 1) ∧
      (runNormal ⟨create 8, {}⟩ {} ([sidelessAdd].filter isValidFeedMessage)).map
        (fun result => (result.2.queueDepth.depthStats.n, result.2.fillRate.totalOrders)) = some (0, 0) := by
  decide

end ReplayEngine

end ChronoBook
