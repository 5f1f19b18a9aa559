import ChronoBook.Matching.LadderRun
import ChronoBook.Matching.ShardedEquivalence

/-! Which book a CANCEL or MODIFY reaches. The router and the engine table are keyed
by the message's own symbol, which `makeCancel` and `makeModify` leave at 0, while
the order to be found may rest under any symbol. -/

namespace ChronoBook

inductive FeedMessage.Made : FeedMessage → Prop
  | add (seq id : UInt64) (side : Side) (type : OrderType) (price qty : UInt32) (symbolPacked : UInt64) :
      Made (makeAdd seq id side type price qty symbolPacked)
  | cancel (seq id : UInt64) : Made (makeCancel seq id)
  | modify (seq id : UInt64) (newPrice newQty : UInt32) : Made (makeModify seq id newPrice newQty)

theorem FeedMessage.Made.symbol {m : FeedMessage} (made : m.Made) (kind : m.msgType ≠ MsgType.ADD.byte) :
    m.symbolPacked = 0 := by
  cases made with
  | add => exact absurd rfl kind
  | cancel => rfl
  | modify => rfl

def addedUnder (feed : List FeedMessage) (symbol id : UInt64) : Bool :=
  feed.any (fun m => m.msgType = MsgType.ADD.byte && m.orderId = id && m.symbolPacked = symbol)

/-- The ADDs of a symbol, with every CANCEL and MODIFY of an id that is ADDed under it. -/
def symbolFeed (feed : List FeedMessage) (symbol : UInt64) : List FeedMessage :=
  feed.filter (fun m =>
    if m.msgType = MsgType.ADD.byte then m.symbolPacked = symbol else addedUnder feed symbol m.orderId)

/-- Every CANCEL and MODIFY after the ADD of the id it names finds the order under symbol 0. -/
def NamesReach (feed : List FeedMessage) : Prop :=
  feed.Pairwise (fun add m => add.msgType = MsgType.ADD.byte → m.msgType ≠ MsgType.ADD.byte →
    add.orderId = m.orderId → add.symbolPacked = 0)

/-- The engine of a symbol and the matcher on the symbol's own feed go through the same lists. The first passes over
the messages that `added` keeps for the second when they cannot reach an order, and the second over those that name
no order of the symbol. -/
theorem Ladder.run_routed {symbol : UInt64} {added : UInt64 → Bool} (feed : List FeedMessage) :
    ∀ {ladder : Ladder}, (∀ m ∈ feed, m.Made) → NamesReach feed →
      (∀ m ∈ feed, m.msgType = MsgType.ADD.byte → m.symbolPacked = symbol → added m.orderId = true) →
      (∀ id, added id = false → ladder.find? id = none) →
      (symbol ≠ 0 → ∀ m ∈ feed, m.msgType ≠ MsgType.ADD.byte → ladder.find? m.orderId = none) →
      ladder.run (feed.filter (fun m => m.symbolPacked = symbol)) =
        ladder.run (feed.filter (fun m =>
          if m.msgType = MsgType.ADD.byte then m.symbolPacked = symbol else added m.orderId)) := by
  induction feed with
  | nil =>
    intro ladder _ _ _ _ _
    rfl
  | cons m later ih =>
    intro ladder made reach adds known apart
    have made' := fun other there => made other (List.mem_cons_of_mem m there)
    have adds' := fun other there => adds other (List.mem_cons_of_mem m there)
    have apart' := fun away other there => apart away other (List.mem_cons_of_mem m there)
    obtain ⟨first, reach'⟩ := List.pairwise_cons.mp reach
    by_cases kind : m.msgType = MsgType.ADD.byte
    · by_cases own : m.symbolPacked = symbol
      · rw [List.filter_cons_of_pos (by simp [own]), List.filter_cons_of_pos (by simp [kind, own])]
        by_cases valid : isValidFeedMessage m = true
        · rw [run_valid valid, run_valid valid, ih made' reach' adds']
          · intro id absent
            refine (apply_keeps_out valid (known id absent) (fun _ same => ?_)).1
            rw [← same, adds m List.mem_cons_self kind own] at absent
            cases absent
          · intro away other there names
            refine (apply_keeps_out valid (apart' away other there names) (fun _ same => ?_)).1
            exact away (own.symm.trans (first other there kind names same))
        · have invalid := Bool.eq_false_of_not_eq_true valid
          rw [run_invalid invalid, run_invalid invalid, ih made' reach' adds' known apart']
      · rw [List.filter_cons_of_neg (by simp [own]), List.filter_cons_of_neg (by simp [kind, own])]
        exact ih made' reach' adds' known apart'
    · have zero := (made m List.mem_cons_self).symbol kind
      by_cases own : symbol = 0
      · rw [List.filter_cons_of_pos (by simp [zero, own])]
        by_cases target : added m.orderId = true
        · rw [List.filter_cons_of_pos (by simp [kind, target])]
          by_cases valid : isValidFeedMessage m = true
          · rw [run_valid valid, run_valid valid, ih made' reach' adds']
            · intro id absent
              exact (apply_keeps_out valid (known id absent) (fun same => absurd same kind)).1
            · exact fun away => absurd own away
          · have invalid := Bool.eq_false_of_not_eq_true valid
            rw [run_invalid invalid, run_invalid invalid, ih made' reach' adds' known apart']
        · rw [List.filter_cons_of_neg (by simp [kind, target]),
            run_absent kind (known m.orderId (Bool.eq_false_of_not_eq_true target))]
          exact ih made' reach' adds' known apart'
      · rw [List.filter_cons_of_neg (by simp [zero, Ne.symm own])]
        by_cases target : added m.orderId = true
        · rw [List.filter_cons_of_pos (by simp [kind, target]), run_absent kind (apart own m List.mem_cons_self kind)]
          exact ih made' reach' adds' known apart'
        · rw [List.filter_cons_of_neg (by simp [kind, target])]
          exact ih made' reach' adds' known apart'

variable {feed : List FeedMessage}

theorem emitted_reference (made : ∀ m ∈ feed, m.Made) (unique : UniqueIds feed)
    (sequenced : feed.Pairwise (fun first second => first.sequence < second.sequence)) (reach : NamesReach feed)
    (symbol : UInt64) :
    ∃ matcher, ReferenceMatcher.run (symbolFeed feed symbol) = some matcher ∧
      emitted (fun _ => Ladder.empty) (feed.filter (fun m => m.symbolPacked = symbol)) = matcher.fills := by
  have ordered : (symbolFeed feed symbol).Pairwise (fun first second => first.sequence ≤ second.sequence) :=
    (sequenced.imp UInt64.le_of_lt).filter _
  obtain ⟨matcher, ran, fills, _⟩ := reference_run (symbolFeed feed symbol) ordered (unique.filter _)
  refine ⟨matcher, ran, ?_⟩
  rw [emitted_run _ (fun m inside => by simpa using (List.mem_filter.mp inside).2), fills]
  congr 1
  apply Ladder.run_routed feed made reach
  · intro m inside kind own
    unfold addedUnder
    rw [List.any_eq_true]
    exact ⟨m, inside, by simp [kind, own]⟩
  · exact fun _ _ => rfl
  · exact fun _ _ _ _ => rfl

theorem emitted_cancelled (made : ∀ m ∈ feed, m.Made) (unique : UniqueIds feed)
    (sequenced : feed.Pairwise (fun first second => first.sequence < second.sequence)) (reach : NamesReach feed)
    {earlier later : List FeedMessage} {cancel add : FeedMessage} (split : feed = earlier ++ cancel :: later)
    (kind : cancel.msgType = MsgType.CANCEL.byte) (before : add ∈ earlier) (adds : add.msgType = MsgType.ADD.byte)
    (names : add.orderId = cancel.orderId) (symbol : UInt64) :
    ∀ fill ∈ emitted (fun _ => Ladder.empty) (feed.filter (fun m => m.symbolPacked = symbol)),
      cancel.sequence < fill.timestamp → fill.names cancel.orderId = false := by
  intro fill emits after
  rw [emitted_run _ (fun m inside => by simpa using (List.mem_filter.mp inside).2)] at emits
  have zero := (made cancel (by simp [split])).symbol (by rw [kind]; decide)
  unfold UniqueIds at unique
  unfold NamesReach at reach
  rw [split, List.pairwise_append] at sequenced unique reach
  rw [split, List.filter_append] at emits
  have fresh : ∀ m ∈ later.filter (fun m => m.symbolPacked = symbol), isValidFeedMessage m = true →
      m.msgType = MsgType.ADD.byte → m.orderId ≠ cancel.orderId := by
    intro m inside _ brings
    have there := List.mem_cons_of_mem cancel (List.mem_of_mem_filter inside)
    rw [← names]
    exact (unique.2.2 add before m there adds brings).symm
  by_cases own : symbol = 0
  · rw [List.filter_cons_of_pos (by simp [zero, own]), Ladder.run_append] at emits
    rcases List.mem_append.mp emits with early | late
    · obtain ⟨m, inside, stamp⟩ := Ladder.run_stamped _ fill early
      have past := sequenced.2.2 m (List.mem_of_mem_filter inside) cancel List.mem_cons_self
      rw [stamp] at after
      exact absurd after (UInt64.lt_asymm past)
    · by_cases valid : isValidFeedMessage cancel = true
      · rw [Ladder.run_valid valid, Ladder.apply_none (Ladder.incoming_cancel kind),
          Ladder.cleared_of_ne (by rw [kind]; decide), List.nil_append] at late
        exact (Ladder.run_keeps_out _ (Ladder.find?_remove _ _) fresh).2 fill late
      · -- a refused CANCEL names id 0, which no accepted ADD carries
        have invalid := Bool.eq_false_of_not_eq_true valid
        have nameless := orderId_of_refused kind invalid
        rw [Ladder.run_invalid invalid] at late
        have absent : (Ladder.empty.run (earlier.filter (fun m => m.symbolPacked = symbol))).2.find? cancel.orderId =
            none := by
          rw [nameless]
          exact (Ladder.run_keeps_out _ rfl (fun m _ accepted _ => orderId_of_valid accepted)).1
        exact (Ladder.run_keeps_out _ absent fresh).2 fill late
  · rw [List.filter_cons_of_neg (by simp [zero, Ne.symm own]), ← List.filter_append] at emits
    refine (Ladder.run_keeps_out _ rfl ?_).2 fill emits
    intro m inside valid brings same
    have here := List.mem_filter.mp inside
    rcases List.mem_append.mp here.1 with early | late
    · have home := reach.2.2 m early cancel List.mem_cons_self brings (by rw [kind]; decide) same
      have away : m.symbolPacked = symbol := by simpa using here.2
      exact own (away.symm.trans home)
    · exact fresh m (List.mem_filter.mpr ⟨late, here.2⟩) valid brings same

/-- In a feed whose CANCELs and MODIFYs name orders of symbol 0, every order is reached: after the last `stop` the fills
of a symbol are those of the reference matcher on the symbol's own feed, and a cancelled order does not trade again. -/
theorem sharded_orders_reached (n : Nat) [NeZero n] (poolCap ringCap : UInt64) (feed : List FeedMessage)
    (made : ∀ m ∈ feed, m.Made) (unique : UniqueIds feed)
    (sequenced : feed.Pairwise (fun first second => first.sequence < second.sequence)) (reach : NamesReach feed)
    (buildable : ShardedEngine.Buildable n poolCap ringCap) (room : validAdds feed ≤ poolCap.toNat) :
    ∃ start : System n, System.create n poolCap ringCap feed = .ok start ∧
      ∀ before s called, start.run before = some s → s.Routed → s.engine.running = true → s.step .stop = some called →
        (∃ after last, called.run after = some last ∧ last.Stopped) ∧
        ∀ after last, called.run after = some last → last.Stopped →
          (∀ symbol, ∃ matcher, ReferenceMatcher.run (symbolFeed feed symbol) = some matcher ∧
            last.engine.collectAllFills.filter (fun fill => fill.symbolPacked = symbol) = matcher.fills) ∧
          ∀ earlier cancel later, feed = earlier ++ cancel :: later → cancel.msgType = MsgType.CANCEL.byte →
            (∃ add ∈ earlier, add.msgType = MsgType.ADD.byte ∧ add.orderId = cancel.orderId) →
            ∀ fill ∈ last.engine.collectAllFills, cancel.sequence < fill.timestamp →
              fill.names cancel.orderId = false := by
  obtain ⟨start, built⟩ := System.create_ok (n := n) buildable feed
  refine ⟨start, built, fun before s called reached routed runs stops => ?_⟩
  have invariant := (System.Invariant.create built buildable.sizable.1).run before reached
  refine ⟨invariant.stops stops, fun after last ran stopped => ?_⟩
  have result := (invariant.result routed runs stops ran stopped sequenced room).1
  have own := fun symbol => emitted_filter symbol feed Labelled.empty
  rw [result]
  constructor
  · intro symbol
    rw [← own]
    exact emitted_reference made unique sequenced reach symbol
  · intro earlier cancel later split kind ⟨add, there, adds, names⟩ fill inside
    apply emitted_cancelled made unique sequenced reach split kind there adds names fill.symbolPacked
    rw [own]
    exact List.mem_filter.mpr ⟨inside, by simp⟩

/-- A schedule that starts one shard, routes three messages and has them handled. -/
def handleThree : List (Move 1) :=
  .start :: (List.replicate 4 .control ++ List.replicate 9 .route ++ List.replicate 18 (.work 0))

/-- The rest of a call of `stop` with nothing left in the inbox. -/
def finishOne : List (Move 1) := List.replicate 2 .control ++ List.replicate 3 (.work 0) ++ List.replicate 3 .control

/-- An order of symbol 0 that is cancelled, and one of another symbol. -/
theorem sharded_orders_reached_sample :
    let feed := [makeAdd 1 1 .SELL .LIMIT 100 5 0, makeCancel 2 1, makeAdd 3 2 .BUY .LIMIT 100 5 7]
    ∃ start s called last : System 1, System.create 1 2 4 feed = .ok start ∧ start.run handleThree = some s ∧
      s.Routed ∧ s.engine.running = true ∧ s.step .stop = some called ∧ called.run finishOne = some last ∧ last.Stopped ∧
      ∃ matcher, ReferenceMatcher.run (symbolFeed feed 7) = some matcher ∧
        last.engine.collectAllFills.filter (fun fill => fill.symbolPacked = 7) = matcher.fills := by
  intro feed
  have whole : (System.create 1 2 4 feed).toOption.bind (fun start => (start.run handleThree).bind (fun s =>
      (s.step .stop).bind (fun called => (called.run finishOne).map (fun last =>
        (s.remaining, s.route, s.engine.running, last.control, last.engine.running))))) =
      some ([], .idle, true, .idle, false) := by decide +kernel
  obtain ⟨start, built, rest⟩ := Option.bind_eq_some_iff.mp whole
  obtain ⟨s, reached, rest⟩ := Option.bind_eq_some_iff.mp rest
  obtain ⟨called, stops, rest⟩ := Option.bind_eq_some_iff.mp rest
  obtain ⟨last, ran, facts⟩ := Option.map_eq_some_iff.mp rest
  simp only [Prod.mk.injEq] at facts
  obtain ⟨left, route, runs, control, rests⟩ := facts
  have made : ∀ m ∈ feed, m.Made := by
    intro m inside
    simp only [feed, List.mem_cons, List.not_mem_nil, or_false] at inside
    rcases inside with first | second | third
    · exact first ▸ .add ..
    · exact second ▸ .cancel ..
    · exact third ▸ .add ..
  obtain ⟨start', built', holds⟩ := sharded_orders_reached 1 2 4 feed made (by unfold UniqueIds; decide) (by decide)
    (by unfold NamesReach; decide) ⟨by decide, by decide, by decide⟩ (by decide)
  rw [ok_of_toOption built] at built'
  cases built'
  have result := holds handleThree s called reached ⟨left, route⟩ runs stops
  exact ⟨start, s, called, last, ok_of_toOption built, reached, ⟨left, route⟩, runs, stops, ran, ⟨control, rests⟩,
    (result.2 finishOne last ran ⟨control, rests⟩).1 7⟩

/-- An order of symbol 7 trades after its CANCEL was handled; the CANCEL went to the book of symbol 0. -/
theorem sharded_cancel_lost :
    let feed := [makeAdd 1 1 .SELL .LIMIT 100 5 7, makeCancel 2 1, makeAdd 3 2 .BUY .LIMIT 100 5 7]
    (∃ start last : System 1, System.create 1 2 4 feed = .ok start ∧
      start.run (handleThree ++ .stop :: finishOne) = some last ∧ last.Stopped ∧ last.engine.totalProcessed = 3 ∧ last.engine.collectAllFills = [⟨2, 1, 100, 5, 3, 7⟩]) ∧
    (ReferenceMatcher.run (symbolFeed feed 7)).map (fun matcher => matcher.fills) = some [] := by
  intro feed
  have whole : (System.create 1 2 4 feed).toOption.bind (fun start =>
      (start.run (handleThree ++ .stop :: finishOne)).map
        (fun s => (s.control, s.engine.running, s.engine.totalProcessed, (s.engine.shards 0).fills))) =
      some (.idle, false, 3, [⟨2, 1, 100, 5, 3, 7⟩]) := by decide +kernel
  obtain ⟨start, made, rest⟩ := Option.bind_eq_some_iff.mp whole
  obtain ⟨last, ran, facts⟩ := Option.map_eq_some_iff.mp rest
  simp only [Prod.mk.injEq] at facts
  obtain ⟨control, rests, processed, fills⟩ := facts
  refine ⟨⟨start, last, ok_of_toOption made, ran, ⟨control, rests⟩, processed, ?_⟩, by decide⟩
  unfold ShardedEngine.collectAllFills
  rw [show List.finRange 1 = [0] from rfl, List.flatMap_singleton, fills, List.mergeSort_singleton]

end ChronoBook
