import ChronoBook.Library.StableSort
import ChronoBook.Matching.FeedRun
import ChronoBook.Matching.ReferenceSpec

/-! The fast engine and the reference matcher answer every feed alike. Both are
compared with the priority lists, never with each other. -/

namespace ChronoBook
open Library Priority Linked

/-- The orders of one side as the book holds them: levels in map order, each from its head along the links. -/
def MatchingEngine.listing (engine : MatchingEngine) (side : Side) : List Resting :=
  (engine.book.levels side).entries.flatMap (fun entry =>
    (walk (fun slot => (engine.order slot).next) engine.pool.capacity entry.2.head).map
      (fun slot => (engine.order slot).resting))

/-- The orders of one side of the vector, sorted by `betterPriceTime` with ties in vector order. -/
def ReferenceMatcher.listing (matcher : ReferenceMatcher) (side : Side) : List Resting :=
  ((matcher.book.filter (fun order => order.side = side)).mergeSort
    (fun a b => !betterPriceTime side.opposite b a)).map RestingOrder.resting

namespace MatchingEngine

variable {engine : MatchingEngine} {queues : Queues} {free others : List Slot}

theorem Sound.walk_level (sound : engine.Sound queues free others) {side : Side} {price : UInt32} {level : PriceLevel}
    (found : (engine.book.levels side).find? price = some level) :
    walk (fun slot => (engine.order slot).next) engine.pool.capacity level.head = queues side price := by
  have holds := (sound.laid.level side price level found).1
  have chain : Chained (fun slot => (engine.order slot).next) level.head (queues side price) :=
    Threaded.forward holds
  have short := sound.queue_length side price
  exact chain.walk_eq (by omega)

theorem Sound.listing_eq (sound : engine.Sound queues free others) (side : Side) :
    engine.listing side = engine.ladder queues side := by
  unfold listing ladder OrderBook.sideSlots SortedMap.keys
  rw [List.map_flatMap, List.flatMap_map]
  apply List.flatMap_congr
  intro entry inside
  rw [sound.walk_level (SortedMap.find?_of_mem inside)]

end MatchingEngine

namespace ReferenceMatcher

theorem betterPriceTime_iff (side : Side) (a b : RestingOrder) :
    betterPriceTime side a b = true ↔
      side.opposite.Ahead a.price b.price ∨ (a.price = b.price ∧ a.sequence < b.sequence) := by
  unfold betterPriceTime
  by_cases same : a.price = b.price
  · simp [same, irrefl_of side.opposite.Ahead b.price]
  · rw [if_pos same]
    cases side <;> simp [Side.opposite, Side.Ahead, same]

theorem betterPriceTime_trans (side : Side) (a b c : RestingOrder) (one : (!betterPriceTime side b a) = true)
    (two : (!betterPriceTime side c b) = true) : (!betterPriceTime side c a) = true := by
  rw [Bool.not_eq_true', ← Bool.not_eq_true, betterPriceTime_iff, not_or, not_and, UInt64.not_lt] at one two ⊢
  refine ⟨fun ahead => two.1 (not_before_of_before one.1 ahead), ?_⟩
  intro same
  rw [same] at two
  have between : b.price = a.price := by
    rcases trichotomous_of side.opposite.Ahead b.price a.price with ahead | equal | behind
    · exact absurd ahead one.1
    · exact equal
    · exact absurd behind two.1
  exact UInt64.le_trans (one.2 between) (two.2 between.symm)

theorem betterPriceTime_total (side : Side) (a b : RestingOrder) :
    (!betterPriceTime side b a || !betterPriceTime side a b) = true := by
  rw [Bool.or_eq_true, Bool.not_eq_true', Bool.not_eq_true', ← Bool.not_eq_true, ← Bool.not_eq_true, ← not_and_or]
  intro both
  rw [betterPriceTime_iff, betterPriceTime_iff] at both
  rcases both.1 with first | ⟨same, earlier⟩
  · rcases both.2 with second | ⟨equal, _⟩
    · exact asymm_of side.opposite.Ahead first second
    · rw [equal] at first
      exact irrefl_of side.opposite.Ahead b.price first
  · rcases both.2 with second | ⟨_, later⟩
    · rw [same] at second
      exact irrefl_of side.opposite.Ahead a.price second
    · exact UInt64.lt_irrefl _ (UInt64.lt_trans earlier later)

/-- Sorting by `betterPriceTime` gives the matching order, because the vector is in arrival order. -/
theorem Tidy.listing_eq {matcher : ReferenceMatcher} (tidy : Tidy matcher.book) (side : Side) :
    matcher.listing side = makers matcher.book side := by
  let items := matcher.book.filter (fun order => order.side = side)
  have arrivals : items.Pairwise (fun first second => first.sequence ≤ second.sequence) :=
    List.Pairwise.filter _ tidy.arrivals
  have sorted : Ordered side.Ahead RestingOrder.price
      (items.mergeSort (fun a b => !betterPriceTime side.opposite b a)) := by
    refine (List.pairwise_mergeSort (betterPriceTime_trans side.opposite)
      (betterPriceTime_total side.opposite) items).imp ?_
    intro first second settled ahead
    rw [Bool.not_eq_true', ← Bool.not_eq_true, betterPriceTime_iff, Side.opposite_opposite] at settled
    exact settled (Or.inl ahead)
  have same : items.mergeSort (fun a b => !betterPriceTime side.opposite b a) =
      arrange side.Ahead RestingOrder.price items := by
    apply ordered_unique sorted (arrange_ordered items)
    intro price
    have together : Ordered side.Ahead RestingOrder.price (items.filter (fun order => order.price = price)) := by
      apply List.pairwise_of_forall_mem_list
      intro first here second there
      rw [of_decide_eq_true (List.mem_filter.mp here).2, of_decide_eq_true (List.mem_filter.mp there).2]
      exact irrefl_of side.Ahead price
    rw [filter_arrange, arrange_eq_self together]
    apply filter_mergeSort (betterPriceTime_trans side.opposite) (betterPriceTime_total side.opposite)
    refine List.Pairwise.imp₂ ?_ (arrivals.filter _) together
    intro first second earlier notAhead
    rw [Bool.not_eq_true', ← Bool.not_eq_true, betterPriceTime_iff, Side.opposite_opposite, not_or, not_and,
      UInt64.not_lt]
    exact ⟨notAhead, fun _ => earlier⟩
  have view : (arrange side.Ahead RestingOrder.price items).map RestingOrder.resting = makers matcher.book side := by
    have sameKey : ∀ order : RestingOrder, Resting.price order.resting = order.price := fun _ => rfl
    unfold makers
    rw [map_arrange RestingOrder.resting sameKey, List.filter_map]
    rfl
  unfold ReferenceMatcher.listing
  rw [← view, ← same]

theorem run_concat (earlier : List FeedMessage) (m : FeedMessage) :
    run (earlier ++ [m]) =
      (run earlier).bind (fun matcher => if isValidFeedMessage m then matcher.apply m else some matcher) := by
  unfold run
  rw [List.foldlM_append]
  simp

theorem run_returns (feed : List FeedMessage) : ∃ matcher, run feed = some matcher := by
  induction feed using List.reverseRecOn with
  | nil => exact ⟨{}, rfl⟩
  | append_singleton earlier m ih =>
    obtain ⟨matcher, scanned⟩ := ih
    rw [run_concat, scanned, Option.bind_some]
    split
    · exact matcher.apply_returns m
    · exact ⟨matcher, rfl⟩

theorem run_append (earlier : List FeedMessage) (m : FeedMessage) {matcher : ReferenceMatcher}
    (first : run earlier = some matcher) :
    run (earlier ++ [m]) = if isValidFeedMessage m then matcher.apply m else some matcher := by
  rw [run_concat, first, Option.bind_some]

/-- No valid ADD of the feed carries the id of an order that rests when it arrives. -/
def FreshAdds (feed : List FeedMessage) : Prop :=
  ∀ earlier m later, feed = earlier ++ m :: later → isValidFeedMessage m = true → m.msgType = MsgType.ADD.byte →
    ∀ matcher, run earlier = some matcher → ∀ order ∈ matcher.book, order.orderId ≠ m.orderId

end ReferenceMatcher

open ReferenceMatcher in
/-- A valid ADD whose id rests in both machines does not move the matcher. -/
def QuietDuplicates (capacity : Nat) (feed : List FeedMessage) : Prop :=
  ∀ earlier m later, feed = earlier ++ m :: later → isValidFeedMessage m = true → m.msgType = MsgType.ADD.byte →
    ∀ fills engine, (MatchingEngine.create capacity).feed earlier = some (fills, engine) →
      engine.book.containsOrder m.orderId = true → ∀ matcher, run earlier = some matcher →
        (∃ order ∈ matcher.book, order.orderId = m.orderId) → matcher.Unmoved m

theorem ReferenceMatcher.FreshAdds.quiet {feed : List FeedMessage} (fresh : FreshAdds feed) (capacity : Nat) :
    QuietDuplicates capacity feed := by
  intro earlier m later split valid kind _ _ _ _ matcher scanned ⟨order, inside, same⟩
  exact absurd same (fresh earlier m later split valid kind matcher scanned order inside)

open MatchingEngine ReferenceMatcher in
/-- Both machines track the same priority lists through the whole feed. -/
theorem lockstep (capacity : Nat) (feed : List FeedMessage)
    (sequenced : feed.Pairwise (fun first second => first.sequence ≤ second.sequence))
    (quiet : QuietDuplicates capacity feed)
    (room : (MatchingEngine.create capacity).PoolSuffices feed) :
    ∃ engine matcher queues free, (MatchingEngine.create capacity).feed feed = some (matcher.fills, engine) ∧
      ReferenceMatcher.run feed = some matcher ∧ engine.Idle queues free [] ∧
      ∀ latest, (∀ m ∈ feed, m.sequence ≤ latest) → matcher.Tracks (engine.ladder queues) latest := by
  induction feed using List.reverseRecOn with
  | nil =>
    refine ⟨MatchingEngine.create capacity, {}, Queues.empty, _, rfl, rfl, Idle.create capacity, ?_⟩
    intro latest _
    rw [create_ladder]
    exact Tracks.empty.later UInt64.zero_le
  | append_singleton earlier m ih =>
    rw [List.pairwise_append] at sequenced
    obtain ⟨engine, matcher, queues, free, ran, scanned, idle, tracks⟩ := ih sequenced.1
      (fun before n later split => quiet before n (later ++ [m]) (by rw [split]; simp))
      (fun before n later split => room before n (later ++ [m]) (by rw [split]; simp))
    have current := tracks m.sequence (fun n inside => sequenced.2.2 n inside m List.mem_cons_self)
    rw [feed_append _ earlier [m] ran, feed_singleton, run_append earlier m scanned]
    rcases idle.deliver m with ⟨ignored, result⟩ | ⟨_, valid, engine', queues', free', result, delivered⟩
    · have invalid : isValidFeedMessage m = false := by
        by_contra notInvalid
        have valid : isValidFeedMessage m = true := by simpa using notInvalid
        exact idle.taken valid (fun kind => room earlier m [] rfl valid kind _ _ ran) ignored
      refine ⟨engine, matcher, queues, free, ?_, ?_, idle, ?_⟩
      · rw [result, Option.map_some, List.append_nil]
      · rw [invalid]
        rfl
      · intro latest bound
        exact tracks latest (fun n inside => bound n (List.mem_append_left _ inside))
    by_cases absent : m.msgType = MsgType.ADD.byte → (engine.ladder queues).find? m.orderId = none
    · obtain ⟨matcher', applied, fills, tracks'⟩ := current.apply (UInt64.le_refl _) valid absent
      refine ⟨engine', matcher', queues', free', ?_, ?_, delivered.idle, ?_⟩
      · rw [result, Option.map_some, fills]
      · rw [valid]
        exact applied
      · intro latest bound
        rw [delivered.ladder]
        exact tracks'.later (bound m (by simp))
    · obtain ⟨kind, taken⟩ := Classical.not_imp.mp absent
      have present : engine.book.containsOrder m.orderId = true := by
        unfold OrderBook.containsOrder
        rw [Option.isSome_iff_ne_none]
        exact fun none => taken (idle.steady.sound.orderMap_eq_none.mp none)
      have held : ∃ order ∈ matcher.book, order.orderId = m.orderId := by
        by_contra nowhere
        apply taken
        rw [← current.find? m.orderId, Option.map_eq_none_iff, List.find?_eq_none]
        exact fun order inside same => nowhere ⟨order, inside, of_decide_eq_true same⟩
      have unmoved := quiet earlier m [] rfl valid kind _ _ ran present matcher scanned held
      have nothing := Ladder.apply_none (Ladder.incoming_taken kind taken)
      rw [Ladder.cleared_add kind] at nothing
      refine ⟨engine', matcher, queues', free', ?_, ?_, delivered.idle, ?_⟩
      · rw [result, Option.map_some, nothing, List.append_nil]
      · rw [valid]
        exact (apply_eq_self_iff valid kind).mpr unmoved
      · intro latest bound
        rw [delivered.ladder, nothing]
        exact tracks latest (fun n inside => bound n (List.mem_append_left _ inside))

open MatchingEngine ReferenceMatcher in
theorem lockstep_listing (capacity : Nat) (feed : List FeedMessage)
    (sequenced : feed.Pairwise (fun first second => first.sequence ≤ second.sequence))
    (quiet : QuietDuplicates capacity feed) (room : (MatchingEngine.create capacity).PoolSuffices feed) :
    ∃ engine matcher, (MatchingEngine.create capacity).feed feed = some (matcher.fills, engine) ∧
      ReferenceMatcher.run feed = some matcher ∧ ∀ side, engine.listing side = matcher.listing side := by
  obtain ⟨engine, matcher, queues, free, ran, scanned, idle, tracks⟩ := lockstep capacity feed sequenced quiet room
  have all := tracks 18446744073709551615 (fun m _ => UInt64.le_iff_toNat_le.mpr (Nat.le_of_lt_succ m.sequence.toNat_lt))
  refine ⟨engine, matcher, ran, scanned, ?_⟩
  intro side
  rw [idle.steady.sound.listing_eq, all.tidy.listing_eq, all.lists]

open MatchingEngine ReferenceMatcher in
/-- The fast engine refines the reference matcher: on every feed in sequence order whose ADDs carry fresh ids, and
with a pool that does not run out, both give the same fills and hold the same orders in the same order, after
every message. -/
theorem engine_refines_reference (capacity : Nat) (feed : List FeedMessage)
    (sequenced : feed.Pairwise (fun first second => first.sequence ≤ second.sequence)) (fresh : FreshAdds feed)
    (room : (MatchingEngine.create capacity).PoolSuffices feed) (earlier later : List FeedMessage)
    (split : feed = earlier ++ later) :
    ∃ engine matcher, (MatchingEngine.create capacity).feed earlier = some (matcher.fills, engine) ∧
      ReferenceMatcher.run earlier = some matcher ∧ ∀ side, engine.listing side = matcher.listing side := by
  subst split
  exact lockstep_listing capacity earlier (List.pairwise_append.mp sequenced).1
    (FreshAdds.quiet (fun before n rest split => fresh before n (rest ++ later) (by rw [split]; simp)) capacity)
    (fun before n rest split => room before n (rest ++ later) (by rw [split]; simp))

/-- An ask of five units and a bid that takes three of them. -/
def sampleFeed : List FeedMessage := [makeAdd 1 1 .SELL .LIMIT 100 5 7, makeAdd 2 2 .BUY .LIMIT 101 3 7]

open MatchingEngine ReferenceMatcher in
theorem engine_refines_reference_sample :
    ∃ engine matcher, (MatchingEngine.create 2).feed sampleFeed = some (matcher.fills, engine) ∧
      ReferenceMatcher.run sampleFeed = some matcher ∧ ∀ side, engine.listing side = matcher.listing side := by
  have splits : ∀ earlier m later, sampleFeed = earlier ++ m :: later →
      (earlier = [] ∧ m = makeAdd 1 1 .SELL .LIMIT 100 5 7) ∨
        (earlier = [makeAdd 1 1 .SELL .LIMIT 100 5 7] ∧ m = makeAdd 2 2 .BUY .LIMIT 101 3 7) := by
    intro earlier m later split
    unfold sampleFeed at split
    rcases earlier with _ | ⟨first, _ | ⟨second, rest⟩⟩
    · simp_all
    · simp_all
    · simp at split
  apply engine_refines_reference 2 sampleFeed (by decide) _ _ sampleFeed [] (by simp)
  · intro earlier m later split _ _ matcher ran
    rcases splits earlier m later split with ⟨rfl, rfl⟩ | ⟨rfl, rfl⟩
    · cases ran
      decide
    · cases ran
      decide
  · intro earlier m later split _ _ fills engine ran
    rcases splits earlier m later split with ⟨rfl, rfl⟩ | ⟨rfl, rfl⟩
    · cases ran
      decide
    · cases ran
      decide

end ChronoBook
