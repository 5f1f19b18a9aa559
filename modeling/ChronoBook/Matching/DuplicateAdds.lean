import ChronoBook.Matching.Refinement
import ChronoBook.Matching.Twin

/-! ADD messages with an id that already rests. The engine gives the slot back
and is as it was before, whatever the order is; the reference matcher has no map
of ids and treats the order like any other. -/

namespace ChronoBook
open Library Priority Linked

namespace MatchingEngine

def duplicates (engine : MatchingEngine) (m : FeedMessage) : Bool :=
  m.msgType = MsgType.ADD.byte ∧ engine.book.containsOrder m.orderId = true

/-- The feed without the ADDs that are duplicates as the engine meets them. -/
def withoutDuplicates (engine : MatchingEngine) : List FeedMessage → List FeedMessage
  | [] => []
  | m :: later =>
      let kept := match engine.deliver m with
        | none => later
        | some (_, engine) => engine.withoutDuplicates later
      if engine.duplicates m then kept else m :: kept

variable {engine engine' : MatchingEngine} {queues : Queues} {free others : List Slot} {m : FeedMessage}

theorem withoutDuplicates_concat (earlier : List FeedMessage) (m : FeedMessage) :
    ∀ {engine engine' : MatchingEngine} {fills : List Fill}, engine.feed earlier = some (fills, engine') →
      engine.withoutDuplicates (earlier ++ [m]) =
        engine.withoutDuplicates earlier ++ (if engine'.duplicates m then [] else [m]) := by
  induction earlier with
  | nil =>
    intro engine engine' fills ran
    cases ran
    cases first : engine.deliver m <;> simp [withoutDuplicates, first]
  | cons n rest ih =>
    intro engine engine' fills ran
    cases first : engine.deliver n with
    | none =>
      rw [feed, first] at ran
      cases ran
    | some result =>
      rw [feed_cons engine n rest first] at ran
      obtain ⟨⟨tail, last⟩, later, same⟩ := Option.map_eq_some_iff.mp ran
      cases same
      simp only [List.cons_append, withoutDuplicates, first, ih later]
      split <;> rfl

theorem Naming.same : Naming id [] := ⟨Function.injective_id, fun _ => List.not_mem_nil⟩

theorem Twin.refl (idle : engine.Idle queues free others) : Twin id [] free engine engine := by
  have chain : Chained (fun slot => (engine.order slot).next) engine.pool.freeHead free := idle.steady.sound.pool.chain
  refine ⟨?_, rfl, rfl, chain, ?_, ?_⟩
  · exact engine.book.rename_id.symm
  · rw [List.map_id, List.append_nil]
    exact chain
  · intro slot _
    exact (Order.rename_id _).symm

/-- The slot that a duplicate gets goes straight back to the head of the free list. -/
theorem Idle.duplicate (idle : engine.Idle queues free others) (again : engine.duplicates m = true)
    (twin : Twin id [] free engine engine') :
    ∃ engine₁, engine.deliver m = some ([], engine₁) ∧ engine₁.Idle queues free others ∧
      Twin id [] free engine₁ engine' := by
  obtain ⟨kind, present⟩ := of_decide_eq_true again
  rcases idle.deliver m with ⟨_, result⟩ | ⟨taken, valid, _⟩
  · exact ⟨engine, result, idle, twin⟩
  cases free with
  | nil => exact absurd (Or.inr ⟨kind, rfl⟩) taken
  | cons slot rest =>
    have fresh : slot ∉ rest := (List.nodup_cons.mp (List.nodup_append.mp idle.steady.sound.pool.nodup).1).1
    obtain ⟨pool, granted, sound₁, ladder₁, slab, capacity, _⟩ := idle.steady.sound.acquire m.order
    let engine₁ : MatchingEngine := { engine with pool := pool }
    have order₁ : engine₁.order slot = m.order := by
      change pool.slab slot = m.order
      rw [slab, Function.update_self]
    have given : engine.presented m = some (engine₁, slot) := presented_add kind granted
    have processed : engine₁.processOrder (some slot) m.sequence = some (engine₁.free slot) := by
      apply processOrder_present
      rw [order₁]
      exact present
    obtain ⟨sound₂, ladder₂⟩ := sound₁.release
    have wellFormed : ((engine₁.free slot).ladder queues).WellFormed := by
      rw [ladder₂, ladder₁]
      exact idle.steady.wellFormed
    have idle₂ : (engine₁.free slot).Idle queues (slot :: rest) others := ⟨⟨sound₂, wellFormed⟩, idle.drained⟩
    refine ⟨engine₁.free slot, ?_, idle₂, ?_⟩
    · unfold MatchingEngine.deliver
      rw [if_pos valid, dispatch_presented given, processed, Option.map_some, Option.map_some, idle₂.drain]
    · refine ⟨twin.book, twin.fills, twin.currentSeq, sound₂.pool.chain, twin.chain', ?_⟩
      intro other held
      have different : other ≠ slot := fun same => held (by simp [same])
      refine (twin.copies other held).trans ?_
      change _ = ((pool.deallocate (some slot)).slab other).rename id
      rw [SlabPool.Valid.deallocate_slab _ different, slab, Function.update_of_ne different]

theorem Idle.withoutDuplicates (idle : engine.Idle queues free others) (messages : List FeedMessage) :
    ∃ fills last last' queues' free', engine.feed messages = some (fills, last) ∧
      engine.feed (engine.withoutDuplicates messages) = some (fills, last') ∧ last.Idle queues' free' others ∧
      Twin id [] free' last last' := by
  induction messages using List.reverseRecOn with
  | nil => exact ⟨[], engine, engine, queues, free, rfl, rfl, idle, Twin.refl idle⟩
  | append_singleton earlier m ih =>
    obtain ⟨fills, middle, middle', queues₁, free₁, ran, ran', idle₁, twin₁⟩ := ih
    rw [feed_append engine earlier [m] ran, withoutDuplicates_concat earlier m ran]
    by_cases again : middle.duplicates m = true
    · obtain ⟨last, result, idle', twin'⟩ := idle₁.duplicate again twin₁
      refine ⟨fills, last, middle', queues₁, free₁, ?_, ?_, idle', twin'⟩
      · rw [feed_singleton, result, Option.map_some, List.append_nil]
      · rw [if_pos again, List.append_nil]
        exact ran'
    · obtain ⟨batch, last, last', queues', free', next, next', idle', twin'⟩ :=
        Twin.feed Naming.same [m] idle₁ twin₁ (Or.inl rfl)
      refine ⟨fills ++ batch, last, last', queues', free', ?_, ?_, idle', twin'⟩
      · rw [next, Option.map_some]
      · rw [if_neg again, feed_append engine _ [m] ran', next', Option.map_some]

/-- The ADD is not of the type that rests, and no order on the other side of the book is one it could trade with. -/
def Unmet (engine : MatchingEngine) (m : FeedMessage) : Prop :=
  OrderType.ofByte m.orderType ≠ .LIMIT ∧ ∀ maker ∈ engine.listing (Side.ofByte m.side).opposite,
    OrderType.ofByte m.orderType ≠ .MARKET ∧ (Side.ofByte m.side).crosses maker.price m.price = false

def UnmetDuplicates (engine : MatchingEngine) (feed : List FeedMessage) : Prop :=
  ∀ earlier m later, feed = earlier ++ m :: later → ∀ fills engine', engine.feed earlier = some (fills, engine') →
    engine'.duplicates m = true → engine'.Unmet m

end MatchingEngine

namespace ReferenceMatcher

open MatchingEngine in
/-- Every duplicate of the feed finds nothing to trade with in the matcher and is not of the type that rests. -/
def UnmovedByDuplicates (engine : MatchingEngine) (feed : List FeedMessage) : Prop :=
  ∀ earlier m later, feed = earlier ++ m :: later → ∀ fills engine', engine.feed earlier = some (fills, engine') →
    engine'.duplicates m = true → ∀ matcher, run earlier = some matcher → matcher.Unmoved m

variable {engine : MatchingEngine} {queues : Queues} {free others : List Slot}

theorem UnmovedByDuplicates.run_eq (idle : engine.Idle queues free others) (feed : List FeedMessage)
    (valid : ∀ m ∈ feed, isValidFeedMessage m = true) (unmoved : UnmovedByDuplicates engine feed) :
    run (engine.withoutDuplicates feed) = run feed := by
  induction feed using List.reverseRecOn with
  | nil => rfl
  | append_singleton earlier m ih =>
    have same := ih (fun n inside => valid n (List.mem_append_left _ inside))
      (fun before n later split => unmoved before n (later ++ [m]) (by rw [split]; simp))
    have here := valid m (by simp)
    obtain ⟨fills, engine', _, _, ran, _⟩ := MatchingEngine.Idle.feed earlier idle
    obtain ⟨matcher, scanned⟩ := run_returns earlier
    rw [MatchingEngine.withoutDuplicates_concat earlier m ran, run_append earlier m scanned, if_pos here]
    by_cases again : engine'.duplicates m = true
    · have stays := unmoved earlier m [] rfl fills engine' ran again matcher scanned
      rw [if_pos again, List.append_nil, same, scanned, (apply_eq_self_iff here (of_decide_eq_true again).1).mpr stays]
    · rw [if_neg again, run_append _ m (same.trans scanned), if_pos here]

theorem UnmovedByDuplicates.quiet {capacity : Nat} {feed : List FeedMessage}
    (unmoved : UnmovedByDuplicates (MatchingEngine.create capacity) feed) : QuietDuplicates capacity feed := by
  intro earlier m later split _ kind fills engine ran present matcher scanned _
  exact unmoved earlier m later split fills engine ran (decide_eq_true ⟨kind, present⟩) matcher scanned

/-- Where the two machines hold the same orders, the book tells whether an ADD moves the matcher. -/
theorem unmet_iff {capacity : Nat} {feed : List FeedMessage}
    (sequenced : feed.Pairwise (fun first second => first.sequence ≤ second.sequence))
    (quiet : QuietDuplicates capacity feed) (room : (MatchingEngine.create capacity).PoolSuffices feed)
    {fills : List Fill} {matcher : ReferenceMatcher}
    (ran : (MatchingEngine.create capacity).feed feed = some (fills, engine)) (scanned : run feed = some matcher)
    (m : FeedMessage) : engine.Unmet m ↔ matcher.Unmoved m := by
  obtain ⟨engine', matcher', queues, free, ran', scanned', idle, tracks⟩ := lockstep capacity feed sequenced quiet room
  cases ran.symm.trans ran'
  cases scanned.symm.trans scanned'
  have all := tracks 18446744073709551615 (fun n _ => UInt64.le_iff_toNat_le.mpr (Nat.le_of_lt_succ n.sequence.toNat_lt))
  have best := bestOpposite_resting all.tidy (arriving m).resting (OrderType.ofByte m.orderType)
  rw [all.lists, ← idle.steady.sound.listing_eq] at best
  unfold MatchingEngine.Unmet Unmoved
  refine and_congr_right (fun _ => ?_)
  rw [← Option.map_eq_none_iff (f := fun it : RestingOrder × Nat => it.1.resting)]
  change _ ↔ (bestOpposite matcher.book (arriving m).resting.side (arriving m).resting.price _).map _ = none
  rw [best, List.head?_eq_none_iff, List.filter_eq_nil_iff]
  refine forall₂_congr (fun maker _ => ?_)
  rw [Ladder.accepts, Bool.or_eq_true, not_or, decide_eq_true_eq, Bool.not_eq_true]
  rfl

/-- With a pool that does not run out the condition can be read off the engine's book. -/
theorem unmetDuplicates_iff (capacity : Nat) (feed : List FeedMessage)
    (sequenced : feed.Pairwise (fun first second => first.sequence ≤ second.sequence))
    (room : (MatchingEngine.create capacity).PoolSuffices feed) :
    (MatchingEngine.create capacity).UnmetDuplicates feed ↔ UnmovedByDuplicates (MatchingEngine.create capacity) feed := by
  have before : ∀ {earlier later}, feed = earlier ++ later →
      UnmovedByDuplicates (MatchingEngine.create capacity) earlier → ∀ {fills engine matcher},
      (MatchingEngine.create capacity).feed earlier = some (fills, engine) → run earlier = some matcher →
      ∀ m, engine.Unmet m ↔ matcher.Unmoved m := by
    intro earlier later split unmoved fills engine matcher ran scanned m
    rw [split] at sequenced room
    exact unmet_iff (List.pairwise_append.mp sequenced).1 unmoved.quiet
      (fun first n rest parts => room first n (rest ++ later) (by rw [parts]; simp)) ran scanned m
  constructor
  · intro unmet
    -- each duplicate is judged where those before it have moved nothing
    have stays : ∀ earlier later, feed = earlier ++ later →
        UnmovedByDuplicates (MatchingEngine.create capacity) earlier := by
      intro earlier
      induction earlier using List.reverseRecOn with
      | nil =>
        intro later _ first m rest parts
        simp at parts
      | append_singleton earlier last ih =>
        intro later split
        have whole : feed = earlier ++ last :: later := by rw [split]; simp
        have unmoved := ih (last :: later) whole
        intro first m rest parts fills engine ran again matcher scanned
        rcases List.eq_nil_or_concat rest with rfl | ⟨rest', final, rfl⟩
        · obtain ⟨rfl, same⟩ := List.append_inj' parts rfl
          cases same
          exact (before whole unmoved ran scanned last).mp (unmet earlier last later whole fills engine ran again)
        · rw [List.concat_eq_append, ← List.cons_append, ← List.append_assoc] at parts
          exact unmoved first m rest' (List.append_inj' parts rfl).1 fills engine ran again matcher scanned
    exact stays feed [] (by simp)
  · intro unmoved first m rest split fills engine ran again
    obtain ⟨matcher, scanned⟩ := run_returns first
    have earlier : UnmovedByDuplicates (MatchingEngine.create capacity) first :=
      fun start n later parts => unmoved start n (later ++ m :: rest) (by rw [split, parts]; simp)
    exact (before split earlier ran scanned m).mpr (unmoved first m rest split fills engine ran again matcher scanned)

end ReferenceMatcher

open MatchingEngine ReferenceMatcher in
/-- A feed with and without the duplicates that the engine meets in it. The engine gives the same fills and has the
same book in the end. The matcher gives the same fills if none of the duplicates moves it, and then, with a pool that
does not run out, engine and matcher agree; with such a pool the engine's book shows whether a duplicate moves the
matcher. A duplicate moves it exactly when the scan finds an order to trade with or it is a LIMIT order. -/
theorem duplicate_adds_inert (capacity : Nat) (feed : List FeedMessage)
    (valid : ∀ m ∈ feed, isValidFeedMessage m = true)
    (sequenced : feed.Pairwise (fun first second => first.sequence ≤ second.sequence)) :
    ∃ fills engine engine' matcher, (MatchingEngine.create capacity).feed feed = some (fills, engine) ∧
      (MatchingEngine.create capacity).feed ((MatchingEngine.create capacity).withoutDuplicates feed) =
        some (fills, engine') ∧
      engine'.book = engine.book ∧
      (∀ id slot, engine.book.orderMap id = some slot → engine'.order slot = engine.order slot) ∧
      ReferenceMatcher.run feed = some matcher ∧
      (UnmovedByDuplicates (MatchingEngine.create capacity) feed →
        ReferenceMatcher.run ((MatchingEngine.create capacity).withoutDuplicates feed) = some matcher ∧
        ((MatchingEngine.create capacity).PoolSuffices feed →
          matcher.fills = fills ∧ ∀ side, matcher.listing side = engine.listing side)) ∧
      ((MatchingEngine.create capacity).PoolSuffices feed →
        ((MatchingEngine.create capacity).UnmetDuplicates feed ↔
          UnmovedByDuplicates (MatchingEngine.create capacity) feed)) ∧
      ∀ m ∈ feed, m.msgType = MsgType.ADD.byte →
        ∀ before : ReferenceMatcher, before.apply m = some before ↔ before.Unmoved m := by
  have idle := Idle.create capacity
  obtain ⟨fills, engine, engine', queues, free, ran, ran', idle', twin⟩ := idle.withoutDuplicates feed
  obtain ⟨book, orders⟩ := twin.sameBook idle'.steady.sound
  obtain ⟨matcher, scanned⟩ := run_returns feed
  refine ⟨fills, engine, engine', matcher, ran, ran', ?_, ?_, scanned, ?_, unmetDuplicates_iff capacity feed sequenced, ?_⟩
  · rw [book, OrderBook.rename_id]
  · intro id slot mapped
    rw [← Order.rename_id (engine.order slot)]
    exact orders id slot mapped
  · intro unmoved
    refine ⟨(unmoved.run_eq idle feed valid).trans scanned, ?_⟩
    intro room
    obtain ⟨last, matcher', together, scanned', listing⟩ :=
      lockstep_listing capacity feed sequenced unmoved.quiet room
    rw [scanned] at scanned'
    cases scanned'
    rw [ran] at together
    cases together
    exact ⟨rfl, fun side => (listing side).symm⟩
  · intro m inside kind before
    exact apply_eq_self_iff (valid m inside) kind

/-- Five units offered, an IOC offer under the same id that nothing meets, and a bid for two. -/
def quietFeed : List FeedMessage :=
  [makeAdd 1 1 .SELL .LIMIT 100 5 7, makeAdd 2 1 .SELL .IOC 90 4 7, makeAdd 3 2 .BUY .LIMIT 100 2 7]

open MatchingEngine ReferenceMatcher in
theorem duplicate_adds_inert_sample :
    (MatchingEngine.create 2).withoutDuplicates quietFeed =
        [makeAdd 1 1 .SELL .LIMIT 100 5 7, makeAdd 3 2 .BUY .LIMIT 100 2 7] ∧
      ∃ fills engine matcher, (MatchingEngine.create 2).feed quietFeed = some (fills, engine) ∧
        ReferenceMatcher.run quietFeed = some matcher ∧
        ReferenceMatcher.run ((MatchingEngine.create 2).withoutDuplicates quietFeed) = some matcher ∧
        matcher.fills = fills := by
  have splits : ∀ earlier m later, quietFeed = earlier ++ m :: later →
      (earlier = [] ∧ m = makeAdd 1 1 .SELL .LIMIT 100 5 7) ∨
        (earlier = [makeAdd 1 1 .SELL .LIMIT 100 5 7] ∧ m = makeAdd 2 1 .SELL .IOC 90 4 7) ∨
        (earlier = [makeAdd 1 1 .SELL .LIMIT 100 5 7, makeAdd 2 1 .SELL .IOC 90 4 7] ∧
          m = makeAdd 3 2 .BUY .LIMIT 100 2 7) := by
    intro earlier m later split
    unfold quietFeed at split
    rcases earlier with _ | ⟨first, _ | ⟨second, _ | ⟨third, rest⟩⟩⟩
    · simp_all
    · simp_all
    · simp_all
    · simp at split
  obtain ⟨fills, engine, _, matcher, ran, _, _, _, scanned, agree, _, _⟩ :=
    duplicate_adds_inert 2 quietFeed (by decide) (by decide)
  obtain ⟨again, together⟩ := agree (by
    intro earlier m later split _ _ ran again _ scanned
    rcases splits earlier m later split with ⟨rfl, rfl⟩ | ⟨rfl, rfl⟩ | ⟨rfl, rfl⟩
    · cases ran
      cases again
    · cases scanned
      decide
    · cases ran
      cases again)
  have room : (MatchingEngine.create 2).PoolSuffices quietFeed := by
    intro earlier m later split _ _ _ _ ran
    rcases splits earlier m later split with ⟨rfl, rfl⟩ | ⟨rfl, rfl⟩ | ⟨rfl, rfl⟩
    · cases ran
      decide
    · cases ran
      decide
    · cases ran
      decide
  exact ⟨by decide, fills, engine, matcher, ran, scanned, again, (together room).1⟩

/-- An offer of five units, the same offer again, and a bid for ten. -/
def doubledFeed : List FeedMessage :=
  [makeAdd 1 1 .SELL .LIMIT 100 5 7, makeAdd 2 1 .SELL .LIMIT 100 5 7, makeAdd 3 2 .BUY .LIMIT 100 10 7]

/-- The matcher lets the offer trade twice. -/
theorem duplicate_add_moves_reference :
    (∀ m ∈ doubledFeed, isValidFeedMessage m = true) ∧
      doubledFeed.Pairwise (fun first second => first.sequence ≤ second.sequence) ∧
      (MatchingEngine.create 3).withoutDuplicates doubledFeed =
        [makeAdd 1 1 .SELL .LIMIT 100 5 7, makeAdd 3 2 .BUY .LIMIT 100 10 7] ∧
      ((MatchingEngine.create 3).feed doubledFeed).map Prod.fst = some [⟨2, 1, 100, 5, 3, 7⟩] ∧
      (ReferenceMatcher.run doubledFeed).map ReferenceMatcher.fills =
        some [⟨2, 1, 100, 5, 3, 7⟩, ⟨2, 1, 100, 5, 3, 7⟩] ∧
      (ReferenceMatcher.run ((MatchingEngine.create 3).withoutDuplicates doubledFeed)).map ReferenceMatcher.fills =
        some [⟨2, 1, 100, 5, 3, 7⟩] := by
  decide +kernel

end ChronoBook
