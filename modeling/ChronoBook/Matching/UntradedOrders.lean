import ChronoBook.Matching.NonInterference
import ChronoBook.Matching.Refinement

/-! Orders that never trade. Whatever rests in the book without being traded with has
no influence on the fills, so that the messages of such orders may be left out of the
feed: the same fills come out, and the same book without these orders. -/

namespace ChronoBook
open Library Priority

def Fill.Within (keep : UInt64 → Bool) (fill : Fill) : Prop :=
  keep fill.buyOrderId = true ∧ keep fill.sellOrderId = true

variable {keep : UInt64 → Bool}

theorem Resting.fillBy_within {maker taker : Resting} {seq : UInt64} {qty : UInt32} :
    (maker.fillBy taker seq qty).Within keep ↔ keep taker.orderId = true ∧ keep maker.orderId = true := by
  unfold fillBy Fill.Within
  dsimp only
  by_cases buys : taker.side = .BUY
  · rw [if_pos buys, if_pos buys]
  · rw [if_neg buys, if_neg buys]
    exact and_comm

section Sweep

variable {accepts : UInt32 → Bool} {fillOf : Resting → UInt32 → Fill}

theorem sweep_refused {makers : List Resting} (refused : ∀ maker ∈ makers, accepts maker.price = false) (left : UInt32) :
    sweep accepts fillOf left makers = ⟨[], left, makers⟩ := by
  cases makers with
  | nil => rfl
  | cons maker rest => exact sweep_stop rest (refused maker List.mem_cons_self)

/-- A sweep that trades only with orders that are kept does not see the others: behind one that it refuses it refuses all. -/
theorem sweep_kept (before : UInt32 → UInt32 → Prop) {taker : Resting} {seq : UInt64}
    (worse : ∀ first second, accepts first = false → ¬before second first → accepts second = false)
    {makers : List Resting} (ordered : Ordered before Resting.price makers) (left : UInt32)
    (within : ∀ fill ∈ (sweep accepts (fun maker => maker.fillBy taker seq) left makers).fills, fill.Within keep) :
    sweep accepts (fun maker => maker.fillBy taker seq) left (makers.filter (fun maker => keep maker.orderId)) =
      ⟨(sweep accepts (fun maker => maker.fillBy taker seq) left makers).fills,
        (sweep accepts (fun maker => maker.fillBy taker seq) left makers).left,
        (sweep accepts (fun maker => maker.fillBy taker seq) left makers).rest.filter
          (fun maker => keep maker.orderId)⟩ := by
  induction makers generalizing left with
  | nil => rfl
  | cons maker rest ih =>
    obtain ⟨behind, later⟩ := List.pairwise_cons.mp ordered
    rw [sweep] at within ⊢
    by_cases units : left = 0
    · rw [if_pos (Or.inl units), units, sweep_zero]
    by_cases refused : accepts maker.price = false
    · rw [if_pos (Or.inr refused)]
      refine sweep_refused (fun other inside => ?_) left
      rcases List.mem_cons.mp (List.mem_of_mem_filter inside) with rfl | after
      · exact refused
      · exact worse _ _ refused (behind other after)
    have goes : ¬(left = 0 ∨ accepts maker.price = false) := not_or.mpr ⟨units, refused⟩
    rw [if_neg goes] at within ⊢
    by_cases covered : maker.remainingQty ≤ left
    · rw [if_pos covered] at within ⊢
      obtain ⟨first, others⟩ := List.forall_mem_cons.mp within
      have kept := (Resting.fillBy_within.mp first).2
      rw [List.filter_cons_of_pos (by exact kept), sweep, if_neg goes, if_pos covered, ih later _ others]
    · rw [if_neg covered] at within ⊢
      have kept := (Resting.fillBy_within.mp (within _ List.mem_cons_self)).2
      rw [List.filter_cons_of_pos (by exact kept), sweep, if_neg goes, if_neg covered,
        List.filter_cons_of_pos (by exact kept)]

end Sweep

namespace Ladder

variable {ladder : Ladder} {m : FeedMessage} {taker : Resting} {type : OrderType} {seq : UInt64}

def kept (ladder : Ladder) (keep : UInt64 → Bool) : Ladder :=
  fun side => (ladder side).filter (fun order => keep order.orderId)

theorem kept_orders (ladder : Ladder) (keep : UInt64 → Bool) :
    (ladder.kept keep).orders = ladder.orders.filter (fun order => keep order.orderId) := (List.filter_append _ _).symm

theorem find?_kept (ladder : Ladder) {id : UInt64} (kept : keep id = true) :
    (ladder.kept keep).find? id = ladder.find? id := by
  unfold find?
  rw [kept_orders, List.find?_filter]
  congr 1
  funext order
  by_cases same : order.orderId = id
  · simp [same, kept]
  · simp [same]

theorem remove_kept (ladder : Ladder) (id : UInt64) : (ladder.kept keep).remove id = (ladder.remove id).kept keep := by
  funext side
  exact List.filter_comm _ _ _

theorem kept_remove (ladder : Ladder) {id : UInt64} (dropped : keep id = false) :
    (ladder.remove id).kept keep = ladder.kept keep := by
  funext side
  unfold kept remove
  rw [List.filter_filter]
  apply List.filter_congr
  intro order _
  by_cases same : order.orderId = id
  · simp [same, dropped]
  · simp [same]

theorem cleared_kept (ladder : Ladder) (m : FeedMessage) : (ladder.kept keep).cleared m = (ladder.cleared m).kept keep := by
  unfold cleared
  split
  · rfl
  · exact ladder.remove_kept m.orderId

theorem incoming_kept (ladder : Ladder) (kept : keep m.orderId = true) :
    (ladder.kept keep).incoming m = ladder.incoming m := by
  unfold incoming
  rw [find?_kept ladder kept]

theorem swept_kept (wellFormed : ladder.WellFormed)
    (within : ∀ fill ∈ (ladder.swept taker type seq).fills, fill.Within keep) :
    (ladder.kept keep).swept taker type seq = ⟨(ladder.swept taker type seq).fills, (ladder.swept taker type seq).left,
      (ladder.swept taker type seq).rest.filter (fun maker => keep maker.orderId)⟩ := by
  refine sweep_kept taker.side.opposite.Ahead ?_ (wellFormed.ordered taker.side.opposite) _ within
  intro first second refused behind
  exact accepts_worse refused behind

theorem enter_kept (wellFormed : ladder.WellFormed) (kept : keep taker.orderId = true)
    (within : ∀ fill ∈ (ladder.swept taker type seq).fills, fill.Within keep) :
    (ladder.kept keep).enter taker type seq = (ladder.enter taker type seq).kept keep := by
  have swept := swept_kept wellFormed within
  have residual : (ladder.kept keep).residual taker type seq = ladder.residual taker type seq := by
    unfold Ladder.residual
    rw [swept]
  funext side
  rcases Side.eq_or_opposite taker.side side with rfl | rfl
  · rw [enter_own, swept, residual]
    unfold Ladder.kept
    rw [enter_own]
    split
    · rw [filter_enqueue (wellFormed.ordered _), if_pos (by exact kept)]
    · rfl
  · rw [enter_opposite, swept]
    unfold Ladder.kept
    rw [enter_opposite]

theorem apply_kept (wellFormed : ladder.WellFormed) (valid : isValidFeedMessage m = true) (kept : keep m.orderId = true)
    (within : ∀ fill ∈ (ladder.apply m).1, fill.Within keep) :
    (ladder.kept keep).apply m = ((ladder.apply m).1, (ladder.apply m).2.kept keep) := by
  unfold Ladder.apply at within ⊢
  rw [incoming_kept ladder kept, cleared_kept]
  cases brings : ladder.incoming m with
  | none => rfl
  | some pair =>
    obtain ⟨taker, type⟩ := pair
    rw [brings] at within
    obtain ⟨same, _⟩ := incoming_spec valid brings
    have shaped := wellFormed.cleared m
    have kept' : keep taker.orderId = true := by rw [same]; exact kept
    dsimp only at within ⊢
    rw [swept_kept shaped within, enter_kept shaped kept' within]

/-- A message of an order that is not kept does nothing to the others. -/
theorem apply_dropped (wellFormed : ladder.WellFormed) (valid : isValidFeedMessage m = true)
    (dropped : keep m.orderId = false) (within : ∀ fill ∈ (ladder.apply m).1, fill.Within keep) :
    (ladder.apply m).1 = [] ∧ (ladder.apply m).2.kept keep = ladder.kept keep := by
  have cleared : (ladder.cleared m).kept keep = ladder.kept keep := by
    unfold Ladder.cleared
    split
    · rfl
    · exact kept_remove ladder dropped
  unfold Ladder.apply at within ⊢
  cases brings : ladder.incoming m with
  | none => exact ⟨rfl, cleared⟩
  | some pair =>
    obtain ⟨taker, type⟩ := pair
    rw [brings] at within
    obtain ⟨same, _⟩ := incoming_spec valid brings
    have dropped' : keep taker.orderId = false := by rw [same]; exact dropped
    have shaped := wellFormed.cleared m
    dsimp only at within ⊢
    have silent : ((ladder.cleared m).swept taker type m.sequence).fills = [] := by
      refine List.eq_nil_iff_forall_not_mem.mpr (fun fill inside => ?_)
      obtain ⟨maker, _, qty, rfl⟩ := sweep_fill_of fill inside
      have kept := (Resting.fillBy_within.mp (within _ inside)).1
      rw [dropped'] at kept
      cases kept
    refine ⟨silent, Eq.trans ?_ cleared⟩
    have still := sweep_silent silent
    funext side
    unfold Ladder.kept
    rcases Side.eq_or_opposite taker.side side with rfl | rfl
    · rw [enter_own]
      split
      · rw [filter_enqueue (shaped.ordered _), if_neg (by simp [residual, dropped'])]
      · rfl
    · rw [enter_opposite]
      exact congrArg (fun swept => swept.rest.filter (fun order => keep order.orderId)) still

end Ladder

namespace MatchingEngine

theorem Idle.free_le {engine other : MatchingEngine} {queues queues' : Queues} {free free' : List Slot}
    (idle : engine.Idle queues free []) (idle' : other.Idle queues' free' [])
    (same : other.ladder queues' = (engine.ladder queues).kept keep)
    (capacity : other.pool.capacity = engine.pool.capacity) : free.length ≤ free'.length := by
  have count := idle.steady.sound.free_length
  have count' := idle'.steady.sound.free_length
  have fewer := List.length_filter_le (fun order : Resting => keep order.orderId) (engine.ladder queues).orders
  rw [same, Ladder.kept_orders, capacity] at count'
  omega

/-- The engine that is not given the messages of some orders is in the same state, but for these orders. -/
theorem feed_kept (messages : List FeedMessage) :
    ∀ {engine other : MatchingEngine} {queues queues' : Queues} {free free' : List Slot} {fills : List Fill}
      {last : MatchingEngine}, engine.Idle queues free [] → other.Idle queues' free' [] →
      other.ladder queues' = (engine.ladder queues).kept keep → other.pool.capacity = engine.pool.capacity →
      engine.PoolSuffices messages → engine.feed messages = some (fills, last) → (∀ fill ∈ fills, fill.Within keep) →
      ∃ last' queues₁ queues₁' free₁ free₁', other.feed (messages.filter (fun m => keep m.orderId)) = some (fills, last') ∧
        last.Idle queues₁ free₁ [] ∧ last'.Idle queues₁' free₁' [] ∧
        last'.ladder queues₁' = (last.ladder queues₁).kept keep := by
  induction messages with
  | nil =>
    intro engine other queues queues' free free' fills last idle idle' same _ _ ran _
    cases ran
    exact ⟨other, queues, queues', free, free', rfl, idle, idle', same⟩
  | cons m later ih =>
    intro engine other queues queues' free free' fills last idle idle' same capacity room ran within
    rcases idle.deliver m with ⟨ignored, result⟩ | ⟨_, valid, engine₁, queues₁, free₁, result, delivered⟩
    · -- the pool suffices, so that the message is invalid
      have invalid : isValidFeedMessage m = false := by
        by_contra valid
        have valid := Bool.eq_true_of_not_eq_false valid
        exact idle.taken valid (room.head valid) ignored
      rw [feed_cons engine m later result] at ran
      obtain ⟨⟨fills₁, last₁⟩, ran₁, pair⟩ := Option.map_eq_some_iff.mp ran
      cases pair
      obtain ⟨last', q, q', f, f', ran', rest⟩ := ih idle idle' same capacity (room.tail result) ran₁ within
      refine ⟨last', q, q', f, f', ?_, rest⟩
      by_cases kept : keep m.orderId = true
      · rw [List.filter_cons_of_pos (by exact kept), feed_cons other m _ (by rw [deliver, invalid]; rfl), ran']
        rfl
      · rw [List.filter_cons_of_neg (by exact kept)]
        exact ran'
    · rw [feed_cons engine m later result] at ran
      obtain ⟨⟨fills₁, last₁⟩, ran₁, pair⟩ := Option.map_eq_some_iff.mp ran
      cases pair
      have ⟨first, others⟩ := List.forall_mem_append.mp within
      have wellFormed := idle.steady.wellFormed
      by_cases kept : keep m.orderId = true
      · have taken' : ¬Ignored m free' := by
          rintro (invalid | ⟨kind, full⟩)
          · rw [valid] at invalid
            cases invalid
          · have fewer := idle.free_le idle' same capacity
            rw [full, List.length_nil, Nat.le_zero, List.length_eq_zero_iff] at fewer
            exact idle.taken valid (room.head valid) (Or.inr ⟨kind, fewer⟩)
        rcases idle'.deliver m with ⟨ignored', _⟩ | ⟨_, _, other₁, queues₁', free₁', result', delivered'⟩
        · exact absurd ignored' taken'
        have applied := Ladder.apply_kept wellFormed valid kept first
        rw [← same] at applied
        have same₁ : other₁.ladder queues₁' = (engine₁.ladder queues₁).kept keep := by
          rw [delivered'.ladder, delivered.ladder, applied]
        have capacity₁ : other₁.pool.capacity = engine₁.pool.capacity := by
          rw [delivered'.capacity, delivered.capacity, capacity]
        obtain ⟨last', q, q', f, f', ran', rest⟩ :=
          ih delivered.idle delivered'.idle same₁ capacity₁ (room.tail result) ran₁ others
        refine ⟨last', q, q', f, f', ?_, rest⟩
        rw [List.filter_cons_of_pos (by exact kept), feed_cons other m _ result', ran', applied]
        rfl
      · obtain ⟨silent, still⟩ := Ladder.apply_dropped wellFormed valid (Bool.eq_false_of_not_eq_true kept) first
        have same₁ : other.ladder queues' = (engine₁.ladder queues₁).kept keep := by
          rw [delivered.ladder, still, same]
        have capacity₁ : other.pool.capacity = engine₁.pool.capacity := by rw [delivered.capacity, capacity]
        obtain ⟨last', q, q', f, f', ran', rest⟩ := ih delivered.idle idle' same₁ capacity₁ (room.tail result) ran₁ others
        refine ⟨last', q, q', f, f', ?_, rest⟩
        rw [List.filter_cons_of_neg (by exact kept), silent]
        exact ran'

/-- The fills come from the messages of the orders that trade: a feed without the messages of orders that take part in no
fill gives the same fills, and the same book without these orders. -/
theorem feed_untraded (capacity : Nat) (feed : List FeedMessage) (room : (create capacity).PoolSuffices feed)
    (fills : List Fill) (engine : MatchingEngine) (ran : (create capacity).feed feed = some (fills, engine))
    (keep : UInt64 → Bool) (within : ∀ fill ∈ fills, fill.Within keep) :
    ∃ engine', (create capacity).feed (feed.filter (fun m => keep m.orderId)) = some (fills, engine') ∧
      ∀ side, engine'.listing side = (engine.listing side).filter (fun order => keep order.orderId) := by
  have same : (create capacity).ladder Queues.empty = ((create capacity).ladder Queues.empty).kept keep := by
    rw [create_ladder]
    rfl
  obtain ⟨engine', queues, queues', free, free', ran', idle, idle', same'⟩ :=
    feed_kept feed (Idle.create capacity) (Idle.create capacity) same rfl room ran within
  refine ⟨engine', ran', fun side => ?_⟩
  rw [idle'.steady.sound.listing_eq, idle.steady.sound.listing_eq, same']
  rfl

/-- Two offers, and a bid that takes some of the first. -/
def secondOffer : List FeedMessage :=
  [makeAdd 1 1 .SELL .LIMIT 100 5 7, makeAdd 2 2 .SELL .LIMIT 101 5 7, makeAdd 3 3 .BUY .LIMIT 100 3 7]

theorem feed_untraded_secondOffer : ∃ engine engine',
    (create 3).feed secondOffer = some ([⟨3, 1, 100, 3, 3, 7⟩], engine) ∧
      (create 3).feed (secondOffer.filter (fun m => m.orderId != 2)) = some ([⟨3, 1, 100, 3, 3, 7⟩], engine') ∧
      engine'.listing .SELL = (engine.listing .SELL).filter (fun order => order.orderId != 2) := by
  have room : (create 3).PoolSuffices secondOffer := (Idle.create 3).room (by decide)
  obtain ⟨engine', ran, same⟩ := feed_untraded 3 secondOffer room _ _ rfl (fun id => id != 2) (by
    intro fill inside
    obtain rfl := List.mem_singleton.mp inside
    exact ⟨rfl, rfl⟩)
  exact ⟨_, engine', rfl, ran, same .SELL⟩

end MatchingEngine

end ChronoBook
