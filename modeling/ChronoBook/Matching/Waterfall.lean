import ChronoBook.Library.Waterfall
import ChronoBook.Matching.Quantities
import ChronoBook.Matching.Refinement

/-! One incoming order, in closed form: which makers it meets, what each of them
gives, and what is left on the two sides afterwards. -/

namespace ChronoBook
open Library Priority Library.Waterfall

def sizes (makers : List Resting) : List Nat := makers.map (fun maker => maker.remainingQty.toNat)

def crossing (accepts : UInt32 → Bool) (makers : List Resting) : List Resting :=
  makers.takeWhile (fun maker => accepts maker.price)

def Resting.less (order : Resting) (units : Nat) : Resting :=
  { order with filledQty := order.filledQty + UInt32.ofNat units }

@[simp] theorem Resting.less_zero (order : Resting) : order.less 0 = order := by simp [Resting.less]

section Sweep
variable {accepts : UInt32 → Bool} {fillOf : Resting → UInt32 → Fill}

theorem crossing_cons {maker : Resting} (makers : List Resting) (accepted : accepts maker.price = true) :
    crossing accepts (maker :: makers) = maker :: crossing accepts makers := by
  simp [crossing, accepted]

theorem crossing_stop {maker : Resting} (makers : List Resting) (refused : accepts maker.price = false) :
    crossing accepts (maker :: makers) = [] := by
  simp [crossing, refused]

theorem sizes_cons (maker : Resting) (makers : List Resting) :
    sizes (maker :: makers) = maker.remainingQty.toNat :: sizes makers := rfl

/-- The fills of a sweep: one for each maker that are met until the units are used up. -/
theorem sweep_fills (left : UInt32) (makers : List Resting) (i : Nat) :
    (sweep accepts fillOf left makers).fills[i]? =
      if ahead (sizes (crossing accepts makers)) i < left.toNat then
        (crossing accepts makers)[i]?.map (fun maker =>
          fillOf maker (UInt32.ofNat (share (sizes (crossing accepts makers)) left.toNat i)))
      else none := by
  induction makers generalizing left i with
  | nil => simp [sweep, crossing]
  | cons maker makers ih =>
    by_cases refused : accepts maker.price = false
    · simp [sweep, crossing_stop makers refused, refused]
    rw [Bool.not_eq_false] at refused
    rw [crossing_cons makers refused, sizes_cons]
    by_cases none : left = 0
    · simp [sweep, none]
    have units : 0 < left.toNat := by
      rw [← UInt32.toNat_inj, UInt32.toNat_zero] at none
      omega
    rw [sweep, if_neg (by simp [none, refused])]
    by_cases covered : maker.remainingQty ≤ left
    · have value := UInt32.toNat_sub_of_le _ _ covered
      have within := UInt32.le_iff_toNat_le.mp covered
      simp only [if_pos covered]
      cases i with
      | zero => simp [units, Nat.min_eq_left within]
      | succ i =>
        have same : ahead (sizes (crossing accepts makers)) i < left.toNat - maker.remainingQty.toNat ↔
            maker.remainingQty.toNat + ahead (sizes (crossing accepts makers)) i < left.toNat := by omega
        rw [List.getElem?_cons_succ, ih, value, ahead_cons, share_tail]
        simp only [same, List.getElem?_cons_succ]
    · have under := UInt32.le_iff_toNat_le.not.mp covered
      simp only [if_neg covered]
      cases i with
      | zero => simp [units, Nat.min_eq_right (Nat.le_of_not_le under)]
      | succ i => simp [show ¬maker.remainingQty.toNat + ahead (sizes (crossing accepts makers)) i < left.toNat by omega]

theorem sweep_left (left : UInt32) (makers : List Resting) :
    (sweep accepts fillOf left makers).left.toNat = left.toNat - (sizes (crossing accepts makers)).sum := by
  induction makers generalizing left with
  | nil => simp [sweep, crossing, sizes]
  | cons maker makers ih =>
    by_cases refused : accepts maker.price = false
    · simp [sweep, crossing_stop makers refused, refused, sizes]
    rw [Bool.not_eq_false] at refused
    rw [crossing_cons makers refused, sizes_cons, List.sum_cons]
    by_cases none : left = 0
    · simp [sweep, none]
    rw [sweep, if_neg (by simp [none, refused])]
    by_cases covered : maker.remainingQty ≤ left
    · simp only [if_pos covered]
      rw [ih, UInt32.toNat_sub_of_le _ _ covered, Nat.sub_sub]
    · have under := UInt32.le_iff_toNat_le.not.mp covered
      simp only [if_neg covered, UInt32.toNat_zero]
      omega

/-- The makers a sweep leaves: the first ones are gone, and at most the next one is reduced. -/
theorem sweep_rest (left : UInt32) {makers : List Resting} (opened : ∀ maker ∈ makers, maker.remainingQty ≠ 0) :
    ∃ gone, gone ≤ (crossing accepts makers).length ∧
      (∀ i < gone, share (sizes (crossing accepts makers)) left.toNat i = (sizes (crossing accepts makers)).getD i 0) ∧
      (∀ i, gone < i → share (sizes (crossing accepts makers)) left.toNat i = 0) ∧
      (gone < (crossing accepts makers).length →
        share (sizes (crossing accepts makers)) left.toNat gone < (sizes (crossing accepts makers)).getD gone 0) ∧
      (sweep accepts fillOf left makers).rest =
        (makers.drop gone).modifyHead (fun maker =>
          maker.less (share (sizes (crossing accepts makers)) left.toNat gone)) := by
  induction makers generalizing left with
  | nil => exact ⟨0, by simp [sweep, crossing, sizes]⟩
  | cons maker makers ih =>
    have size : maker.remainingQty.toNat ≠ 0 := fun zero =>
      opened maker List.mem_cons_self (UInt32.toNat_inj.mp zero)
    by_cases refused : accepts maker.price = false
    · exact ⟨0, by simp [sweep, crossing_stop makers refused, refused, sizes]⟩
    rw [Bool.not_eq_false] at refused
    rw [crossing_cons makers refused, sizes_cons]
    by_cases none : left = 0
    · exact ⟨0, by simp [sweep, none, Nat.pos_of_ne_zero size]⟩
    rw [sweep, if_neg (by simp [none, refused])]
    by_cases covered : maker.remainingQty ≤ left
    · have value := UInt32.toNat_sub_of_le _ _ covered
      have within := UInt32.le_iff_toNat_le.mp covered
      obtain ⟨gone, few, full, dry, short, rest⟩ :=
        ih (left - maker.remainingQty) (fun other inside => opened other (List.mem_cons_of_mem _ inside))
      rw [value] at full dry short rest
      refine ⟨gone + 1, Nat.succ_le_succ few, ?_, ?_, ?_, ?_⟩
      · intro i before
        cases i with
        | zero => simp [Nat.min_eq_left within]
        | succ i => simpa using full i (Nat.lt_of_succ_lt_succ before)
      · intro i after
        cases i with
        | zero => omega
        | succ i => simpa using dry i (Nat.lt_of_succ_lt_succ after)
      · intro more
        simpa using short (Nat.lt_of_succ_lt_succ more)
      · simpa only [if_pos covered, List.drop_succ_cons, share_tail] using rest
    · have under := UInt32.le_iff_toNat_le.not.mp covered
      refine ⟨0, Nat.zero_le _, fun i before => absurd before (Nat.not_lt_zero i), ?_, ?_, ?_⟩
      · intro i after
        cases i with
        | zero => omega
        | succ i => simp [show left.toNat - maker.remainingQty.toNat = 0 by omega]
      · intro _
        simp only [share_head, List.getD_cons_zero]
        omega
      · simp only [if_neg covered, List.drop_zero, List.modifyHead_cons, share_head,
          Nat.min_eq_right (Nat.le_of_not_le under), Resting.less, UInt32.ofNat_toNat]

end Sweep

namespace Ladder

/-- The makers an incoming order may trade with, best price first and oldest first at one price. -/
def met (ladder : Ladder) (taker : Resting) (type : OrderType) : List Resting :=
  crossing (accepts taker type) (ladder taker.side.opposite)

/-- What the `i`-th of them gives: all it has, or what the ones before it leave to be filled. -/
def given (ladder : Ladder) (taker : Resting) (type : OrderType) (i : Nat) : Nat :=
  share (sizes (ladder.met taker type)) taker.remainingQty.toNat i

end Ladder

theorem sizes_getD {makers : List Resting} {i : Nat} {maker : Resting} (found : makers[i]? = some maker) :
    (sizes makers).getD i 0 = maker.remainingQty.toNat := by
  simp [sizes, found]

/-- An incoming order meets the lists `before`, trades as `fills` and leaves the lists `after`. -/
structure Waterfall (before : Ladder) (taker : Resting) (type : OrderType) (seq : UInt64) (fills : List Fill)
    (after : Ladder) : Prop where
  -- no maker it could trade with stands behind one it refuses
  met : ∀ maker ∈ before taker.side.opposite, Ladder.accepts taker type maker.price = true →
    maker ∈ before.met taker type
  count : ∀ i, i < fills.length ↔
    i < (before.met taker type).length ∧ ahead (sizes (before.met taker type)) i < taker.remainingQty.toNat
  fill : ∀ i maker fill, (before.met taker type)[i]? = some maker → fills[i]? = some fill →
    fill = maker.fillBy taker seq fill.qty ∧ fill.qty.toNat = before.given taker type i
  -- the first makers are used up, the next one may be reduced, and the others are as before
  opposite : ∃ gone, gone ≤ (before.met taker type).length ∧
    (∀ i maker, i < gone → (before.met taker type)[i]? = some maker →
      before.given taker type i = maker.remainingQty.toNat) ∧
    (∀ maker, (before.met taker type)[gone]? = some maker →
      before.given taker type gone < maker.remainingQty.toNat) ∧
    (∀ i, gone < i → before.given taker type i = 0) ∧
    after taker.side.opposite =
      ((before taker.side.opposite).drop gone).modifyHead (fun maker => maker.less (before.given taker type gone))
  own : ¬(type = .LIMIT ∧ (sizes (before.met taker type)).sum < taker.remainingQty.toNat) →
    after taker.side = before taker.side
  rests : type = .LIMIT → (sizes (before.met taker type)).sum < taker.remainingQty.toNat →
    ∃ front back residual, before taker.side = front ++ back ∧ after taker.side = front ++ residual :: back ∧
      (∀ order ∈ front, ¬taker.side.Ahead taker.price order.price) ∧
      (∀ order ∈ back, taker.side.Ahead taker.price order.price) ∧
      residual = { taker with filledQty := residual.filledQty } ∧
      residual.remainingQty.toNat = taker.remainingQty.toNat - (sizes (before.met taker type)).sum

theorem Ladder.swept_left_ne (ladder : Ladder) (taker : Resting) (type : OrderType) (seq : UInt64) :
    (ladder.swept taker type seq).left ≠ 0 ↔ (sizes (ladder.met taker type)).sum < taker.remainingQty.toNat := by
  have left : (ladder.swept taker type seq).left.toNat = _ := sweep_left taker.remainingQty _
  rw [Ne, ← UInt32.toNat_inj, left, UInt32.toNat_zero]
  change ¬taker.remainingQty.toNat - (sizes (ladder.met taker type)).sum = 0 ↔ _
  omega

namespace Ladder.WellFormed

variable {ladder : Ladder}

theorem remaining_ne (wellFormed : ladder.WellFormed) {side : Side} {maker : Resting} (inside : maker ∈ ladder side) :
    maker.remainingQty ≠ 0 := by
  have opened := UInt32.lt_iff_toNat_lt.mp (wellFormed.opened side maker inside)
  rw [Ne, ← UInt32.toNat_inj, Resting.remainingQty_toNat, UInt32.toNat_zero]
  omega

theorem met_all (wellFormed : ladder.WellFormed) (taker : Resting) (type : OrderType) :
    ∀ maker ∈ ladder taker.side.opposite, Ladder.accepts taker type maker.price = true →
      maker ∈ ladder.met taker type := by
  have ordered := wellFormed.ordered taker.side.opposite
  unfold Ladder.met
  generalize ladder taker.side.opposite = makers at ordered
  unfold Ordered at ordered
  induction makers with
  | nil => simp
  | cons first rest ih =>
    rw [List.pairwise_cons] at ordered
    intro maker inside accepted
    have reached : Ladder.accepts taker type first.price = true := by
      rcases List.mem_cons.mp inside with same | later
      · rw [← same]
        exact accepted
      · by_contra refused
        rw [Ladder.accepts_worse (Bool.eq_false_of_not_eq_true refused) (ordered.1 maker later)] at accepted
        cases accepted
    rw [crossing_cons rest reached, List.mem_cons]
    rcases List.mem_cons.mp inside with same | later
    · exact Or.inl same
    · exact Or.inr (ih ordered.2 maker later accepted)

theorem waterfall (wellFormed : ladder.WellFormed) (taker : Resting) (type : OrderType) (seq : UInt64) :
    Waterfall ladder taker type seq (ladder.swept taker type seq).fills (ladder.enter taker type seq) := by
  have fills : ∀ i, (ladder.swept taker type seq).fills[i]? = _ := sweep_fills taker.remainingQty _
  have left : (ladder.swept taker type seq).left.toNat = _ := sweep_left taker.remainingQty _
  have units := ladder.swept_left_ne taker type seq
  refine ⟨wellFormed.met_all taker type, ?_, ?_, ?_, ?_, ?_⟩
  · intro i
    rw [← not_iff_not, Nat.not_lt, ← List.getElem?_eq_none_iff, fills i]
    change (if ahead (sizes (ladder.met taker type)) i < taker.remainingQty.toNat then
      (ladder.met taker type)[i]?.map _ else none) = none ↔ _
    split
    next some => simp [some]
    next none => simp [none]
  · intro i maker fill found emitted
    rw [fills i] at emitted
    change (if ahead (sizes (ladder.met taker type)) i < taker.remainingQty.toNat then
      (ladder.met taker type)[i]?.map (fun maker =>
        maker.fillBy taker seq (UInt32.ofNat (ladder.given taker type i))) else none) = some fill at emitted
    split at emitted
    · rw [found, Option.map_some] at emitted
      cases emitted
      have within : ladder.given taker type i ≤ maker.remainingQty.toNat := by
        rw [← sizes_getD found]
        exact Nat.min_le_left _ _
      have small := maker.remainingQty.toNat_lt
      refine ⟨rfl, ?_⟩
      change (UInt32.ofNat (ladder.given taker type i)).toNat = _
      exact UInt32.toNat_ofNat_of_lt' (Nat.lt_of_le_of_lt within small)
    · cases emitted
  · obtain ⟨gone, few, full, dry, short, rest⟩ :=
      @sweep_rest (Ladder.accepts taker type) (fun maker => maker.fillBy taker seq) taker.remainingQty
        (ladder taker.side.opposite) (fun maker inside => wellFormed.remaining_ne inside)
    refine ⟨gone, few, ?_, ?_, dry, ?_⟩
    · intro i maker before found
      rw [← sizes_getD found]
      exact full i before
    · intro maker found
      rw [← sizes_getD found]
      exact short (List.getElem?_eq_some_iff.mp found).1
    · rw [Ladder.enter_opposite]
      exact rest
  · intro leaves
    have nothing : ¬((ladder.swept taker type seq).left ≠ 0 ∧ type = .LIMIT) := by
      rw [units]
      exact fun stays => leaves ⟨stays.2, stays.1⟩
    rw [Ladder.enter_own, if_neg nothing]
  · intro limit some
    obtain ⟨front, back, split, joined, notAhead, allAhead⟩ :=
      enqueue_split (wellFormed.ordered taker.side) (ladder.residual taker type seq)
    refine ⟨front, back, ladder.residual taker type seq, split, ?_, notAhead, allAhead, rfl, ?_⟩
    · rw [Ladder.enter_own, if_pos ⟨units.mpr some, limit⟩]
      exact joined
    · have within := UInt32.le_iff_toNat_le.mp (Ladder.swept_left_le ladder taker type seq)
      have value := UInt32.toNat_sub_of_le _ _ (Ladder.swept_left_le ladder taker type seq)
      rw [Resting.remainingQty_toNat]
      change taker.qty.toNat - (taker.qty - (ladder.swept taker type seq).left).toNat = _
      rw [value, Nat.sub_sub_self within, left]
      rfl

end Ladder.WellFormed

namespace MatchingEngine

theorem Sound.listing {engine : MatchingEngine} {queues : Queues} {free others : List Slot}
    (sound : engine.Sound queues free others) : engine.listing = engine.ladder queues :=
  funext sound.listing_eq

/-- From every reachable state, an order with a new id is matched as the waterfall says, and the call returns. -/
theorem price_time_waterfall (capacity : Nat) (messages : List FeedMessage) {fills : List Fill}
    {engine engine₁ : MatchingEngine} (reached : (MatchingEngine.create capacity).feed messages = some (fills, engine))
    {m : FeedMessage} (valid : isValidFeedMessage m = true) {slot : Slot}
    (given : engine.presented m = some (engine₁, slot))
    (fresh : engine₁.book.containsOrder (engine₁.order slot).orderId = false) (seq : UInt64) :
    ∃ engine' trades, engine₁.processOrder (some slot) seq = some engine' ∧ engine'.fills = engine₁.fills ++ trades ∧
      Waterfall engine₁.listing (engine₁.order slot).resting (engine₁.order slot).type seq trades engine'.listing ∧
      (engine'.book.containsOrder (engine₁.order slot).orderId = true ↔ (engine₁.order slot).type = .LIMIT ∧
        (sizes (Ladder.met engine₁.listing (engine₁.order slot).resting (engine₁.order slot).type)).sum <
          (engine₁.order slot).remainingQty.toNat) := by
  obtain ⟨_, _, queues, free, ran, idle, _⟩ := Idle.feed messages (Idle.create capacity)
  rw [reached] at ran
  cases ran
  obtain ⟨queues₁, free₁, sound, ladder, unfilled, priced⟩ := idle.steady.presented valid given
  have wellFormed : (engine₁.ladder queues₁).WellFormed := ladder ▸ idle.steady.wellFormed.cleared m
  have absent : (engine₁.ladder queues₁).find? (engine₁.order slot).orderId = none := by
    apply sound.orderMap_eq_none.mp
    simpa [OrderBook.containsOrder] using fresh
  have limited : (engine₁.order slot).type = .LIMIT → (engine₁.order slot).price ≠ 0 := by
    intro limit
    exact priced (by rw [limit]; decide)
  obtain ⟨engine', queues', free', result, entered⟩ :=
    sound.processOrder (unfilled ▸ UInt32.zero_le) wellFormed.opened limited absent seq
  refine ⟨engine', _, result, entered.fills, ?_, ?_⟩
  · rw [sound.listing, entered.sound.listing, entered.ladder]
    exact wellFormed.waterfall _ _ seq
  · have kept := Ladder.find?_enter (engine₁.ladder queues₁) (engine₁.order slot).resting (engine₁.order slot).type seq
      (Ladder.find?_eq_none.mp absent)
    rw [Ladder.swept_left_ne, ← entered.ladder, ← sound.listing, and_comm] at kept
    rw [OrderBook.containsOrder, Option.isSome_iff_ne_none]
    exact (not_congr (entered.sound.orderMap_eq_none.trans kept)).trans not_not

/-- An ask of five units, of which a bid takes three, is met by the next bid with the two that are left. -/
theorem price_time_waterfall_sample :
    ∃ engine engine₁ slot engine' trades, (MatchingEngine.create 2).feed sampleFeed = some ([⟨2, 1, 100, 3, 2, 7⟩], engine) ∧
      engine.presented (makeAdd 3 3 .BUY .LIMIT 102 4 7) = some (engine₁, slot) ∧
      engine₁.processOrder (some slot) 3 = some engine' ∧ engine'.fills = engine₁.fills ++ trades ∧
      Waterfall engine₁.listing (engine₁.order slot).resting (engine₁.order slot).type 3 trades engine'.listing := by
  have reached : (MatchingEngine.create 2).feed sampleFeed = some ([⟨2, 1, 100, 3, 2, 7⟩], _) := rfl
  have given : (Option.get ((MatchingEngine.create 2).feed sampleFeed) rfl).2.presented (makeAdd 3 3 .BUY .LIMIT 102 4 7) =
    some (_, _) := rfl
  obtain ⟨engine', trades, result, fills, waterfall, _⟩ := price_time_waterfall 2 sampleFeed reached rfl given rfl 3
  exact ⟨_, _, _, engine', trades, reached, given, result, fills, waterfall⟩

end MatchingEngine

end ChronoBook
