import ChronoBook.Matching.PriceTime

/-! The laws of price-time priority: what a sweep can change, and that every
message keeps the priority lists sorted, open, uniquely named and uncrossed. -/

namespace ChronoBook
open Library Priority

/-- The order as it was submitted. -/
def Resting.terms (order : Resting) : Resting := { order with filledQty := 0 }

section Sweep
variable {accepts : UInt32 → Bool} {fillOf : Resting → UInt32 → Fill}

/-- What does not depend on the matched units changes only by dropping makers. -/
theorem sweep_rest_sublist {β : Type} (view : Resting → β)
    (stable : ∀ maker filled, view { maker with filledQty := filled } = view maker) (left : UInt32)
    (makers : List Resting) :
    ((sweep accepts fillOf left makers).rest.map view).Sublist (makers.map view) := by
  induction makers generalizing left with
  | nil => exact List.Sublist.slnil
  | cons maker makers ih =>
    unfold sweep
    split
    · exact List.Sublist.refl _
    split
    · exact (ih _).cons _
    · simp only [List.map_cons, stable]
      exact List.Sublist.refl _

theorem sweep_left_le (left : UInt32) (makers : List Resting) : (sweep accepts fillOf left makers).left ≤ left := by
  induction makers generalizing left with
  | nil => exact UInt32.le_refl left
  | cons maker makers ih =>
    unfold sweep
    split
    · exact UInt32.le_refl left
    split
    next covered =>
      have smaller : left - maker.remainingQty ≤ left := by
        rw [UInt32.le_iff_toNat_le, UInt32.toNat_sub_of_le _ _ covered]
        omega
      exact UInt32.le_trans (ih _) smaller
    · exact UInt32.zero_le

theorem sweep_rest_open {left : UInt32} {makers : List Resting}
    (opened : ∀ maker ∈ makers, maker.filledQty < maker.qty) :
    ∀ maker ∈ (sweep accepts fillOf left makers).rest, maker.filledQty < maker.qty := by
  induction makers generalizing left with
  | nil =>
    intro maker inside
    cases inside
  | cons first makers ih =>
    have later : ∀ maker ∈ makers, maker.filledQty < maker.qty :=
      fun maker inside => opened maker (List.mem_cons_of_mem _ inside)
    unfold sweep
    split
    · exact opened
    split
    · exact ih later
    next uncovered =>
      intro maker inside
      rcases List.mem_cons.mp inside with same | old
      · have firstOpen := opened first List.mem_cons_self
        have remaining := first.remainingQty_toNat
        rw [same]
        rw [UInt32.not_le, UInt32.lt_iff_toNat_lt] at uncovered
        rw [UInt32.lt_iff_toNat_lt] at firstOpen ⊢
        change (first.filledQty + left).toNat < first.qty.toNat
        have small := first.qty.toNat_lt
        rw [UInt32.toNat_add, Nat.mod_eq_of_lt (by omega)]
        omega
      · exact later maker old

/-- A taker with units left has met a price it does not accept, and all later prices are no better. -/
theorem sweep_exhausted {before : UInt32 → UInt32 → Prop} {left : UInt32} {makers : List Resting}
    (ordered : Ordered before Resting.price makers)
    (worse : ∀ first second, accepts first = false → ¬before second first → accepts second = false)
    (units : (sweep accepts fillOf left makers).left ≠ 0) :
    ∀ maker ∈ (sweep accepts fillOf left makers).rest, accepts maker.price = false := by
  induction makers generalizing left with
  | nil =>
    intro maker inside
    cases inside
  | cons first makers ih =>
    unfold Ordered at ordered
    rw [List.pairwise_cons] at ordered
    unfold sweep at units ⊢
    split
    next stop =>
      rw [if_pos stop] at units
      intro maker inside
      have refused : accepts first.price = false := stop.resolve_left units
      rcases List.mem_cons.mp inside with same | later
      · rw [same]
        exact refused
      · exact worse first.price maker.price refused (ordered.1 maker later)
    next going =>
      rw [if_neg going] at units
      split
      next covered =>
        rw [if_pos covered] at units
        exact ih ordered.2 units
      next uncovered =>
        rw [if_neg uncovered] at units
        exact absurd rfl units

end Sweep

namespace Ladder

structure WellFormed (ladder : Ladder) : Prop where
  sided : ∀ side, ∀ order ∈ ladder side, order.side = side
  opened : ∀ side, ∀ order ∈ ladder side, order.filledQty < order.qty
  priced : ∀ side, ∀ order ∈ ladder side, order.price ≠ 0
  ordered : ∀ side, Ordered side.Ahead Resting.price (ladder side)
  distinct : ∀ side, ((ladder side).map Resting.orderId).Nodup
  apart : ∀ side, ∀ order ∈ ladder side, ∀ other ∈ ladder side.opposite, order.orderId ≠ other.orderId
  uncrossed : ∀ side, ∀ order ∈ ladder side, ∀ other ∈ ladder side.opposite,
    side.crosses other.price order.price = false

theorem mem_orders {ladder : Ladder} {order : Resting} : order ∈ ladder.orders ↔ ∃ side, order ∈ ladder side := by
  unfold orders
  rw [List.mem_append]
  constructor
  · intro inside
    rcases inside with bid | ask
    · exact ⟨.BUY, bid⟩
    · exact ⟨.SELL, ask⟩
  · intro inside
    obtain ⟨side, inside⟩ := inside
    cases side with
    | BUY => exact Or.inl inside
    | SELL => exact Or.inr inside

theorem find?_eq_none {ladder : Ladder} {id : UInt64} :
    ladder.find? id = none ↔ ∀ side, ∀ order ∈ ladder side, order.orderId ≠ id := by
  unfold find?
  simp only [List.find?_eq_none, decide_eq_true_eq, mem_orders]
  exact ⟨fun absent side order inside => absent order ⟨side, inside⟩,
    fun absent order inside => absent inside.choose order inside.choose_spec⟩

theorem mem_of_find? {ladder : Ladder} {id : UInt64} {order : Resting} (found : ladder.find? id = some order) :
    (∃ side, order ∈ ladder side) ∧ order.orderId = id := by
  unfold find? at found
  exact ⟨mem_orders.mp (List.mem_of_find?_eq_some found), by simpa using List.find?_some found⟩

theorem swept_rest_sublist (ladder : Ladder) (taker : Resting) (type : OrderType) (seq : UInt64) :
    ((ladder.swept taker type seq).rest.map Resting.terms).Sublist ((ladder taker.side.opposite).map Resting.terms) :=
  sweep_rest_sublist Resting.terms (fun _ _ => rfl) _ _

theorem swept_left_le (ladder : Ladder) (taker : Resting) (type : OrderType) (seq : UInt64) :
    (ladder.swept taker type seq).left ≤ taker.qty := by
  have all : taker.remainingQty ≤ taker.qty := by
    rw [UInt32.le_iff_toNat_le, Resting.remainingQty_toNat]
    omega
  exact UInt32.le_trans (sweep_left_le _ _) all

theorem residual_open {ladder : Ladder} {taker : Resting} {type : OrderType} {seq : UInt64}
    (units : (ladder.swept taker type seq).left ≠ 0) :
    (ladder.residual taker type seq).filledQty < (ladder.residual taker type seq).qty := by
  change taker.qty - (ladder.swept taker type seq).left < taker.qty
  have within := swept_left_le ladder taker type seq
  have positive : (ladder.swept taker type seq).left.toNat ≠ 0 := fun zero => units (UInt32.toNat_inj.mp zero)
  rw [UInt32.lt_iff_toNat_lt, UInt32.toNat_sub_of_le _ _ within]
  rw [UInt32.le_iff_toNat_le] at within
  omega

theorem accepts_of_limit {taker : Resting} {type : OrderType} (limited : type ≠ .MARKET) (price : UInt32) :
    accepts taker type price = taker.side.crosses price taker.price := by
  simp [accepts, limited]

theorem accepts_worse {taker : Resting} {type : OrderType} {first second : UInt32}
    (refused : accepts taker type first = false) (behind : ¬taker.side.opposite.Ahead second first) :
    accepts taker type second = false := by
  have limited : type ≠ .MARKET := by
    intro market
    rw [market] at refused
    simp [accepts] at refused
  rw [accepts_of_limit limited, ← Bool.not_eq_true, Side.crosses_iff, not_not] at refused ⊢
  exact not_before_of_before behind refused

/-- A taker that still has units has left nothing it could trade with. -/
theorem swept_clear {ladder : Ladder} {taker : Resting} {type : OrderType} {seq : UInt64}
    (ordered : Ordered taker.side.opposite.Ahead Resting.price (ladder taker.side.opposite)) (limited : type ≠ .MARKET)
    (units : (ladder.swept taker type seq).left ≠ 0) :
    ∀ other ∈ (ladder.swept taker type seq).rest, taker.side.crosses other.price taker.price = false := by
  intro other inside
  rw [← accepts_of_limit limited]
  exact sweep_exhausted ordered (fun _ _ refused behind => accepts_worse refused behind) units other inside

theorem enter_opposite (ladder : Ladder) (taker : Resting) (type : OrderType) (seq : UInt64) :
    ladder.enter taker type seq taker.side.opposite = (ladder.swept taker type seq).rest := by
  unfold enter
  split
  · rw [Function.update_of_ne (Side.opposite_ne _), Function.update_self]
  · rw [Function.update_self]

theorem enter_own (ladder : Ladder) (taker : Resting) (type : OrderType) (seq : UInt64) :
    ladder.enter taker type seq taker.side =
      if (ladder.swept taker type seq).left ≠ 0 ∧ type = .LIMIT then
        enqueue taker.side.Ahead Resting.price (ladder.residual taker type seq) (ladder taker.side)
      else ladder taker.side := by
  unfold enter
  split
  · exact Function.update_self ..
  · exact Function.update_of_ne (Ne.symm (Side.opposite_ne _)) _ _

theorem mem_enter {ladder : Ladder} {taker : Resting} {type : OrderType} {seq : UInt64} {side : Side} {order : Resting}
    (inside : order ∈ ladder.enter taker type seq side) :
    order ∈ (ladder.swept taker type seq).rest ∨ order ∈ ladder taker.side ∨
      order = ladder.residual taker type seq := by
  rcases Side.eq_or_opposite taker.side side with same | opposite
  · rw [same, enter_own] at inside
    split at inside
    · rcases mem_enqueue.mp inside with joined | old
      · exact Or.inr (Or.inr joined)
      · exact Or.inr (Or.inl old)
    · exact Or.inr (Or.inl inside)
  · rw [opposite, enter_opposite] at inside
    exact Or.inl inside

theorem orders_length (ladder : Ladder) (side : Side) :
    ladder.orders.length = (ladder side).length + (ladder side.opposite).length := by
  unfold orders
  rw [List.length_append]
  cases side with
  | BUY => rfl
  | SELL => exact Nat.add_comm _ _

theorem enter_length (ladder : Ladder) (taker : Resting) (type : OrderType) (seq : UInt64) :
    (ladder.enter taker type seq).orders.length ≤ ladder.orders.length + 1 := by
  have shorter := (swept_rest_sublist ladder taker type seq).length_le
  rw [List.length_map, List.length_map] at shorter
  rw [orders_length _ taker.side, orders_length ladder taker.side, enter_own, enter_opposite]
  split
  · rw [(enqueue_perm _ _).length_eq, List.length_cons]
    omega
  · omega

namespace WellFormed

variable {ladder : Ladder}

theorem empty : Ladder.empty.WellFormed where
  sided := by
    intro side order inside
    cases inside
  opened := by
    intro side order inside
    cases inside
  priced := by
    intro side order inside
    cases inside
  ordered := fun _ => List.Pairwise.nil
  distinct := fun _ => List.nodup_nil
  apart := by
    intro side order inside
    cases inside
  uncrossed := by
    intro side order inside
    cases inside

theorem eq_of_id (wellFormed : ladder.WellFormed) {side other : Side} {first second : Resting}
    (here : first ∈ ladder side) (there : second ∈ ladder other) (same : first.orderId = second.orderId) :
    first = second := by
  rcases Side.eq_or_opposite side other with sameSide | opposite
  · rw [sameSide] at there
    exact List.inj_on_of_nodup_map (wellFormed.distinct side) here there same
  · rw [opposite] at there
    exact absurd same (wellFormed.apart side first here second there)

theorem find?_eq_some (wellFormed : ladder.WellFormed) {side : Side} {order : Resting} (inside : order ∈ ladder side) :
    ladder.find? order.orderId = some order := by
  cases found : ladder.find? order.orderId with
  | none => exact absurd rfl (find?_eq_none.mp found side order inside)
  | some other =>
    obtain ⟨⟨place, there⟩, same⟩ := mem_of_find? found
    rw [wellFormed.eq_of_id there inside same]

theorem mem_of_shrink {items items' : List Resting}
    (sub : (items'.map Resting.terms).Sublist (items.map Resting.terms)) {order : Resting} (inside : order ∈ items') :
    ∃ old ∈ items, old.orderId = order.orderId ∧ old.price = order.price ∧ old.side = order.side := by
  obtain ⟨old, there, same⟩ := List.mem_map.mp (sub.subset (List.mem_map_of_mem inside))
  have id := congrArg Resting.orderId same
  have price := congrArg Resting.price same
  have side := congrArg Resting.side same
  exact ⟨old, there, id, price, side⟩

theorem fresh_hit (taker : Resting) (type : OrderType) (seq : UInt64) {id : UInt64}
    (fresh : ∀ side, ∀ other ∈ ladder side, other.orderId ≠ id) :
    ∀ side, ∀ other ∈ Function.update ladder taker.side.opposite (ladder.swept taker type seq).rest side,
      other.orderId ≠ id := by
  intro side other inside
  by_cases same : side = taker.side.opposite
  · subst same
    rw [Function.update_self] at inside
    obtain ⟨old, there, sameId, _⟩ := mem_of_shrink (swept_rest_sublist ladder taker type seq) inside
    rw [← sameId]
    exact fresh taker.side.opposite old there
  · rw [Function.update_of_ne same] at inside
    exact fresh side other inside

/-- Dropping orders, or filling some of them further, keeps the invariant. -/
theorem shrink (wellFormed : ladder.WellFormed) {ladder' : Ladder}
    (sub : ∀ side, ((ladder' side).map Resting.terms).Sublist ((ladder side).map Resting.terms))
    (opened : ∀ side, ∀ order ∈ ladder' side, order.filledQty < order.qty) : ladder'.WellFormed where
  sided := by
    intro side order inside
    obtain ⟨old, there, _, _, same⟩ := mem_of_shrink (sub side) inside
    rw [← same]
    exact wellFormed.sided side old there
  opened := opened
  priced := by
    intro side order inside
    obtain ⟨old, there, _, same, _⟩ := mem_of_shrink (sub side) inside
    rw [← same]
    exact wellFormed.priced side old there
  ordered := by
    intro side
    have pairs : ∀ items : List Resting, Ordered side.Ahead Resting.price items ↔
        (items.map Resting.terms).Pairwise (fun first second => ¬side.Ahead second.price first.price) := by
      intro items
      rw [List.pairwise_map]
      exact Iff.rfl
    have sorted := wellFormed.ordered side
    rw [pairs] at sorted ⊢
    exact sorted.sublist (sub side)
  distinct := by
    intro side
    have names : ∀ items : List Resting, items.map Resting.orderId = (items.map Resting.terms).map Resting.orderId := by
      intro items
      rw [List.map_map]
      rfl
    have old := wellFormed.distinct side
    rw [names] at old ⊢
    exact old.sublist ((sub side).map _)
  apart := by
    intro side order inside other there
    obtain ⟨old, oldInside, same, _⟩ := mem_of_shrink (sub side) inside
    obtain ⟨partner, partnerInside, partnerSame, _⟩ := mem_of_shrink (sub side.opposite) there
    rw [← same, ← partnerSame]
    exact wellFormed.apart side old oldInside partner partnerInside
  uncrossed := by
    intro side order inside other there
    obtain ⟨old, oldInside, _, same, _⟩ := mem_of_shrink (sub side) inside
    obtain ⟨partner, partnerInside, _, partnerSame, _⟩ := mem_of_shrink (sub side.opposite) there
    rw [← same, ← partnerSame]
    exact wellFormed.uncrossed side old oldInside partner partnerInside

theorem remove (wellFormed : ladder.WellFormed) (id : UInt64) : (ladder.remove id).WellFormed := by
  apply wellFormed.shrink
  · intro side
    exact List.filter_sublist.map _
  · intro side order inside
    exact wellFormed.opened side order (List.mem_of_mem_filter inside)

theorem hit (wellFormed : ladder.WellFormed) (side : Side) (accepts : UInt32 → Bool)
    (fillOf : Resting → UInt32 → Fill) (left : UInt32) :
    Ladder.WellFormed (Function.update ladder side (sweep accepts fillOf left (ladder side)).rest) := by
  apply wellFormed.shrink
  · intro other
    by_cases same : other = side
    · subst same
      rw [Function.update_self]
      exact sweep_rest_sublist Resting.terms (fun _ _ => rfl) left _
    · rw [Function.update_of_ne same]
  · intro other
    by_cases same : other = side
    · subst same
      rw [Function.update_self]
      exact sweep_rest_open (wellFormed.opened other)
    · rw [Function.update_of_ne same]
      exact wellFormed.opened other

/-- A new order rests where it crosses nothing. -/
theorem rest (wellFormed : ladder.WellFormed) {order : Resting} (opened : order.filledQty < order.qty)
    (priced : order.price ≠ 0) (fresh : ∀ side, ∀ other ∈ ladder side, other.orderId ≠ order.orderId)
    (clear : ∀ other ∈ ladder order.side.opposite, order.side.crosses other.price order.price = false) :
    Ladder.WellFormed (Function.update ladder order.side
      (enqueue order.side.Ahead Resting.price order (ladder order.side))) := by
  have members : ∀ side other, other ∈ Function.update ladder order.side
      (enqueue order.side.Ahead Resting.price order (ladder order.side)) side →
      other ∈ ladder side ∨ (side = order.side ∧ other = order) := by
    intro side other inside
    by_cases same : side = order.side
    · subst same
      rw [Function.update_self, mem_enqueue] at inside
      rcases inside with new | old
      · exact Or.inr ⟨rfl, new⟩
      · exact Or.inl old
    · rw [Function.update_of_ne same] at inside
      exact Or.inl inside
  refine ⟨?_, ?_, ?_, ?_, ?_, ?_, ?_⟩
  · intro side other inside
    rcases members side other inside with old | ⟨same, new⟩
    · exact wellFormed.sided side other old
    · rw [new, same]
  · intro side other inside
    rcases members side other inside with old | ⟨_, new⟩
    · exact wellFormed.opened side other old
    · rw [new]
      exact opened
  · intro side other inside
    rcases members side other inside with old | ⟨_, new⟩
    · exact wellFormed.priced side other old
    · rw [new]
      exact priced
  · intro side
    by_cases same : side = order.side
    · subst same
      rw [Function.update_self]
      exact enqueue_ordered (wellFormed.ordered order.side) order
    · rw [Function.update_of_ne same]
      exact wellFormed.ordered side
  · intro side
    by_cases same : side = order.side
    · subst same
      rw [Function.update_self, ((enqueue_perm order (ladder order.side)).map Resting.orderId).nodup_iff, List.map_cons,
        List.nodup_cons]
      refine ⟨?_, wellFormed.distinct order.side⟩
      intro taken
      obtain ⟨other, inside, sameId⟩ := List.mem_map.mp taken
      exact fresh order.side other inside sameId
    · rw [Function.update_of_ne same]
      exact wellFormed.distinct side
  · intro side first inside second there sameId
    rcases members side first inside with old | ⟨same, new⟩
    · rcases members side.opposite second there with old' | ⟨_, new'⟩
      · exact wellFormed.apart side first old second old' sameId
      · exact fresh side first old (new' ▸ sameId)
    · rcases members side.opposite second there with old' | ⟨same', _⟩
      · exact fresh side.opposite second old' (new ▸ sameId.symm)
      · exact Side.opposite_ne side (same'.trans same.symm)
  · intro side first inside second there
    rcases members side first inside with old | ⟨same, new⟩
    · rcases members side.opposite second there with old' | ⟨same', new'⟩
      · exact wellFormed.uncrossed side first old second old'
      · have back : order.side.opposite = side := by rw [← same', Side.opposite_opposite]
        rw [new', ← Side.crosses_opposite, same']
        exact clear first (back ▸ old)
    · rcases members side.opposite second there with old' | ⟨same', _⟩
      · rw [new, same]
        rw [same] at old'
        exact clear second old'
      · exact absurd (same'.trans same.symm) (Side.opposite_ne side)

theorem enter (wellFormed : ladder.WellFormed) {taker : Resting} {type : OrderType} (seq : UInt64)
    (priced : type = .LIMIT → taker.price ≠ 0)
    (fresh : ∀ side, ∀ other ∈ ladder side, other.orderId ≠ taker.orderId) :
    (ladder.enter taker type seq).WellFormed := by
  have hit := wellFormed.hit taker.side.opposite (accepts taker type) (fun maker => maker.fillBy taker seq)
    taker.remainingQty
  unfold Ladder.enter
  split
  next stays =>
    obtain ⟨units, limit⟩ := stays
    subst limit
    have own : Function.update ladder taker.side.opposite (ladder.swept taker .LIMIT seq).rest taker.side =
        ladder taker.side := Function.update_of_ne (Ne.symm (Side.opposite_ne taker.side)) _ _
    have clear : ∀ other ∈ Function.update ladder taker.side.opposite (ladder.swept taker .LIMIT seq).rest
        taker.side.opposite, taker.side.crosses other.price taker.price = false := by
      rw [Function.update_self]
      exact swept_clear (wellFormed.ordered taker.side.opposite) (by decide) units
    have rested := hit.rest (residual_open units) (priced rfl) (fresh_hit taker .LIMIT seq fresh) clear
    change Ladder.WellFormed (Function.update _ taker.side (enqueue taker.side.Ahead Resting.price _
      (Function.update ladder taker.side.opposite (ladder.swept taker .LIMIT seq).rest taker.side))) at rested
    rw [own] at rested
    exact rested
  · exact hit

theorem cleared (wellFormed : ladder.WellFormed) (m : FeedMessage) : (ladder.cleared m).WellFormed := by
  unfold Ladder.cleared
  split
  · exact wellFormed
  · exact wellFormed.remove m.orderId

end WellFormed

theorem mem_remove {ladder : Ladder} {id : UInt64} {side : Side} {order : Resting} :
    order ∈ ladder.remove id side ↔ order ∈ ladder side ∧ order.orderId ≠ id := by
  unfold remove
  rw [List.mem_filter, decide_eq_true_eq]

theorem mem_of_cleared {ladder : Ladder} {m : FeedMessage} {side : Side} {order : Resting}
    (inside : order ∈ ladder.cleared m side) : order ∈ ladder side := by
  unfold cleared at inside
  split at inside
  · exact inside
  · exact (mem_remove.mp inside).1

/-- What a message brings in carries the message's id, which no longer rests, and may rest if it is a LIMIT order. -/
theorem incoming_spec {ladder : Ladder} {m : FeedMessage} (valid : isValidFeedMessage m = true) {taker : Resting}
    {type : OrderType} (brings : ladder.incoming m = some (taker, type)) :
    taker.orderId = m.orderId ∧ taker.qty = m.qty ∧ taker.filledQty = 0 ∧ taker.qty ≠ 0 ∧
      (type ≠ .MARKET → taker.price ≠ 0) ∧ taker.price = m.price ∧
      ∀ side, ∀ other ∈ ladder.cleared m side, other.orderId ≠ taker.orderId := by
  cases accepted_of_valid valid with
  | add kind qty price =>
    unfold incoming at brings
    rw [if_pos kind] at brings
    split at brings
    · cases brings
    next absent =>
      cases brings
      refine ⟨rfl, rfl, rfl, qty, price, rfl, ?_⟩
      unfold cleared
      rw [if_pos kind]
      exact find?_eq_none.mp (Option.not_isSome_iff_eq_none.mp absent)
  | cancel kind =>
    unfold incoming at brings
    rw [if_neg (by rw [kind]; decide), if_pos kind] at brings
    cases brings
  | modify kind price qty =>
    have notAdd : ¬m.msgType = MsgType.ADD.byte := by rw [kind]; decide
    unfold incoming at brings
    rw [if_neg notAdd, if_neg (by rw [kind]; decide)] at brings
    obtain ⟨old, found, same⟩ := Option.map_eq_some_iff.mp brings
    cases same
    have id := (mem_of_find? found).2
    refine ⟨id, rfl, rfl, qty, fun _ => price, rfl, ?_⟩
    unfold cleared
    rw [if_neg notAdd]
    intro side other inside
    change other.orderId ≠ old.orderId
    rw [id]
    exact (mem_remove.mp inside).2

theorem remove_absent {ladder : Ladder} {id : UInt64} (absent : ladder.find? id = none) : ladder.remove id = ladder := by
  funext side
  unfold remove
  rw [List.filter_eq_self]
  intro order inside
  rw [decide_eq_true_eq]
  exact find?_eq_none.mp absent side order inside

section Apply
variable {ladder : Ladder} {m : FeedMessage}

theorem incoming_taken (kind : m.msgType = MsgType.ADD.byte) (taken : ladder.find? m.orderId ≠ none) :
    ladder.incoming m = none := by
  unfold incoming
  rw [if_pos kind, if_pos (Option.isSome_iff_ne_none.mpr taken)]

theorem incoming_add (kind : m.msgType = MsgType.ADD.byte) (fresh : ladder.find? m.orderId = none) :
    ladder.incoming m = some (m.taker, OrderType.ofByte m.orderType) := by
  unfold incoming
  rw [if_pos kind, fresh]
  rfl

theorem incoming_cancel (kind : m.msgType = MsgType.CANCEL.byte) : ladder.incoming m = none := by
  unfold incoming
  rw [if_neg (by rw [kind]; decide), if_pos kind]

theorem incoming_modify (kind : m.msgType = MsgType.MODIFY.byte) :
    ladder.incoming m = (ladder.find? m.orderId).map (fun old => (m.replacing old, .LIMIT)) := by
  unfold incoming
  rw [if_neg (by rw [kind]; decide), if_neg (by rw [kind]; decide)]

theorem cleared_add (kind : m.msgType = MsgType.ADD.byte) : ladder.cleared m = ladder := if_pos kind

theorem cleared_of_ne (kind : m.msgType ≠ MsgType.ADD.byte) : ladder.cleared m = ladder.remove m.orderId := if_neg kind

theorem apply_none (nothing : ladder.incoming m = none) : ladder.apply m = ([], ladder.cleared m) := by
  unfold apply
  rw [nothing]

theorem apply_some {taker : Resting} {type : OrderType} (brings : ladder.incoming m = some (taker, type)) :
    ladder.apply m = (((ladder.cleared m).swept taker type m.sequence).fills,
      (ladder.cleared m).enter taker type m.sequence) := by
  unfold apply
  rw [brings]

theorem remove_length (ladder : Ladder) (id : UInt64) :
    (ladder.remove id).orders.length + (if ladder.find? id = none then 0 else 1) ≤ ladder.orders.length := by
  have filtered : (ladder.remove id).orders = ladder.orders.filter (fun order => order.orderId ≠ id) := by
    unfold orders remove
    rw [List.filter_append]
  have shorter := List.length_filter_le (fun order : Resting => order.orderId ≠ id) ladder.orders
  rw [filtered]
  split
  · omega
  next present =>
    obtain ⟨order, found⟩ := Option.ne_none_iff_exists'.mp present
    have inside := List.mem_of_find?_eq_some found
    have named : order.orderId = id := (mem_of_find? found).2
    have less : (ladder.orders.filter (fun order => order.orderId ≠ id)).length < ladder.orders.length :=
      List.length_filter_lt_length_iff_exists.mpr ⟨order, inside, by simp [named]⟩
    omega

theorem apply_length (ladder : Ladder) (m : FeedMessage) :
    (ladder.apply m).2.orders.length ≤ ladder.orders.length + (if m.msgType = MsgType.ADD.byte then 1 else 0) := by
  by_cases kind : m.msgType = MsgType.ADD.byte
  · rw [if_pos kind]
    cases brings : ladder.incoming m with
    | none =>
      rw [apply_none brings, cleared_add kind]
      exact Nat.le_succ _
    | some order =>
      rw [apply_some brings, cleared_add kind]
      exact enter_length ladder order.1 order.2 m.sequence
  · have less := remove_length ladder m.orderId
    rw [if_neg kind]
    cases brings : ladder.incoming m with
    | none =>
      rw [apply_none brings, cleared_of_ne kind]
      dsimp only
      omega
    | some order =>
      have found : ladder.find? m.orderId ≠ none := by
        intro absent
        unfold incoming at brings
        rw [if_neg kind, absent] at brings
        split at brings <;> cases brings
      have entered := enter_length (ladder.remove m.orderId) order.1 order.2 m.sequence
      rw [if_neg found] at less
      rw [apply_some brings, cleared_of_ne kind]
      dsimp only
      omega

end Apply

theorem WellFormed.apply {ladder : Ladder} (wellFormed : ladder.WellFormed) {m : FeedMessage}
    (valid : isValidFeedMessage m = true) : (ladder.apply m).2.WellFormed := by
  unfold Ladder.apply
  split
  · exact wellFormed.cleared m
  next taker type brings =>
    obtain ⟨_, _, _, _, price, _, fresh⟩ := incoming_spec valid brings
    apply (wellFormed.cleared m).enter m.sequence _ fresh
    intro limit
    exact price (by rw [limit]; decide)

end Ladder

end ChronoBook
