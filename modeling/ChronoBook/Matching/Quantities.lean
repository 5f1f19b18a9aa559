import ChronoBook.Matching.PriceTimeLaws

/-! Where the units go. A sweep moves units from the makers and the taker into
fills, one from each side for every unit traded, and nothing else moves them. -/

namespace ChronoBook
open Library Priority

def Fill.names (fill : Fill) (id : UInt64) : Bool := fill.buyOrderId = id || fill.sellOrderId = id

def Fill.makerOf (fill : Fill) (side : Side) : UInt64 := if side = .BUY then fill.sellOrderId else fill.buyOrderId

def Fill.takerOf (fill : Fill) (side : Side) : UInt64 := if side = .BUY then fill.buyOrderId else fill.sellOrderId

def volume (counts : Fill → Bool) (fills : List Fill) : Nat :=
  ((fills.filter counts).map (fun fill => fill.qty.toNat)).sum

def openUnits (counts : UInt64 → Bool) (orders : List Resting) : Nat :=
  ((orders.filter (fun order => counts order.orderId)).map (fun order => order.remainingQty.toNat)).sum

theorem volume_nil (counts : Fill → Bool) : volume counts [] = 0 := rfl

theorem volume_cons (counts : Fill → Bool) (fill : Fill) (fills : List Fill) :
    volume counts (fill :: fills) = (if counts fill then fill.qty.toNat else 0) + volume counts fills := by
  unfold volume
  by_cases counted : counts fill = true
  · rw [List.filter_cons_of_pos counted, if_pos counted, List.map_cons, List.sum_cons]
  · rw [List.filter_cons_of_neg counted, if_neg counted, Nat.zero_add]

theorem volume_append (counts : Fill → Bool) (first second : List Fill) :
    volume counts (first ++ second) = volume counts first + volume counts second := by
  unfold volume
  rw [List.filter_append, List.map_append, List.sum_append]

theorem volume_congr {counts counts' : Fill → Bool} {fills : List Fill}
    (same : ∀ fill ∈ fills, counts fill = counts' fill) : volume counts fills = volume counts' fills := by
  unfold volume
  rw [List.filter_congr same]

theorem openUnits_cons (counts : UInt64 → Bool) (order : Resting) (orders : List Resting) :
    openUnits counts (order :: orders) =
      (if counts order.orderId then order.remainingQty.toNat else 0) + openUnits counts orders := by
  unfold openUnits
  by_cases counted : counts order.orderId = true
  · rw [List.filter_cons_of_pos (p := fun order : Resting => counts order.orderId) counted, if_pos counted, List.map_cons, List.sum_cons]
  · rw [List.filter_cons_of_neg (p := fun order : Resting => counts order.orderId) counted, if_neg counted, Nat.zero_add]

theorem openUnits_append (counts : UInt64 → Bool) (first second : List Resting) :
    openUnits counts (first ++ second) = openUnits counts first + openUnits counts second := by
  unfold openUnits
  rw [List.filter_append, List.map_append, List.sum_append]

theorem openUnits_perm (counts : UInt64 → Bool) {first second : List Resting} (same : first.Perm second) :
    openUnits counts first = openUnits counts second :=
  ((same.filter _).map _).sum_nat

theorem openUnits_none {counts : UInt64 → Bool} {orders : List Resting}
    (absent : ∀ order ∈ orders, counts order.orderId = false) : openUnits counts orders = 0 := by
  unfold openUnits
  rw [List.filter_eq_nil_iff.mpr (fun order inside => by simp [absent order inside])]
  rfl

/-- The units under one id and the units of the orders that stay when it is taken out. -/
theorem openUnits_remove (counts : UInt64 → Bool) (id : UInt64) (orders : List Resting) :
    openUnits counts (orders.filter (fun order => order.orderId ≠ id)) +
      (if counts id then openUnits (fun other => other = id) orders else 0) = openUnits counts orders := by
  induction orders with
  | nil => cases counts id <;> rfl
  | cons order orders ih =>
    rw [openUnits_cons, openUnits_cons]
    by_cases named : order.orderId = id
    · rw [List.filter_cons_of_neg (by simp [named]), named]
      by_cases counted : counts id = true
      · rw [if_pos counted] at ih ⊢
        rw [if_pos counted, if_pos (decide_eq_true rfl)]
        omega
      · rw [if_neg counted] at ih ⊢
        rw [if_neg counted]
        omega
    · rw [List.filter_cons_of_pos (by simp [named]), openUnits_cons,
        if_neg (show ¬decide (order.orderId = id) = true by simp [named]), Nat.zero_add]
      omega

section Sweep
variable {accepts : UInt32 → Bool} {fillOf : Resting → UInt32 → Fill}

theorem sweep_taker_units (sized : ∀ maker qty, (fillOf maker qty).qty = qty) (left : UInt32) (makers : List Resting) :
    left.toNat = volume (fun _ => true) (sweep accepts fillOf left makers).fills +
      (sweep accepts fillOf left makers).left.toNat := by
  induction makers generalizing left with
  | nil => exact (Nat.zero_add _).symm
  | cons maker makers ih =>
    unfold sweep
    split
    · exact (Nat.zero_add _).symm
    split
    next covered =>
      have later := ih (left - maker.remainingQty)
      rw [UInt32.toNat_sub_of_le _ _ covered] at later
      rw [UInt32.le_iff_toNat_le] at covered
      dsimp only
      rw [volume_cons, if_pos rfl, sized]
      omega
    · change left.toNat = volume _ [_] + _
      rw [volume_cons, if_pos rfl, sized]
      exact (Nat.add_zero _).symm

theorem sweep_maker_units {side : Side} (sized : ∀ maker qty, (fillOf maker qty).qty = qty)
    (named : ∀ maker qty, (fillOf maker qty).makerOf side = maker.orderId) (counts : UInt64 → Bool) (left : UInt32)
    (makers : List Resting) :
    openUnits counts makers =
      volume (fun fill => counts (fill.makerOf side)) (sweep accepts fillOf left makers).fills +
        openUnits counts (sweep accepts fillOf left makers).rest := by
  induction makers generalizing left with
  | nil => rfl
  | cons maker makers ih =>
    unfold sweep
    split
    · exact (Nat.zero_add _).symm
    split
    · have later := ih (left - maker.remainingQty)
      dsimp only
      rw [openUnits_cons, volume_cons, named, sized]
      omega
    next uncovered =>
      have partly : ({ maker with filledQty := maker.filledQty + left } : Resting).remainingQty.toNat + left.toNat =
          maker.remainingQty.toNat := by
        have remaining := maker.remainingQty_toNat
        rw [UInt32.not_le, UInt32.lt_iff_toNat_lt] at uncovered
        have small := maker.qty.toNat_lt
        rw [Resting.remainingQty_toNat]
        change maker.qty.toNat - (maker.filledQty + left).toNat + _ = _
        rw [UInt32.toNat_add, Nat.mod_eq_of_lt (by omega)]
        omega
      change _ = volume _ [_] + openUnits counts (_ :: makers)
      rw [openUnits_cons, openUnits_cons, volume_cons, volume_nil, named, sized]
      by_cases counted : counts maker.orderId = true
      · rw [if_pos counted, if_pos counted, if_pos (show counts maker.orderId = true from counted)]
        omega
      · rw [if_neg counted, if_neg counted, if_neg (show ¬counts maker.orderId = true from counted)]
        omega

theorem sweep_fill_pos (sized : ∀ maker qty, (fillOf maker qty).qty = qty) {left : UInt32} {makers : List Resting}
    (opened : ∀ maker ∈ makers, maker.filledQty < maker.qty) :
    ∀ fill ∈ (sweep accepts fillOf left makers).fills, 1 ≤ fill.qty.toNat := by
  induction makers generalizing left with
  | nil =>
    intro fill inside
    cases inside
  | cons maker makers ih =>
    have firstOpen := opened maker List.mem_cons_self
    rw [UInt32.lt_iff_toNat_lt] at firstOpen
    have others : ∀ other ∈ makers, other.filledQty < other.qty :=
      fun other inside => opened other (List.mem_cons_of_mem _ inside)
    intro fill inside
    unfold sweep at inside
    split at inside
    · cases inside
    next going =>
      split at inside
      · rcases List.mem_cons.mp inside with same | old
        · rw [same, sized, maker.remainingQty_toNat]
          omega
        · exact ih others fill old
      · rw [List.mem_singleton.mp inside, sized]
        have units : left ≠ 0 := fun zero => going (Or.inl zero)
        have positive : left.toNat ≠ 0 := fun zero => units (UInt32.toNat_inj.mp zero)
        omega

/-- Makers are met from the front and each at most once. -/
theorem sweep_fill_makers {side : Side} (named : ∀ maker qty, (fillOf maker qty).makerOf side = maker.orderId)
    (left : UInt32) (makers : List Resting) :
    ((sweep accepts fillOf left makers).fills.map (fun fill => fill.makerOf side)).Sublist
      (makers.map Resting.orderId) := by
  induction makers generalizing left with
  | nil => exact List.Sublist.slnil
  | cons maker makers ih =>
    unfold sweep
    split
    · exact List.nil_sublist _
    split
    · rw [List.map_cons, List.map_cons, named]
      exact (ih _).cons_cons _
    · rw [List.map_cons, List.map_cons, named]
      exact (List.nil_sublist _).cons_cons _

theorem sweep_fill_of {left : UInt32} {makers : List Resting} :
    ∀ fill ∈ (sweep accepts fillOf left makers).fills, ∃ maker ∈ makers, ∃ qty, fill = fillOf maker qty := by
  induction makers generalizing left with
  | nil =>
    intro fill inside
    cases inside
  | cons maker makers ih =>
    intro fill inside
    unfold sweep at inside
    split at inside
    · cases inside
    split at inside
    · rcases List.mem_cons.mp inside with same | old
      · exact ⟨maker, List.mem_cons_self, _, same⟩
      · obtain ⟨other, there, rest⟩ := ih fill old
        exact ⟨other, List.mem_cons_of_mem _ there, rest⟩
    · exact ⟨maker, List.mem_cons_self, left, List.mem_singleton.mp inside⟩

end Sweep

section Names
variable (maker taker : Resting) (seq : UInt64) (qty : UInt32)

theorem Resting.fillBy_makerOf : (maker.fillBy taker seq qty).makerOf taker.side = maker.orderId := by
  unfold Fill.makerOf Resting.fillBy
  by_cases buys : taker.side = .BUY <;> simp only [buys, if_true, if_false]

theorem Resting.fillBy_takerOf : (maker.fillBy taker seq qty).takerOf taker.side = taker.orderId := by
  unfold Fill.takerOf Resting.fillBy
  by_cases buys : taker.side = .BUY <;> simp only [buys, if_true, if_false]

theorem Fill.names_iff (fill : Fill) (side : Side) (id : UInt64) :
    fill.names id = true ↔ fill.takerOf side = id ∨ fill.makerOf side = id := by
  unfold Fill.names Fill.takerOf Fill.makerOf
  rw [Bool.or_eq_true, decide_eq_true_eq, decide_eq_true_eq]
  by_cases buys : side = .BUY
  · rw [if_pos buys, if_pos buys]
  · rw [if_neg buys, if_neg buys]
    exact or_comm

end Names

namespace Ladder

variable (ladder : Ladder) (taker : Resting) (type : OrderType) (seq : UInt64)

theorem openUnits_sides (counts : UInt64 → Bool) (side : Side) :
    openUnits counts ladder.orders = openUnits counts (ladder side) + openUnits counts (ladder side.opposite) := by
  unfold orders
  rw [openUnits_append]
  cases side with
  | BUY => rfl
  | SELL => exact Nat.add_comm _ _

theorem openUnits_cleared (counts : UInt64 → Bool) (id : UInt64) :
    openUnits counts (ladder.remove id).orders +
      (if counts id then openUnits (fun other => other = id) ladder.orders else 0) = openUnits counts ladder.orders := by
  have filtered : (ladder.remove id).orders = ladder.orders.filter (fun order => order.orderId ≠ id) := by
    unfold orders remove
    rw [List.filter_append]
  rw [filtered]
  exact openUnits_remove counts id ladder.orders

theorem cleared_units (counts : UInt64 → Bool) (m : FeedMessage) :
    openUnits counts (ladder.cleared m).orders +
      (if counts m.orderId then
        (if m.msgType = MsgType.ADD.byte then 0 else openUnits (fun other => other = m.orderId) ladder.orders) else 0) =
      openUnits counts ladder.orders := by
  by_cases kind : m.msgType = MsgType.ADD.byte
  · rw [cleared_add kind, if_pos kind, ite_self]
    rfl
  · rw [cleared_of_ne kind, if_neg kind]
    exact openUnits_cleared ladder counts m.orderId

theorem residual_units : (ladder.residual taker type seq).remainingQty.toNat = (ladder.swept taker type seq).left.toNat := by
  have within := swept_left_le ladder taker type seq
  rw [Resting.remainingQty_toNat]
  change taker.qty.toNat - (taker.qty - (ladder.swept taker type seq).left).toNat = _
  rw [UInt32.toNat_sub_of_le _ _ within]
  rw [UInt32.le_iff_toNat_le] at within
  omega

/-- The fills of a sweep name the taker and one maker each, no maker twice, and none for nothing. -/
theorem swept_fills {ladder : Ladder} {taker : Resting} (type : OrderType) (seq : UInt64)
    (opened : ∀ maker ∈ ladder taker.side.opposite, maker.filledQty < maker.qty) :
    (∀ fill ∈ (ladder.swept taker type seq).fills,
      1 ≤ fill.qty.toNat ∧ fill.takerOf taker.side = taker.orderId) ∧
    ((ladder.swept taker type seq).fills.map (fun fill => fill.makerOf taker.side)).Sublist
      ((ladder taker.side.opposite).map Resting.orderId) := by
  refine ⟨?_, sweep_fill_makers (fun maker qty => maker.fillBy_makerOf taker seq qty) _ _⟩
  intro fill inside
  refine ⟨sweep_fill_pos (fun _ _ => rfl) opened fill inside, ?_⟩
  obtain ⟨maker, _, qty, same⟩ := sweep_fill_of fill inside
  rw [same]
  exact maker.fillBy_takerOf taker seq qty

theorem swept_parties {ladder : Ladder} {taker : Resting} (type : OrderType) (seq : UInt64)
    (opened : ∀ maker ∈ ladder taker.side.opposite, maker.filledQty < maker.qty) :
    ∀ fill ∈ (ladder.swept taker type seq).fills, ∃ maker ∈ ladder taker.side.opposite,
      fill.makerOf taker.side = maker.orderId ∧
        ((fill.buyOrderId = taker.orderId ∧ fill.sellOrderId = maker.orderId) ∨
          (fill.sellOrderId = taker.orderId ∧ fill.buyOrderId = maker.orderId)) := by
  intro fill inside
  obtain ⟨pos, makers⟩ := swept_fills type seq opened
  have party := (pos fill inside).2
  obtain ⟨maker, there, same⟩ := List.mem_map.mp (makers.subset (List.mem_map_of_mem inside))
  refine ⟨maker, there, same.symm, ?_⟩
  unfold Fill.takerOf at party
  unfold Fill.makerOf at same
  by_cases buys : taker.side = .BUY
  · rw [if_pos buys] at party same
    exact Or.inl ⟨party, same.symm⟩
  · rw [if_neg buys] at party same
    exact Or.inr ⟨party, same.symm⟩

theorem swept_taker_units (fresh : taker.filledQty = 0) :
    taker.qty.toNat = volume (fun _ => true) (ladder.swept taker type seq).fills +
      (ladder.swept taker type seq).left.toNat := by
  have units : taker.remainingQty.toNat = volume (fun _ => true) (ladder.swept taker type seq).fills +
      (ladder.swept taker type seq).left.toNat := sweep_taker_units (fun _ _ => rfl) _ _
  rw [Resting.remainingQty_toNat, fresh, UInt32.toNat_zero, Nat.sub_zero] at units
  exact units

/-- Entering moves units from the makers into fills and puts the rest of the taker, if it may stay, on its side. -/
theorem enter_units (counts : UInt64 → Bool) :
    openUnits counts ladder.orders +
        (if (ladder.swept taker type seq).left ≠ 0 ∧ type = .LIMIT then
          (if counts taker.orderId then (ladder.swept taker type seq).left.toNat else 0) else 0) =
      volume (fun fill => counts (fill.makerOf taker.side)) (ladder.swept taker type seq).fills +
        openUnits counts (ladder.enter taker type seq).orders := by
  have makers : openUnits counts (ladder taker.side.opposite) =
      volume (fun fill => counts (fill.makerOf taker.side)) (ladder.swept taker type seq).fills +
        openUnits counts (ladder.swept taker type seq).rest :=
    sweep_maker_units (fun _ _ => rfl) (fun maker qty => maker.fillBy_makerOf taker seq qty) counts _ _
  rw [openUnits_sides ladder counts taker.side, openUnits_sides (ladder.enter taker type seq) counts taker.side,
    enter_own, enter_opposite]
  by_cases stays : (ladder.swept taker type seq).left ≠ 0 ∧ type = .LIMIT
  · have joined : openUnits counts
        (enqueue taker.side.Ahead Resting.price (ladder.residual taker type seq) (ladder taker.side)) =
          openUnits counts (ladder.residual taker type seq :: ladder taker.side) :=
      openUnits_perm counts (enqueue_perm _ _)
    rw [openUnits_cons, residual_units] at joined
    change _ = (if counts taker.orderId = true then _ else 0) + _ at joined
    simp only [if_pos stays, joined]
    omega
  · simp only [if_neg stays]
    omega

/-- The order that entered rests afterwards exactly when it is a LIMIT order with units left. -/
theorem find?_enter (fresh : ∀ side, ∀ other ∈ ladder side, other.orderId ≠ taker.orderId) :
    (ladder.enter taker type seq).find? taker.orderId = none ↔
      ¬((ladder.swept taker type seq).left ≠ 0 ∧ type = .LIMIT) := by
  by_cases stays : (ladder.swept taker type seq).left ≠ 0 ∧ type = .LIMIT
  · refine ⟨?_, fun leaves => absurd stays leaves⟩
    intro absent
    refine absurd rfl (find?_eq_none.mp absent taker.side (ladder.residual taker type seq) ?_)
    rw [enter_own, if_pos stays]
    exact mem_enqueue.mpr (Or.inl rfl)
  · unfold enter
    rw [if_neg stays]
    exact ⟨fun _ => stays, fun _ => find?_eq_none.mpr (WellFormed.fresh_hit taker type seq fresh)⟩

section Naming
variable {ladder : Ladder} {taker : Resting}

theorem swept_taker_volume (opened : ∀ maker ∈ ladder taker.side.opposite, maker.filledQty < maker.qty) :
    volume (fun fill => fill.names taker.orderId) (ladder.swept taker type seq).fills =
      volume (fun _ => true) (ladder.swept taker type seq).fills := by
  apply volume_congr
  intro fill inside
  rw [Fill.names_iff fill taker.side]
  exact Or.inl ((swept_fills type seq opened).1 fill inside).2

theorem swept_other_volume (opened : ∀ maker ∈ ladder taker.side.opposite, maker.filledQty < maker.qty) {id : UInt64}
    (other : id ≠ taker.orderId) :
    volume (fun fill => fill.names id) (ladder.swept taker type seq).fills =
      volume (fun fill => fill.makerOf taker.side = id) (ladder.swept taker type seq).fills := by
  apply volume_congr
  intro fill inside
  have named := Fill.names_iff fill taker.side id
  rw [((swept_fills type seq opened).1 fill inside).2] at named
  rw [Bool.eq_iff_iff, named, decide_eq_true_eq]
  exact or_iff_right (Ne.symm other)

theorem swept_fresh_volume (opened : ∀ maker ∈ ladder taker.side.opposite, maker.filledQty < maker.qty) {id : UInt64}
    (fresh : ∀ maker ∈ ladder taker.side.opposite, maker.orderId ≠ id) :
    volume (fun fill => fill.makerOf taker.side = id) (ladder.swept taker type seq).fills = 0 := by
  have never : ∀ fill ∈ (ladder.swept taker type seq).fills, decide (fill.makerOf taker.side = id) = false := by
    intro fill inside
    obtain ⟨maker, there, same⟩ := List.mem_map.mp
      ((swept_fills type seq opened).2.subset (List.mem_map_of_mem inside))
    rw [decide_eq_false_iff_not, ← same]
    exact fresh maker there
  rw [volume_congr never]
  unfold volume
  rw [List.filter_false]
  rfl

theorem enter_taker_units (fresh : taker.filledQty = 0)
    (opened : ∀ maker ∈ ladder taker.side.opposite, maker.filledQty < maker.qty)
    (absent : ∀ side, ∀ other ∈ ladder side, other.orderId ≠ taker.orderId) :
    taker.qty.toNat = volume (fun fill => fill.names taker.orderId) (ladder.swept taker type seq).fills +
      openUnits (fun id => id = taker.orderId) (ladder.enter taker type seq).orders +
        (if (ladder.swept taker type seq).left ≠ 0 ∧ type = .LIMIT then 0
          else (ladder.swept taker type seq).left.toNat) := by
  have units := ladder.swept_taker_units taker type seq fresh
  have moved := ladder.enter_units taker type seq (fun id => id = taker.orderId)
  have nothing : openUnits (fun id => id = taker.orderId) ladder.orders = 0 := by
    apply openUnits_none
    intro order inside
    obtain ⟨side, there⟩ := mem_orders.mp inside
    exact decide_eq_false (absent side order there)
  rw [nothing, swept_fresh_volume type seq opened (absent taker.side.opposite), if_pos (decide_eq_true rfl)] at moved
  rw [swept_taker_volume type seq opened]
  by_cases stays : (ladder.swept taker type seq).left ≠ 0 ∧ type = .LIMIT
  · rw [if_pos stays] at moved ⊢
    omega
  · rw [if_neg stays] at moved ⊢
    omega

theorem enter_other_units (opened : ∀ maker ∈ ladder taker.side.opposite, maker.filledQty < maker.qty) {id : UInt64}
    (other : id ≠ taker.orderId) :
    openUnits (fun named => named = id) ladder.orders =
      volume (fun fill => fill.names id) (ladder.swept taker type seq).fills +
        openUnits (fun named => named = id) (ladder.enter taker type seq).orders := by
  have moved := ladder.enter_units taker type seq (fun named => named = id)
  rw [if_neg (show ¬decide (taker.orderId = id) = true by simpa using Ne.symm other), ite_self] at moved
  rw [swept_other_volume type seq opened other]
  exact moved

/-- All units: every unit traded comes from two orders. -/
theorem enter_total_units (fresh : taker.filledQty = 0) :
    openUnits (fun _ => true) ladder.orders + taker.qty.toNat =
      2 * volume (fun _ => true) (ladder.swept taker type seq).fills +
        openUnits (fun _ => true) (ladder.enter taker type seq).orders +
        (if (ladder.swept taker type seq).left ≠ 0 ∧ type = .LIMIT then 0
          else (ladder.swept taker type seq).left.toNat) := by
  have units := ladder.swept_taker_units taker type seq fresh
  have moved := ladder.enter_units taker type seq (fun _ => true)
  rw [if_pos rfl] at moved
  by_cases stays : (ladder.swept taker type seq).left ≠ 0 ∧ type = .LIMIT
  · rw [if_pos stays] at moved ⊢
    omega
  · rw [if_neg stays] at moved ⊢
    omega

end Naming

end Ladder

end ChronoBook
