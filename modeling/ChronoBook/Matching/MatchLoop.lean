import ChronoBook.Matching.EngineSteps

/-! The matching loop. One turn trades with the first order of the opposite side;
a whole run of the loop is one sweep of the priority list. -/

namespace ChronoBook
open Library Priority

namespace MatchingEngine

variable {engine : MatchingEngine} {queues : Queues} {free others : List Slot} {incoming resting : Slot}

theorem executeTrade_order (engine : MatchingEngine) {resting incoming : Slot} (apart : resting ≠ incoming)
    (price qty : UInt32) (slot : Slot) :
    (engine.executeTrade resting incoming price qty).order slot =
      if slot = incoming ∨ slot = resting then (engine.order slot).fill qty else engine.order slot := by
  change Memory.modify (Memory.modify engine.pool.slab resting (fun object => object.fill qty)) incoming
    (fun object => object.fill qty) slot = _
  by_cases isIncoming : slot = incoming
  · subst isIncoming
    rw [Memory.modify_same, Memory.modify_other _ _ (Ne.symm apart), if_pos (Or.inl rfl)]
    rfl
  · rw [Memory.modify_other _ _ isIncoming]
    by_cases isResting : slot = resting
    · subst isResting
      rw [Memory.modify_same, if_pos (Or.inr rfl)]
      rfl
    · rw [Memory.modify_other _ _ isResting, if_neg (by simp [isIncoming, isResting])]
      rfl

theorem executeTrade_fills (engine : MatchingEngine) {resting incoming : Slot} (apart : resting ≠ incoming)
    (qty : UInt32) :
    (engine.executeTrade resting incoming (engine.order resting).price qty).fills =
      engine.fills ++ [(engine.order resting).resting.fillBy (engine.order incoming).resting engine.currentSeq qty] := by
  have incomingAfter := executeTrade_order engine apart (engine.order resting).price qty incoming
  have restingAfter := executeTrade_order engine apart (engine.order resting).price qty resting
  rw [if_pos (Or.inl rfl)] at incomingAfter
  rw [if_pos (Or.inr rfl)] at restingAfter
  unfold executeTrade at incomingAfter restingAfter ⊢
  simp only [order, setMemory] at incomingAfter restingAfter ⊢
  simp only [incomingAfter, Resting.fillBy, Order.resting]
  congr 2
  by_cases buys : (engine.pool.slab incoming).side = .BUY
  · have filled : ((engine.pool.slab incoming).fill qty).side = .BUY := buys
    simp only [filled, if_true, restingAfter, incomingAfter, buys]
    rfl
  · have filled : ¬((engine.pool.slab incoming).fill qty).side = .BUY := buys
    simp only [filled, if_false, restingAfter, incomingAfter, buys]
    rfl

/-- The engine after a trade and the update of the level's quantity, before a filled order is removed. -/
def traded (engine : MatchingEngine) (resting incoming : Slot) (qty : UInt32) : MatchingEngine :=
  let side := (engine.order incoming).side.opposite
  let price := (engine.order resting).price
  { engine.executeTrade resting incoming price qty with
    book := engine.book.withSide side
      ((engine.book.levels side).modify price (fun level => level.decreaseTotalQty qty)) engine.book.orderMap }

theorem traded_order (engine : MatchingEngine) (apart : resting ≠ incoming) (qty : UInt32) (slot : Slot) :
    (engine.traded resting incoming qty).order slot =
      if slot = incoming ∨ slot = resting then (engine.order slot).fill qty else engine.order slot :=
  executeTrade_order engine apart (engine.order resting).price qty slot

theorem traded_sideSlots (engine : MatchingEngine) (queues : Queues) (resting incoming : Slot) (qty : UInt32)
    (side : Side) :
    (engine.traded resting incoming qty).book.sideSlots queues side = engine.book.sideSlots queues side :=
  OrderBook.sideSlots_recount _ _ _ _ _ _

theorem traded_slots (engine : MatchingEngine) (queues : Queues) (resting incoming : Slot) (qty : UInt32) :
    (engine.traded resting incoming qty).book.slots queues = engine.book.slots queues :=
  OrderBook.slots_congr (traded_sideSlots engine queues resting incoming qty)

theorem traded_untouched (engine : MatchingEngine) (apart : resting ≠ incoming) (qty : UInt32) {slot : Slot}
    (notIncoming : slot ≠ incoming) (notResting : slot ≠ resting) :
    (engine.traded resting incoming qty).order slot = engine.order slot := by
  rw [traded_order engine apart, if_neg (by simp [notIncoming, notResting])]

theorem traded_fields (engine : MatchingEngine) (apart : resting ≠ incoming) (qty : UInt32) (slot : Slot) :
    ((engine.traded resting incoming qty).order slot).next = (engine.order slot).next ∧
      ((engine.traded resting incoming qty).order slot).prev = (engine.order slot).prev ∧
      ((engine.traded resting incoming qty).order slot).side = (engine.order slot).side ∧
      ((engine.traded resting incoming qty).order slot).price = (engine.order slot).price ∧
      ((engine.traded resting incoming qty).order slot).orderId = (engine.order slot).orderId ∧
      ((engine.traded resting incoming qty).order slot).type = (engine.order slot).type := by
  rw [traded_order engine apart qty slot]
  split <;> exact ⟨rfl, rfl, rfl, rfl, rfl, rfl⟩

theorem traded_depth (engine : MatchingEngine) (apart : resting ≠ incoming) (qty : UInt32) {queue : List Slot}
    (outside : ∀ slot ∈ queue, slot ≠ incoming ∧ slot ≠ resting) :
    PriceLevel.depth (engine.traded resting incoming qty).pool.slab queue =
      PriceLevel.depth engine.pool.slab queue := by
  unfold PriceLevel.depth
  congr 1
  apply List.map_congr_left
  intro slot inside
  obtain ⟨notIncoming, notResting⟩ := outside slot inside
  exact congrArg (fun order : Order => order.remainingQty.toNat)
    (traded_untouched engine apart qty notIncoming notResting)

theorem traded_level (engine : MatchingEngine) {qty price : UInt32} {side : Side}
    (facing : (engine.order resting).side = (engine.order incoming).side.opposite) :
    ((engine.traded resting incoming qty).book.levels side).find? price =
      if side = (engine.order resting).side ∧ price = (engine.order resting).price then
        ((engine.book.levels side).find? price).map (fun level => level.decreaseTotalQty qty)
      else (engine.book.levels side).find? price := by
  unfold MatchingEngine.traded
  rw [← facing]
  by_cases sameSide : side = (engine.order resting).side
  · subst sameSide
    rw [OrderBook.levels_withSide, SortedMap.find?_modify]
    by_cases samePrice : price = (engine.order resting).price
    · rw [if_pos samePrice, if_pos ⟨rfl, samePrice⟩, samePrice]
    · rw [if_neg samePrice, if_neg (fun same => samePrice same.2)]
  · rw [OrderBook.levels_withSide_ne _ _ _ sameSide, if_neg (fun same => sameSide same.1)]

theorem traded_counted (engine : MatchingEngine) (apart : resting ≠ incoming) {qty : UInt32}
    (available : qty ≤ (engine.order resting).remainingQty)
    (bounded : (engine.order resting).filledQty ≤ (engine.order resting).qty) {level : PriceLevel}
    {before later : List Slot} (distinct : resting ∉ before ++ later)
    (away : ∀ slot ∈ before ++ later, slot ≠ incoming)
    (counted : level.Counted engine.pool.slab (before ++ resting :: later)) :
    (level.decreaseTotalQty qty).Counted (engine.traded resting incoming qty).pool.slab (before ++ resting :: later) := by
  have total := counted.totalQty
  rw [PriceLevel.depth_middle] at total
  change level.totalQty.toNat = _ + (engine.order resting).remainingQty.toNat at total
  have rest := traded_depth engine apart qty
    (fun slot inside => ⟨away slot inside, fun same => distinct (same ▸ inside)⟩)
  have maker := traded_order engine apart qty resting
  rw [if_pos (Or.inr rfl)] at maker
  have units := UInt32.le_iff_toNat_le.mp available
  obtain ⟨totalQty, orderCount⟩ := PriceLevel.decreaseTotalQty_toNat (show qty.toNat ≤ level.totalQty.toNat by omega)
  refine ⟨?_, by rw [orderCount]; exact counted.orderCount⟩
  rw [totalQty, PriceLevel.depth_middle, rest]
  change _ = _ + ((engine.traded resting incoming qty).order resting).remainingQty.toNat
  rw [maker, Order.fill_remainingQty_toNat bounded available]
  omega

theorem Sound.traded_tallied (sound : engine.Sound queues free (incoming :: others))
    (member : resting ∈ engine.book.sideSlots queues (engine.order incoming).side.opposite) {qty : UInt32}
    (available : qty ≤ (engine.order resting).remainingQty) (tallied : engine.book.Tallied engine.pool.slab queues) :
    (engine.traded resting incoming qty).book.Tallied (engine.traded resting incoming qty).pool.slab queues := by
  have inBook := OrderBook.Laid.mem_slots_of_mem_side member
  have notIncoming : ∀ slot ∈ engine.book.slots queues, slot ≠ incoming := by
    intro slot inside same
    exact sound.others_outside (by simp [same]) inside
  have apart := notIncoming resting inBook
  obtain ⟨facing, place⟩ := sound.laid.mem_sideSlots_iff.mp member
  intro side price level found
  rw [traded_level engine facing] at found
  by_cases here : side = (engine.order resting).side ∧ price = (engine.order resting).price
  · rw [if_pos here] at found
    obtain ⟨rfl, rfl⟩ := here
    obtain ⟨old, foundOld, rfl⟩ := Option.map_eq_some_iff.mp found
    have counted := tallied _ _ old foundOld
    have distinct := sound.laid.queue_nodup (engine.order resting).side (engine.order resting).price
    have queued : ∀ slot ∈ queues (engine.order resting).side (engine.order resting).price, slot ≠ incoming :=
      fun slot inside => notIncoming slot (sound.laid.mem_slots_of_mem inside)
    obtain ⟨before, later, split⟩ := List.append_of_mem place
    change queues (engine.order resting).side (engine.order resting).price = before ++ resting :: later at split
    rw [split] at counted queued ⊢
    rw [split, List.nodup_middle, List.nodup_cons] at distinct
    refine traded_counted engine apart available (sound.bounded resting inBook) distinct.1 ?_ counted
    intro slot inside
    refine queued slot ?_
    rw [List.mem_append, List.mem_cons]
    rcases List.mem_append.mp inside with early | late
    · exact Or.inl early
    · exact Or.inr (Or.inr late)
  · rw [if_neg here] at found
    have counted := tallied side price level found
    refine ⟨counted.totalQty.trans (traded_depth engine apart qty ?_).symm, counted.orderCount⟩
    intro slot inside
    refine ⟨notIncoming slot (sound.laid.mem_slots_of_mem inside), ?_⟩
    intro same
    subst same
    obtain ⟨sameSide, samePrice⟩ := sound.laid.placed side price slot inside
    exact here ⟨sameSide.symm, samePrice.symm⟩

/-- A trade keeps the invariant; the maker may now be filled. -/
theorem Sound.traded (sound : engine.Sound queues free (incoming :: others))
    (member : resting ∈ engine.book.sideSlots queues (engine.order incoming).side.opposite) {qty : UInt32}
    (available : qty ≤ (engine.order resting).remainingQty) :
    (engine.traded resting incoming qty).Sound queues free (incoming :: others) := by
  have inBook := OrderBook.Laid.mem_slots_of_mem_side member
  have notIncoming : ∀ slot ∈ engine.book.slots queues, slot ≠ incoming := by
    intro slot inside same
    exact sound.others_outside (by simp [same]) inside
  have apart := notIncoming resting inBook
  have slots := traded_slots engine queues resting incoming qty
  refine ⟨?_, ?_, ?_, ?_, ?_, fun small => sound.traded_tallied member available (sound.tallied small)⟩
  · rw [slots]
    apply sound.pool.write
    intro slot isFree
    have outside := sound.free_outside isFree
    apply traded_untouched engine apart qty
    · exact fun same => outside.2 (by simp [same])
    · exact fun same => outside.1 (same ▸ inBook)
  · apply OrderBook.Laid.recount _ _ _ _ (fun level => level.decreaseTotalQty_head qty)
      (fun level => level.decreaseTotalQty_tail qty)
    apply sound.laid.frame
    intro side price slot _
    obtain ⟨next, prev, side_eq, price_eq, orderId, _⟩ := traded_fields engine apart qty slot
    exact ⟨next, prev, side_eq, price_eq, orderId⟩
  · rw [slots]
    intro slot inside
    by_cases same : slot = resting
    · subst same
      rw [traded_order engine apart, if_pos (Or.inr rfl)]
      exact Order.fill_bounded (sound.bounded slot inBook) available
    · rw [traded_untouched engine apart qty (notIncoming slot inside) same]
      exact sound.bounded slot inside
  · rw [slots]
    intro slot inside
    rw [(traded_fields engine apart qty slot).2.2.2.2.2]
    exact sound.limit slot inside
  · rw [slots]
    intro slot inside
    rw [(traded_fields engine apart qty slot).2.2.2.1]
    exact sound.priced slot inside

theorem bestPrice_eq (engine : MatchingEngine) (side : Side) :
    (if side = .BUY then engine.book.getBestAsk else engine.book.getBestBid) = engine.book.bestPrice side.opposite := by
  cases side <;> rfl

theorem level_eq (engine : MatchingEngine) (side : Side) (price : UInt32) :
    (if side = .BUY then engine.book.getAskLevel price else engine.book.getBidLevel price) =
      (engine.book.levels side.opposite).find? price := by
  cases side <;> rfl

theorem nextTurn_filled (filled : (engine.order incoming).remainingQty = 0) (respectPrice : Bool) :
    engine.nextTurn incoming respectPrice = .leave := by
  unfold nextTurn
  exact if_pos ((Order.isFilled_iff _).mpr filled)

theorem nextTurn_nil (sound : engine.Sound queues free others)
    (slots : engine.book.sideSlots queues (engine.order incoming).side.opposite = []) (respectPrice : Bool) :
    engine.nextTurn incoming respectPrice = .leave := by
  have keys := sound.laid.side_nil slots
  have best : engine.book.bestPrice (engine.order incoming).side.opposite = 0 := by
    unfold OrderBook.bestPrice
    rw [keys]
    rfl
  unfold nextTurn
  simp only [bestPrice_eq, best, if_true, ite_self]

/-- With units left, the head of the loop looks at the front of the first level only. -/
theorem nextTurn_cons (sound : engine.Sound queues free others) {rest : List Slot}
    (units : (engine.order incoming).remainingQty ≠ 0)
    (slots : engine.book.sideSlots queues (engine.order incoming).side.opposite = resting :: rest)
    (respectPrice : Bool) :
    ∃ level, level.front = some resting ∧
      engine.nextTurn incoming respectPrice =
        if respectPrice && !(engine.order incoming).side.crosses (engine.order resting).price (engine.order incoming).price
        then .leave else .trade level (engine.order resting).price := by
  have inBook : resting ∈ engine.book.slots queues := by
    apply OrderBook.Laid.mem_slots_of_mem_side
    rw [slots]
    exact List.mem_cons_self
  obtain ⟨level, head, found, front⟩ := sound.laid.front slots
  have best : engine.book.bestPrice (engine.order incoming).side.opposite = (engine.order resting).price := by
    unfold OrderBook.bestPrice
    rw [head]
    rfl
  have open' : ¬(engine.order incoming).isFilled = true := fun filled => units ((Order.isFilled_iff _).mp filled)
  change (engine.book.levels (engine.order incoming).side.opposite).find? (engine.order resting).price = some level
    at found
  refine ⟨level, front, ?_⟩
  unfold nextTurn
  simp only [bestPrice_eq, level_eq, best]
  rw [if_neg open', if_neg (sound.priced resting inBook), found]

theorem tradeTurn_eq (engine : MatchingEngine) {level : PriceLevel} (apart : resting ≠ incoming) (front : level.front = some resting) :
    engine.tradeTurn incoming level (engine.order resting).price =
      let after := engine.traded resting incoming
        (min (engine.order incoming).remainingQty (engine.order resting).remainingQty)
      let removed := after.book.removeOrder after.pool.slab (some resting)
      if (after.order resting).isFilled then
        some (({ after.setMemory removed.2 with book := removed.1 } : MatchingEngine).free resting)
      else some after := by
  unfold tradeTurn
  simp only [front]
  generalize min (engine.order incoming).remainingQty (engine.order resting).remainingQty = qty
  have side : ((engine.executeTrade resting incoming (engine.order resting).price qty).order incoming).side =
      (engine.order incoming).side := by
    rw [executeTrade_order engine apart, if_pos (Or.inl rfl)]
    rfl
  unfold traded
  simp only [side]
  cases (engine.order incoming).side <;> rfl

/-- What one turn, or a whole run, of the matching loop does to everything but the makers. -/
structure Turned (engine : MatchingEngine) (incoming : Slot) (others : List Slot) (fills : List Fill) (left : UInt32)
    (engine' : MatchingEngine) : Prop where
  order : engine'.order incoming = { engine.order incoming with filledQty := (engine.order incoming).qty - left }
  fills : engine'.fills = engine.fills ++ fills
  untouched : ∀ other ∈ others, engine'.order other = engine.order other
  currentSeq : engine'.currentSeq = engine.currentSeq
  capacity : engine'.pool.capacity = engine.pool.capacity

theorem traded_ladder_hit (sound : engine.Sound queues free (incoming :: others)) {rest : List Slot}
    (slots : engine.book.sideSlots queues (engine.order incoming).side.opposite = resting :: rest) (qty : UInt32) :
    (engine.traded resting incoming qty).ladder queues (engine.order incoming).side.opposite =
      ((engine.order resting).fill qty).resting :: rest.map (fun slot => (engine.order slot).resting) := by
  have distinct := sound.laid.sideSlots_nodup (engine.order incoming).side.opposite
  have outside : ∀ slot ∈ resting :: rest, slot ≠ incoming := by
    intro slot inside same
    rw [← slots] at inside
    exact sound.others_outside (by simp [same]) (OrderBook.Laid.mem_slots_of_mem_side inside)
  have after := traded_order engine (outside resting List.mem_cons_self) qty
  rw [slots, List.nodup_cons] at distinct
  unfold ladder
  rw [traded_sideSlots, slots, List.map_cons, after resting, if_pos (Or.inr rfl)]
  congr 1
  apply List.map_congr_left
  intro slot inside
  have notResting : slot ≠ resting := fun same => distinct.1 (same ▸ inside)
  rw [after slot, if_neg (by simp [notResting, outside slot (List.mem_cons_of_mem _ inside)])]

theorem traded_ladder_own (sound : engine.Sound queues free (incoming :: others))
    (member : resting ∈ engine.book.sideSlots queues (engine.order incoming).side.opposite) (qty : UInt32) :
    (engine.traded resting incoming qty).ladder queues (engine.order incoming).side =
      engine.ladder queues (engine.order incoming).side := by
  have outside : ∀ {side}, ∀ slot ∈ engine.book.sideSlots queues side, slot ≠ incoming := by
    intro side slot inside same
    exact sound.others_outside (by simp [same]) (OrderBook.Laid.mem_slots_of_mem_side inside)
  have after := traded_order engine (outside resting member) qty
  have otherSide := (sound.laid.mem_sideSlots_iff.mp member).1
  unfold ladder
  rw [traded_sideSlots]
  apply List.map_congr_left
  intro slot inside
  have notResting : slot ≠ resting := by
    intro same
    have ownSide := (sound.laid.mem_sideSlots_iff.mp inside).1
    rw [same, otherSide] at ownSide
    exact Side.opposite_ne _ ownSide
  rw [after slot, if_neg (by simp [notResting, outside slot inside])]

/-- One turn is one step of the sweep. -/
theorem Sound.tradeTurn (sound : engine.Sound queues free (incoming :: others)) {rest : List Slot} {level : PriceLevel}
    (slots : engine.book.sideSlots queues (engine.order incoming).side.opposite = resting :: rest)
    (bounded : (engine.order incoming).filledQty ≤ (engine.order incoming).qty)
    (front : level.front = some resting) {left : UInt32} (left_eq : (engine.order incoming).remainingQty = left)
    {maker : Resting} (maker_eq : (engine.order resting).resting = maker) {qty : UInt32}
    (qty_eq : min left maker.remainingQty = qty) :
    ∃ engine' queues' free', engine.tradeTurn incoming level (engine.order resting).price = some engine' ∧
      engine'.Sound queues' free' (incoming :: others) ∧
      engine'.ladder queues' (engine.order incoming).side.opposite =
        (if maker.remainingQty ≤ left then rest.map (fun slot => (engine.order slot).resting)
          else { maker with filledQty := maker.filledQty + qty } :: rest.map (fun slot => (engine.order slot).resting)) ∧
      engine'.ladder queues' (engine.order incoming).side = engine.ladder queues (engine.order incoming).side ∧
      Turned engine incoming others [maker.fillBy (engine.order incoming).resting engine.currentSeq qty] (left - qty)
        engine' := by
  have member : resting ∈ engine.book.sideSlots queues (engine.order incoming).side.opposite := by simp [slots]
  have inBook := OrderBook.Laid.mem_slots_of_mem_side member
  have apart : resting ≠ incoming := fun same => sound.others_outside (by simp) (same ▸ inBook)
  have makerBounded := sound.bounded resting inBook
  have makerRemaining : (engine.order resting).remainingQty = maker.remainingQty := by
    rw [← maker_eq]
    rfl
  have takerEnough : qty ≤ left := by
    rw [← qty_eq]
    exact least_le_left _ _
  have makerEnough : qty ≤ (engine.order resting).remainingQty := by
    rw [← qty_eq, makerRemaining]
    exact least_le_right _ _
  have after := traded_order engine apart qty
  have traded := sound.traded member makerEnough
  have fills : (engine.traded resting incoming qty).fills =
      engine.fills ++ [maker.fillBy (engine.order incoming).resting engine.currentSeq qty] := by
    rw [← maker_eq]
    exact executeTrade_fills engine apart qty
  have taker : (engine.traded resting incoming qty).order incoming =
      { engine.order incoming with filledQty := (engine.order incoming).qty - (left - qty) } := by
    rw [after, if_pos (Or.inl rfl), Order.fill_eq bounded (left_eq ▸ takerEnough), left_eq]
  have held : ∀ other ∈ others, (engine.traded resting incoming qty).order other = engine.order other := by
    intro other member
    have notIncoming : other ≠ incoming := fun same => (List.nodup_cons.mp sound.others_nodup).1 (same ▸ member)
    have notResting : other ≠ resting :=
      fun same => sound.others_outside (List.mem_cons_of_mem _ member) (same ▸ inBook)
    exact traded_untouched engine apart qty notIncoming notResting
  have filled : ((engine.traded resting incoming qty).order resting).isFilled = true ↔ maker.remainingQty ≤ left := by
    rw [Order.isFilled_iff, after, if_pos (Or.inr rfl), Order.fill_remainingQty makerBounded makerEnough,
      makerRemaining, ← qty_eq]
    exact sub_least_eq_zero _ _
  have turn := tradeTurn_eq engine apart front
  rw [left_eq, makerRemaining, qty_eq] at turn
  rw [turn]
  by_cases covered : maker.remainingQty ≤ left
  · have stillInBook : resting ∈ (engine.traded resting incoming qty).book.slots queues := by
      rw [traded_slots]
      exact inBook
    obtain ⟨book, memory, removed, out⟩ := traded.withdraw stillInBook
    have hit := traded_ladder_hit sound slots qty
    have own := traded_ladder_own sound member qty
    have released := out.sound.release
    refine ⟨_, queues.leave resting, resting :: free, if_pos (filled.mpr covered), ?_⟩
    simp only [removed]
    refine ⟨released.1, ?_, ?_, ?_⟩
    · rw [released.2, out.ladder_eq, traded_sideSlots, slots, List.erase_cons_head, if_pos covered]
      unfold ladder at hit
      rw [traded_sideSlots, slots, List.map_cons] at hit
      exact (List.cons.inj hit).2
    · rw [released.2, out.ladder_eq, traded_sideSlots, List.erase_of_not_mem]
      · unfold ladder at own ⊢
        rw [traded_sideSlots] at own
        exact own
      · intro inside
        have ownSide := (sound.laid.mem_sideSlots_iff.mp inside).1
        rw [(sound.laid.mem_sideSlots_iff.mp member).1] at ownSide
        exact Side.opposite_ne _ ownSide
    · refine ⟨?_, fills, ?_, rfl, rfl⟩
      · exact (SlabPool.Valid.deallocate_slab _ (Ne.symm apart)).trans
          ((out.untouched incoming List.mem_cons_self).trans taker)
      · intro other inside
        have different : other ≠ resting :=
          fun same => sound.others_outside (List.mem_cons_of_mem _ inside) (same ▸ inBook)
        exact (SlabPool.Valid.deallocate_slab _ different).trans
          ((out.untouched other (List.mem_cons_of_mem _ inside)).trans (held other inside))
  · refine ⟨engine.traded resting incoming qty, queues, free, ?_, traded, ?_, traded_ladder_own sound member qty, ?_⟩
    · exact if_neg (fun isFilled => covered (filled.mp isFilled))
    · rw [if_neg covered, traded_ladder_hit sound slots, ← maker_eq]
      rfl
    · exact ⟨taker, fills, held, rfl, rfl⟩

theorem Turned.refl (bounded : (engine.order incoming).filledQty ≤ (engine.order incoming).qty) :
    Turned engine incoming others [] (engine.order incoming).remainingQty engine := by
  refine ⟨?_, (List.append_nil _).symm, fun _ _ => rfl, rfl, rfl⟩
  rw [Order.filledQty_eq bounded]

theorem Turned.trans {middle last : MatchingEngine} {first later : List Fill} {between left : UInt32}
    (one : Turned engine incoming others first between middle) (two : Turned middle incoming others later left last) :
    Turned engine incoming others (first ++ later) left last := by
  refine ⟨?_, ?_, ?_, two.currentSeq.trans one.currentSeq, two.capacity.trans one.capacity⟩
  · rw [two.order, one.order]
  · rw [two.fills, one.fills, List.append_assoc]
  · intro other member
    exact (two.untouched other member).trans (one.untouched other member)

def meets (taker : Order) (respectPrice : Bool) (price : UInt32) : Bool :=
  !respectPrice || taker.side.crosses price taker.price

theorem Turned.remaining {engine' : MatchingEngine} {fills : List Fill} {left : UInt32}
    (turned : Turned engine incoming others fills left engine') (within : left ≤ (engine.order incoming).qty) :
    (engine'.order incoming).remainingQty = left ∧
      (engine'.order incoming).filledQty ≤ (engine'.order incoming).qty := by
  rw [turned.order]
  exact Order.remainingQty_of_left within

/-- The outcome of the sweep, read off the engine. -/
structure Swept (engine : MatchingEngine) (queues : Queues) (incoming : Slot) (others : List Slot) (outcome : Sweep)
    (engine' : MatchingEngine) (queues' : Queues) (free' : List Slot) : Prop where
  sound : engine'.Sound queues' free' (incoming :: others)
  hit : engine'.ladder queues' (engine.order incoming).side.opposite = outcome.rest
  own : engine'.ladder queues' (engine.order incoming).side = engine.ladder queues (engine.order incoming).side
  turned : Turned engine incoming others outcome.fills outcome.left engine'

/-- The sweep that the rest of the loop amounts to. -/
def outlook (engine : MatchingEngine) (queues : Queues) (incoming : Slot) (respectPrice : Bool) : Sweep :=
  sweep (meets (engine.order incoming) respectPrice)
    (fun maker => maker.fillBy (engine.order incoming).resting engine.currentSeq)
    (engine.order incoming).remainingQty (engine.ladder queues (engine.order incoming).side.opposite)

/-- Between turns no maker is without units and the taker is not overfilled. -/
structure Matching (engine : MatchingEngine) (queues : Queues) (free : List Slot) (incoming : Slot)
    (others : List Slot) : Prop where
  sound : engine.Sound queues free (incoming :: others)
  bounded : (engine.order incoming).filledQty ≤ (engine.order incoming).qty
  opened : ∀ maker ∈ engine.ladder queues (engine.order incoming).side.opposite, maker.remainingQty ≠ 0

theorem Matching.turn (matching : engine.Matching queues free incoming others) {respectPrice : Bool} {rest : List Slot}
    (units : (engine.order incoming).remainingQty ≠ 0)
    (slots : engine.book.sideSlots queues (engine.order incoming).side.opposite = resting :: rest)
    (accepted : meets (engine.order incoming) respectPrice (engine.order resting).price = true) :
    ∃ level engine₁ queues₁ free₁,
      engine.nextTurn incoming respectPrice = .trade level (engine.order resting).price ∧
      engine.tradeTurn incoming level (engine.order resting).price = some engine₁ ∧
      engine₁.Matching queues₁ free₁ incoming others ∧
      (engine₁.order incoming).remainingQty.toNat < (engine.order incoming).remainingQty.toNat ∧
      ∀ engine' queues' free',
        Swept engine₁ queues₁ incoming others (engine₁.outlook queues₁ incoming respectPrice) engine' queues' free' →
        Swept engine queues incoming others (engine.outlook queues incoming respectPrice) engine' queues' free' := by
  have sound := matching.sound
  have member : resting ∈ engine.book.sideSlots queues (engine.order incoming).side.opposite := by simp [slots]
  have makerBounded := sound.bounded resting (OrderBook.Laid.mem_slots_of_mem_side member)
  have list : engine.ladder queues (engine.order incoming).side.opposite =
      (engine.order resting).resting :: rest.map (fun slot => (engine.order slot).resting) := by
    unfold ladder
    rw [slots, List.map_cons]
  obtain ⟨level, front, next⟩ := nextTurn_cons sound units slots respectPrice
  have makerOpen : (engine.order resting).resting.remainingQty ≠ 0 :=
    matching.opened _ (by rw [list]; exact List.mem_cons_self)
  obtain ⟨engine₁, queues₁, free₁, traded, sound₁, hit, own, turned⟩ :=
    sound.tradeTurn slots matching.bounded front rfl rfl rfl
  have step := sweep_turn (meets (engine.order incoming) respectPrice)
    (fun maker => maker.fillBy (engine.order incoming).resting engine.currentSeq)
    (rest.map (fun slot => (engine.order slot).resting)) units
    (show meets (engine.order incoming) respectPrice (engine.order resting).resting.price = true from accepted)
  have positive := least_ne_zero units makerOpen
  have fromTaker := least_le_left (engine.order incoming).remainingQty (engine.order resting).resting.remainingQty
  have fromMaker := least_le_right (engine.order incoming).remainingQty (engine.order resting).resting.remainingQty
  have used := sub_least_eq_zero (engine.order incoming).remainingQty (engine.order resting).resting.remainingQty
  generalize min (engine.order incoming).remainingQty (engine.order resting).resting.remainingQty = qty at *
  have less : ((engine.order incoming).remainingQty - qty).toNat < (engine.order incoming).remainingQty.toNat := by
    rw [UInt32.toNat_sub_of_le _ _ fromTaker]
    rw [UInt32.le_iff_toNat_le] at fromTaker
    have nonzero : qty.toNat ≠ 0 := fun zero => positive (UInt32.toNat_inj.mp zero)
    omega
  have within : (engine.order incoming).remainingQty - qty ≤ (engine.order incoming).qty := by
    have whole := (engine.order incoming).remainingQty_le
    rw [UInt32.le_iff_toNat_le] at whole ⊢
    omega
  obtain ⟨left₁, bounded₁⟩ := turned.remaining within
  have side₁ : (engine₁.order incoming).side = (engine.order incoming).side := by rw [turned.order]
  refine ⟨level, engine₁, queues₁, free₁, ?_, traded, ⟨sound₁, bounded₁, ?_⟩, ?_, ?_⟩
  · rw [next, if_neg]
    unfold meets at accepted
    simpa [imp_iff_or_not, or_comm] using accepted
  · intro maker inside
    rw [side₁, hit] at inside
    split at inside
    · exact matching.opened maker (by rw [list]; exact List.mem_cons_of_mem _ inside)
    next uncovered =>
      rcases List.mem_cons.mp inside with same | old
      · rw [same]
        change ((engine.order resting).fill qty).remainingQty ≠ 0
        rw [Order.fill_remainingQty makerBounded fromMaker]
        exact fun zero => uncovered (used.mp zero)
      · exact matching.opened maker (by rw [list]; exact List.mem_cons_of_mem _ old)
  · rw [left₁]
    exact less
  · intro engine' queues' free' swept
    have later : engine₁.outlook queues₁ incoming respectPrice =
        sweep (meets (engine.order incoming) respectPrice)
          (fun maker => maker.fillBy (engine.order incoming).resting engine.currentSeq)
          ((engine.order incoming).remainingQty - qty)
          (engine₁.ladder queues₁ (engine.order incoming).side.opposite) := by
      unfold outlook
      rw [left₁, side₁, turned.currentSeq, turned.order]
      rfl
    have now : engine.outlook queues incoming respectPrice =
        ⟨(engine.order resting).resting.fillBy (engine.order incoming).resting engine.currentSeq qty ::
            (engine₁.outlook queues₁ incoming respectPrice).fills,
          (engine₁.outlook queues₁ incoming respectPrice).left,
          (engine₁.outlook queues₁ incoming respectPrice).rest⟩ := by
      rw [later, hit]
      unfold outlook
      rw [list]
      exact step
    rw [now]
    refine ⟨swept.sound, side₁ ▸ swept.hit, ?_, turned.trans swept.turned⟩
    rw [← own, ← side₁]
    exact swept.own

theorem Matching.trading (matching : engine.Matching queues free incoming others) {respectPrice : Bool}
    {level : PriceLevel} {restPrice : UInt32} (decides : engine.nextTurn incoming respectPrice = .trade level restPrice) :
    ∃ resting rest, (engine.order incoming).remainingQty ≠ 0 ∧
      engine.book.sideSlots queues (engine.order incoming).side.opposite = resting :: rest ∧
      meets (engine.order incoming) respectPrice (engine.order resting).price = true ∧
      level.front = some resting ∧ restPrice = (engine.order resting).price := by
  by_cases filled : (engine.order incoming).remainingQty = 0
  · rw [nextTurn_filled filled] at decides
    cases decides
  cases slots : engine.book.sideSlots queues (engine.order incoming).side.opposite with
  | nil =>
    rw [nextTurn_nil matching.sound slots] at decides
    cases decides
  | cons resting rest =>
    obtain ⟨_, front, next⟩ := nextTurn_cons matching.sound filled slots respectPrice
    rw [next] at decides
    split at decides
    · cases decides
    next accepted =>
      cases decides
      refine ⟨resting, rest, filled, rfl, ?_, front, rfl⟩
      unfold meets
      simpa [imp_iff_or_not, or_comm] using accepted

/-- The loop comes back within its turns and leaves the outcome of the sweep. -/
theorem Matching.run (respectPrice : Bool) (turns : Nat) :
    ∀ (engine : MatchingEngine) (queues : Queues) (free : List Slot), engine.Matching queues free incoming others →
      (engine.order incoming).remainingQty.toNat < turns →
      ∃ engine' queues' free', engine.matchLoop incoming respectPrice turns = some engine' ∧
        Swept engine queues incoming others (engine.outlook queues incoming respectPrice) engine' queues' free' := by
  induction turns with
  | zero =>
    intro _ _ _ _ enough
    omega
  | succ turns ih =>
    intro engine queues free matching enough
    have stays : engine.outlook queues incoming respectPrice = ⟨[], (engine.order incoming).remainingQty,
        engine.ladder queues (engine.order incoming).side.opposite⟩ →
        engine.nextTurn incoming respectPrice = .leave →
        ∃ engine' queues' free', engine.matchLoop incoming respectPrice (turns + 1) = some engine' ∧
          Swept engine queues incoming others (engine.outlook queues incoming respectPrice) engine' queues' free' := by
      intro nothing leaves
      refine ⟨engine, queues, free, ?_, ?_⟩
      · rw [MatchingEngine.matchLoop, leaves]
      · rw [nothing]
        exact ⟨matching.sound, rfl, rfl, Turned.refl matching.bounded⟩
    by_cases filled : (engine.order incoming).remainingQty = 0
    · apply stays _ (nextTurn_filled filled respectPrice)
      unfold outlook
      rw [filled]
      exact sweep_zero _ _ _
    cases slots : engine.book.sideSlots queues (engine.order incoming).side.opposite with
    | nil =>
      apply stays _ (nextTurn_nil matching.sound slots respectPrice)
      unfold outlook ladder
      rw [slots]
      rfl
    | cons resting rest =>
      by_cases accepted : meets (engine.order incoming) respectPrice (engine.order resting).price = true
      · obtain ⟨level, engine₁, queues₁, free₁, decides, turn, matching₁, fewer, back⟩ :=
          matching.turn filled slots accepted
        obtain ⟨engine', queues', free', result, swept⟩ := ih engine₁ queues₁ free₁ matching₁ (by omega)
        refine ⟨engine', queues', free', ?_, back engine' queues' free' swept⟩
        rw [MatchingEngine.matchLoop, decides]
        simp only [turn, Option.bind_some]
        exact result
      · obtain ⟨level, front, next⟩ := nextTurn_cons matching.sound filled slots respectPrice
        apply stays
        · unfold outlook ladder
          rw [slots, List.map_cons]
          exact sweep_stop _ (Bool.eq_false_of_not_eq_true accepted)
        · rw [next, if_pos]
          unfold meets at accepted
          simpa using accepted

end MatchingEngine

end ChronoBook
