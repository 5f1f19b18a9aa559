import ChronoBook.Matching.MatchLoop
import ChronoBook.Matching.PriceTimeLaws

/-! The engine's operations refine the operations on the priority lists. -/

namespace ChronoBook
open Library Priority

namespace MatchingEngine

variable {engine : MatchingEngine} {queues : Queues} {free others : List Slot} {slot : Slot}

theorem mem_ladder {side : Side} {order : Resting} :
    order ∈ engine.ladder queues side ↔
      ∃ other ∈ engine.book.sideSlots queues side, (engine.order other).resting = order := by
  unfold ladder
  exact List.mem_map

namespace Sound

theorem orderMap_eq_none (sound : engine.Sound queues free others) {id : UInt64} :
    engine.book.orderMap id = none ↔ (engine.ladder queues).find? id = none := by
  rw [sound.laid.orderMap_eq_none, Ladder.find?_eq_none]
  constructor
  · intro absent side order inside
    obtain ⟨other, there, rfl⟩ := mem_ladder.mp inside
    exact absent other (OrderBook.Laid.mem_slots_of_mem_side there)
  · intro absent other inside
    have there := sound.laid.mem_slots.mp inside
    have onSide := sound.laid.mem_sideSlots_iff.mpr ⟨rfl, there⟩
    exact absent _ _ (mem_ladder.mpr ⟨other, onSide, rfl⟩)

theorem find?_eq_some (sound : engine.Sound queues free others) {id : UInt64}
    (found : engine.book.orderMap id = some slot) :
    (engine.ladder queues).find? id = some (engine.order slot).resting := by
  obtain ⟨id_eq, inside⟩ := sound.laid.orderMap_eq_some.mp found
  cases present : (engine.ladder queues).find? id with
  | none =>
    rw [sound.orderMap_eq_none.mpr present] at found
    cases found
  | some order =>
    obtain ⟨⟨side, member⟩, same⟩ := Ladder.mem_of_find? present
    obtain ⟨other, there, rfl⟩ := mem_ladder.mp member
    have unique := sound.laid.id_injective inside (OrderBook.Laid.mem_slots_of_mem_side there) (id_eq.trans same.symm)
    rw [unique]

theorem ladder_erase (sound : engine.Sound queues free others) (member : slot ∈ engine.book.slots queues) (side : Side) :
    ((engine.book.sideSlots queues side).erase slot).map (fun other => (engine.order other).resting) =
      (engine.ladder queues).remove (engine.order slot).orderId side := by
  rw [(sound.laid.sideSlots_nodup side).erase_eq_filter]
  unfold Ladder.remove ladder
  rw [List.filter_map]
  congr 1
  apply List.filter_congr
  intro other inside
  by_cases same : other = slot
  · subst same
    simp [Order.resting]
  · have different : (engine.order other).orderId ≠ (engine.order slot).orderId := by
      intro sameId
      exact same (sound.laid.id_injective (OrderBook.Laid.mem_slots_of_mem_side inside) member sameId)
    simp [Order.resting, same, different]

end Sound

/-- The incoming order found the lists `ladder`, and what became of it and of them. -/
structure Entered (engine : MatchingEngine) (queues : Queues) (slot : Slot) (others : List Slot) (seq : UInt64)
    (engine' : MatchingEngine) (queues' : Queues) (free' : List Slot) : Prop where
  sound : engine'.Sound queues' free' others
  ladder : engine'.ladder queues' =
    (engine.ladder queues).enter (engine.order slot).resting (engine.order slot).type seq
  fills : engine'.fills = engine.fills ++
    ((engine.ladder queues).swept (engine.order slot).resting (engine.order slot).type seq).fills
  untouched : ∀ other ∈ others, engine'.order other = engine.order other
  capacity : engine'.pool.capacity = engine.pool.capacity
  discarded : ¬(((engine.ladder queues).swept (engine.order slot).resting (engine.order slot).type seq).left ≠ 0 ∧
      (engine.order slot).type = .LIMIT) →
    ∃ calls object, engine'.pool.calls = calls ++ [.deallocate slot object] ∧
      object.remainingQty =
        ((engine.ladder queues).swept (engine.order slot).resting (engine.order slot).type seq).left

theorem meets_eq (order : Order) (respectPrice : Bool) (kind : respectPrice = true ↔ order.type ≠ .MARKET) :
    meets order respectPrice = Ladder.accepts order.resting order.type := by
  funext price
  unfold meets Ladder.accepts
  congr 1
  cases respectPrice with
  | true => simpa using kind
  | false => simpa using kind

theorem Sound.matching (sound : engine.Sound queues free (slot :: others))
    (bounded : (engine.order slot).filledQty ≤ (engine.order slot).qty)
    (opened : ∀ side, ∀ maker ∈ engine.ladder queues side, maker.filledQty < maker.qty) :
    engine.Matching queues free slot others := by
  refine ⟨sound, bounded, ?_⟩
  intro maker inside zero
  have open' := opened _ maker inside
  have remaining := maker.remainingQty_toNat
  rw [zero, UInt32.toNat_zero] at remaining
  rw [UInt32.lt_iff_toNat_lt] at open'
  omega

theorem Sound.matchOneSide (sound : engine.Sound queues free (slot :: others))
    (bounded : (engine.order slot).filledQty ≤ (engine.order slot).qty)
    (opened : ∀ side, ∀ maker ∈ engine.ladder queues side, maker.filledQty < maker.qty) (respectPrice : Bool)
    (kind : respectPrice = true ↔ (engine.order slot).type ≠ .MARKET) :
    ∃ engine' queues' free', engine.matchOneSide slot respectPrice = some engine' ∧
      Swept engine queues slot others
        ((engine.ladder queues).swept (engine.order slot).resting (engine.order slot).type engine.currentSeq)
        engine' queues' free' := by
  have run := Matching.run respectPrice ((engine.order slot).remainingQty.toNat + 1) engine queues free
    (sound.matching bounded opened) (Nat.lt_succ_self _)
  unfold outlook at run
  rw [meets_eq _ _ kind] at run
  exact run

theorem Swept.ladder_eq {outcome : Sweep} {engine' : MatchingEngine} {queues' : Queues} {free' : List Slot}
    (swept : Swept engine queues slot others outcome engine' queues' free') :
    engine'.ladder queues' =
      Function.update (engine.ladder queues) (engine.order slot).side.opposite outcome.rest := by
  funext side
  rcases Side.eq_or_opposite (engine.order slot).side side with same | opposite
  · rw [same, Function.update_of_ne (Ne.symm (Side.opposite_ne _))]
    exact swept.own
  · rw [opposite, Function.update_self]
    exact swept.hit

section Finish
variable {seq : UInt64} {engine' : MatchingEngine} {queues' : Queues} {free' : List Slot}

/-- The taker is used up, or may not rest, and is given back. -/
theorem Swept.leave (swept : Swept engine queues slot others
      ((engine.ladder queues).swept (engine.order slot).resting (engine.order slot).type seq) engine' queues' free')
    (leaves : ¬(((engine.ladder queues).swept (engine.order slot).resting (engine.order slot).type seq).left ≠ 0 ∧
      (engine.order slot).type = .LIMIT)) :
    Entered engine queues slot others seq (engine'.free slot) queues' (slot :: free') := by
  have released := swept.sound.release
  refine ⟨released.1, ?_, swept.turned.fills, ?_, swept.turned.capacity, ?_⟩
  · rw [released.2, swept.ladder_eq, Ladder.enter, if_neg leaves]
    rfl
  · intro other inside
    have different : other ≠ slot := fun same => (List.nodup_cons.mp swept.sound.others_nodup).1 (same ▸ inside)
    exact (SlabPool.Valid.deallocate_slab _ different).trans (swept.turned.untouched other inside)
  · intro _
    have within := Ladder.swept_left_le (engine.ladder queues) (engine.order slot).resting (engine.order slot).type seq
    exact ⟨_, engine'.order slot, rfl, (swept.turned.remaining within).1⟩

theorem Swept.fresh (swept : Swept engine queues slot others
      ((engine.ladder queues).swept (engine.order slot).resting (engine.order slot).type seq) engine' queues' free')
    (fresh : (engine.ladder queues).find? (engine.order slot).orderId = none) :
    engine'.book.orderMap (engine'.order slot).orderId = none := by
  rw [swept.sound.orderMap_eq_none, swept.turned.order, Ladder.find?_eq_none, swept.ladder_eq]
  exact Ladder.WellFormed.fresh_hit (engine.order slot).resting (engine.order slot).type seq
    (Ladder.find?_eq_none.mp fresh)

/-- What is left of a LIMIT order rests behind the orders of its price. -/
theorem Swept.stay (swept : Swept engine queues slot others
      ((engine.ladder queues).swept (engine.order slot).resting (engine.order slot).type seq) engine' queues' free')
    (units : ((engine.ladder queues).swept (engine.order slot).resting (engine.order slot).type seq).left ≠ 0)
    (limit : (engine.order slot).type = .LIMIT) (priced : (engine.order slot).price ≠ 0)
    (fresh : (engine.ladder queues).find? (engine.order slot).orderId = none) :
    ∃ book memory queues'', engine'.book.addOrder engine'.pool.slab (some slot) = (true, book, memory) ∧
      Entered engine queues slot others seq { engine'.setMemory memory with book := book } queues'' free' := by
  have within := Ladder.swept_left_le (engine.ladder queues) (engine.order slot).resting (engine.order slot).type seq
  have order := swept.turned.order
  have residual : (engine'.order slot).resting =
      (engine.ladder queues).residual (engine.order slot).resting (engine.order slot).type seq := by
    rw [order]
    rfl
  obtain ⟨book, memory, queues'', added, placed⟩ := swept.sound.place (swept.fresh fresh) (swept.turned.remaining within).2
    (by rw [order]; exact limit) (by rw [order]; exact priced)
  refine ⟨book, memory, queues'', added, ⟨placed.sound, ?_, swept.turned.fills, ?_, swept.turned.capacity, ?_⟩⟩
  · have side : (engine'.order slot).side = (engine.order slot).side := by rw [order]
    rw [placed.ladder_eq, residual, side, swept.own, swept.ladder_eq, Ladder.enter, if_pos ⟨units, limit⟩]
    rfl
  · intro other inside
    exact (placed.untouched other inside).trans (swept.turned.untouched other inside)
  · intro leaves
    exact absurd ⟨units, limit⟩ leaves

end Finish

theorem Sound.withSeq (sound : engine.Sound queues free others) (seq : UInt64) :
    ({ engine with currentSeq := seq } : MatchingEngine).Sound queues free others :=
  ⟨sound.pool, sound.laid, sound.bounded, sound.limit, sound.priced, sound.tallied⟩

def matchAs (engine : MatchingEngine) (slot : Slot) : OrderType → Option MatchingEngine
  | .LIMIT => engine.matchLimit slot
  | .MARKET => (engine.matchOneSide slot false).map (fun engine => engine.free slot)
  | .IOC => (engine.matchOneSide slot true).map (fun engine => engine.free slot)

theorem processOrder_present {seq : UInt64} (present : engine.book.containsOrder (engine.order slot).orderId = true) :
    engine.processOrder (some slot) seq = some (engine.free slot) := by
  unfold processOrder
  exact if_pos present

theorem processOrder_absent {seq : UInt64} (absent : ¬engine.book.containsOrder (engine.order slot).orderId = true) :
    engine.processOrder (some slot) seq =
      ({ engine with currentSeq := seq } : MatchingEngine).matchAs slot (engine.order slot).type := by
  unfold processOrder
  refine (if_neg absent).trans ?_
  dsimp only
  change (match (engine.order slot).type with
    | .LIMIT => _
    | .MARKET => _
    | .IOC => _) = _
  generalize ({ engine with currentSeq := seq } : MatchingEngine) = stamped
  unfold matchAs matchMarket matchIOC
  cases (engine.order slot).type with
  | LIMIT => rfl
  | MARKET => cases stamped.matchOneSide slot false <;> rfl
  | IOC => cases stamped.matchOneSide slot true <;> rfl

theorem processOrder_duplicate (sound : engine.Sound queues free (slot :: others)) (seq : UInt64)
    (taken : (engine.ladder queues).find? (engine.order slot).orderId ≠ none) :
    engine.processOrder (some slot) seq = some (engine.free slot) := by
  have present : (engine.book.orderMap (engine.order slot).orderId).isSome = true := by
    rw [Option.isSome_iff_ne_none]
    exact fun absent => taken (sound.orderMap_eq_none.mp absent)
  exact processOrder_present present

theorem Sound.matchAs (sound : engine.Sound queues free (slot :: others))
    (bounded : (engine.order slot).filledQty ≤ (engine.order slot).qty)
    (opened : ∀ side, ∀ maker ∈ engine.ladder queues side, maker.filledQty < maker.qty)
    (priced : (engine.order slot).type = .LIMIT → (engine.order slot).price ≠ 0)
    (fresh : (engine.ladder queues).find? (engine.order slot).orderId = none) :
    ∃ engine' queues' free', engine.matchAs slot (engine.order slot).type = some engine' ∧
      Entered engine queues slot others engine.currentSeq engine' queues' free' := by
  have loop := sound.matchOneSide bounded opened
  cases type : (engine.order slot).type with
  | MARKET =>
    obtain ⟨engine₁, queues₁, free₁, result, swept⟩ := loop false (by simp [type])
    refine ⟨engine₁.free slot, queues₁, slot :: free₁, ?_, swept.leave (by simp [type])⟩
    simp [MatchingEngine.matchAs, result]
  | IOC =>
    obtain ⟨engine₁, queues₁, free₁, result, swept⟩ := loop true (by simp [type])
    refine ⟨engine₁.free slot, queues₁, slot :: free₁, ?_, swept.leave (by simp [type])⟩
    simp [MatchingEngine.matchAs, result]
  | LIMIT =>
    obtain ⟨engine₁, queues₁, free₁, result, swept⟩ := loop true (by simp [type])
    have within := Ladder.swept_left_le (engine.ladder queues) (engine.order slot).resting (engine.order slot).type
      engine.currentSeq
    have filled := (engine₁.order slot).isFilled_iff
    rw [(swept.turned.remaining within).1] at filled
    by_cases used : ((engine.ladder queues).swept (engine.order slot).resting (engine.order slot).type
        engine.currentSeq).left = 0
    · refine ⟨engine₁.free slot, queues₁, slot :: free₁, ?_, swept.leave (fun stays => stays.1 used)⟩
      simp [MatchingEngine.matchAs, matchLimit, result, filled.mpr used]
    · obtain ⟨book, memory, queues₂, added, entered⟩ := swept.stay used type (priced type) fresh
      refine ⟨_, queues₂, free₁, ?_, entered⟩
      have open' := Bool.eq_false_of_not_eq_true (fun isFilled => used (filled.mp isFilled))
      simp [MatchingEngine.matchAs, matchLimit, result, open', added]

theorem Sound.processOrder (sound : engine.Sound queues free (slot :: others))
    (bounded : (engine.order slot).filledQty ≤ (engine.order slot).qty)
    (opened : ∀ side, ∀ maker ∈ engine.ladder queues side, maker.filledQty < maker.qty)
    (priced : (engine.order slot).type = .LIMIT → (engine.order slot).price ≠ 0)
    (fresh : (engine.ladder queues).find? (engine.order slot).orderId = none) (seq : UInt64) :
    ∃ engine' queues' free', engine.processOrder (some slot) seq = some engine' ∧
      Entered engine queues slot others seq engine' queues' free' := by
  have absent : ¬engine.book.containsOrder (engine.order slot).orderId = true := by
    unfold OrderBook.containsOrder
    rw [sound.orderMap_eq_none.mpr fresh]
    decide
  obtain ⟨engine', queues', free', result, entered⟩ := (sound.withSeq seq).matchAs bounded opened priced fresh
  refine ⟨engine', queues', free', (processOrder_absent absent).trans result, ?_⟩
  exact ⟨entered.sound, entered.ladder, entered.fills, entered.untouched, entered.capacity, entered.discarded⟩

theorem Sound.unlink (sound : engine.Sound queues free others) {id : UInt64} {old : Resting}
    (found : (engine.ladder queues).find? id = some old) :
    ∃ slot book memory, engine.book.cancelOrder engine.pool.slab id = (some slot, book, memory) ∧
      (engine.order slot).resting = old ∧ slot ∈ engine.book.slots queues ∧
      Sound.Withdrawn engine queues free others slot { engine.setMemory memory with book := book } ∧
      ({ engine.setMemory memory with book := book } : MatchingEngine).ladder (queues.leave slot) =
        (engine.ladder queues).remove id := by
  cases mapped : engine.book.orderMap id with
  | none =>
    rw [sound.orderMap_eq_none.mp mapped] at found
    cases found
  | some slot =>
    obtain ⟨sameId, inside⟩ := sound.laid.orderMap_eq_some.mp mapped
    have record := sound.find?_eq_some mapped
    rw [found] at record
    obtain ⟨book, memory, removed, out⟩ := sound.withdraw inside
    refine ⟨slot, book, memory, ?_, (Option.some.inj record).symm, inside, out, ?_⟩
    · simp only [OrderBook.cancelOrder, mapped, removed]
    · funext side
      rw [out.ladder_eq, sound.ladder_erase inside]
      change (engine.ladder queues).remove (engine.pool.slab slot).orderId side = _
      rw [sameId]

structure Cancelled (engine : MatchingEngine) (queues : Queues) (others : List Slot) (id : UInt64)
    (engine' : MatchingEngine) (queues' : Queues) (free' : List Slot) : Prop where
  sound : engine'.Sound queues' free' others
  ladder : engine'.ladder queues' = (engine.ladder queues).remove id
  fills : engine'.fills = engine.fills
  untouched : ∀ other ∈ others, engine'.order other = engine.order other
  capacity : engine'.pool.capacity = engine.pool.capacity

theorem cancelOrder_miss (sound : engine.Sound queues free others) {id : UInt64}
    (absent : (engine.ladder queues).find? id = none) : engine.cancelOrder id = (false, engine) := by
  unfold cancelOrder OrderBook.cancelOrder
  rw [sound.orderMap_eq_none.mpr absent]
  rfl

theorem Sound.cancelOrder (sound : engine.Sound queues free others) {id : UInt64} {old : Resting}
    (found : (engine.ladder queues).find? id = some old) :
    ∃ engine' queues' free', engine.cancelOrder id = (true, engine') ∧
      Cancelled engine queues others id engine' queues' free' := by
  obtain ⟨slot, book, memory, cancelled, record, inside, out, ladder⟩ := sound.unlink found
  have released := out.sound.release
  refine ⟨_, queues.leave slot, slot :: free, ?_, ⟨released.1, released.2.trans ladder, rfl, ?_, rfl⟩⟩
  · unfold MatchingEngine.cancelOrder
    simp only [cancelled]
  · intro other held
    have different : other ≠ slot := fun same => sound.others_outside held (same ▸ inside)
    exact (SlabPool.Valid.deallocate_slab _ different).trans (out.untouched other held)

theorem modifyOrder_miss (sound : engine.Sound queues free others) {id : UInt64}
    (absent : (engine.ladder queues).find? id = none) (newPrice newQty : UInt32) (seq : UInt64) :
    engine.modifyOrder id newPrice newQty seq = some (false, engine) := by
  unfold modifyOrder OrderBook.cancelOrder
  rw [sound.orderMap_eq_none.mpr absent]
  rfl

def rewritten (engine : MatchingEngine) (slot : Slot) (newPrice newQty : UInt32) : MatchingEngine :=
  engine.setMemory (Memory.modify engine.pool.slab slot (fun object =>
    { object with price := newPrice, qty := newQty, filledQty := 0, type := .LIMIT }))

theorem rewritten_same (engine : MatchingEngine) (slot : Slot) (newPrice newQty : UInt32) :
    (engine.rewritten slot newPrice newQty).order slot =
      { engine.order slot with price := newPrice, qty := newQty, filledQty := 0, type := .LIMIT } := by
  simp only [rewritten, order, setMemory, Memory.modify_same]

theorem rewritten_other (engine : MatchingEngine) {slot other : Slot} (newPrice newQty : UInt32)
    (different : other ≠ slot) : (engine.rewritten slot newPrice newQty).order other = engine.order other := by
  simp only [rewritten, order, setMemory, Memory.modify_other _ _ different]

/-- An order taken out of the book and rewritten is in flight, and its id no longer rests. -/
theorem Sound.rewrite (sound : engine.Sound queues free others) {id : UInt64} {old : Resting}
    (found : (engine.ladder queues).find? id = some old) (newPrice newQty : UInt32) :
    ∃ slot book memory engine₁, engine.book.cancelOrder engine.pool.slab id = (some slot, book, memory) ∧
      ({ engine.setMemory memory with book := book } : MatchingEngine).rewritten slot newPrice newQty = engine₁ ∧
      engine₁.Sound (queues.leave slot) free (slot :: others) ∧
      engine₁.ladder (queues.leave slot) = (engine.ladder queues).remove id ∧
      (engine₁.order slot).resting = { old with price := newPrice, qty := newQty, filledQty := 0 } ∧
      (engine₁.order slot).type = .LIMIT ∧ (∀ other ∈ others, engine₁.order other = engine.order other) ∧
      engine₁.fills = engine.fills ∧ engine₁.pool.capacity = engine.pool.capacity := by
  obtain ⟨slot, book, memory, cancelled, record, inside, out, ladder⟩ := sound.unlink found
  have elsewhere : ∀ other, other ∉ slot :: others →
      (({ engine.setMemory memory with book := book } : MatchingEngine).rewritten slot newPrice newQty).order other =
        memory other := by
    intro other outside
    exact rewritten_other _ newPrice newQty (fun same => outside (by simp [same]))
  have moved := out.sound.write elsewhere
  refine ⟨slot, book, memory, _, cancelled, rfl, moved.1, moved.2.trans ladder, ?_, ?_, ?_, rfl, rfl⟩
  · have resting : (memory slot).resting = old := (out.resting slot).trans record
    rw [rewritten_same, ← resting]
    rfl
  · rw [rewritten_same]
  · intro other held
    have different : other ≠ slot := fun same => sound.others_outside held (same ▸ inside)
    exact (rewritten_other _ newPrice newQty different).trans (out.untouched other held)

/-- Modifying replaces the order by a new one of the same id, side and symbol, which is matched as it enters. -/
theorem Sound.modifyOrder (sound : engine.Sound queues free others) {id : UInt64} {old : Resting}
    (found : (engine.ladder queues).find? id = some old)
    (opened : ∀ side, ∀ maker ∈ engine.ladder queues side, maker.filledQty < maker.qty) {newPrice : UInt32}
    (priced : newPrice ≠ 0) (newQty : UInt32) (seq : UInt64) :
    ∃ engine' queues' free', engine.modifyOrder id newPrice newQty seq = some (true, engine') ∧
      engine'.Sound queues' free' others ∧
      engine'.ladder queues' = ((engine.ladder queues).remove id).enter
        { old with price := newPrice, qty := newQty, filledQty := 0 } .LIMIT seq ∧
      engine'.fills = engine.fills ++ (((engine.ladder queues).remove id).swept
        { old with price := newPrice, qty := newQty, filledQty := 0 } .LIMIT seq).fills ∧
      (∀ other ∈ others, engine'.order other = engine.order other) ∧
      engine'.pool.capacity = engine.pool.capacity ∧
      ((((engine.ladder queues).remove id).swept
          { old with price := newPrice, qty := newQty, filledQty := 0 } .LIMIT seq).left = 0 →
        ∃ slot calls object, engine'.pool.calls = calls ++ [.deallocate slot object] ∧ object.remainingQty = 0) := by
  obtain ⟨slot, book, memory, engine₁, cancelled, state, sound₁, ladder₁, record₁, limit, untouched₁, fills₁,
    capacity₁⟩ := sound.rewrite found newPrice newQty
  have sameId : (engine₁.order slot).orderId = id :=
    (congrArg Resting.orderId record₁).trans (Ladder.mem_of_find? found).2
  have fresh : (engine₁.ladder (queues.leave slot)).find? (engine₁.order slot).orderId = none := by
    rw [ladder₁, Ladder.find?_eq_none, sameId]
    intro side other member
    exact (Ladder.mem_remove.mp member).2
  have bounded : (engine₁.order slot).filledQty ≤ (engine₁.order slot).qty := by
    have filled : (engine₁.order slot).filledQty = 0 := congrArg Resting.filledQty record₁
    rw [filled]
    exact UInt32.zero_le
  have opened₁ : ∀ side, ∀ maker ∈ engine₁.ladder (queues.leave slot) side, maker.filledQty < maker.qty := by
    rw [ladder₁]
    intro side maker member
    exact opened side maker (Ladder.mem_remove.mp member).1
  have priced₁ : (engine₁.order slot).type = .LIMIT → (engine₁.order slot).price ≠ 0 := by
    intro _
    have price : (engine₁.order slot).price = newPrice := congrArg Resting.price record₁
    rw [price]
    exact priced
  obtain ⟨engine', queues', free', result, entered⟩ := sound₁.processOrder bounded opened₁ priced₁ fresh seq
  refine ⟨engine', queues', free', ?_, entered.sound, ?_, ?_, ?_, entered.capacity.trans capacity₁, ?_⟩
  · rw [← state] at result
    unfold MatchingEngine.modifyOrder
    simp only [cancelled]
    exact congrArg (fun outcome : Option MatchingEngine => outcome.bind (fun engine => some (true, engine))) result
  · rw [entered.ladder, ladder₁, record₁, limit]
  · rw [entered.fills, ladder₁, record₁, limit, fills₁]
  · intro other held
    exact (entered.untouched other held).trans (untouched₁ other held)
  · intro used
    have discarded := entered.discarded
    rw [ladder₁, record₁, limit, used] at discarded
    obtain ⟨calls, object, last, quantity⟩ := discarded (fun stays => stays.1 rfl)
    exact ⟨slot, calls, object, last, quantity⟩

end MatchingEngine

end ChronoBook
