import ChronoBook.Matching.EngineSpec

/-! Feed messages at the engine. Every driver of the code hands a valid message
to the engine in the same way, and the engine answers as the priority lists say. -/

namespace ChronoBook
open Library Priority

def FeedMessage.order (m : FeedMessage) : Order :=
  { orderId := m.orderId
    symbolPacked := m.symbolPacked
    price := m.price
    qty := m.qty
    filledQty := 0
    side := Side.ofByte m.side
    type := OrderType.ofByte m.orderType }

/-- What a driver learns from the calls it makes for a message. -/
inductive Handling where
  | applied
  | missed
  | dropped
  deriving DecidableEq, Repr

namespace MatchingEngine

/-- The calls for one valid message: an ADD asks the pool for a slot and is dropped when there is none. -/
def dispatch (engine : MatchingEngine) (m : FeedMessage) : Option (Handling × MatchingEngine) :=
  if m.msgType = MsgType.ADD.byte then
    match engine.pool.allocate m.order with
    | none => some (.dropped, engine)
    | some (slot, pool) => do
        let engine ← ({ engine with pool := pool } : MatchingEngine).processOrder (some slot) m.sequence
        some (.applied, engine)
  else if m.msgType = MsgType.CANCEL.byte then
    let (found, engine) := engine.cancelOrder m.orderId
    some (if found then .applied else .missed, engine)
  else do
    let (found, engine) ← engine.modifyOrder m.orderId m.price m.qty m.sequence
    some (if found then .applied else .missed, engine)

structure Steady (engine : MatchingEngine) (queues : Queues) (free others : List Slot) : Prop where
  sound : engine.Sound queues free others
  wellFormed : (engine.ladder queues).WellFormed

/-- What the driver is told about a message that is not dropped. -/
def answer (ladder : Ladder) (m : FeedMessage) : Handling :=
  if m.msgType = MsgType.ADD.byte then .applied
  else if ladder.find? m.orderId = none then .missed else .applied

theorem answer_ne_dropped (ladder : Ladder) (m : FeedMessage) : answer ladder m ≠ .dropped := by
  unfold answer
  split
  · decide
  split <;> decide

structure Stepped (engine : MatchingEngine) (queues : Queues) (others : List Slot) (m : FeedMessage)
    (engine' : MatchingEngine) (queues' : Queues) (free' : List Slot) : Prop where
  sound : engine'.Sound queues' free' others
  ladder : engine'.ladder queues' = ((engine.ladder queues).apply m).2
  fills : engine'.fills = engine.fills ++ ((engine.ladder queues).apply m).1
  untouched : ∀ other ∈ others, engine'.order other = engine.order other
  capacity : engine'.pool.capacity = engine.pool.capacity
  residual : ∀ taker type, (engine.ladder queues).incoming m = some (taker, type) →
    ¬((((engine.ladder queues).cleared m).swept taker type m.sequence).left ≠ 0 ∧ type = .LIMIT) →
    ∃ slot calls object, engine'.pool.calls = calls ++ [.deallocate slot object] ∧
      object.remainingQty = (((engine.ladder queues).cleared m).swept taker type m.sequence).left

variable {engine : MatchingEngine} {queues : Queues} {free others : List Slot} {m : FeedMessage}

theorem Stepped.steady {engine' : MatchingEngine} {queues' : Queues} {free' : List Slot}
    (stepped : Stepped engine queues others m engine' queues' free') (wellFormed : (engine.ladder queues).WellFormed)
    (valid : isValidFeedMessage m = true) : engine'.Steady queues' free' others := by
  refine ⟨stepped.sound, ?_⟩
  rw [stepped.ladder]
  exact wellFormed.apply valid

theorem dispatch_dropped (sound : engine.Sound queues [] others) (kind : m.msgType = MsgType.ADD.byte) :
    engine.dispatch m = some (.dropped, engine) := by
  have none : engine.pool.freeHead = none := sound.pool.freeHead_eq
  unfold dispatch
  rw [if_pos kind]
  simp only [SlabPool.allocate, none]

theorem Steady.dispatch_add {slot : Slot} (steady : engine.Steady queues (slot :: free) others)
    (valid : isValidFeedMessage m = true) (kind : m.msgType = MsgType.ADD.byte) :
    ∃ engine' queues' free', engine.dispatch m = some (.applied, engine') ∧
      Stepped engine queues others m engine' queues' free' := by
  obtain ⟨pool, allocated, sound₁, ladder₁, slab, capacity, calls⟩ := steady.sound.acquire m.order
  let engine₁ : MatchingEngine := { engine with pool := pool }
  have order₁ : engine₁.order slot = m.order := by
    change pool.slab slot = m.order
    rw [slab, Function.update_self]
  have untouched₁ : ∀ other ∈ others, engine₁.order other = engine.order other := by
    intro other held
    have different : other ≠ slot := fun same => (steady.sound.free_outside List.mem_cons_self).2 (same ▸ held)
    change pool.slab other = engine.pool.slab other
    rw [slab, Function.update_of_ne different]
  have call : ∀ engine', engine₁.processOrder (some slot) m.sequence = some engine' →
      engine.dispatch m = some (.applied, engine') := by
    intro engine' result
    unfold dispatch
    rw [if_pos kind, allocated]
    change (engine₁.processOrder (some slot) m.sequence).bind (fun engine => some (Handling.applied, engine)) = _
    rw [result]
    rfl
  by_cases fresh : (engine.ladder queues).find? m.orderId = none
  · have price : m.order.type = .LIMIT → m.price ≠ 0 := by
      cases accepted_of_valid valid with
      | add _ _ price =>
        intro limit
        exact price (by change m.order.type ≠ .MARKET; rw [limit]; decide)
      | cancel other => rw [kind] at other; exact absurd other (by decide)
      | modify other => rw [kind] at other; exact absurd other (by decide)
    obtain ⟨engine', queues', free', result, entered⟩ := sound₁.processOrder
      (by rw [order₁]; exact UInt32.zero_le) (by rw [ladder₁]; exact steady.wellFormed.opened)
      (by rw [order₁]; exact price) (by rw [ladder₁, order₁]; exact fresh) m.sequence
    have taker : (engine₁.order slot).resting = m.taker := congrArg Order.resting order₁
    have type : (engine₁.order slot).type = OrderType.ofByte m.orderType := congrArg Order.type order₁
    have brings := Ladder.incoming_add kind fresh
    have applied := Ladder.apply_some brings
    rw [Ladder.cleared_add kind] at applied
    refine ⟨engine', queues', free', call engine' result, ⟨entered.sound, ?_, ?_, ?_, ?_, ?_⟩⟩
    · rw [entered.ladder, ladder₁, taker, type, applied]
    · rw [entered.fills, ladder₁, taker, type, applied]
    · intro other held
      exact (entered.untouched other held).trans (untouched₁ other held)
    · exact entered.capacity.trans capacity
    · intro other otherType brought leaves
      rw [brings] at brought
      cases brought
      have discarded := entered.discarded
      rw [ladder₁, taker, type] at discarded
      rw [Ladder.cleared_add kind] at leaves ⊢
      obtain ⟨calls, object, last, quantity⟩ := discarded leaves
      exact ⟨slot, calls, object, last, quantity⟩
  · have nothing := Ladder.incoming_taken kind fresh
    have applied := Ladder.apply_none nothing
    rw [Ladder.cleared_add kind] at applied
    have released := sound₁.release
    have taken : (engine₁.ladder queues).find? (engine₁.order slot).orderId ≠ none := by
      rw [order₁, ladder₁]
      exact fresh
    refine ⟨engine₁.free slot, queues, slot :: free, call _ (processOrder_duplicate sound₁ m.sequence taken),
      ⟨released.1, ?_, ?_, ?_, capacity, ?_⟩⟩
    · rw [released.2, ladder₁, applied]
    · rw [applied, List.append_nil]
      rfl
    · intro other held
      have different : other ≠ slot := fun same => (steady.sound.free_outside List.mem_cons_self).2 (same ▸ held)
      exact (SlabPool.Valid.deallocate_slab _ different).trans (untouched₁ other held)
    · intro taker type brought
      rw [nothing] at brought
      cases brought

theorem Steady.dispatch_cancel (steady : engine.Steady queues free others) (kind : m.msgType = MsgType.CANCEL.byte) :
    ∃ engine' queues' free',
      engine.dispatch m = some (answer (engine.ladder queues) m, engine') ∧
      Stepped engine queues others m engine' queues' free' := by
  have notAdd : m.msgType ≠ MsgType.ADD.byte := by rw [kind]; decide
  have nothing : (engine.ladder queues).incoming m = none := Ladder.incoming_cancel kind
  have applied := Ladder.apply_none nothing
  rw [Ladder.cleared_of_ne notAdd] at applied
  cases found : (engine.ladder queues).find? m.orderId with
  | none =>
    rw [Ladder.remove_absent found] at applied
    refine ⟨engine, queues, free, ?_, ⟨steady.sound, ?_, ?_, fun _ _ => rfl, rfl, ?_⟩⟩
    · unfold dispatch
      rw [if_neg notAdd, if_pos kind, cancelOrder_miss steady.sound found, answer, if_neg notAdd, if_pos found]
      rfl
    · rw [applied]
    · rw [applied, List.append_nil]
    · intro taker type brought
      rw [nothing] at brought
      cases brought
  | some old =>
    obtain ⟨engine', queues', free', result, cancelled⟩ := steady.sound.cancelOrder found
    refine ⟨engine', queues', free', ?_, ⟨cancelled.sound, ?_, ?_, cancelled.untouched, cancelled.capacity, ?_⟩⟩
    · unfold dispatch
      rw [if_neg notAdd, if_pos kind, result, answer, if_neg notAdd, found]
      rfl
    · rw [cancelled.ladder, applied]
    · rw [cancelled.fills, applied, List.append_nil]
    · intro taker type brought
      rw [nothing] at brought
      cases brought

theorem Steady.dispatch_modify (steady : engine.Steady queues free others) (kind : m.msgType = MsgType.MODIFY.byte)
    (priced : m.price ≠ 0) :
    ∃ engine' queues' free',
      engine.dispatch m = some (answer (engine.ladder queues) m, engine') ∧
      Stepped engine queues others m engine' queues' free' := by
  have notAdd : m.msgType ≠ MsgType.ADD.byte := by rw [kind]; decide
  have notCancel : m.msgType ≠ MsgType.CANCEL.byte := by rw [kind]; decide
  have brings : (engine.ladder queues).incoming m = _ := Ladder.incoming_modify kind
  have cleared : (engine.ladder queues).cleared m = _ := Ladder.cleared_of_ne notAdd
  cases found : (engine.ladder queues).find? m.orderId with
  | none =>
    rw [found] at brings
    have applied := Ladder.apply_none brings
    rw [cleared, Ladder.remove_absent found] at applied
    refine ⟨engine, queues, free, ?_, ⟨steady.sound, ?_, ?_, fun _ _ => rfl, rfl, ?_⟩⟩
    · unfold dispatch
      rw [if_neg notAdd, if_neg notCancel, modifyOrder_miss steady.sound found, answer, if_neg notAdd, if_pos found]
      rfl
    · rw [applied]
    · rw [applied, List.append_nil]
    · intro taker type brought
      rw [brings] at brought
      cases brought
  | some old =>
    rw [found] at brings
    have applied := Ladder.apply_some brings
    rw [cleared] at applied
    obtain ⟨engine', queues', free', result, sound, ladder, fills, untouched, capacity, discarded⟩ :=
      steady.sound.modifyOrder found steady.wellFormed.opened priced m.qty m.sequence
    refine ⟨engine', queues', free', ?_, ⟨sound, ?_, ?_, untouched, capacity, ?_⟩⟩
    · unfold dispatch
      rw [if_neg notAdd, if_neg notCancel, result, answer, if_neg notAdd, found]
      rfl
    · rw [ladder, applied]
      rfl
    · rw [fills, applied]
      rfl
    · intro taker type brought leaves
      rw [brings] at brought
      cases brought
      rw [cleared] at leaves ⊢
      have used := not_not.mp (fun some => leaves ⟨some, rfl⟩)
      rw [used]
      exact discarded used

/-- A valid message is applied as the priority lists say, unless it is an ADD and no slot is free. -/
theorem Steady.dispatch (steady : engine.Steady queues free others) (valid : isValidFeedMessage m = true) :
    (m.msgType = MsgType.ADD.byte ∧ free = [] ∧ engine.dispatch m = some (.dropped, engine)) ∨
      ((m.msgType = MsgType.ADD.byte → free ≠ []) ∧ ∃ engine' queues' free',
        engine.dispatch m = some (answer (engine.ladder queues) m, engine') ∧
        Stepped engine queues others m engine' queues' free') := by
  cases accepted_of_valid valid with
  | add kind _ _ =>
    cases free with
    | nil => exact Or.inl ⟨kind, rfl, dispatch_dropped steady.sound kind⟩
    | cons slot rest =>
      obtain ⟨engine', queues', free', result, stepped⟩ := steady.dispatch_add valid kind
      refine Or.inr ⟨fun _ => List.cons_ne_nil slot rest, engine', queues', free', ?_, stepped⟩
      rw [result, answer, if_pos kind]
  | cancel kind =>
    have notAdd : m.msgType ≠ MsgType.ADD.byte := by rw [kind]; decide
    exact Or.inr ⟨fun add => absurd add notAdd, steady.dispatch_cancel kind⟩
  | modify kind price _ =>
    have notAdd : m.msgType ≠ MsgType.ADD.byte := by rw [kind]; decide
    exact Or.inr ⟨fun add => absurd add notAdd, steady.dispatch_modify kind price⟩

/-- The order that the calls for a valid message hand to `processOrder`, and the state they do it in. -/
def presented (engine : MatchingEngine) (m : FeedMessage) : Option (MatchingEngine × Slot) :=
  if m.msgType = MsgType.ADD.byte then
    (engine.pool.allocate m.order).map (fun granted => ({ engine with pool := granted.2 }, granted.1))
  else if m.msgType = MsgType.CANCEL.byte then none
  else
    let (found, book, memory) := engine.book.cancelOrder engine.pool.slab m.orderId
    found.map (fun slot =>
      (({ engine.setMemory memory with book := book } : MatchingEngine).rewritten slot m.price m.qty, slot))

variable {engine₁ : MatchingEngine} {slot : Slot}

theorem presented_add {pool : OrderPool} (kind : m.msgType = MsgType.ADD.byte)
    (granted : engine.pool.allocate m.order = some (slot, pool)) :
    engine.presented m = some ({ engine with pool := pool }, slot) := by
  unfold presented
  rw [if_pos kind, granted]
  rfl

theorem dispatch_presented (given : engine.presented m = some (engine₁, slot)) :
    engine.dispatch m =
      (engine₁.processOrder (some slot) m.sequence).map (fun engine => (Handling.applied, engine)) := by
  unfold presented at given
  unfold MatchingEngine.dispatch
  by_cases add : m.msgType = MsgType.ADD.byte
  · rw [if_pos add] at given ⊢
    obtain ⟨granted, allocated, same⟩ := Option.map_eq_some_iff.mp given
    cases same
    simp only [allocated]
    cases ({ engine with pool := granted.2 } : MatchingEngine).processOrder (some granted.1) m.sequence <;> rfl
  rw [if_neg add] at given ⊢
  by_cases cancel : m.msgType = MsgType.CANCEL.byte
  · rw [if_pos cancel] at given
    cases given
  rw [if_neg cancel] at given ⊢
  unfold modifyOrder
  rcases cancelled : engine.book.cancelOrder engine.pool.slab m.orderId with ⟨found, book, memory⟩
  simp only [cancelled] at given ⊢
  obtain ⟨target, isFound, same⟩ := Option.map_eq_some_iff.mp given
  cases same
  simp only [isFound]
  change (((({ engine.setMemory memory with book := book } : MatchingEngine).rewritten slot m.price m.qty).processOrder
    (some slot) m.sequence).bind (fun engine => some (true, engine))).bind _ = _
  cases (({ engine.setMemory memory with book := book } : MatchingEngine).rewritten slot m.price m.qty).processOrder
    (some slot) m.sequence <;> rfl

structure Presented (ladder : Ladder) (others : List Slot) (m : FeedMessage) (engine₁ : MatchingEngine)
    (queues₁ : Queues) (free₁ : List Slot) (slot : Slot) : Prop where
  sound : engine₁.Sound queues₁ free₁ (slot :: others)
  ladder : engine₁.ladder queues₁ = ladder.cleared m
  unfilled : (engine₁.order slot).filledQty = 0
  priced : (engine₁.order slot).type ≠ .MARKET → (engine₁.order slot).price ≠ 0

theorem Steady.presented (steady : engine.Steady queues free others) (valid : isValidFeedMessage m = true)
    (given : engine.presented m = some (engine₁, slot)) :
    ∃ queues₁ free₁, Presented (engine.ladder queues) others m engine₁ queues₁ free₁ slot := by
  unfold MatchingEngine.presented at given
  cases accepted_of_valid valid with
  | add kind _ price =>
    rw [if_pos kind] at given
    cases free with
    | nil =>
      have empty : engine.pool.freeHead = none := steady.sound.pool.freeHead_eq
      simp [SlabPool.allocate, empty] at given
    | cons first rest =>
      obtain ⟨pool, allocated, sound₁, ladder₁, slab, _, _⟩ := steady.sound.acquire m.order
      rw [allocated] at given
      cases given
      have order : ({ engine with pool := pool } : MatchingEngine).order first = m.order := by
        change pool.slab first = m.order
        rw [slab, Function.update_self]
      refine ⟨queues, rest, sound₁, ladder₁.trans (Ladder.cleared_add kind).symm, ?_, ?_⟩
      · rw [order]
        rfl
      · rw [order]
        exact price
  | cancel kind =>
    rw [if_neg (by rw [kind]; decide), if_pos kind] at given
    cases given
  | modify kind price _ =>
    have notAdd : m.msgType ≠ MsgType.ADD.byte := by rw [kind]; decide
    rw [if_neg notAdd, if_neg (by rw [kind]; decide)] at given
    cases found : (engine.ladder queues).find? m.orderId with
    | none =>
      unfold OrderBook.cancelOrder at given
      simp only [steady.sound.orderMap_eq_none.mpr found] at given
      cases given
    | some old =>
      obtain ⟨target, book, memory, engine₂, cancelled, state, sound₂, ladder₂, record, _⟩ :=
        steady.sound.rewrite found m.price m.qty
      simp only [cancelled, Option.map_some, Option.some.injEq, Prod.mk.injEq] at given
      obtain ⟨sameState, rfl⟩ := given
      rw [← sameState, state]
      refine ⟨queues.leave target, free, sound₂, ladder₂.trans (Ladder.cleared_of_ne notAdd).symm, ?_, ?_⟩
      · exact congrArg Resting.filledQty record
      · intro _
        have samePrice : (engine₂.order target).price = m.price := congrArg Resting.price record
        rw [samePrice]
        exact price

end MatchingEngine

end ChronoBook
