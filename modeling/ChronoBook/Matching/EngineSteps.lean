import ChronoBook.Matching.EngineState

/-! The elementary moves of an order: out of the pool, into the book, out of the
book, back to the pool. Each keeps the invariant, says what happens to the
priority lists, and leaves the slots held elsewhere alone. -/

namespace ChronoBook
open Library Priority

namespace MatchingEngine.Sound

variable {engine : MatchingEngine} {queues : Queues} {free free' others others' : List Slot} {slot : Slot}

/-- A step that leaves the book and the bytes of its orders alone. -/
theorem transfer (sound : engine.Sound queues free others) (engine' : MatchingEngine) (book : engine'.book = engine.book)
    (capacity : engine'.pool.capacity = engine.pool.capacity)
    (pool : engine'.pool.Valid free' (engine.book.slots queues ++ others'))
    (same : ∀ other ∈ engine.book.slots queues, engine'.order other = engine.order other) :
    engine'.Sound queues free' others' ∧ engine'.ladder queues = engine.ladder queues := by
  have inQueue : ∀ side price, ∀ other ∈ queues side price, engine'.pool.slab other = engine.pool.slab other := by
    intro side price other member
    exact same other (sound.laid.mem_slots_of_mem member)
  refine ⟨⟨?_, ?_, ?_, ?_, ?_, ?_⟩, ?_⟩
  · rw [book]
    exact pool
  · rw [book]
    apply sound.laid.frame
    intro side price other member
    rw [inQueue side price other member]
    exact ⟨rfl, rfl, rfl, rfl, rfl⟩
  · rw [book]
    intro other inside
    rw [same other inside]
    exact sound.bounded other inside
  · rw [book]
    intro other inside
    rw [same other inside]
    exact sound.limit other inside
  · rw [book]
    intro other inside
    rw [same other inside]
    exact sound.priced other inside
  · rw [book, capacity]
    intro small side price level found
    have counted := sound.tallied small side price level found
    have depth : PriceLevel.depth engine'.pool.slab (queues side price) =
        PriceLevel.depth engine.pool.slab (queues side price) := by
      unfold PriceLevel.depth
      congr 1
      apply List.map_congr_left
      intro other member
      rw [inQueue side price other member]
    exact ⟨counted.totalQty.trans depth.symm, counted.orderCount⟩
  · funext side
    unfold ladder
    rw [book]
    apply List.map_congr_left
    intro other member
    rw [same other (OrderBook.Laid.mem_slots_of_mem_side member)]

theorem write (sound : engine.Sound queues free others) {memory : Memory}
    (same : ∀ other, other ∉ others → memory other = engine.order other) :
    (engine.setMemory memory).Sound queues free others ∧
      (engine.setMemory memory).ladder queues = engine.ladder queues := by
  apply sound.transfer (engine.setMemory memory) rfl rfl
  · exact sound.pool.write (fun other member => same other (sound.free_outside member).2)
  · intro other inside
    exact same other (fun held => sound.others_outside held inside)

theorem release (sound : engine.Sound queues free (slot :: others)) :
    (engine.free slot).Sound queues (slot :: free) others ∧
      (engine.free slot).ladder queues = engine.ladder queues := by
  apply sound.transfer (engine.free slot) rfl rfl
  · exact (sound.pool.perm List.perm_middle).deallocate
  · intro other inside
    apply SlabPool.Valid.deallocate_slab
    intro same
    exact sound.others_outside (by simp [same]) inside

theorem acquire (sound : engine.Sound queues (slot :: free) others) (order : Order) :
    ∃ pool, engine.pool.allocate order = some (slot, pool) ∧
      ({ engine with pool := pool } : MatchingEngine).Sound queues free (slot :: others) ∧
      ({ engine with pool := pool } : MatchingEngine).ladder queues = engine.ladder queues ∧
      pool.slab = Function.update engine.pool.slab slot order ∧ pool.capacity = engine.pool.capacity ∧
      pool.calls = engine.pool.calls ++ [.allocate slot] := by
  obtain ⟨pool, result, valid, slab, capacity, calls⟩ := sound.pool.allocate order
  have moved := sound.transfer { engine with pool := pool } rfl capacity
    (valid.perm List.perm_middle.symm) (by
      intro other inside
      have different : other ≠ slot := by
        intro same
        exact (sound.free_outside List.mem_cons_self).1 (same ▸ inside)
      change pool.slab other = engine.pool.slab other
      rw [slab, Function.update_of_ne different])
  exact ⟨pool, result, moved.1, moved.2, slab, capacity, calls⟩

structure Withdrawn (engine : MatchingEngine) (queues : Queues) (free others : List Slot) (slot : Slot)
    (engine' : MatchingEngine) : Prop where
  sound : engine'.Sound (queues.leave slot) free (slot :: others)
  sides : ∀ side, engine'.book.sideSlots (queues.leave slot) side = (engine.book.sideSlots queues side).erase slot
  order : engine'.order slot = (engine.order slot).unlinked
  resting : ∀ other, (engine'.order other).resting = (engine.order other).resting
  untouched : ∀ other ∈ others, engine'.order other = engine.order other
  orderMap : engine'.book.orderMap = Function.update engine.book.orderMap (engine.order slot).orderId none

theorem Withdrawn.ladder_eq {engine' : MatchingEngine} (out : Withdrawn engine queues free others slot engine')
    (side : Side) : engine'.ladder (queues.leave slot) side =
      ((engine.book.sideSlots queues side).erase slot).map (fun other => (engine.order other).resting) := by
  unfold MatchingEngine.ladder
  rw [out.sides]
  apply List.map_congr_left
  intro other _
  exact out.resting other

theorem SameOrders.resting {memory memory' : Memory} (same : SameOrders memory memory') (slot : Slot) :
    (memory' slot).resting = (memory slot).resting :=
  same.field Order.resting (fun _ => rfl) slot

theorem slots_erase {book book' : OrderBook} {queues' : Queues}
    (laid : book.Laid engine.pool.slab queues)
    (sides : ∀ side, book'.sideSlots queues' side = (book.sideSlots queues side).erase slot) :
    book'.slots queues' = (book.slots queues).erase slot := by
  have split : ∀ side, book'.sideSlots queues' side = (book.sideSlots queues side).filter (fun other => other != slot) := by
    intro side
    rw [sides side, (laid.sideSlots_nodup side).erase_eq_filter]
  rw [laid.slots_nodup.erase_eq_filter]
  unfold OrderBook.slots
  rw [split, split, List.filter_append]

theorem withdraw (sound : engine.Sound queues free others) (member : slot ∈ engine.book.slots queues) :
    ∃ book memory, engine.book.removeOrder engine.pool.slab (some slot) = (book, memory) ∧
      Withdrawn engine queues free others slot { engine.setMemory memory with book := book } := by
  obtain ⟨book, memory, result, removed⟩ := sound.laid.removeOrder member
  have slots := slots_erase sound.laid removed.sides
  have shrunk : ∀ other ∈ book.slots (queues.leave slot), other ∈ engine.book.slots queues := by
    intro other inside
    rw [slots] at inside
    exact List.mem_of_mem_erase inside
  have fields : ∀ other, (memory other).unlinked = (engine.order other).unlinked := removed.same
  refine ⟨book, memory, result, ⟨⟨?_, removed.laid, ?_, ?_, ?_, ?_⟩, removed.sides, removed.unlinked,
    fun other => SameOrders.resting removed.same other, ?_, removed.orderMap⟩⟩
  · have moved : (engine.book.slots queues ++ others).Perm (book.slots (queues.leave slot) ++ slot :: others) := by
      rw [slots]
      exact ((List.perm_cons_erase member).append_right others).trans List.perm_middle.symm
    apply (sound.pool.perm moved).write
    intro other isFree
    exact removed.untouched other (sound.free_outside isFree).1
  · intro other inside
    have old := sound.bounded other (shrunk other inside)
    have qty := removed.same.field Order.qty (fun _ => rfl) other
    have filled := removed.same.field Order.filledQty (fun _ => rfl) other
    change (memory other).filledQty ≤ (memory other).qty
    rw [qty, filled]
    exact old
  · intro other inside
    exact (removed.same.field Order.type (fun _ => rfl) other).trans (sound.limit other (shrunk other inside))
  · intro other inside
    have price := removed.same.field Order.price (fun _ => rfl) other
    change (memory other).price ≠ 0
    rw [price]
    exact sound.priced other (shrunk other inside)
  · intro small
    exact removed.tallied (sound.tallied small)
  · intro other held
    exact removed.untouched other (sound.others_outside held)

structure Placed (engine : MatchingEngine) (queues : Queues) (free others : List Slot) (slot : Slot)
    (engine' : MatchingEngine) (queues' : Queues) : Prop where
  sound : engine'.Sound queues' free others
  own : engine'.book.sideSlots queues' (engine.order slot).side =
    enqueue (engine.order slot).side.Ahead (fun other => (engine.order other).price) slot
      (engine.book.sideSlots queues (engine.order slot).side)
  other : ∀ side, side ≠ (engine.order slot).side →
    engine'.book.sideSlots queues' side = engine.book.sideSlots queues side
  resting : ∀ other, (engine'.order other).resting = (engine.order other).resting
  untouched : ∀ other ∈ others, engine'.order other = engine.order other
  orderMap : engine'.book.orderMap = Function.update engine.book.orderMap (engine.order slot).orderId (some slot)

theorem Placed.ladder_eq {engine' : MatchingEngine} {queues' : Queues}
    (placed : Placed engine queues free others slot engine' queues') :
    engine'.ladder queues' = Function.update (engine.ladder queues) (engine.order slot).side
      (enqueue (engine.order slot).side.Ahead Resting.price (engine.order slot).resting
        (engine.ladder queues (engine.order slot).side)) := by
  have records : ∀ side, engine'.ladder queues' side =
      (engine'.book.sideSlots queues' side).map (fun other => (engine.order other).resting) := by
    intro side
    apply List.map_congr_left
    intro other _
    exact placed.resting other
  funext side
  rw [records]
  by_cases same : side = (engine.order slot).side
  · have sameKey : ∀ other, Resting.price (engine.order other).resting = (engine.order other).price := fun _ => rfl
    rw [same, Function.update_self, placed.own, map_enqueue (fun other => (engine.order other).resting) sameKey slot]
    rfl
  · rw [Function.update_of_ne same, placed.other side same]
    rfl

theorem place (sound : engine.Sound queues free (slot :: others))
    (fresh : engine.book.orderMap (engine.order slot).orderId = none)
    (bounded : (engine.order slot).filledQty ≤ (engine.order slot).qty)
    (limit : (engine.order slot).type = .LIMIT) (priced : (engine.order slot).price ≠ 0) :
    ∃ book memory queues', engine.book.addOrder engine.pool.slab (some slot) = (true, book, memory) ∧
      Placed engine queues free others slot { engine.setMemory memory with book := book } queues' := by
  have outside := sound.others_outside (show slot ∈ slot :: others by simp)
  obtain ⟨book, memory, result, rested⟩ := sound.laid.addOrder fresh outside
  obtain ⟨queues', queues_eq⟩ : ∃ queues',
      queues.join (engine.pool.slab slot).side (engine.pool.slab slot).price slot = queues' := ⟨_, rfl⟩
  rw [queues_eq] at rested
  have slots : (book.slots queues').Perm (slot :: engine.book.slots queues) := by
    unfold OrderBook.slots
    have own := rested.own
    have other := rested.other
    cases side : (engine.pool.slab slot).side with
    | BUY =>
      rw [side] at own other
      rw [own, other .SELL (by decide)]
      exact (enqueue_perm slot _).append_right _
    | SELL =>
      rw [side] at own other
      rw [own, other .BUY (by decide)]
      exact ((enqueue_perm slot _).append_left _).trans List.perm_middle
  have grown : ∀ other ∈ book.slots queues', other = slot ∨ other ∈ engine.book.slots queues := by
    intro other inside
    exact List.mem_cons.mp (slots.mem_iff.mp inside)
  refine ⟨book, memory, queues', result, ⟨⟨?_, rested.laid, ?_, ?_, ?_, ?_⟩, rested.own, rested.other,
    fun other => SameOrders.resting rested.same other, ?_, rested.orderMap⟩⟩
  · have moved : (engine.book.slots queues ++ slot :: others).Perm (book.slots queues' ++ others) :=
      List.perm_middle.trans (slots.symm.append_right others)
    apply (sound.pool.perm moved).write
    intro other isFree
    have held := (sound.free_outside isFree).2
    exact rested.untouched other (fun same => held (by simp [same])) (sound.free_outside isFree).1
  · intro other inside
    change (memory other).filledQty ≤ (memory other).qty
    rw [rested.same.field Order.qty (fun _ => rfl) other, rested.same.field Order.filledQty (fun _ => rfl) other]
    rcases grown other inside with same | old
    · rw [same]
      exact bounded
    · exact sound.bounded other old
  · intro other inside
    change (memory other).type = .LIMIT
    rw [rested.same.field Order.type (fun _ => rfl) other]
    rcases grown other inside with same | old
    · rw [same]
      exact limit
    · exact sound.limit other old
  · intro other inside
    change (memory other).price ≠ 0
    rw [rested.same.field Order.price (fun _ => rfl) other]
    rcases grown other inside with same | old
    · rw [same]
      exact priced
    · exact sound.priced other old
  · intro small
    change engine.pool.capacity < 2 ^ 32 at small
    apply rested.tallied _ (sound.tallied small)
    intro side price
    have room := sound.queue_length side price
    rw [List.length_cons] at room
    omega
  · intro other held
    have distinct := sound.others_nodup
    have different : other ≠ slot := by
      intro same
      exact (List.nodup_cons.mp distinct).1 (same ▸ held)
    exact rested.untouched other different (sound.others_outside (List.mem_cons_of_mem _ held))

end MatchingEngine.Sound

end ChronoBook
