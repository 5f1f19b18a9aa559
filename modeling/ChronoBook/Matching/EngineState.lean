import ChronoBook.Core.BookUpdate
import ChronoBook.Matching.PriceTime

/-! The state of an engine between and inside its operations. The pool's slots
are shared out between the free list, the engine's own book and `others`: the
orders in flight and, on a shared pool, the books of other engines. -/

namespace ChronoBook
open Library Priority

namespace OrderBook

variable {book : OrderBook} {memory : Memory} {queues : Queues}

/-- The first slot of a side is the front of the first level, found under its own price. -/
theorem Laid.front (laid : book.Laid memory queues) {side : Side} {first : Slot} {rest : List Slot}
    (slots : book.sideSlots queues side = first :: rest) :
    ∃ level, (book.levels side).keys.head? = some (memory first).price ∧
      (book.levels side).find? (memory first).price = some level ∧ level.front = some first := by
  have inside : first ∈ book.sideSlots queues side := by simp [slots]
  have place := (laid.mem_sideSlots_iff.mp inside).2
  have side_eq := (laid.mem_sideSlots_iff.mp inside).1
  rw [side_eq] at place
  unfold sideSlots at slots
  cases keys : (book.levels side).keys with
  | nil =>
    rw [keys] at slots
    cases slots
  | cons price later =>
    have nonempty := laid.mem_keys.mp (show price ∈ (book.levels side).keys by simp [keys])
    obtain ⟨front, behind, queue⟩ := List.exists_cons_of_ne_nil nonempty
    rw [keys, List.flatMap_cons, queue] at slots
    obtain ⟨rfl, _⟩ := List.cons.inj slots
    have price_eq := (laid.placed side price front (by simp [queue])).2
    rw [price_eq]
    cases found : (book.levels side).find? price with
    | none => exact absurd (laid.absent side price found) nonempty
    | some level =>
      have head := (laid.level side price level found).1.head_eq
      rw [queue] at head
      exact ⟨level, rfl, rfl, head⟩

theorem Laid.side_nil (laid : book.Laid memory queues) {side : Side} (slots : book.sideSlots queues side = []) :
    (book.levels side).keys = [] := by
  unfold sideSlots at slots
  cases keys : (book.levels side).keys with
  | nil => rfl
  | cons price later =>
    have nonempty := laid.mem_keys.mp (show price ∈ (book.levels side).keys by simp [keys])
    rw [keys, List.flatMap_cons, List.append_eq_nil_iff] at slots
    exact absurd slots.1 nonempty

theorem Laid.recount (laid : book.Laid memory queues) (side : Side) (price : UInt32) (change : PriceLevel → PriceLevel)
    (head : ∀ level, (change level).head = level.head) (tail : ∀ level, (change level).tail = level.tail) :
    (book.withSide side ((book.levels side).modify price change) book.orderMap).Laid memory queues := by
  have found : ∀ other place,
      ((book.withSide side ((book.levels side).modify price change) book.orderMap).levels other).find? place =
        if other = side ∧ place = price then ((book.levels other).find? place).map change
        else (book.levels other).find? place := by
    intro other place
    by_cases sameSide : other = side
    · subst sameSide
      rw [levels_withSide, SortedMap.find?_modify]
      by_cases samePrice : place = price
      · simp [samePrice]
      · simp [samePrice]
    · rw [levels_withSide_ne _ _ _ sameSide]
      simp [sameSide]
  refine ⟨?_, ?_, laid.placed, ?_⟩
  · intro other place level here
    rw [found] at here
    split at here
    · obtain ⟨old, foundOld, rfl⟩ := Option.map_eq_some_iff.mp here
      obtain ⟨holds, nonempty⟩ := laid.level other place old foundOld
      refine ⟨?_, nonempty⟩
      unfold PriceLevel.Holds
      rw [head, tail]
      exact holds
    · exact laid.level other place level here
  · intro other place missing
    rw [found] at missing
    split at missing
    · exact laid.absent other place (Option.map_eq_none_iff.mp missing)
    · exact laid.absent other place missing
  · intro id slot
    rw [orderMap_withSide]
    exact laid.mapped id slot

theorem sideSlots_recount (book : OrderBook) (queues : Queues) (side other : Side) (price : UInt32)
    (change : PriceLevel → PriceLevel) :
    (book.withSide side ((book.levels side).modify price change) book.orderMap).sideSlots queues other =
      book.sideSlots queues other := by
  unfold sideSlots
  by_cases sameSide : other = side
  · subst sameSide
    rw [levels_withSide, SortedMap.keys_modify]
  · rw [levels_withSide_ne _ _ _ sameSide]

theorem slots_congr {book' : OrderBook} {queues' : Queues}
    (same : ∀ side, book'.sideSlots queues' side = book.sideSlots queues side) :
    book'.slots queues' = book.slots queues := by
  unfold slots
  rw [same, same]

end OrderBook

namespace MatchingEngine

/-- The invariant of an engine whose pool also serves `others`. -/
structure Sound (engine : MatchingEngine) (queues : Queues) (free others : List Slot) : Prop where
  pool : engine.pool.Valid free (engine.book.slots queues ++ others)
  laid : engine.book.Laid engine.pool.slab queues
  bounded : ∀ slot ∈ engine.book.slots queues, (engine.order slot).filledQty ≤ (engine.order slot).qty
  limit : ∀ slot ∈ engine.book.slots queues, (engine.order slot).type = .LIMIT
  priced : ∀ slot ∈ engine.book.slots queues, (engine.order slot).price ≠ 0
  tallied : engine.pool.capacity < 2 ^ 32 → engine.book.Tallied engine.pool.slab queues

/-- The engine's book as a pair of priority lists. -/
def ladder (engine : MatchingEngine) (queues : Queues) : Ladder :=
  fun side => (engine.book.sideSlots queues side).map (fun slot => (engine.order slot).resting)

namespace Sound

variable {engine : MatchingEngine} {queues : Queues} {free others : List Slot}

theorem others_outside (sound : engine.Sound queues free others) {slot : Slot} (member : slot ∈ others) :
    slot ∉ engine.book.slots queues := by
  intro inside
  have distinct := (List.nodup_append.mp sound.pool.nodup).2.1
  exact (List.nodup_append.mp distinct).2.2 slot inside slot member rfl

theorem others_nodup (sound : engine.Sound queues free others) : others.Nodup :=
  (List.nodup_append.mp (List.nodup_append.mp sound.pool.nodup).2.1).2.1

theorem free_outside (sound : engine.Sound queues free others) {slot : Slot} (member : slot ∈ free) :
    slot ∉ engine.book.slots queues ∧ slot ∉ others := by
  constructor
  · intro inside
    exact sound.pool.disjoint member (List.mem_append_left _ inside)
  · intro inside
    exact sound.pool.disjoint member (List.mem_append_right _ inside)

/-- A level never holds as many orders as would wrap its counter. -/
theorem queue_length (sound : engine.Sound queues free others) (side : Side) (price : UInt32) :
    (queues side price).length + others.length ≤ engine.pool.capacity := by
  have subset : queues side price ⊆ engine.book.slots queues := fun slot member => sound.laid.mem_slots_of_mem member
  have shorter := ((sound.laid.queue_nodup side price).subperm subset).length_le
  have total := sound.pool.length_le
  rw [List.length_append] at total
  omega

theorem create (capacity : Nat) :
    (MatchingEngine.create capacity).Sound Queues.empty (List.range capacity).reverse [] where
  pool := SlabPool.Valid.create _ capacity
  laid := OrderBook.Laid.empty _
  bounded := by
    intro slot member
    cases member
  limit := by
    intro slot member
    cases member
  priced := by
    intro slot member
    cases member
  tallied := by
    intro _ side price level found
    cases side <;> cases found

end Sound

end MatchingEngine

end ChronoBook
