import ChronoBook.Core.OrderBook
import ChronoBook.Library.Priority

/-! How a book lies in memory: the FIFO of every level, the id map and the sides
and prices stored in the orders tell one story. The two operations that change
the story, resting an order and removing one, are specified here once. -/

namespace ChronoBook
open Library Priority

/-- The slots resting at each side and price, in arrival order. -/
abbrev Queues := Side → UInt32 → List Slot

namespace Queues

def empty : Queues := fun _ _ => []

def join (queues : Queues) (side : Side) (price : UInt32) (order : Slot) : Queues :=
  Function.update queues side (Function.update (queues side) price (queues side price ++ [order]))

def leave (queues : Queues) (order : Slot) : Queues := fun side price => (queues side price).erase order

theorem join_same (queues : Queues) (side : Side) (price : UInt32) (order : Slot) :
    queues.join side price order side price = queues side price ++ [order] := by
  simp [join]

theorem join_price (queues : Queues) (side : Side) {price other : UInt32} (order : Slot)
    (different : other ≠ price) : queues.join side price order side other = queues side other := by
  simp [join, different]

theorem join_side (queues : Queues) {side other : Side} (price : UInt32) (order : Slot)
    (different : other ≠ side) : queues.join side price order other = queues other := by
  simp [join, different]

theorem join_apart (queues : Queues) {side other : Side} {price place : UInt32} (order : Slot)
    (apart : other ≠ side ∨ place ≠ price) : queues.join side price order other place = queues other place := by
  rcases apart with apart | apart
  · rw [join_side _ _ _ apart]
  · by_cases sameSide : other = side
    · rw [sameSide, join_price _ _ _ apart]
    · rw [join_side _ _ _ sameSide]

theorem mem_join {queues : Queues} {side other : Side} {price place : UInt32} {order slot : Slot} :
    slot ∈ queues.join side price order other place ↔
      slot ∈ queues other place ∨ (slot = order ∧ other = side ∧ place = price) := by
  by_cases sameSide : other = side
  · subst sameSide
    by_cases samePrice : place = price
    · subst samePrice
      simp [join_same]
    · simp [join_price queues other order samePrice, samePrice]
  · simp [join_side queues price order sameSide, sameSide]

end Queues

/-- The level maps, the links, the id map and the orders in memory agree on `queues`. -/
structure OrderBook.Laid (book : OrderBook) (memory : Memory) (queues : Queues) : Prop where
  level : ∀ side price level, (book.levels side).find? price = some level →
    level.Holds memory (queues side price) ∧ queues side price ≠ []
  absent : ∀ side price, (book.levels side).find? price = none → queues side price = []
  placed : ∀ side price slot, slot ∈ queues side price →
    (memory slot).side = side ∧ (memory slot).price = price
  mapped : ∀ id slot, book.orderMap id = some slot ↔
    (memory slot).orderId = id ∧ slot ∈ queues (memory slot).side (memory slot).price

def OrderBook.Tallied (book : OrderBook) (memory : Memory) (queues : Queues) : Prop :=
  ∀ side price level, (book.levels side).find? price = some level → level.Counted memory (queues side price)

/-- The slots of one side in matching priority: levels in map order, each level in FIFO order. -/
def OrderBook.sideSlots (book : OrderBook) (queues : Queues) (side : Side) : List Slot :=
  (book.levels side).keys.flatMap (queues side)

def OrderBook.slots (book : OrderBook) (queues : Queues) : List Slot :=
  book.sideSlots queues .BUY ++ book.sideSlots queues .SELL

namespace OrderBook.Laid

variable {book : OrderBook} {memory memory' : Memory} {queues : Queues}

theorem empty (memory : Memory) : OrderBook.empty.Laid memory Queues.empty where
  level := by
    intro side price level found
    cases side <;> cases found
  absent := fun _ _ _ => rfl
  placed := by
    intro side price slot member
    cases member
  mapped := by
    intro id slot
    constructor
    · intro found
      cases found
    · intro member
      cases member.2

/-- Writes outside the book, or to fields the layout does not read, keep the layout. -/
theorem frame (laid : book.Laid memory queues)
    (same : ∀ side price, ∀ slot ∈ queues side price,
      (memory' slot).next = (memory slot).next ∧ (memory' slot).prev = (memory slot).prev ∧
      (memory' slot).side = (memory slot).side ∧ (memory' slot).price = (memory slot).price ∧
      (memory' slot).orderId = (memory slot).orderId) :
    book.Laid memory' queues where
  level := by
    intro side price level found
    obtain ⟨holds, nonempty⟩ := laid.level side price level found
    refine ⟨holds.congr ?_, nonempty⟩
    intro slot member
    obtain ⟨next, prev, _⟩ := same side price slot member
    exact ⟨next, prev⟩
  absent := laid.absent
  placed := by
    intro side price slot member
    obtain ⟨_, _, side_eq, price_eq, _⟩ := same side price slot member
    rw [side_eq, price_eq]
    exact laid.placed side price slot member
  mapped := by
    intro id slot
    constructor
    · intro found
      obtain ⟨id_eq, member⟩ := (laid.mapped id slot).mp found
      obtain ⟨_, _, side_eq, price_eq, orderId⟩ := same _ _ slot member
      rw [orderId, side_eq, price_eq]
      exact ⟨id_eq, member⟩
    · rintro ⟨id_eq, member⟩
      obtain ⟨_, _, side_eq, price_eq, orderId⟩ := same _ _ slot member
      rw [side_eq, price_eq] at member
      exact (laid.mapped id slot).mpr ⟨orderId.symm.trans id_eq, member⟩

theorem queue_nodup (laid : book.Laid memory queues) (side : Side) (price : UInt32) :
    (queues side price).Nodup := by
  cases found : (book.levels side).find? price with
  | none => simp [laid.absent side price found]
  | some level => exact (laid.level side price level found).1.nodup

/-- A slot rests at the side and price stored in it and nowhere else. -/
theorem place_unique (laid : book.Laid memory queues) {side other : Side} {price place : UInt32} {slot : Slot}
    (here : slot ∈ queues side price) (there : slot ∈ queues other place) : other = side ∧ place = price := by
  have first := laid.placed side price slot here
  have second := laid.placed other place slot there
  exact ⟨second.1.symm.trans first.1, second.2.symm.trans first.2⟩

theorem mem_keys (laid : book.Laid memory queues) {side : Side} {price : UInt32} :
    price ∈ (book.levels side).keys ↔ queues side price ≠ [] := by
  constructor
  · intro member
    cases found : (book.levels side).find? price with
    | none => exact absurd member (SortedMap.find?_eq_none.mp found)
    | some level => exact (laid.level side price level found).2
  · intro nonempty
    by_contra missing
    exact nonempty (laid.absent side price (SortedMap.find?_eq_none.mpr missing))

theorem mem_sideSlots (laid : book.Laid memory queues) {side : Side} {slot : Slot} :
    slot ∈ book.sideSlots queues side ↔ ∃ price, slot ∈ queues side price := by
  unfold OrderBook.sideSlots
  rw [List.mem_flatMap]
  constructor
  · rintro ⟨price, _, member⟩
    exact ⟨price, member⟩
  · rintro ⟨price, member⟩
    exact ⟨price, laid.mem_keys.mpr (List.ne_nil_of_mem member), member⟩

theorem mem_sideSlots_iff (laid : book.Laid memory queues) {side : Side} {slot : Slot} :
    slot ∈ book.sideSlots queues side ↔
      (memory slot).side = side ∧ slot ∈ queues (memory slot).side (memory slot).price := by
  rw [laid.mem_sideSlots]
  constructor
  · rintro ⟨price, member⟩
    obtain ⟨side_eq, price_eq⟩ := laid.placed side price slot member
    refine ⟨side_eq, ?_⟩
    rwa [side_eq, price_eq]
  · rintro ⟨side_eq, member⟩
    rw [side_eq] at member
    exact ⟨_, member⟩

theorem mem_slots (laid : book.Laid memory queues) {slot : Slot} :
    slot ∈ book.slots queues ↔ slot ∈ queues (memory slot).side (memory slot).price := by
  unfold OrderBook.slots
  rw [List.mem_append, laid.mem_sideSlots_iff, laid.mem_sideSlots_iff]
  cases (memory slot).side <;> simp

theorem mem_slots_of_mem (laid : book.Laid memory queues) {side : Side} {price : UInt32} {slot : Slot}
    (member : slot ∈ queues side price) : slot ∈ book.slots queues := by
  obtain ⟨side_eq, price_eq⟩ := laid.placed side price slot member
  rw [laid.mem_slots, side_eq, price_eq]
  exact member

theorem mem_slots_of_mem_side {side : Side} {slot : Slot} (member : slot ∈ book.sideSlots queues side) :
    slot ∈ book.slots queues := by
  unfold OrderBook.slots
  cases side <;> simp [member]

theorem sideSlots_nodup (laid : book.Laid memory queues) (side : Side) : (book.sideSlots queues side).Nodup := by
  unfold OrderBook.sideSlots
  rw [List.nodup_flatMap]
  refine ⟨fun price _ => laid.queue_nodup side price, ?_⟩
  refine (SortedMap.keys_sorted (book.levels side)).imp ?_
  intro first second ahead slot here there
  have same := (laid.place_unique here there).2
  exact irrefl_of side.Ahead first (same ▸ ahead)

theorem slots_nodup (laid : book.Laid memory queues) : (book.slots queues).Nodup := by
  unfold OrderBook.slots
  rw [List.nodup_append]
  refine ⟨laid.sideSlots_nodup .BUY, laid.sideSlots_nodup .SELL, ?_⟩
  rintro slot here other there rfl
  have first := (laid.mem_sideSlots_iff.mp here).1
  have second := (laid.mem_sideSlots_iff.mp there).1
  rw [first] at second
  cases second

theorem id_injective (laid : book.Laid memory queues) {slot other : Slot} (here : slot ∈ book.slots queues)
    (there : other ∈ book.slots queues) (same : (memory slot).orderId = (memory other).orderId) : slot = other := by
  have first := (laid.mapped _ slot).mpr ⟨rfl, laid.mem_slots.mp here⟩
  have second := (laid.mapped _ other).mpr ⟨rfl, laid.mem_slots.mp there⟩
  rw [← same, first] at second
  exact Option.some.inj second

theorem orderMap_eq_none (laid : book.Laid memory queues) {id : UInt64} :
    book.orderMap id = none ↔ ∀ slot ∈ book.slots queues, (memory slot).orderId ≠ id := by
  constructor
  · intro missing slot member same
    rw [(laid.mapped id slot).mpr ⟨same, laid.mem_slots.mp member⟩] at missing
    cases missing
  · intro apart
    cases found : book.orderMap id with
    | none => rfl
    | some slot =>
      obtain ⟨same, member⟩ := (laid.mapped id slot).mp found
      exact absurd same (apart slot (laid.mem_slots.mpr member))

theorem orderMap_eq_some (laid : book.Laid memory queues) {id : UInt64} {slot : Slot} :
    book.orderMap id = some slot ↔ (memory slot).orderId = id ∧ slot ∈ book.slots queues := by
  rw [laid.mapped, laid.mem_slots]

end OrderBook.Laid

end ChronoBook
