import ChronoBook.Core.BookLayout

/-! What the two updates of the book do to its layout. Everything a caller needs
about `addOrder` and `removeOrder` is stated here; later modules do not unfold
them. -/

namespace ChronoBook
open Library Priority PriceLevel

structure OrderBook.Rested (book : OrderBook) (memory : Memory) (queues : Queues) (order : Slot)
    (book' : OrderBook) (memory' : Memory) (queues' : Queues) : Prop where
  laid : book'.Laid memory' queues'
  same : SameOrders memory memory'
  untouched : ∀ slot, slot ≠ order → slot ∉ book.slots queues → memory' slot = memory slot
  own : book'.sideSlots queues' (memory order).side =
    enqueue (memory order).side.Ahead (fun slot => (memory slot).price) order
      (book.sideSlots queues (memory order).side)
  other : ∀ side, side ≠ (memory order).side → book'.sideSlots queues' side = book.sideSlots queues side
  orderMap : book'.orderMap = Function.update book.orderMap (memory order).orderId (some order)
  tallied : (∀ side price, (queues side price).length + 1 < 2 ^ 32) → book.Tallied memory queues →
    book'.Tallied memory' queues'

structure OrderBook.Removed (book : OrderBook) (memory : Memory) (queues : Queues) (order : Slot)
    (book' : OrderBook) (memory' : Memory) (queues' : Queues) : Prop where
  laid : book'.Laid memory' queues'
  same : SameOrders memory memory'
  untouched : ∀ slot, slot ∉ book.slots queues → memory' slot = memory slot
  unlinked : memory' order = (memory order).unlinked
  sides : ∀ side, book'.sideSlots queues' side = (book.sideSlots queues side).erase order
  orderMap : book'.orderMap = Function.update book.orderMap (memory order).orderId none
  tallied : book.Tallied memory queues → book'.Tallied memory' queues'

namespace OrderBook

variable {book : OrderBook} {memory : Memory} {queues : Queues} {order : Slot}

theorem Laid.getD_holds (laid : book.Laid memory queues) (side : Side) (price : UInt32) :
    (((book.levels side).find? price).getD {}).Holds memory (queues side price) := by
  cases found : (book.levels side).find? price with
  | none =>
    rw [laid.absent side price found]
    exact Linked.Threaded.nil
  | some level => exact (laid.level side price level found).1

private theorem getD_counted (laid : book.Laid memory queues) (tallied : book.Tallied memory queues) (side : Side)
    (price : UInt32) : (((book.levels side).find? price).getD {}).Counted memory (queues side price) := by
  cases found : (book.levels side).find? price with
  | none =>
    rw [laid.absent side price found]
    exact ⟨rfl, rfl⟩
  | some level => exact tallied side price level found

theorem Laid.elsewhere (laid : book.Laid memory queues) {side other : Side} {price place : UInt32}
    (here : order ∈ queues side price) (apart : other ≠ side ∨ place ≠ price) : order ∉ queues other place := by
  intro there
  obtain ⟨sameSide, samePrice⟩ := laid.place_unique here there
  rcases apart with apart | apart
  · exact apart sameSide
  · exact apart samePrice

section Replace
variable {memory' : Memory} {queues' : Queues} {side : Side} {price : UInt32}
  {map : SortedMap UInt32 PriceLevel side.Ahead} {orderMap : UInt64 → Option Slot}

/-- One level changes and the rest of the book is left alone. -/
private theorem Laid.replace (laid : book.Laid memory queues) (same : SameOrders memory memory')
    (here : ∀ level, map.find? price = some level →
      level.Holds memory' (queues' side price) ∧ queues' side price ≠ [])
    (gone : map.find? price = none → queues' side price = [])
    (placed : ∀ slot ∈ queues' side price, (memory slot).side = side ∧ (memory slot).price = price)
    (otherPrice : ∀ place, place ≠ price → map.find? place = (book.levels side).find? place)
    (otherQueue : ∀ other place, other ≠ side ∨ place ≠ price → queues' other place = queues other place)
    (untouched : ∀ other place, other ≠ side ∨ place ≠ price → ∀ slot ∈ queues other place,
      memory' slot = memory slot)
    (mapped : ∀ id slot, orderMap id = some slot ↔
      (memory slot).orderId = id ∧ slot ∈ queues' (memory slot).side (memory slot).price) :
    (book.withSide side map orderMap).Laid memory' queues' := by
  have elsewhere : ∀ other place, other ≠ side ∨ place ≠ price → ∀ level,
      (book.levels other).find? place = some level →
      level.Holds memory' (queues' other place) ∧ queues' other place ≠ [] := by
    intro other place apart level found
    obtain ⟨holds, nonempty⟩ := laid.level other place level found
    rw [otherQueue other place apart]
    refine ⟨holds.congr ?_, nonempty⟩
    intro slot member
    rw [untouched other place apart slot member]
    exact ⟨rfl, rfl⟩
  constructor
  · intro other place level found
    by_cases sameSide : other = side
    · subst sameSide
      rw [levels_withSide] at found
      by_cases samePrice : place = price
      · subst samePrice
        exact here level found
      · rw [otherPrice place samePrice] at found
        exact elsewhere other place (Or.inr samePrice) level found
    · rw [levels_withSide_ne book map orderMap sameSide] at found
      exact elsewhere other place (Or.inl sameSide) level found
  · intro other place found
    by_cases sameSide : other = side
    · subst sameSide
      rw [levels_withSide] at found
      by_cases samePrice : place = price
      · subst samePrice
        exact gone found
      · rw [otherPrice place samePrice] at found
        rw [otherQueue other place (Or.inr samePrice)]
        exact laid.absent other place found
    · rw [levels_withSide_ne book map orderMap sameSide] at found
      rw [otherQueue other place (Or.inl sameSide)]
      exact laid.absent other place found
  · intro other place slot member
    rw [same.field Order.side (fun _ => rfl), same.field Order.price (fun _ => rfl)]
    by_cases apart : other ≠ side ∨ place ≠ price
    · rw [otherQueue other place apart] at member
      exact laid.placed other place slot member
    · rw [not_or, not_not, not_not] at apart
      obtain ⟨rfl, rfl⟩ := apart
      exact placed slot member
  · intro id slot
    rw [orderMap_withSide, same.field Order.side (fun _ => rfl), same.field Order.price (fun _ => rfl),
      same.field Order.orderId (fun _ => rfl)]
    exact mapped id slot

private theorem Tallied.replace (tallied : book.Tallied memory queues) (same : SameOrders memory memory')
    (here : ∀ level, map.find? price = some level → level.Counted memory' (queues' side price))
    (otherPrice : ∀ place, place ≠ price → map.find? place = (book.levels side).find? place)
    (otherQueue : ∀ other place, other ≠ side ∨ place ≠ price → queues' other place = queues other place) :
    (book.withSide side map orderMap).Tallied memory' queues' := by
  have elsewhere : ∀ other place, other ≠ side ∨ place ≠ price → ∀ level,
      (book.levels other).find? place = some level → level.Counted memory' (queues' other place) := by
    intro other place apart level found
    rw [otherQueue other place apart]
    have old := tallied other place level found
    exact ⟨old.totalQty.trans (same.depth _).symm, old.orderCount⟩
  intro other place level found
  by_cases sameSide : other = side
  · subst sameSide
    rw [levels_withSide] at found
    by_cases samePrice : place = price
    · subst samePrice
      exact here level found
    · rw [otherPrice place samePrice] at found
      exact elsewhere other place (Or.inr samePrice) level found
  · rw [levels_withSide_ne book map orderMap sameSide] at found
    exact elsewhere other place (Or.inl sameSide) level found

end Replace

/-- The ids of the orders once a new one is among them. -/
private theorem Laid.mapped_join (laid : book.Laid memory queues) (fresh : book.orderMap (memory order).orderId = none)
    (id : UInt64) (slot : Slot) :
    Function.update book.orderMap (memory order).orderId (some order) id = some slot ↔ (memory slot).orderId = id ∧
      slot ∈ queues.join (memory order).side (memory order).price order (memory slot).side (memory slot).price := by
  rw [Queues.mem_join]
  by_cases sameId : id = (memory order).orderId
  · subst sameId
    rw [Function.update_self]
    constructor
    · intro isOrder
      cases isOrder
      exact ⟨rfl, Or.inr ⟨rfl, rfl, rfl⟩⟩
    · rintro ⟨id_eq, member | ⟨rfl, _⟩⟩
      · rw [(laid.mapped _ slot).mpr ⟨id_eq, member⟩] at fresh
        cases fresh
      · rfl
  · rw [Function.update_of_ne sameId, laid.mapped]
    constructor
    · rintro ⟨id_eq, member⟩
      exact ⟨id_eq, Or.inl member⟩
    · rintro ⟨id_eq, member | ⟨rfl, _⟩⟩
      · exact ⟨id_eq, member⟩
      · exact absurd id_eq.symm sameId

theorem Laid.addOrder (laid : book.Laid memory queues) (fresh : book.orderMap (memory order).orderId = none)
    (outside : order ∉ book.slots queues) :
    ∃ book' memory', book.addOrder memory (some order) = (true, book', memory') ∧
      book.Rested memory queues order book' memory'
        (queues.join (memory order).side (memory order).price order) := by
  obtain ⟨side, side_eq⟩ : ∃ side, (memory order).side = side := ⟨_, rfl⟩
  obtain ⟨price, price_eq⟩ : ∃ price, (memory order).price = price := ⟨_, rfl⟩
  obtain ⟨level, level_eq⟩ : ∃ level, ((book.levels side).find? price).getD {} = level := ⟨_, rfl⟩
  have holds := laid.getD_holds side price
  rw [level_eq] at holds
  have notHere : order ∉ queues side price := fun member => outside (laid.mem_slots_of_mem member)
  have same := addOrder_sameOrders level memory order
  have unchanged : ∀ slot, slot ≠ order → slot ∉ queues side price →
      (level.addOrder memory order).2 slot = memory slot := by
    intro slot different elsewhere
    apply addOrder_other level memory different
    intro isTail
    rw [holds.tail_eq] at isTail
    exact elsewhere (List.mem_of_mem_getLast? isTail)
  have found : ∀ place, ((book.levels side).upsert price {}
      (fun level => (level.addOrder memory order).1)).find? place =
        if place = price then some (level.addOrder memory order).1 else (book.levels side).find? place := by
    intro place
    rw [SortedMap.find?_upsert, level_eq]
  have result := addOrder_eq book memory order fresh
  rw [side_eq] at result
  simp only [insertAt, price_eq, level_eq] at result
  refine ⟨_, _, result, ?_⟩
  rw [side_eq, price_eq]
  constructor
  · apply laid.replace same
    · intro level' found'
      rw [found, if_pos rfl] at found'
      cases found'
      rw [Queues.join_same]
      exact ⟨addOrder_holds holds notHere, by simp⟩
    · intro missing
      rw [found, if_pos rfl] at missing
      cases missing
    · intro slot member
      rcases Queues.mem_join.mp member with member | ⟨rfl, _, _⟩
      · exact laid.placed side price slot member
      · exact ⟨side_eq, price_eq⟩
    · intro place different
      rw [found, if_neg different]
    · exact fun other place apart => Queues.join_apart queues order apart
    · intro other place apart slot member
      apply unchanged slot (fun same => outside (laid.mem_slots_of_mem (same ▸ member)))
      exact fun here => laid.elsewhere here apart member
    · have mapped := laid.mapped_join fresh
      rwa [side_eq, price_eq] at mapped
  · exact same
  · intro slot different elsewhere
    exact unchanged slot different (fun member => elsewhere (laid.mem_slots_of_mem member))
  · rw [side_eq]
    unfold sideSlots
    rw [levels_withSide, SortedMap.keys_upsert, ← price_eq]
    apply flatMap_insertKey (fun slot => (memory slot).price) (SortedMap.keys_sorted (book.levels side))
    · intro place _ slot member
      exact (laid.placed side place slot member).2
    · intro missing
      by_contra nonempty
      exact missing (laid.mem_keys.mpr nonempty)
    · rw [price_eq, Queues.join_same]
    · intro place different
      rw [price_eq] at different ⊢
      rw [Queues.join_price _ _ _ different]
  · intro other different
    rw [side_eq] at different
    unfold sideSlots
    rw [levels_withSide_ne _ _ _ different, Queues.join_side _ _ _ different]
  · rw [orderMap_withSide]
  · intro room tallied
    apply tallied.replace same
    · intro level' found'
      rw [found, if_pos rfl] at found'
      cases found'
      rw [Queues.join_same]
      have counted := getD_counted laid tallied side price
      rw [level_eq] at counted
      exact addOrder_counted counted (room side price)
    · intro place different
      rw [found, if_neg different]
    · exact fun other place apart => Queues.join_apart queues order apart

/-- Unlinking from a level map: the level shrinks, or goes when it became empty. -/
private theorem removeAt_spec {before : UInt32 → UInt32 → Prop} [DecidableRel before]
    [IsStrictTotalOrder UInt32 before] {levels : SortedMap UInt32 PriceLevel before} {level : PriceLevel}
    (found : levels.find? (memory order).price = some level) :
    ∃ map, removeAt levels memory order = (map, (level.removeOrder memory order).2) ∧
      (map.find? (memory order).price = if (level.removeOrder memory order).1.isEmpty then none
        else some (level.removeOrder memory order).1) ∧
      (∀ place, place ≠ (memory order).price → map.find? place = levels.find? place) ∧
      ∀ queue : UInt32 → List Slot,
        ((level.removeOrder memory order).1.isEmpty = true → queue (memory order).price = []) →
          map.keys.flatMap queue = levels.keys.flatMap queue := by
  simp only [removeAt, found]
  by_cases isEmpty : (level.removeOrder memory order).1.isEmpty = true
  · simp only [isEmpty, if_true]
    refine ⟨_, rfl, ?_, ?_, ?_⟩
    · rw [SortedMap.find?_erase, if_pos rfl]
    · intro place different
      rw [SortedMap.find?_erase, if_neg different]
    · intro queue closed
      rw [SortedMap.keys_erase]
      exact flatMap_filter_ne (closed trivial) _
  · simp only [isEmpty]
    refine ⟨_, rfl, ?_, ?_, ?_⟩
    · rw [SortedMap.find?_modify, if_pos rfl, found]
      rfl
    · intro place different
      rw [SortedMap.find?_modify, if_neg different]
    · intro queue _
      rw [SortedMap.keys_modify]

theorem Laid.leave_eq (laid : book.Laid memory queues) {side : Side} {price : UInt32} {before after : List Slot}
    (split : queues side price = before ++ order :: after) : queues.leave order side price = before ++ after := by
  have distinct := laid.queue_nodup side price
  unfold Queues.leave
  rw [split] at distinct ⊢
  have notBefore : order ∉ before := fun early =>
    (List.nodup_append.mp distinct).2.2 order early order List.mem_cons_self rfl
  rw [List.erase_append_right _ notBefore, List.erase_cons_head]

theorem Laid.leave_apart (laid : book.Laid memory queues) {side other : Side} {price place : UInt32}
    (here : order ∈ queues side price) (apart : other ≠ side ∨ place ≠ price) :
    queues.leave order other place = queues other place :=
  List.erase_of_not_mem (laid.elsewhere here apart)

/-- The ids of the orders once one of them is gone. -/
private theorem Laid.mapped_leave (laid : book.Laid memory queues) (member : order ∈ book.slots queues) (id : UInt64)
    (slot : Slot) : Function.update book.orderMap (memory order).orderId none id = some slot ↔
      (memory slot).orderId = id ∧ slot ∈ queues.leave order (memory slot).side (memory slot).price := by
  have members : slot ∈ queues.leave order (memory slot).side (memory slot).price ↔
      slot ≠ order ∧ slot ∈ queues (memory slot).side (memory slot).price :=
    (laid.queue_nodup _ _).mem_erase_iff
  rw [members]
  by_cases sameId : id = (memory order).orderId
  · subst sameId
    rw [Function.update_self]
    constructor
    · intro impossible
      cases impossible
    · intro inside
      have resting := laid.mem_slots.mpr inside.2.2
      exact absurd (laid.id_injective resting member inside.1) inside.2.1
  · rw [Function.update_of_ne sameId, laid.mapped]
    constructor
    · intro inside
      have different : slot ≠ order := by
        intro isOrder
        rw [isOrder] at inside
        exact sameId inside.1.symm
      exact ⟨inside.1, different, inside.2⟩
    · intro inside
      exact ⟨inside.1, inside.2.2⟩

/-- Leaving a side's queues one by one is leaving their concatenation. -/
private theorem Laid.flatMap_leave (laid : book.Laid memory queues) (side : Side) {keys : List UInt32}
    (sorted : keys.Pairwise side.Ahead) :
    keys.flatMap (queues.leave order side) = (keys.flatMap (queues side)).erase order := by
  rw [List.Nodup.erase_eq_filter]
  · rw [List.filter_flatMap]
    apply List.flatMap_congr
    intro place _
    exact (laid.queue_nodup side place).erase_eq_filter order
  · rw [List.nodup_flatMap]
    refine ⟨fun place _ => laid.queue_nodup side place, sorted.imp ?_⟩
    intro first second ahead slot inFirst inSecond
    have samePrice := (laid.place_unique inFirst inSecond).2
    exact irrefl_of side.Ahead first (samePrice ▸ ahead)

theorem Laid.removeOrder (laid : book.Laid memory queues) (member : order ∈ book.slots queues) :
    ∃ book' memory', book.removeOrder memory (some order) = (book', memory') ∧
      book.Removed memory queues order book' memory' (queues.leave order) := by
  obtain ⟨side, side_eq⟩ : ∃ side, (memory order).side = side := ⟨_, rfl⟩
  obtain ⟨price, price_eq⟩ : ∃ price, (memory order).price = price := ⟨_, rfl⟩
  have here : order ∈ queues side price := by
    have inside := laid.mem_slots.mp member
    rwa [side_eq, price_eq] at inside
  obtain ⟨before, after, split⟩ := List.append_of_mem here
  obtain ⟨level, found⟩ : ∃ level, (book.levels side).find? price = some level := by
    cases found : (book.levels side).find? price with
    | none => exact absurd here (by rw [laid.absent side price found]; exact List.not_mem_nil)
    | some level => exact ⟨level, rfl⟩
  obtain ⟨holds, _⟩ := laid.level side price level found
  have same := removeOrder_sameOrders holds here
  have left := laid.leave_eq split
  have holds' : (level.removeOrder memory order).1.Holds (level.removeOrder memory order).2
      (queues.leave order side price) := by
    rw [left]
    exact removeOrder_holds (split ▸ holds)
  have emptied : (level.removeOrder memory order).1.isEmpty = true ↔ queues.leave order side price = [] := by
    unfold PriceLevel.isEmpty
    rw [holds'.head_eq, Option.isNone_iff_eq_none, List.head?_eq_none_iff]
  obtain ⟨map, shape, find_here, find_price, keys_eq⟩ := removeAt_spec (price_eq.symm ▸ found)
  rw [price_eq] at find_here find_price keys_eq
  simp only [emptied] at find_here
  have result := removeOrder_eq book memory order
  rw [side_eq] at result
  simp only [shape] at result
  refine ⟨_, _, result, ?_⟩
  constructor
  · apply laid.replace same
    · intro level' found'
      rw [find_here] at found'
      by_cases nil : queues.leave order side price = []
      · rw [if_pos nil] at found'
        cases found'
      · rw [if_neg nil] at found'
        cases found'
        exact ⟨holds', nil⟩
    · intro missing
      rw [find_here] at missing
      by_contra nonempty
      rw [if_neg nonempty] at missing
      cases missing
    · intro slot inside
      exact laid.placed side price slot (List.mem_of_mem_erase inside)
    · exact find_price
    · exact fun other place apart => laid.leave_apart here apart
    · intro other place apart slot inside
      apply removeOrder_other holds here
      exact fun there => laid.elsewhere there apart inside
    · exact laid.mapped_leave member
  · exact same
  · intro slot outside
    exact removeOrder_other holds here (fun inside => outside (laid.mem_slots_of_mem inside))
  · exact removeOrder_self holds here
  · intro other
    unfold sideSlots
    by_cases sameSide : other = side
    · subst sameSide
      rw [levels_withSide, keys_eq _ emptied.mp]
      exact laid.flatMap_leave _ (SortedMap.keys_sorted _)
    · rw [levels_withSide_ne _ _ _ sameSide]
      exact laid.flatMap_leave _ (SortedMap.keys_sorted _)
  · rw [orderMap_withSide]
  · intro tallied
    apply tallied.replace same
    · intro level' found'
      rw [find_here] at found'
      by_cases nil : queues.leave order side price = []
      · rw [if_pos nil] at found'
        cases found'
      · rw [if_neg nil] at found'
        cases found'
        rw [left]
        have counted := tallied side price level found
        rw [split] at counted
        exact removeOrder_counted (split ▸ holds) counted
    · exact find_price
    · exact fun other place apart => laid.leave_apart here apart

end OrderBook

end ChronoBook
