import ChronoBook.Core.OrderBook

/-! The same book in other slots. Giving the slots other names commutes with every
operation of the book, as long as different slots get different names and the
orders that the operation reads are copied. -/

namespace ChronoBook
open Library

/-- The order as it lies in a memory whose slots have other names. -/
def Order.rename (name : Slot → Slot) (order : Order) : Order :=
  { order with next := order.next.map name, prev := order.prev.map name }

def PriceLevel.rename (name : Slot → Slot) (level : PriceLevel) : PriceLevel :=
  { level with head := level.head.map name, tail := level.tail.map name }

def OrderBook.rename (name : Slot → Slot) (book : OrderBook) : OrderBook where
  bids := book.bids.mapValues (PriceLevel.rename name)
  asks := book.asks.mapValues (PriceLevel.rename name)
  orderMap id := (book.orderMap id).map name

@[simp] theorem Order.rename_id (order : Order) : order.rename id = order := by
  simp [Order.rename]

theorem OrderBook.rename_id (book : OrderBook) : book.rename id = book := by
  have level : PriceLevel.rename id = id := by
    funext level
    simp [PriceLevel.rename]
  simp only [OrderBook.rename, level, SortedMap.mapValues_id, Option.map_id, id_eq]

/-- The second memory holds the live orders of the first under their new names. -/
def Copies (name : Slot → Slot) (live : Slot → Prop) (memory memory' : Memory) : Prop :=
  ∀ slot, live slot → memory' (name slot) = (memory slot).rename name

namespace Copies

variable {name : Slot → Slot} {live : Slot → Prop} {memory memory' : Memory}

theorem field (copies : Copies name live memory memory') {slot : Slot} (here : live slot) {β : Type} (read : Order → β)
    (linkFree : ∀ order, read (order.rename name) = read order) : read (memory' (name slot)) = read (memory slot) := by
  rw [copies slot here, linkFree]

theorem modify (copies : Copies name live memory memory') (distinct : Function.Injective name) (slot : Slot)
    (change change' : Order → Order) (alike : ∀ order, change' (order.rename name) = (change order).rename name) :
    Copies name live (memory.modify slot change) (memory'.modify (name slot) change') := by
  intro other here
  by_cases same : other = slot
  · subst same
    rw [Memory.modify_same, Memory.modify_same, copies other here, alike]
  · rw [Memory.modify_other _ _ same, Memory.modify_other _ _ (fun named => same (distinct named)), copies other here]

theorem addOrder (copies : Copies name live memory memory') (distinct : Function.Injective name) {order : Slot}
    (here : live order) (level : PriceLevel) :
    ((level.rename name).addOrder memory' (name order)).1 = (level.addOrder memory order).1.rename name ∧
      Copies name live (level.addOrder memory order).2 ((level.rename name).addOrder memory' (name order)).2 := by
  have first := copies.modify distinct order (fun object => { object with next := none })
    (fun object => { object with next := none }) (fun _ => rfl)
  have linked := first.modify distinct order (fun object => { object with prev := level.tail })
    (fun object => { object with prev := level.tail.map name }) (fun _ => rfl)
  unfold PriceLevel.addOrder PriceLevel.rename
  cases tail : level.tail with
  | none =>
    rw [tail] at linked
    refine ⟨?_, linked⟩
    simp only [Option.map_none]
    have copy := linked order here
    simp only [Option.map_none] at copy
    rw [copy]
    rfl
  | some last =>
    rw [tail] at linked
    have joined := linked.modify distinct last (fun object => { object with next := some order })
      (fun object => { object with next := some (name order) }) (fun _ => rfl)
    refine ⟨?_, joined⟩
    simp only [Option.map_some]
    have copy := joined order here
    simp only [Option.map_some] at copy
    rw [copy]
    rfl

end Copies

/-- The second half of a removal, once the head of the level and the order before are linked past the order. -/
def PriceLevel.unlinkNext (level : PriceLevel) (head : Option Slot) (memory : Memory) (order : Slot) :
    PriceLevel × Memory :=
  let (tail, memory) := match (memory order).next with
    | some after => (level.tail, memory.modify after (fun object => { object with prev := (memory order).prev }))
    | none => ((memory order).prev, memory)
  ({ head := head
     tail := tail
     totalQty := level.totalQty - (memory order).remainingQty.toUInt64
     orderCount := level.orderCount - 1 },
    memory.modify order (fun object => { object with next := none, prev := none }))

theorem PriceLevel.removeOrder_first (level : PriceLevel) {memory : Memory} {order : Slot}
    (prev : (memory order).prev = none) :
    level.removeOrder memory order = level.unlinkNext (memory order).next memory order := by
  unfold PriceLevel.removeOrder
  rw [prev]
  rfl

theorem PriceLevel.removeOrder_behind (level : PriceLevel) {memory : Memory} {order before : Slot}
    (prev : (memory order).prev = some before) :
    level.removeOrder memory order = level.unlinkNext level.head
      (memory.modify before (fun object => { object with next := (memory order).next })) order := by
  unfold PriceLevel.removeOrder
  rw [prev]
  rfl

theorem PriceLevel.unlinkNext_frame (level : PriceLevel) (head : Option Slot) (memory : Memory) {order slot : Slot}
    (different : slot ≠ order) (notNext : (memory order).next ≠ some slot) :
    (level.unlinkNext head memory order).2 slot = memory slot := by
  unfold PriceLevel.unlinkNext
  cases next : (memory order).next with
  | none => simp only [Memory.modify_other _ _ different]
  | some after =>
    have notAfter : slot ≠ after := fun same => notNext (by rw [next, same])
    simp only [Memory.modify_other _ _ different, Memory.modify_other _ _ notAfter]

/-- A removal writes the order and its neighbours only. -/
theorem PriceLevel.removeOrder_frame (level : PriceLevel) (memory : Memory) {order slot : Slot} (different : slot ≠ order)
    (notPrev : (memory order).prev ≠ some slot) (notNext : (memory order).next ≠ some slot) :
    (level.removeOrder memory order).2 slot = memory slot := by
  cases prev : (memory order).prev with
  | none =>
    rw [removeOrder_first level prev]
    exact level.unlinkNext_frame _ _ different notNext
  | some before =>
    have notBefore : slot ≠ before := fun same => notPrev (by rw [prev, same])
    have stillNotNext : (memory.modify before (fun object => { object with next := (memory order).next }) order).next ≠
        some slot := by
      by_cases same : order = before
      · subst same
        rw [Memory.modify_same]
        exact notNext
      · rw [Memory.modify_other _ _ same]
        exact notNext
    rw [removeOrder_behind level prev, level.unlinkNext_frame _ _ different stillNotNext,
      Memory.modify_other _ _ notBefore]

namespace Copies

variable {name : Slot → Slot} {live : Slot → Prop} {memory memory' : Memory}

theorem unlinkNext (copies : Copies name live memory memory') (distinct : Function.Injective name) {order : Slot}
    (here : live order) (level : PriceLevel) (head : Option Slot) :
    ((level.rename name).unlinkNext (head.map name) memory' (name order)).1 =
        (level.unlinkNext head memory order).1.rename name ∧
      Copies name live (level.unlinkNext head memory order).2
        ((level.rename name).unlinkNext (head.map name) memory' (name order)).2 := by
  have copy := copies order here
  unfold PriceLevel.unlinkNext
  rw [copy]
  cases next : (memory order).next with
  | none =>
    have cleared := copies.modify distinct order (fun object => { object with next := none, prev := none })
      (fun object => { object with next := none, prev := none }) (fun _ => rfl)
    simp only [Order.rename, next, Option.map_none]
    refine ⟨?_, cleared⟩
    rw [copy]
    rfl
  | some after =>
    have past := copies.modify distinct after (fun object => { object with prev := (memory order).prev })
      (fun object => { object with prev := (memory order).prev.map name }) (fun _ => rfl)
    have cleared := past.modify distinct order (fun object => { object with next := none, prev := none })
      (fun object => { object with next := none, prev := none }) (fun _ => rfl)
    simp only [Order.rename, next, Option.map_some]
    refine ⟨?_, cleared⟩
    have copied := past order here
    rw [copied]
    rfl

theorem removeOrder (copies : Copies name live memory memory') (distinct : Function.Injective name) {order : Slot}
    (here : live order) (level : PriceLevel) :
    ((level.rename name).removeOrder memory' (name order)).1 = (level.removeOrder memory order).1.rename name ∧
      Copies name live (level.removeOrder memory order).2 ((level.rename name).removeOrder memory' (name order)).2 := by
  have copy := copies order here
  cases prev : (memory order).prev with
  | none =>
    have prev' : (memory' (name order)).prev = none := by
      rw [copy]
      simp [Order.rename, prev]
    rw [PriceLevel.removeOrder_first level prev, PriceLevel.removeOrder_first _ prev', copy]
    exact copies.unlinkNext distinct here level (memory order).next
  | some before =>
    have prev' : (memory' (name order)).prev = some (name before) := by
      rw [copy]
      simp [Order.rename, prev]
    rw [PriceLevel.removeOrder_behind level prev, PriceLevel.removeOrder_behind _ prev', copy]
    have past := copies.modify distinct before (fun object => { object with next := (memory order).next })
      (fun object => { object with next := (memory order).next.map name }) (fun _ => rfl)
    exact past.unlinkNext distinct here level level.head

section Levels
variable {before : UInt32 → UInt32 → Prop}

theorem removeAt (copies : Copies name live memory memory') (distinct : Function.Injective name) {order : Slot}
    (here : live order) (levels : SortedMap UInt32 PriceLevel before) :
    (OrderBook.removeAt (levels.mapValues (PriceLevel.rename name)) memory' (name order)).1 =
        (OrderBook.removeAt levels memory order).1.mapValues (PriceLevel.rename name) ∧
      Copies name live (OrderBook.removeAt levels memory order).2
        (OrderBook.removeAt (levels.mapValues (PriceLevel.rename name)) memory' (name order)).2 := by
  have price : (memory' (name order)).price = (memory order).price := copies.field here Order.price (fun _ => rfl)
  unfold OrderBook.removeAt
  simp only [price, SortedMap.find?_mapValues]
  cases found : levels.find? (memory order).price with
  | none => exact ⟨rfl, copies⟩
  | some level =>
    obtain ⟨same, copied⟩ := copies.removeOrder distinct here level
    have empty : ((level.removeOrder memory order).1.rename name).isEmpty = (level.removeOrder memory order).1.isEmpty := by
      unfold PriceLevel.isEmpty PriceLevel.rename
      exact Option.isNone_map ..
    simp only [Option.map_some, same, empty]
    split
    · exact ⟨(SortedMap.mapValues_erase levels _ _).symm, copied⟩
    · have left := SortedMap.mapValues_modify levels (PriceLevel.rename name) (memory order).price
        (fun _ => (level.removeOrder memory order).1) (fun _ => (level.removeOrder memory order).1.rename name)
        (fun _ => rfl)
      exact ⟨left.symm, copied⟩

variable [DecidableRel before] [IsStrictTotalOrder UInt32 before]

theorem insertAt (copies : Copies name live memory memory') (distinct : Function.Injective name) {order : Slot}
    (here : live order) (levels : SortedMap UInt32 PriceLevel before) :
    (OrderBook.insertAt (levels.mapValues (PriceLevel.rename name)) memory' (name order)).1 =
        (OrderBook.insertAt levels memory order).1.mapValues (PriceLevel.rename name) ∧
      Copies name live (OrderBook.insertAt levels memory order).2
        (OrderBook.insertAt (levels.mapValues (PriceLevel.rename name)) memory' (name order)).2 := by
  have price : (memory' (name order)).price = (memory order).price := copies.field here Order.price (fun _ => rfl)
  have level : ((levels.mapValues (PriceLevel.rename name)).find? (memory order).price).getD {} =
      ((levels.find? (memory order).price).getD {}).rename name := by
    rw [SortedMap.find?_mapValues]
    cases levels.find? (memory order).price <;> rfl
  unfold OrderBook.insertAt
  simp only [price, level]
  refine ⟨?_, (copies.addOrder distinct here _).2⟩
  have joined := SortedMap.mapValues_upsert levels (PriceLevel.rename name) (memory order).price
    (fun level => (level.addOrder memory order).1) (fun level => (level.addOrder memory' (name order)).1)
    (show {} = PriceLevel.rename name {} from rfl) (fun level => (copies.addOrder distinct here level).1)
  exact joined.symm

end Levels

end Copies

namespace OrderBook

variable {name : Slot → Slot} {live : Slot → Prop} {memory memory' : Memory} (book : OrderBook)

@[simp] theorem rename_levels (side : Side) :
    (book.rename name).levels side = (book.levels side).mapValues (PriceLevel.rename name) := by
  cases side <;> rfl

theorem rename_withSide (side : Side) (map : SortedMap UInt32 PriceLevel side.Ahead) (orderMap : UInt64 → Option Slot) :
    (book.withSide side map orderMap).rename name =
      (book.rename name).withSide side (map.mapValues (PriceLevel.rename name)) (fun id => (orderMap id).map name) := by
  cases side <;> rfl

theorem map_update (orderMap : UInt64 → Option Slot) (id : UInt64) (entry : Option Slot) :
    (fun other => (Function.update orderMap id entry other).map name) =
      Function.update (fun other => (orderMap other).map name) id (entry.map name) := by
  funext other
  by_cases same : other = id
  · subst same
    simp
  · simp [same]

/-- Resting an order writes the order and the last one of its level only. -/
theorem addOrder_frame (memory : Memory) {order slot : Slot} (different : slot ≠ order)
    (notTail : ∀ level, (book.levels (memory order).side).find? (memory order).price = some level →
      level.tail ≠ some slot) : (book.addOrder memory (some order)).2.2 slot = memory slot := by
  cases taken : book.orderMap (memory order).orderId with
  | some other => simp [addOrder, taken]
  | none =>
    rw [addOrder_eq book memory order taken]
    apply PriceLevel.addOrder_other _ memory different
    cases found : (book.levels (memory order).side).find? (memory order).price with
    | none => simp
    | some level => exact notTail level found

theorem removeOrder_frame (memory : Memory) {order slot : Slot} (different : slot ≠ order)
    (notPrev : (memory order).prev ≠ some slot) (notNext : (memory order).next ≠ some slot) :
    (book.removeOrder memory (some order)).2 slot = memory slot := by
  rw [removeOrder_eq book memory order]
  change (removeAt (book.levels (memory order).side) memory order).2 slot = memory slot
  unfold removeAt
  cases found : (book.levels (memory order).side).find? (memory order).price with
  | none => simp only [found]
  | some level =>
    simp only [found]
    split <;> exact level.removeOrder_frame memory different notPrev notNext

/-- Resting an order, and its namesake in the renamed book. -/
theorem addOrder_rename (copies : Copies name live memory memory') (distinct : Function.Injective name) {order : Slot}
    (here : live order) :
    ((book.rename name).addOrder memory' (some (name order))).1 = (book.addOrder memory (some order)).1 ∧
      ((book.rename name).addOrder memory' (some (name order))).2.1 =
        (book.addOrder memory (some order)).2.1.rename name ∧
      Copies name live (book.addOrder memory (some order)).2.2
        ((book.rename name).addOrder memory' (some (name order))).2.2 := by
  have id : (memory' (name order)).orderId = (memory order).orderId := copies.field here Order.orderId (fun _ => rfl)
  have side : (memory' (name order)).side = (memory order).side := copies.field here Order.side (fun _ => rfl)
  cases taken : book.orderMap (memory order).orderId with
  | some other =>
    have taken' : (book.rename name).orderMap (memory' (name order)).orderId = some (name other) := by
      simp [OrderBook.rename, id, taken]
    simp only [addOrder, taken, taken', Option.isSome_some, if_true, true_and]
    exact copies
  | none =>
    have free : (book.rename name).orderMap (memory' (name order)).orderId = none := by
      simp [OrderBook.rename, id, taken]
    obtain ⟨levels, copied⟩ := copies.insertAt distinct here (book.levels (memory order).side)
    rw [addOrder_eq book memory order taken, addOrder_eq _ memory' (name order) free, id, side, rename_levels]
    refine ⟨rfl, ?_, copied⟩
    simp only [levels]
    rw [rename_withSide, map_update]
    rfl

theorem removeOrder_rename (copies : Copies name live memory memory') (distinct : Function.Injective name) {order : Slot}
    (here : live order) :
    ((book.rename name).removeOrder memory' (some (name order))).1 =
        (book.removeOrder memory (some order)).1.rename name ∧
      Copies name live (book.removeOrder memory (some order)).2
        ((book.rename name).removeOrder memory' (some (name order))).2 := by
  have id : (memory' (name order)).orderId = (memory order).orderId := copies.field here Order.orderId (fun _ => rfl)
  have side : (memory' (name order)).side = (memory order).side := copies.field here Order.side (fun _ => rfl)
  obtain ⟨levels, copied⟩ := copies.removeAt distinct here (book.levels (memory order).side)
  rw [removeOrder_eq book memory order, removeOrder_eq _ memory' (name order), id, side, rename_levels]
  refine ⟨?_, copied⟩
  simp only [levels]
  rw [rename_withSide, map_update]
  rfl

end OrderBook

end ChronoBook
