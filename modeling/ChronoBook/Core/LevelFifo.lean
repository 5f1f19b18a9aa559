import ChronoBook.Core.PriceLevel

/-! A price level over its life. Orders are linked in and unlinked in any order, filled
while they rest, and written freely by the rest of the program while they do not; what
the links hold is at all times the sequence that a plain FIFO would hold. -/

namespace ChronoBook
open Library.Linked

namespace PriceLevel

/-- What happens to a level and to the heap of orders that it lies in. -/
inductive LevelOp where
  | addOrder (order : Slot)
  | removeOrder (order : Slot)
  /-- Units of a resting order are matched, and `decreaseTotalQty` is called for them. -/
  | fill (order : Slot) (qty : UInt32)
  /-- Some order is written by others. -/
  | write (slot : Slot) (object : Order)

def LevelOp.run (state : PriceLevel × Memory) : LevelOp → PriceLevel × Memory
  | .addOrder order => state.1.addOrder state.2 order
  | .removeOrder order => state.1.removeOrder state.2 order
  | .fill order qty => (state.1.decreaseTotalQty qty, state.2.modify order (fun object => object.fill qty))
  | .write slot object => (state.1, Function.update state.2 slot object)

/-- The sequence that the level stands for. -/
def LevelOp.fifo (queue : List Slot) : LevelOp → List Slot
  | .addOrder order => queue ++ [order]
  | .removeOrder order => queue.erase order
  | .fill _ _ => queue
  | .write _ _ => queue

/-- Orders are added from outside and removed from inside; others leave the links and the quantity of a resting order
alone. -/
def LevelOp.Allowed (memory : Memory) (queue : List Slot) : LevelOp → Prop
  | .addOrder order => order ∉ queue
  | .removeOrder order => order ∈ queue
  | .fill order qty => order ∈ queue ∧ qty ≤ (memory order).remainingQty
  | .write slot object => slot ∈ queue → object.next = (memory slot).next ∧ object.prev = (memory slot).prev ∧
      object.remainingQty = (memory slot).remainingQty

/-- Each operation is allowed when it is made. -/
def Permitted : PriceLevel × Memory → List Slot → List LevelOp → Prop
  | _, _, [] => True
  | state, queue, op :: later => op.Allowed state.2 queue ∧ Permitted (op.run state) (op.fifo queue) later

instance (memory : Memory) (queue : List Slot) : (op : LevelOp) → Decidable (op.Allowed memory queue)
  | .addOrder order => inferInstanceAs (Decidable (order ∉ queue))
  | .removeOrder order => inferInstanceAs (Decidable (order ∈ queue))
  | .fill order qty => inferInstanceAs (Decidable (order ∈ queue ∧ qty ≤ (memory order).remainingQty))
  | .write slot object => inferInstanceAs (Decidable (slot ∈ queue → object.next = (memory slot).next ∧
      object.prev = (memory slot).prev ∧ object.remainingQty = (memory slot).remainingQty))

instance decidablePermitted : (state : PriceLevel × Memory) → (queue : List Slot) → (ops : List LevelOp) →
    Decidable (Permitted state queue ops)
  | _, _, [] => isTrue trivial
  | state, queue, op :: later =>
      have := decidablePermitted (op.run state) (op.fifo queue) later
      inferInstanceAs (Decidable (op.Allowed state.2 queue ∧ Permitted (op.run state) (op.fifo queue) later))

/-- The links hold this sequence, read from either end. -/
structure Follows (level : PriceLevel) (memory : Memory) (queue : List Slot) : Prop where
  nodup : queue.Nodup
  forward : Chained (fun slot => (memory slot).next) level.head queue
  backward : Chained (fun slot => (memory slot).prev) level.tail queue.reverse

variable {level : PriceLevel} {memory : Memory} {queue : List Slot} {order : Slot}

theorem Holds.follows (holds : level.Holds memory queue) : level.Follows memory queue :=
  ⟨holds.nodup, holds.forward, holds.backward⟩

theorem Holds.removed (holds : level.Holds memory queue) (member : order ∈ queue) :
    (level.removeOrder memory order).1.Holds (level.removeOrder memory order).2 (queue.erase order) := by
  obtain ⟨before, after, fresh, rfl, erased⟩ := List.exists_erase_eq member
  rw [erased]
  exact removeOrder_holds holds

theorem Counted.removed (counted : level.Counted memory queue) (holds : level.Holds memory queue)
    (member : order ∈ queue) :
    (level.removeOrder memory order).1.Counted (level.removeOrder memory order).2 (queue.erase order) := by
  obtain ⟨before, after, fresh, rfl, erased⟩ := List.exists_erase_eq member
  rw [erased]
  exact removeOrder_counted holds counted

/-- A write that leaves the links of the queue alone. -/
theorem Holds.write {memory' : Memory} {level' : PriceLevel} (holds : level.Holds memory queue)
    (head : level'.head = level.head) (tail : level'.tail = level.tail)
    (links : ∀ slot ∈ queue, (memory' slot).next = (memory slot).next ∧ (memory' slot).prev = (memory slot).prev) :
    level'.Holds memory' queue := by
  unfold Holds
  rw [head, tail]
  exact Threaded.congr holds links

theorem LevelOp.holds {state : PriceLevel × Memory} (op : LevelOp) (holds : state.1.Holds state.2 queue)
    (allowed : op.Allowed state.2 queue) : (op.run state).1.Holds (op.run state).2 (op.fifo queue) := by
  cases op with
  | addOrder order => exact addOrder_holds holds allowed
  | removeOrder order => exact holds.removed allowed
  | fill order qty =>
    refine holds.write (decreaseTotalQty_head _ _) (decreaseTotalQty_tail _ _) ?_
    intro slot _
    by_cases same : slot = order
    · subst same
      simp [run, Order.fill]
    · simp [run, Memory.modify_other _ _ same]
  | write slot object =>
    refine holds.write rfl rfl ?_
    intro other member
    by_cases same : other = slot
    · subst same
      simpa [run] using ⟨(allowed member).1, (allowed member).2.1⟩
    · simp [run, Function.update_of_ne same]

theorem depth_congr {memory memory' : Memory} {queue : List Slot}
    (same : ∀ slot ∈ queue, (memory' slot).remainingQty = (memory slot).remainingQty) :
    depth memory' queue = depth memory queue := by
  unfold depth
  rw [List.map_congr_left (fun slot member => by rw [same slot member])]

/-- Units that are matched are taken from the order and from the level. -/
theorem Counted.fill (counted : level.Counted memory queue) (distinct : queue.Nodup) (member : order ∈ queue)
    {qty : UInt32} (available : qty ≤ (memory order).remainingQty) :
    (level.decreaseTotalQty qty).Counted (memory.modify order (fun object => object.fill qty)) queue := by
  obtain ⟨before, after, rfl⟩ := List.append_of_mem member
  have apart : order ∉ before ++ after := (List.nodup_middle.mp distinct |> List.nodup_cons.mp).1
  have others : depth (memory.modify order (fun object => object.fill qty)) (before ++ after) =
      depth memory (before ++ after) := by
    apply depth_congr
    intro slot inside
    have different : slot ≠ order := fun same => apart (same ▸ inside)
    rw [Memory.modify_other _ _ different]
  have total := counted.totalQty
  have filled := Order.fill_available available
  have enough := UInt32.le_iff_toNat_le.mp available
  rw [depth_middle] at total
  have covered : qty.toNat ≤ level.totalQty.toNat := by omega
  obtain ⟨less, count⟩ := decreaseTotalQty_toNat covered
  refine ⟨?_, ?_⟩
  · rw [less, depth_middle, others, Memory.modify_same, filled]
    omega
  · rw [count, counted.orderCount]

/-- The counters after one operation, as long as the number of orders is one of 32 bits. -/
theorem LevelOp.counted {state : PriceLevel × Memory} (op : LevelOp) (holds : state.1.Holds state.2 queue)
    (counted : state.1.Counted state.2 queue) (allowed : op.Allowed state.2 queue)
    (few : (op.fifo queue).length < 2 ^ 32) : (op.run state).1.Counted (op.run state).2 (op.fifo queue) := by
  cases op with
  | addOrder order =>
    apply addOrder_counted counted
    simpa [fifo] using few
  | removeOrder order => exact counted.removed holds allowed
  | fill order qty => exact counted.fill holds.nodup allowed.1 allowed.2
  | write slot object =>
    have same : depth (Function.update state.2 slot object) queue = depth state.2 queue := by
      apply depth_congr
      intro other member
      by_cases here : other = slot
      · subst here
        rw [Function.update_self]
        exact (allowed member).2.2
      · rw [Function.update_of_ne here]
    exact ⟨counted.totalQty.trans same.symm, counted.orderCount⟩

/-- The number of orders as a word of 32 bits, however many there are. -/
theorem LevelOp.orderCount {state : PriceLevel × Memory} (op : LevelOp) (allowed : op.Allowed state.2 queue)
    (count : state.1.orderCount = UInt32.ofNat queue.length) :
    (op.run state).1.orderCount = UInt32.ofNat (op.fifo queue).length := by
  cases op with
  | addOrder order =>
    change state.1.orderCount + 1 = UInt32.ofNat (queue ++ [order]).length
    rw [count, List.length_append]
    exact (UInt32.ofNat_add queue.length 1).symm
  | removeOrder order =>
    change state.1.orderCount - 1 = UInt32.ofNat (queue.erase order).length
    have one : queue.length = (queue.erase order).length + 1 := by
      rw [List.length_erase_of_mem allowed]
      have some := List.length_pos_of_mem allowed
      omega
    rw [count, one, UInt32.ofNat_add]
    exact UInt32.add_sub_cancel _ _
  | fill order qty =>
    change (state.1.decreaseTotalQty qty).orderCount = _
    unfold decreaseTotalQty
    split <;> exact count
  | write slot object => exact count

def after (memory : Memory) (ops : List LevelOp) : PriceLevel × Memory := ops.foldl LevelOp.run ({}, memory)

def fifoAfter (ops : List LevelOp) : List Slot := ops.foldl LevelOp.fifo []

theorem fifo_length_le (ops : List LevelOp) (queue : List Slot) :
    (ops.foldl LevelOp.fifo queue).length ≤ queue.length + ops.length := by
  induction ops generalizing queue with
  | nil => simp
  | cons op later ih =>
    have one : (op.fifo queue).length ≤ queue.length + 1 := by
      cases op with
      | addOrder order => simp [LevelOp.fifo]
      | removeOrder order => exact Nat.le_succ_of_le List.length_erase_le
      | fill order qty => exact Nat.le_succ _
      | write slot object => exact Nat.le_succ _
    have rest := ih (op.fifo queue)
    rw [List.foldl_cons, List.length_cons]
    omega

namespace Permitted

variable {ops : List LevelOp}

theorem holds {state : PriceLevel × Memory} (permitted : Permitted state queue ops)
    (start : state.1.Holds state.2 queue) :
    (ops.foldl LevelOp.run state).1.Holds (ops.foldl LevelOp.run state).2 (ops.foldl LevelOp.fifo queue) := by
  induction ops generalizing state queue with
  | nil => exact start
  | cons op later ih => exact ih permitted.2 (op.holds start permitted.1)

theorem orderCount {state : PriceLevel × Memory} (permitted : Permitted state queue ops)
    (start : state.1.orderCount = UInt32.ofNat queue.length) :
    (ops.foldl LevelOp.run state).1.orderCount = UInt32.ofNat (ops.foldl LevelOp.fifo queue).length := by
  induction ops generalizing state queue with
  | nil => exact start
  | cons op later ih => exact ih permitted.2 (op.orderCount permitted.1 start)

/-- The counters after a run during which there never were too many orders. -/
theorem counted {state : PriceLevel × Memory} (permitted : Permitted state queue ops)
    (start : state.1.Holds state.2 queue) (sums : state.1.Counted state.2 queue)
    (few : ∀ made, ((ops.take made).foldl LevelOp.fifo queue).length < 2 ^ 32) :
    (ops.foldl LevelOp.run state).1.Counted (ops.foldl LevelOp.run state).2 (ops.foldl LevelOp.fifo queue) := by
  induction ops generalizing state queue with
  | nil => exact sums
  | cons op later ih =>
    have first : (op.fifo queue).length < 2 ^ 32 := few 1
    exact ih permitted.2 (op.holds start permitted.1) (op.counted start sums permitted.1 first)
      (fun made => few (made + 1))

end Permitted

theorem holds_empty (memory : Memory) : ({} : PriceLevel).Holds memory [] := Threaded.nil

theorem counted_empty (memory : Memory) : ({} : PriceLevel).Counted memory [] := ⟨rfl, rfl⟩

/-- A level is a FIFO of the orders in it: the list, what the two operations make of it and what they write; and the
counters of a level that never had 2^32 orders at once. -/
theorem level_fifo (memory : Memory) (ops : List LevelOp) (permitted : Permitted ({}, memory) [] ops) :
    let level := (after memory ops).1
    let heap := (after memory ops).2
    let queue := fifoAfter ops
    level.Follows heap queue ∧
      (∀ order, order ∉ queue →
        let added := level.addOrder heap order
        added.1.Follows added.2 (queue ++ [order]) ∧ ∀ slot, slot ∉ queue → slot ≠ order → added.2 slot = heap slot) ∧
      (∀ order, order ∈ queue →
        let removed := level.removeOrder heap order
        removed.1.Follows removed.2 (queue.erase order) ∧ (removed.2 order).next = none ∧
          (removed.2 order).prev = none ∧ ∀ slot, slot ∉ queue → removed.2 slot = heap slot) ∧
      level.orderCount = UInt32.ofNat queue.length ∧
      ((∀ made, (fifoAfter (ops.take made)).length < 2 ^ 32) →
        level.orderCount.toNat = queue.length ∧ level.totalQty.toNat = depth heap queue) := by
  intro level heap queue
  have holds : level.Holds heap queue := permitted.holds (holds_empty memory)
  refine ⟨holds.follows, ?_, ?_, permitted.orderCount rfl, ?_⟩
  · intro order fresh
    refine ⟨(addOrder_holds holds fresh).follows, ?_⟩
    intro slot outside different
    apply addOrder_other level heap different
    intro last
    rw [holds.tail_eq] at last
    exact outside (List.mem_of_mem_getLast? last)
  · intro order member
    have unlinked := removeOrder_self holds member
    refine ⟨(holds.removed member).follows, ?_, ?_, fun slot outside => removeOrder_other holds member outside⟩
    · rw [unlinked]
      rfl
    · rw [unlinked]
      rfl
  · intro few
    have counted := permitted.counted (holds_empty memory) (counted_empty memory) few
    exact ⟨counted.orderCount, counted.totalQty⟩

/-- Three orders, of which the middle one is filled in part and taken out. -/
theorem level_fifo_three :
    let ops := [.addOrder 4, .addOrder 7, .addOrder 2, .fill 7 3, .removeOrder 7]
    let heap : Memory := fun _ => { qty := 5 }
    (after heap ops).1.Follows (after heap ops).2 [4, 2] ∧ (after heap ops).1.totalQty.toNat = 10 := by
  intro ops heap
  have permitted : Permitted ({}, heap) [] ops := by decide
  have few : ∀ made, (fifoAfter (ops.take made)).length < 2 ^ 32 := by
    intro made
    have short : (fifoAfter (ops.take made)).length ≤ 0 + (ops.take made).length := fifo_length_le _ []
    have taken : (ops.take made).length ≤ 5 := List.length_take_le' made ops
    omega
  obtain ⟨follows, _, _, _, counters⟩ := level_fifo heap ops permitted
  exact ⟨follows, (counters few).2.trans (by decide)⟩

theorem permitted_append {state : PriceLevel × Memory} {ops : List LevelOp} {op : LevelOp}
    (permitted : Permitted state queue ops)
    (allowed : op.Allowed (ops.foldl LevelOp.run state).2 (ops.foldl LevelOp.fifo queue)) :
    Permitted state queue (ops ++ [op]) := by
  induction ops generalizing state queue with
  | nil => exact ⟨allowed, trivial⟩
  | cons first later ih => exact ⟨permitted.1, ih permitted.2 allowed⟩

/-- Any number of orders can be added, one after the other. -/
theorem permitted_adds (memory : Memory) (count : Nat) :
    Permitted ({}, memory) [] ((List.range count).map .addOrder) ∧
      fifoAfter ((List.range count).map .addOrder) = List.range count := by
  induction count with
  | zero => exact ⟨trivial, rfl⟩
  | succ count ih =>
    obtain ⟨permitted, listed⟩ := ih
    rw [List.range_succ, List.map_append]
    constructor
    · apply permitted_append permitted
      change count ∉ fifoAfter _
      rw [listed]
      exact List.not_mem_range_self
    · unfold fifoAfter at listed ⊢
      rw [List.foldl_append, listed]
      rfl

theorem after_adds (memory : Memory) (count : Nat) :
    let state := after memory ((List.range count).map .addOrder)
    state.1.Follows state.2 (List.range count) ∧ state.1.orderCount = UInt32.ofNat count := by
  intro state
  obtain ⟨permitted, listed⟩ := permitted_adds memory count
  have holds := permitted.holds (holds_empty memory)
  have counted := permitted.orderCount rfl
  unfold fifoAfter at listed
  rw [listed] at holds counted
  rw [List.length_range] at counted
  exact ⟨holds.follows, counted⟩

/-- The counter is the number of orders only as a word. -/
theorem orderCount_wraps {count : Nat} (wraps : UInt32.ofNat count = 0) :
    ∃ heap ops, Permitted ({}, heap) [] ops ∧ (after heap ops).1.Follows (after heap ops).2 (fifoAfter ops) ∧
      (fifoAfter ops).length = count ∧ (after heap ops).1.orderCount = 0 := by
  let heap : Memory := fun _ => { qty := 1 }
  obtain ⟨permitted, listed⟩ := permitted_adds heap count
  obtain ⟨follows, counted⟩ := after_adds heap count
  refine ⟨heap, _, permitted, ?_, ?_, counted.trans wraps⟩
  · rw [listed]
    exact follows
  · rw [listed, List.length_range]

/-- At 2^32 orders the counter is back at zero. -/
theorem order_count_wraps :
    ∃ heap ops, Permitted ({}, heap) [] ops ∧ (after heap ops).1.Follows (after heap ops).2 (fifoAfter ops) ∧
      (fifoAfter ops).length = 2 ^ 32 ∧ (after heap ops).1.orderCount = 0 :=
  orderCount_wraps (by decide)

end PriceLevel

end ChronoBook
