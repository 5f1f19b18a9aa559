import ChronoBook.Core.Order
import ChronoBook.Library.Linked
import Mathlib.Algebra.BigOperators.Group.List.Basic
import Mathlib.Algebra.Order.BigOperators.Group.List
import Mathlib.Algebra.Order.Group.Nat

/-! All orders resting at one price. The FIFO is threaded through the orders
themselves; the level keeps its two ends, the resting quantity and the number of
orders. -/

namespace ChronoBook
open Library.Linked

structure PriceLevel where
  head : Option Slot := none
  tail : Option Slot := none
  totalQty : UInt64 := 0
  orderCount : UInt32 := 0
  deriving DecidableEq, Repr

namespace PriceLevel

def addOrder (level : PriceLevel) (memory : Memory) (order : Slot) : PriceLevel × Memory :=
  let memory := memory.modify order (fun object => { object with next := none })
  let memory := memory.modify order (fun object => { object with prev := level.tail })
  let memory := match level.tail with
    | some last => memory.modify last (fun object => { object with next := some order })
    | none => memory
  let head := match level.tail with
    | some _ => level.head
    | none => some order
  ({ head := head
     tail := some order
     totalQty := level.totalQty + (memory order).remainingQty.toUInt64
     orderCount := level.orderCount + 1 }, memory)

def removeOrder (level : PriceLevel) (memory : Memory) (order : Slot) : PriceLevel × Memory :=
  let (head, memory) := match (memory order).prev with
    | some before => (level.head,
        memory.modify before (fun object => { object with next := (memory order).next }))
    | none => ((memory order).next, memory)
  let (tail, memory) := match (memory order).next with
    | some after => (level.tail,
        memory.modify after (fun object => { object with prev := (memory order).prev }))
    | none => ((memory order).prev, memory)
  ({ head := head
     tail := tail
     totalQty := level.totalQty - (memory order).remainingQty.toUInt64
     orderCount := level.orderCount - 1 },
    memory.modify order (fun object => { object with next := none, prev := none }))

def decreaseTotalQty (level : PriceLevel) (qty : UInt32) : PriceLevel :=
  if qty.toUInt64 > level.totalQty then { level with totalQty := 0 }
  else { level with totalQty := level.totalQty - qty.toUInt64 }

def front (level : PriceLevel) : Option Slot := level.head

def isEmpty (level : PriceLevel) : Bool := level.head.isNone

def getTotalQty (level : PriceLevel) : UInt64 := level.totalQty

def getOrderCount (level : PriceLevel) : UInt32 := level.orderCount

/-- The queue of a level, read off the links in memory. -/
def Holds (level : PriceLevel) (memory : Memory) (queue : List Slot) : Prop :=
  Threaded (fun slot => (memory slot).next) (fun slot => (memory slot).prev) level.head level.tail queue

def depth (memory : Memory) (queue : List Slot) : Nat :=
  (queue.map (fun slot => (memory slot).remainingQty.toNat)).sum

/-- The two counters agree with the queue, without wrap-around. -/
structure Counted (level : PriceLevel) (memory : Memory) (queue : List Slot) : Prop where
  totalQty : level.totalQty.toNat = depth memory queue
  orderCount : level.orderCount.toNat = queue.length

end PriceLevel

/-- The part of an order that list surgery leaves alone. -/
def Order.unlinked (order : Order) : Order := { order with next := none, prev := none }

def SameOrders (memory memory' : Memory) : Prop := ∀ slot, (memory' slot).unlinked = (memory slot).unlinked

theorem SameOrders.refl (memory : Memory) : SameOrders memory memory := fun _ => rfl

theorem SameOrders.trans {first second third : Memory} (same : SameOrders first second)
    (further : SameOrders second third) : SameOrders first third :=
  fun slot => (further slot).trans (same slot)

theorem SameOrders.modify (memory : Memory) (slot : Slot) (change : Order → Order)
    (linksOnly : ∀ order, (change order).unlinked = order.unlinked) :
    SameOrders memory (memory.modify slot change) := by
  intro other
  by_cases same : other = slot
  · subst same
    rw [Memory.modify_same, linksOnly]
  · rw [Memory.modify_other memory change same]

/-- A field that is not a link is the same in both memories. -/
theorem SameOrders.field {memory memory' : Memory} (same : SameOrders memory memory') {β : Type}
    (read : Order → β) (linkFree : ∀ order, read order.unlinked = read order) (slot : Slot) :
    read (memory' slot) = read (memory slot) := by
  rw [← linkFree, same slot, linkFree]

theorem SameOrders.remainingQty {memory memory' : Memory} (same : SameOrders memory memory') (slot : Slot) :
    (memory' slot).remainingQty = (memory slot).remainingQty :=
  same.field Order.remainingQty (fun _ => rfl) slot

theorem SameOrders.depth {memory memory' : Memory} (same : SameOrders memory memory') (queue : List Slot) :
    PriceLevel.depth memory' queue = PriceLevel.depth memory queue := by
  simp only [PriceLevel.depth, same.remainingQty]

namespace PriceLevel

variable {level : PriceLevel} {memory : Memory} {queue : List Slot} {order : Slot}

theorem addOrder_sameOrders (level : PriceLevel) (memory : Memory) (order : Slot) :
    SameOrders memory (level.addOrder memory order).2 := by
  have linked := (SameOrders.modify memory order (fun object => { object with next := none })
    (fun _ => rfl)).trans (SameOrders.modify _ order (fun object => { object with prev := level.tail })
      (fun _ => rfl))
  unfold addOrder
  cases tail : level.tail with
  | none =>
    rw [tail] at linked
    exact linked
  | some last =>
    rw [tail] at linked
    exact linked.trans (SameOrders.modify _ last (fun object => { object with next := some order }) (fun _ => rfl))

/-- Only the order and the last order of the queue are written. -/
theorem addOrder_other (level : PriceLevel) (memory : Memory) {order slot : Slot} (different : slot ≠ order)
    (notTail : level.tail ≠ some slot) : (level.addOrder memory order).2 slot = memory slot := by
  unfold addOrder
  cases tail : level.tail with
  | none => simp only [Memory.modify_other _ _ different]
  | some last =>
    have notLast : slot ≠ last := fun same => notTail (by rw [tail, same])
    simp only [Memory.modify_other _ _ notLast, Memory.modify_other _ _ different]

theorem addOrder_holds (holds : level.Holds memory queue) (fresh : order ∉ queue) :
    (level.addOrder memory order).1.Holds (level.addOrder memory order).2 (queue ++ [order]) := by
  have tail_mem : ∀ last, level.tail = some last → last ∈ queue := by
    intro last isTail
    rw [holds.tail_eq] at isTail
    exact List.mem_of_mem_getLast? isTail
  have head : (level.addOrder memory order).1.head = if level.tail = none then some order else level.head := by
    unfold addOrder
    cases level.tail <;> simp
  unfold Holds
  rw [head]
  apply Threaded.append holds fresh
  · unfold addOrder
    cases tail : level.tail with
    | none => simp
    | some last =>
      have different : order ≠ last := fun same => fresh (same ▸ tail_mem last tail)
      simp [Memory.modify_other _ _ different]
  · unfold addOrder
    cases tail : level.tail with
    | none => simp
    | some last =>
      have different : order ≠ last := fun same => fresh (same ▸ tail_mem last tail)
      simp [Memory.modify_other _ _ different]
  · intro last isTail
    unfold addOrder
    rw [isTail]
    simp
  · intro other member notTail
    have different : other ≠ order := fun same => fresh (same ▸ member)
    exact congrArg Order.next (addOrder_other level memory different notTail)
  · intro other member
    have different : other ≠ order := fun same => fresh (same ▸ member)
    by_cases isTail : level.tail = some other
    · unfold addOrder
      rw [isTail]
      simp [Memory.modify_other _ _ different]
    · exact congrArg Order.prev (addOrder_other level memory different isTail)

theorem depth_append (memory : Memory) (queue others : List Slot) :
    depth memory (queue ++ others) = depth memory queue + depth memory others := by
  simp [depth]

theorem depth_bound (memory : Memory) (queue : List Slot) : depth memory queue ≤ queue.length * (2 ^ 32 - 1) := by
  unfold depth
  have bound := List.sum_le_card_nsmul (queue.map (fun slot => (memory slot).remainingQty.toNat)) (2 ^ 32 - 1)
    (by
      intro qty member
      obtain ⟨slot, _, rfl⟩ := List.mem_map.mp member
      have small := (memory slot).remainingQty.toNat_lt
      omega)
  simpa using bound

theorem addOrder_counted (counted : level.Counted memory queue) (room : queue.length + 1 < 2 ^ 32) :
    (level.addOrder memory order).1.Counted (level.addOrder memory order).2 (queue ++ [order]) := by
  have same := addOrder_sameOrders level memory order
  have bound := depth_bound memory queue
  have small := (memory order).remainingQty.toNat_lt
  constructor
  · rw [same.depth, depth_append]
    have value : (level.addOrder memory order).1.totalQty =
        level.totalQty + ((level.addOrder memory order).2 order).remainingQty.toUInt64 := rfl
    rw [value, same.remainingQty, UInt64.toNat_add, counted.totalQty, UInt32.toNat_toUInt64]
    simp only [depth, List.map_cons, List.map_nil, List.sum_cons, List.sum_nil] at bound ⊢
    apply Nat.mod_eq_of_lt
    omega
  · have value : (level.addOrder memory order).1.orderCount = level.orderCount + 1 := rfl
    rw [value, UInt32.toNat_add, counted.orderCount, List.length_append]
    exact Nat.mod_eq_of_lt room

/-- The effect of unlinking, when the order is not its own neighbour. -/
theorem removeOrder_eq (level : PriceLevel) (memory : Memory) (order : Slot)
    (prevOther : (memory order).prev ≠ some order) (nextOther : (memory order).next ≠ some order) :
    level.removeOrder memory order =
      ({ head := if (memory order).prev = none then (memory order).next else level.head
         tail := if (memory order).next = none then (memory order).prev else level.tail
         totalQty := level.totalQty - (memory order).remainingQty.toUInt64
         orderCount := level.orderCount - 1 },
        fun slot =>
          if slot = order then (memory order).unlinked
          else { memory slot with
            next := if (memory order).prev = some slot then (memory order).next else (memory slot).next
            prev := if (memory order).next = some slot then (memory order).prev else (memory slot).prev }) := by
  unfold removeOrder
  cases prev : (memory order).prev with
  | none =>
    cases next : (memory order).next with
    | none =>
      simp only [next, prev, if_true, reduceCtorEq, if_false, Prod.mk.injEq, true_and]
      funext slot
      by_cases same : slot = order <;> simp_all [Memory.modify, Order.unlinked]
    | some after =>
      have apart : order ≠ after := fun same => nextOther (by rw [next, ← same])
      simp only [next, prev, if_true, reduceCtorEq, if_false, Memory.modify_other _ _ apart, Prod.mk.injEq, true_and]
      funext slot
      by_cases same : slot = order <;> by_cases isAfter : slot = after <;>
        simp_all [Memory.modify, Order.unlinked, eq_comm]
  | some before =>
    have apart : order ≠ before := fun same => prevOther (by rw [prev, ← same])
    cases next : (memory order).next with
    | none =>
      simp only [next, prev, Memory.modify_other _ _ apart, reduceCtorEq, if_false, if_true, Prod.mk.injEq, true_and]
      funext slot
      by_cases same : slot = order <;> by_cases isBefore : slot = before <;>
        simp_all [Memory.modify, Order.unlinked, eq_comm]
    | some after =>
      have apart' : order ≠ after := fun same => nextOther (by rw [next, ← same])
      simp only [next, prev, Memory.modify_other _ _ apart, Memory.modify_other _ _ apart', reduceCtorEq, if_false,
        Prod.mk.injEq, true_and]
      funext slot
      by_cases same : slot = order <;> by_cases isAfter : slot = after <;> by_cases isBefore : slot = before <;>
        simp_all [Memory.modify, Order.unlinked, eq_comm]

theorem Holds.neighbours (holds : level.Holds memory queue) (member : order ∈ queue) :
    (memory order).prev ≠ some order ∧ (memory order).next ≠ some order := by
  obtain ⟨before, after, split⟩ := List.append_of_mem member
  have links := holds.links before order after split
  have distinct := holds.nodup
  rw [split, List.nodup_append, List.nodup_cons] at distinct
  constructor
  · intro same
    have inside := List.mem_of_mem_getLast? (links.2.symm.trans same)
    exact distinct.2.2 order inside order List.mem_cons_self rfl
  · intro same
    exact distinct.2.1.1 (List.mem_of_mem_head? (links.1.symm.trans same))

theorem removeOrder_sameOrders (holds : level.Holds memory queue) (member : order ∈ queue) :
    SameOrders memory (level.removeOrder memory order).2 := by
  rw [removeOrder_eq level memory order (holds.neighbours member).1 (holds.neighbours member).2]
  intro slot
  by_cases same : slot = order
  · simp only [same, if_true]
    rfl
  · simp only [same, if_false]
    rfl

theorem removeOrder_other (holds : level.Holds memory queue) (member : order ∈ queue) {slot : Slot}
    (outside : slot ∉ queue) : (level.removeOrder memory order).2 slot = memory slot := by
  rw [removeOrder_eq level memory order (holds.neighbours member).1 (holds.neighbours member).2]
  have different : slot ≠ order := fun same => outside (same ▸ member)
  have notPrev : (memory order).prev ≠ some slot := fun link => outside (holds.prev_mem member link)
  have notNext : (memory order).next ≠ some slot := fun link => outside (holds.next_mem member link)
  simp [different, notPrev, notNext]

theorem removeOrder_self (holds : level.Holds memory queue) (member : order ∈ queue) :
    (level.removeOrder memory order).2 order = (memory order).unlinked := by
  rw [removeOrder_eq level memory order (holds.neighbours member).1 (holds.neighbours member).2]
  simp

theorem removeOrder_holds {before after : List Slot} (holds : level.Holds memory (before ++ order :: after)) :
    (level.removeOrder memory order).1.Holds (level.removeOrder memory order).2 (before ++ after) := by
  have member : order ∈ before ++ order :: after := by simp
  have distinct := holds.nodup
  rw [List.nodup_middle, List.nodup_cons] at distinct
  have different : ∀ other ∈ before ++ after, other ≠ order := fun other inside same => distinct.1 (same ▸ inside)
  rw [removeOrder_eq level memory order (holds.neighbours member).1 (holds.neighbours member).2]
  apply Threaded.remove holds
  · intro other inside
    constructor <;> intro link <;> simp [different other inside, link]
  · intro other inside
    constructor <;> intro link <;> simp [different other inside, link]

theorem depth_middle (memory : Memory) (before after : List Slot) (order : Slot) :
    depth memory (before ++ order :: after) =
      depth memory (before ++ after) + (memory order).remainingQty.toNat := by
  simp only [depth, List.map_append, List.map_cons, List.sum_append, List.sum_cons]
  omega

theorem removeOrder_counted {before after : List Slot} (holds : level.Holds memory (before ++ order :: after))
    (counted : level.Counted memory (before ++ order :: after)) :
    (level.removeOrder memory order).1.Counted (level.removeOrder memory order).2 (before ++ after) := by
  have member : order ∈ before ++ order :: after := by simp
  have same := removeOrder_sameOrders holds member
  have total := counted.totalQty
  have count := counted.orderCount
  rw [depth_middle] at total
  rw [List.length_append, List.length_cons] at count
  constructor
  · rw [same.depth, removeOrder_eq level memory order (holds.neighbours member).1 (holds.neighbours member).2]
    rw [UInt64.toNat_sub_of_le]
    · rw [UInt32.toNat_toUInt64]
      omega
    · rw [UInt64.le_iff_toNat_le, UInt32.toNat_toUInt64]
      omega
  · rw [removeOrder_eq level memory order (holds.neighbours member).1 (holds.neighbours member).2]
    rw [UInt32.toNat_sub_of_le, List.length_append]
    · rw [UInt32.toNat_one]
      omega
    · rw [UInt32.le_iff_toNat_le, UInt32.toNat_one]
      omega

theorem decreaseTotalQty_head (level : PriceLevel) (qty : UInt32) : (level.decreaseTotalQty qty).head = level.head := by
  unfold decreaseTotalQty
  split <;> rfl

theorem decreaseTotalQty_tail (level : PriceLevel) (qty : UInt32) : (level.decreaseTotalQty qty).tail = level.tail := by
  unfold decreaseTotalQty
  split <;> rfl

theorem decreaseTotalQty_toNat {level : PriceLevel} {qty : UInt32} (enough : qty.toNat ≤ level.totalQty.toNat) :
    (level.decreaseTotalQty qty).totalQty.toNat = level.totalQty.toNat - qty.toNat ∧
      (level.decreaseTotalQty qty).orderCount = level.orderCount := by
  have notOver : ¬qty.toUInt64 > level.totalQty := by
    rw [gt_iff_lt, UInt64.lt_iff_toNat_lt, UInt32.toNat_toUInt64]
    omega
  unfold decreaseTotalQty
  rw [if_neg notOver]
  refine ⟨?_, rfl⟩
  rw [UInt64.toNat_sub_of_le, UInt32.toNat_toUInt64]
  rw [UInt64.le_iff_toNat_le, UInt32.toNat_toUInt64]
  exact enough

end PriceLevel

end ChronoBook
