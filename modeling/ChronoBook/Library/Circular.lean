import Mathlib.Data.List.Basic

/-! A queue kept in a circle of slots. One slot always stays free, so that equal
indices mean an empty queue and never a full one. -/

namespace ChronoBook.Library

variable {α : Type}

/-- The slots from `tail` up to `head`, around the circle, hold `items`. -/
structure Circular (size head tail : Nat) (slots items : List α) : Prop where
  length_eq : slots.length = size
  tail_lt : tail < size
  short : items.length < size
  head_eq : head = (tail + items.length) % size
  stored : ∀ index, index < items.length → items[index]? = slots[(tail + index) % size]?

namespace Circular

variable {size head tail : Nat} {slots items : List α}

/-- A step around the circle, where it is not a division. -/
theorem wrap {size sum : Nat} (bound : sum < 2 * size) : sum % size = if sum < size then sum else sum - size := by
  by_cases below : sum < size
  · rw [if_pos below, Nat.mod_eq_of_lt below]
  · rw [if_neg below, Nat.mod_eq_sub_mod (by omega), Nat.mod_eq_of_lt (by omega)]

theorem create {size : Nat} (positive : 0 < size) (length_eq : slots.length = size) : Circular size 0 0 slots [] where
  length_eq := length_eq
  tail_lt := positive
  short := positive
  head_eq := (Nat.zero_mod size).symm
  stored := fun _ below => absurd below (Nat.not_lt_zero _)

theorem head_lt (circle : Circular size head tail slots items) : head < size := by
  rw [circle.head_eq]
  exact Nat.mod_lt _ (Nat.lt_of_le_of_lt (Nat.zero_le _) circle.tail_lt)

theorem empty_iff (circle : Circular size head tail slots items) : tail = head ↔ items = [] := by
  have inside := circle.tail_lt
  have short := circle.short
  have place := circle.head_eq
  rw [wrap (by omega)] at place
  rw [← List.length_eq_zero_iff]
  split at place <;> omega

/-- The next index meets the tail when only the slot that must stay free is left. -/
theorem full_iff (circle : Circular size head tail slots items) : (head + 1) % size = tail ↔ items.length + 1 = size := by
  have inside := circle.tail_lt
  have short := circle.short
  have place := circle.head_eq
  have bound := circle.head_lt
  rw [wrap (by omega)] at place
  rw [wrap (by omega)]
  split at place <;> split <;> omega

/-- The slot at the head is none of those that hold an item. -/
theorem head_free (circle : Circular size head tail slots items) {index : Nat} (below : index < items.length) :
    (tail + index) % size ≠ head := by
  have inside := circle.tail_lt
  have short := circle.short
  have place := circle.head_eq
  rw [wrap (by omega)] at place ⊢
  split at place <;> split <;> omega

/-- The slot at the head holds nothing yet and may be written. -/
theorem write (circle : Circular size head tail slots items) (item : α) :
    Circular size head tail (slots.set head item) items where
  length_eq := (List.length_set ..).trans circle.length_eq
  tail_lt := circle.tail_lt
  short := circle.short
  head_eq := circle.head_eq
  stored := by
    intro index below
    rw [List.getElem?_set_ne (circle.head_free below).symm]
    exact circle.stored index below

/-- Moving the head past a written slot adds its item. -/
theorem push {item : α} (circle : Circular size head tail slots items) (room : items.length + 1 < size)
    (written : slots[head]? = some item) : Circular size ((head + 1) % size) tail slots (items ++ [item]) where
  length_eq := circle.length_eq
  tail_lt := circle.tail_lt
  short := by simpa using room
  head_eq := by
    rw [circle.head_eq, Nat.mod_add_mod, List.length_append, List.length_singleton, Nat.add_assoc]
  stored := by
    intro index below
    rw [List.length_append, List.length_singleton] at below
    by_cases old : index < items.length
    · rw [List.getElem?_append_left old]
      exact circle.stored index old
    · have last : index = items.length := by omega
      rw [last, List.getElem?_append_right (Nat.le_refl _), ← circle.head_eq, written]
      simp

theorem front {item : α} (circle : Circular size head tail slots (item :: items)) : slots[tail]? = some item := by
  have first := circle.stored 0 (by simp)
  rw [Nat.add_zero, Nat.mod_eq_of_lt circle.tail_lt, List.getElem?_cons_zero] at first
  exact first.symm

/-- Moving the tail past the front drops its item. -/
theorem pop {item : α} (circle : Circular size head tail slots (item :: items)) :
    Circular size head ((tail + 1) % size) slots items where
  length_eq := circle.length_eq
  tail_lt := Nat.mod_lt _ (Nat.lt_of_le_of_lt (Nat.zero_le _) circle.tail_lt)
  short := Nat.lt_of_succ_lt circle.short
  head_eq := by
    rw [circle.head_eq, Nat.mod_add_mod, List.length_cons]
    congr 1
    omega
  stored := by
    intro index below
    have moved := circle.stored (index + 1) (by simpa using below)
    rw [List.getElem?_cons_succ] at moved
    rw [moved, Nat.mod_add_mod, Nat.add_assoc, Nat.add_comm 1 index]

end Circular

end ChronoBook.Library
