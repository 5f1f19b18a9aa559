import Mathlib.Algebra.BigOperators.Group.List.Basic
import Mathlib.Algebra.Ring.Nat
import Mathlib.Data.List.Rotate

/-! The last values of a sequence, kept in a ring that is overwritten in place. Read
from the place that is overwritten next, the ring is the window itself: its oldest
value stands there, and a write drops it and appends the new one. -/

namespace ChronoBook.Library.SlidingWindow

variable {α : Type} {blank : α} {size head : Nat} {ring values : List α}

/-- The last `size` values, with blanks for those that there were not yet. -/
def recent (blank : α) (size : Nat) (values : List α) : List α :=
  (List.replicate size blank ++ values).drop values.length

theorem recent_eq (blank : α) (size : Nat) (values : List α) :
    recent blank size values = List.replicate (size - values.length) blank ++ values.drop (values.length - size) := by
  simp [recent, List.drop_append]

theorem recent_append (positive : 0 < size) (values : List α) (value : α) :
    recent blank size (values ++ [value]) = (recent blank size values).tail ++ [value] := by
  have inside : values.length + 1 ≤ (List.replicate size blank ++ values).length := by
    simp only [List.length_append, List.length_replicate]
    omega
  unfold recent
  rw [List.tail_drop, ← List.append_assoc, List.length_append, List.length_singleton, List.drop_append_of_le_length inside]

theorem rotate_set (inside : head < ring.length) (value : α) :
    (ring.set head value).rotate (head + 1) = (ring.rotate head).tail ++ [value] := by
  have within : head + 1 ≤ (ring.set head value).length := by
    rw [List.length_set]
    exact inside
  have nonempty : ring.drop head ≠ [] := by simpa [List.drop_eq_nil_iff] using inside
  have front : (ring.set head value).take (head + 1) = ring.take head ++ [value] := by
    rw [List.take_add_one, List.take_set_of_le (Nat.le_refl head), List.getElem?_set_self inside]
    rfl
  rw [List.rotate_eq_drop_append_take within, List.rotate_eq_drop_append_take (Nat.le_of_lt inside),
    List.tail_append_of_ne_nil nonempty, List.tail_drop, List.drop_set_of_lt (Nat.lt_succ_self head), front,
    List.append_assoc]

/-- The ring after all the values were written to it, one place after the other. -/
structure Written (blank : α) (size head : Nat) (ring values : List α) : Prop where
  length : ring.length = size
  place : head = values.length % size
  content : ring.rotate head = recent blank size values

namespace Written

theorem create (blank : α) (size : Nat) : Written blank size 0 (List.replicate size blank) [] where
  length := List.length_replicate
  place := (Nat.zero_mod size).symm
  content := by simp [recent]

theorem head_lt (written : Written blank size head ring values) (positive : 0 < size) : head < ring.length := by
  rw [written.length, written.place]
  exact Nat.mod_lt _ positive

theorem write (written : Written blank size head ring values) (positive : 0 < size) (value : α) :
    Written blank size ((head + 1) % size) (ring.set head value) (values ++ [value]) where
  length := by rw [List.length_set, written.length]
  place := by rw [written.place, Nat.mod_add_mod, List.length_append, List.length_singleton]
  content := by
    have around : (ring.set head value).rotate ((head + 1) % size) = (ring.set head value).rotate (head + 1) := by
      rw [← written.length, ← List.length_set, List.rotate_mod]
    rw [around, rotate_set (written.head_lt positive), written.content, recent_append positive]

/-- The value that is overwritten next is the oldest of the window. -/
theorem split (written : Written blank size head ring values) (positive : 0 < size) (other : α) :
    recent blank size values = ring.getD head other :: (recent blank size values).tail := by
  have inside := written.head_lt positive
  have first : ring.getD head other = ring[head] := by
    rw [List.getD_eq_getElem?_getD, List.getElem?_eq_getElem inside, Option.getD_some]
  rw [← written.content, List.rotate_eq_drop_append_take (Nat.le_of_lt inside), List.drop_eq_getElem_cons inside, first]
  rfl

/-- Blanks weigh nothing, so the window weighs as much as the values in it. -/
theorem sum_recent {weight : α → Nat} (nothing : weight blank = 0) (size : Nat) (values : List α) :
    ((recent blank size values).map weight).sum = ((values.drop (values.length - size)).map weight).sum := by
  simp [recent_eq, nothing]

/-- What a write changes of the weight of the window. -/
theorem sum_write (written : Written blank size head ring values) (positive : 0 < size) (value other : α)
    (weight : α → Nat) :
    ((recent blank size (values ++ [value])).map weight).sum + weight (ring.getD head other) =
      ((recent blank size values).map weight).sum + weight value := by
  rw [recent_append positive, written.split positive other]
  simp only [List.tail_cons, List.map_append, List.map_cons, List.map_nil, List.sum_append, List.sum_cons, List.sum_nil]
  omega

end Written

end ChronoBook.Library.SlidingWindow
