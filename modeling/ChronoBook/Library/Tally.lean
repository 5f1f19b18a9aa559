import Mathlib.Algebra.BigOperators.Group.Finset.Basic
import Mathlib.Algebra.BigOperators.Group.Finset.Piecewise
import Mathlib.Algebra.Order.BigOperators.Group.Finset
import Mathlib.Data.Fintype.Basic

/-! How many members of a finite family have a property, and how the number changes
when one member does. -/

namespace ChronoBook.Library
open scoped BigOperators

variable {ι α : Type} [Fintype ι]

def total (weight : α → Nat) (family : ι → α) : Nat := ∑ i, weight (family i)

def tally (counts : α → Bool) (family : ι → α) : Nat := ∑ i, (counts (family i)).toNat

theorem total_add (first second : α → Nat) (family : ι → α) :
    total (fun value => first value + second value) family = total first family + total second family :=
  Finset.sum_add_distrib

/-- The members of a set change, and the others weigh as before. -/
theorem total_piecewise [DecidableEq ι] (weight : α → Nat) (family : ι → α) (chosen : Finset ι) (change : α → α) :
    total weight (fun i => if i ∈ chosen then change (family i) else family i) + ∑ i ∈ chosen, weight (family i) =
      total weight family + ∑ i ∈ chosen, weight (change (family i)) := by
  have inside : ∑ i ∈ chosen, weight (if i ∈ chosen then change (family i) else family i) =
      ∑ i ∈ chosen, weight (change (family i)) := by
    apply Finset.sum_congr rfl
    intro i member
    rw [if_pos member]
  have outside : ∑ i ∈ chosenᶜ, weight (if i ∈ chosen then change (family i) else family i) =
      ∑ i ∈ chosenᶜ, weight (family i) := by
    apply Finset.sum_congr rfl
    intro i other
    rw [if_neg (Finset.mem_compl.mp other)]
  unfold total
  rw [← Finset.sum_add_sum_compl chosen, inside, outside, ← Finset.sum_add_sum_compl chosen (fun i => weight (family i))]
  omega

theorem total_chosen [DecidableEq ι] {weight : α → Nat} {family : ι → α} {chosen : Finset ι} {change : α → α}
    {before after : Nat} (old : ∀ i ∈ chosen, weight (family i) = before)
    (new : ∀ i ∈ chosen, weight (change (family i)) = after) :
    total weight (fun i => if i ∈ chosen then change (family i) else family i) + chosen.card * before =
      total weight family + chosen.card * after := by
  have changed := total_piecewise weight family chosen change
  rwa [Finset.sum_const_nat old, Finset.sum_const_nat new] at changed

theorem total_update [DecidableEq ι] (weight : α → Nat) (family : ι → α) (i : ι) (value : α) :
    total weight (Function.update family i value) + weight (family i) = total weight family + weight value := by
  have changed := total_piecewise weight family {i} (fun _ => value)
  have shape : (fun j => if j ∈ ({i} : Finset ι) then value else family j) = Function.update family i value := by
    funext j
    simp only [Finset.mem_singleton, Function.update_apply]
  rwa [shape, Finset.sum_singleton, Finset.sum_singleton] at changed

theorem le_total (weight : α → Nat) (family : ι → α) (i : ι) : weight (family i) ≤ total weight family :=
  Finset.single_le_sum (fun j _ => Nat.zero_le (weight (family j))) (Finset.mem_univ i)

theorem tally_update [DecidableEq ι] (counts : α → Bool) (family : ι → α) (i : ι) (value : α) :
    tally counts (Function.update family i value) + (counts (family i)).toNat =
      tally counts family + (counts value).toNat := total_update (fun value => (counts value).toNat) family i value

theorem le_tally (counts : α → Bool) (family : ι → α) (i : ι) : (counts (family i)).toNat ≤ tally counts family :=
  le_total (fun value => (counts value).toNat) family i

theorem tally_mono {fewer more : α → Bool} (implies : ∀ value, fewer value = true → more value = true) (family : ι → α) :
    tally fewer family ≤ tally more family := by
  apply Finset.sum_le_sum
  intro i _
  have member := implies (family i)
  cases kind : fewer (family i) with
  | false => exact Nat.zero_le _
  | true => rw [member kind]

theorem tally_le_card (counts : α → Bool) (family : ι → α) : tally counts family ≤ Fintype.card ι := by
  rw [← Finset.card_univ, Finset.card_eq_sum_ones]
  exact Finset.sum_le_sum (fun i _ => Bool.toNat_le _)

/-- A member that does not count leaves room for one more. -/
theorem tally_lt_card [DecidableEq ι] {counts : α → Bool} {family : ι → α} {i : ι} (not : counts (family i) = false)
    {value : α} (would : counts value = true) : tally counts family < Fintype.card ι := by
  have changed := tally_update counts family i value
  have bound := tally_le_card counts (Function.update family i value)
  rw [not, would] at changed
  change _ + 0 = _ + 1 at changed
  omega

theorem tally_eq_card (counts : α → Bool) (family : ι → α) :
    tally counts family = (Finset.univ.filter (fun i => counts (family i) = true)).card := by
  rw [Finset.card_filter]
  apply Finset.sum_congr rfl
  intro i _
  cases counts (family i) <;> rfl

theorem tally_zero {counts : α → Bool} {family : ι → α} (none : ∀ i, counts (family i) = false) :
    tally counts family = 0 := by
  apply Finset.sum_eq_zero
  intro i _
  rw [none i]
  rfl

end ChronoBook.Library
