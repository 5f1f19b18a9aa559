import ChronoBook.Library.Priority
import Mathlib.Data.List.Sort

/-! Stable sorting. A list sorted by a key is determined by its order within each
key, and a stable sort keeps that order. -/

namespace ChronoBook.Library.Priority

variable {α κ : Type} {before : κ → κ → Prop} [DecidableEq κ] {key : α → κ}

theorem ordered_unique [IsStrictTotalOrder κ before] {first second : List α} (one : Ordered before key first)
    (two : Ordered before key second)
    (same : ∀ group, first.filter (fun item => key item = group) = second.filter (fun item => key item = group)) :
    first = second := by
  have members : ∀ item, item ∈ first ↔ item ∈ second := by
    intro item
    have here := congrArg (fun items => item ∈ items) (same (key item))
    simpa using here
  induction first generalizing second with
  | nil =>
    cases second with
    | nil => rfl
    | cons item rest => exact absurd ((members item).mpr List.mem_cons_self) List.not_mem_nil
  | cons item rest ih =>
    cases second with
    | nil => exact absurd ((members item).mp List.mem_cons_self) List.not_mem_nil
    | cons other others =>
      unfold Ordered at one two
      rw [List.pairwise_cons] at one two
      -- the heads have one key, because neither may come before the other
      have sameKey : key item = key other := by
        rcases List.mem_cons.mp ((members item).mp List.mem_cons_self) with equal | later
        · rw [equal]
        rcases List.mem_cons.mp ((members other).mpr List.mem_cons_self) with equal | later'
        · rw [equal]
        rcases trichotomous_of before (key item) (key other) with below | equal | above
        · exact absurd below (two.1 item later)
        · exact equal
        · exact absurd above (one.1 other later')
      have heads := same (key item)
      rw [List.filter_cons_of_pos (by simp), List.filter_cons_of_pos (by simp [sameKey])] at heads
      obtain ⟨equal, _⟩ := List.cons.inj heads
      subst equal
      congr 1
      have tails : ∀ group, rest.filter (fun other => key other = group) =
          others.filter (fun other => key other = group) := by
        intro group
        have both := same group
        by_cases inGroup : key item = group
        · rw [List.filter_cons_of_pos (by simp [inGroup]), List.filter_cons_of_pos (by simp [inGroup])] at both
          exact (List.cons.inj both).2
        · rw [List.filter_cons_of_neg (by simp [inGroup]), List.filter_cons_of_neg (by simp [inGroup])] at both
          exact both
      apply ih one.2 two.2 tails
      intro candidate
      have here := congrArg (fun items => candidate ∈ items) (tails (key candidate))
      simpa using here

/-- A part of the list that is already in order comes out of the sort as it went in. -/
theorem filter_mergeSort {le : α → α → Bool} (trans : ∀ a b c, le a b = true → le b c = true → le a c = true)
    (total : ∀ a b, (le a b || le b a) = true) {items : List α} {keep : α → Bool}
    (settled : (items.filter keep).Pairwise (fun a b => le a b = true)) :
    (items.mergeSort le).filter keep = items.filter keep := by
  have inside : (items.filter keep).Sublist (items.mergeSort le) :=
    List.sublist_mergeSort trans total settled List.filter_sublist
  have kept := inside.filter keep
  simp only [List.filter_filter, Bool.and_self] at kept
  exact (kept.eq_of_length ((List.mergeSort_perm items le).filter keep).length_eq.symm).symm

section Parts
variable {ι γ : Type} [DecidableEq ι] {parts : List ι} {home : γ → ι} {out : γ → List α}

theorem flatMap_single {items : List α} {part : ι} (distinct : parts.Nodup) (inside : part ∈ parts) :
    parts.flatMap (fun other => if part = other then items else []) = items := by
  induction parts with
  | nil => exact absurd inside List.not_mem_nil
  | cons first rest ih =>
    rw [List.nodup_cons] at distinct
    rw [List.flatMap_cons]
    by_cases here : part = first
    · have nowhere : rest.flatMap (fun other => if part = other then items else []) = [] := by
        rw [List.flatMap_eq_nil_iff]
        intro other there
        apply if_neg
        intro same
        rw [← same, here] at there
        exact distinct.1 there
      rw [if_pos here, nowhere, List.append_nil]
    · rw [if_neg here, List.nil_append]
      exact ih distinct.2 ((List.mem_cons.mp inside).resolve_left here)

/-- If at most one entry emits something, it does not matter how the entries are split up. -/
theorem flatMap_parts {entries : List γ} (distinct : parts.Nodup) (covered : ∀ entry ∈ entries, home entry ∈ parts)
    (single : entries.Pairwise (fun first second => out first = [] ∨ out second = [])) :
    parts.flatMap (fun part => (entries.filter (fun entry => home entry = part)).flatMap out) = entries.flatMap out := by
  induction entries with
  | nil => simp
  | cons entry rest ih =>
    rw [List.pairwise_cons] at single
    have later := ih (fun other there => covered other (List.mem_cons_of_mem _ there)) single.2
    rw [List.flatMap_cons]
    by_cases silent : out entry = []
    · rw [silent, List.nil_append, ← later]
      apply List.flatMap_congr
      intro part _
      by_cases here : home entry = part
      · rw [List.filter_cons_of_pos (by simp [here]), List.flatMap_cons, silent, List.nil_append]
      · rw [List.filter_cons_of_neg (by simp [here])]
    · have quiet : ∀ other ∈ rest, out other = [] := fun other there => (single.1 other there).resolve_left silent
      have nothing : ∀ kept : γ → Bool, (rest.filter kept).flatMap out = [] := by
        intro kept
        rw [List.flatMap_eq_nil_iff]
        exact fun other there => quiet other (List.mem_of_mem_filter there)
      have whole : rest.flatMap out = [] := List.flatMap_eq_nil_iff.mpr quiet
      have only : parts.flatMap (fun other => if home entry = other then out entry else []) = out entry :=
        flatMap_single distinct (covered entry List.mem_cons_self)
      rw [whole, List.append_nil, ← only]
      apply List.flatMap_congr
      intro part _
      by_cases here : home entry = part
      · rw [List.filter_cons_of_pos (by simp [here]), List.flatMap_cons, nothing, List.append_nil, if_pos here]
      · rw [List.filter_cons_of_neg (by simp [here]), nothing, if_neg here]

/-- Entries with increasing keys may be split up in any way: sorting the parts' output by key puts it together again. -/
theorem mergeSort_parts [IsStrictTotalOrder κ before] {entries : List γ} {stamp : γ → κ} {le : α → α → Bool}
    (distinct : parts.Nodup) (covered : ∀ entry ∈ entries, home entry ∈ parts)
    (stamped : ∀ entry ∈ entries, ∀ item ∈ out entry, key item = stamp entry)
    (increasing : entries.Pairwise (fun first second => before (stamp first) (stamp second)))
    (le_iff : ∀ a b, le a b = true ↔ ¬before (key b) (key a)) :
    (parts.flatMap (fun part => (entries.filter (fun entry => home entry = part)).flatMap out)).mergeSort le =
      entries.flatMap out := by
  have trans : ∀ a b c, le a b = true → le b c = true → le a c = true := by
    intro a b c one two
    rw [le_iff] at one two ⊢
    intro above
    rcases trichotomous_of before (key a) (key b) with below | equal | greater
    · exact two (IsTrans.trans _ _ _ above below)
    · exact two (equal ▸ above)
    · exact one greater
  have total : ∀ a b, (le a b || le b a) = true := by
    intro a b
    rw [Bool.or_eq_true, le_iff, le_iff, ← not_and_or]
    exact fun both => asymm_of before both.1 both.2
  have sorted : Ordered before key ((parts.flatMap (fun part =>
      (entries.filter (fun entry => home entry = part)).flatMap out)).mergeSort le) :=
    (List.pairwise_mergeSort trans total _).imp (fun settled => (le_iff _ _).mp settled)
  have inOrder : Ordered before key (entries.flatMap out) := by
    unfold Ordered
    rw [List.pairwise_flatMap]
    constructor
    · intro entry inside
      apply List.pairwise_of_forall_mem_list
      intro first here second there
      rw [stamped entry inside first here, stamped entry inside second there]
      exact irrefl_of before _
    · refine increasing.imp_of_mem ?_
      intro entry other inside inside' earlier first here second there
      rw [stamped entry inside first here, stamped other inside' second there]
      exact asymm_of before earlier
  apply ordered_unique sorted inOrder
  intro group
  have settled : ∀ items : List α, (items.filter (fun item => key item = group)).Pairwise
      (fun a b => le a b = true) := by
    intro items
    apply List.pairwise_of_forall_mem_list
    intro first here second there
    rw [le_iff, of_decide_eq_true (List.mem_filter.mp here).2, of_decide_eq_true (List.mem_filter.mp there).2]
    exact irrefl_of before group
  rw [filter_mergeSort trans total (settled _), List.filter_flatMap, List.filter_flatMap]
  simp only [List.filter_flatMap]
  apply flatMap_parts distinct covered
  refine increasing.imp_of_mem ?_
  intro entry other inside inside' earlier
  by_cases here : stamp entry = group
  · refine Or.inr (List.filter_eq_nil_iff.mpr ?_)
    intro item there same
    rw [decide_eq_true_eq, stamped other inside' item there, ← here] at same
    rw [same] at earlier
    exact irrefl_of before _ earlier
  · refine Or.inl (List.filter_eq_nil_iff.mpr ?_)
    intro item there same
    rw [decide_eq_true_eq, stamped entry inside item there] at same
    exact here same

end Parts

end ChronoBook.Library.Priority
