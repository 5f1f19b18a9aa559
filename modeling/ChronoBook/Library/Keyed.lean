import Mathlib.Algebra.Ring.Nat
import Mathlib.Data.List.Nodup

/-! Lists whose elements have distinct keys: an element may be named by its
position or by its key. -/

namespace ChronoBook.Library.Keyed

variable {α κ : Type} [DecidableEq κ] {key : α → κ}

theorem filter_other {items : List α} {name : κ} (absent : name ∉ items.map key) :
    items.filter (fun other => key other ≠ name) = items := by
  rw [List.filter_eq_self]
  intro other inside
  rw [decide_eq_true_eq]
  intro same
  exact absent (same ▸ List.mem_map_of_mem inside)

theorem eraseIdx_eq_filter {items : List α} {place : Nat} {item : α} (distinct : (items.map key).Nodup)
    (found : items[place]? = some item) :
    items.eraseIdx place = items.filter (fun other => key other ≠ key item) := by
  induction items generalizing place with
  | nil => cases found
  | cons first rest ih =>
    rw [List.map_cons, List.nodup_cons] at distinct
    cases place with
    | zero =>
      cases found
      rw [List.filter_cons_of_neg (by simp), filter_other distinct.1]
      rfl
    | succ place =>
      rw [List.getElem?_cons_succ] at found
      have different : key first ≠ key item := by
        intro same
        exact distinct.1 (same ▸ List.mem_map_of_mem (List.mem_of_getElem? found))
      rw [List.filter_cons_of_pos (by simp [different]), List.eraseIdx_cons_succ, ih distinct.2 found]

theorem modify_eq_map {items : List α} {place : Nat} {item : α} (distinct : (items.map key).Nodup)
    (found : items[place]? = some item) (change : α → α) :
    items.modify place change = items.map (fun other => if key other = key item then change other else other) := by
  induction items generalizing place with
  | nil => cases found
  | cons first rest ih =>
    rw [List.map_cons, List.nodup_cons] at distinct
    cases place with
    | zero =>
      cases found
      have others : rest.map (fun other => if key other = key item then change other else other) = rest := by
        have unchanged : ∀ other ∈ rest, (if key other = key item then change other else other) = id other := by
          intro other inside
          rw [if_neg, id]
          intro same
          exact distinct.1 (same ▸ List.mem_map_of_mem inside)
        rw [List.map_congr_left unchanged, List.map_id]
      rw [List.map_cons, if_pos rfl, others, List.modify_zero_cons]
    | succ place =>
      rw [List.getElem?_cons_succ] at found
      have different : key first ≠ key item := by
        intro same
        exact distinct.1 (same ▸ List.mem_map_of_mem (List.mem_of_getElem? found))
      rw [List.modify_succ_cons, List.map_cons, if_neg different, ih distinct.2 found]

theorem eraseP_eq_filter {items : List α} (distinct : (items.map key).Nodup) (name : κ) :
    items.eraseP (fun other => key other = name) = items.filter (fun other => key other ≠ name) := by
  induction items with
  | nil => rfl
  | cons first rest ih =>
    rw [List.map_cons, List.nodup_cons] at distinct
    by_cases same : key first = name
    · rw [List.eraseP_cons_of_pos (by simp [same]), List.filter_cons_of_neg (by simp [same]),
        filter_other (same ▸ distinct.1)]
    · rw [List.eraseP_cons_of_neg (by simp [same]), List.filter_cons_of_pos (by simp [same]), ih distinct.2]

theorem find?_of_mem {items : List α} {item : α} (distinct : (items.map key).Nodup) (inside : item ∈ items) :
    items.find? (fun other => key other = key item) = some item := by
  cases found : items.find? (fun other => key other = key item) with
  | none =>
    rw [List.find?_eq_none] at found
    exact absurd (decide_eq_true rfl) (found item inside)
  | some other =>
    have same : key other = key item := by simpa using List.find?_some found
    rw [List.inj_on_of_nodup_map distinct (List.mem_of_find?_eq_some found) inside same]

/-- An element and the elements of other keys are the whole list, up to order. -/
theorem perm_cons_filter {items : List α} {item : α} (distinct : (items.map key).Nodup) (inside : item ∈ items) :
    items.Perm (item :: items.filter (fun other => key other ≠ key item)) := by
  induction items with
  | nil => cases inside
  | cons first rest ih =>
    rw [List.map_cons, List.nodup_cons] at distinct
    rcases List.mem_cons.mp inside with same | later
    · subst same
      rw [List.filter_cons_of_neg (by simp), filter_other distinct.1]
    · have different : key first ≠ key item := by
        intro same
        exact distinct.1 (same ▸ List.mem_map_of_mem later)
      rw [List.filter_cons_of_pos (by simp [different])]
      exact ((ih distinct.2 later).cons first).trans (List.Perm.swap item first _)

end ChronoBook.Library.Keyed
