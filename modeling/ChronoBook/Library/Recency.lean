import Mathlib.Data.List.Dedup

/-! The distinct keys of a sequence of requests, the one requested last in front, and
what a memory of bounded length for them has to do at a request: move a key it holds
to the front, or put a new key there and give up the last one when it is full. -/

namespace ChronoBook.Library

variable {κ : Type} [DecidableEq κ]

/-- The distinct keys, most recent first. -/
def recency (requests : List κ) : List κ := requests.dedup.reverse

theorem nodup_recency (requests : List κ) : (recency requests).Nodup := List.nodup_reverse.mpr requests.nodup_dedup

theorem dedup_concat (requests : List κ) (key : κ) :
    (requests ++ [key]).dedup = requests.dedup.filter (fun other => other ≠ key) ++ [key] := by
  induction requests with
  | nil => simp
  | cons first rest ih =>
    rw [List.cons_append]
    by_cases again : first ∈ rest
    · rw [List.dedup_cons_of_mem again, List.dedup_cons_of_mem (List.mem_append_left _ again), ih]
    · rw [List.dedup_cons_of_notMem again]
      by_cases same : first = key
      · rw [List.dedup_cons_of_mem (by simp [same]), ih, List.filter_cons_of_neg (by simp [same])]
      · rw [List.dedup_cons_of_notMem (by simp [again, same]), ih, List.filter_cons_of_pos (by simp [same]),
          List.cons_append]

theorem recency_concat (requests : List κ) (key : κ) :
    recency (requests ++ [key]) = key :: (recency requests).filter (fun other => other ≠ key) := by
  rw [recency, dedup_concat, List.reverse_append, List.reverse_singleton, List.singleton_append, ← List.filter_reverse,
    recency]

/-- A key that is held leaves its place without moving another one in. -/
theorem take_filter_of_mem {keys : List κ} {key : κ} {count : Nat} (distinct : keys.Nodup)
    (held : key ∈ keys.take (count + 1)) :
    (keys.filter (fun other => other ≠ key)).take count =
      (keys.take (count + 1)).filter (fun other => other ≠ key) := by
  induction keys generalizing count with
  | nil => cases held
  | cons first rest ih =>
    rw [List.nodup_cons] at distinct
    rw [List.take_succ_cons] at held ⊢
    by_cases same : first = key
    · have absent : ∀ other ∈ rest, other ≠ key := fun other inside again => distinct.1 (by rwa [same, ← again])
      rw [List.filter_cons_of_neg (by simp [same]), List.filter_cons_of_neg (by simp [same]),
        List.filter_eq_self.mpr (by simpa using absent),
        List.filter_eq_self.mpr (by simpa using fun other inside => absent other (List.mem_of_mem_take inside))]
    · have later : key ∈ rest.take count := (List.mem_cons.mp held).resolve_left (fun again => same again.symm)
      cases count with
      | zero => cases later
      | succ count =>
        rw [List.filter_cons_of_pos (by simp [same]), List.filter_cons_of_pos (by simp [same]), List.take_succ_cons,
          ih distinct.2 later]

theorem take_filter_of_notMem {keys : List κ} {key : κ} {count : Nat} (absent : key ∉ keys.take count) :
    (keys.filter (fun other => other ≠ key)).take count = keys.take count := by
  induction keys generalizing count with
  | nil => rfl
  | cons first rest ih =>
    cases count with
    | zero => rfl
    | succ count =>
      rw [List.take_succ_cons, List.mem_cons, not_or] at absent
      rw [List.filter_cons_of_pos (by simp [Ne.symm absent.1]), List.take_succ_cons, List.take_succ_cons, ih absent.2]

/-- A full memory gives up its last key to make room for another one. -/
def makeRoom (capacity : Nat) (kept : List κ) : List κ := if kept.length = capacity then kept.dropLast else kept

variable {capacity : Nat}

theorem recent_hit {requests : List κ} {key : κ} (held : key ∈ (recency requests).take capacity) :
    (recency (requests ++ [key])).take capacity =
      key :: ((recency requests).take capacity).filter (fun other => other ≠ key) := by
  rw [recency_concat]
  cases capacity with
  | zero => cases held
  | succ count => rw [List.take_succ_cons, take_filter_of_mem (nodup_recency requests) held]

theorem recent_miss {requests : List κ} {key : κ} (positive : 1 ≤ capacity)
    (absent : key ∉ (recency requests).take capacity) :
    (recency (requests ++ [key])).take capacity = key :: makeRoom capacity ((recency requests).take capacity) := by
  rw [recency_concat]
  obtain ⟨count, rfl⟩ := Nat.exists_eq_add_of_le' positive
  have shorter : key ∉ (recency requests).take count := fun inside => absent (List.take_subset_take_left _ (by omega) inside)
  rw [List.take_succ_cons, take_filter_of_notMem shorter, makeRoom]
  split
  next full => rw [List.dropLast_eq_take, full, Nat.add_sub_cancel, List.take_take, Nat.min_eq_left (Nat.le_succ count)]
  next room =>
    rw [List.length_take] at room
    rw [List.take_of_length_le (show (recency requests).length ≤ count by omega),
      List.take_of_length_le (show (recency requests).length ≤ count + 1 by omega)]

end ChronoBook.Library
