import Mathlib.Data.List.Basic
import Mathlib.Order.Defs.Unbundled

/-! Finite maps kept in key order, as an ordered tree container presents them:
the entries are listed from the first key to the last and no key occurs twice.
The order is a field, so an unsorted map cannot be built. -/

namespace ChronoBook.Library

variable {κ ν : Type}

structure SortedMap (κ ν : Type) (before : κ → κ → Prop) where
  entries : List (κ × ν)
  sorted : entries.Pairwise (fun first second => before first.1 second.1)

attribute [ext] SortedMap

/-- The key list after a key has been looked up with insertion. -/
def insertKey [DecidableEq κ] (before : κ → κ → Prop) [DecidableRel before] (key : κ) :
    List κ → List κ
  | [] => [key]
  | other :: rest =>
      if other = key then other :: rest
      else if before key other then key :: other :: rest
      else other :: insertKey before key rest

namespace SortedMap

variable {before : κ → κ → Prop}

def empty : SortedMap κ ν before := ⟨[], List.Pairwise.nil⟩

def keys (map : SortedMap κ ν before) : List κ := map.entries.map Prod.fst

theorem keys_sorted (map : SortedMap κ ν before) : map.keys.Pairwise before :=
  List.pairwise_map.mpr map.sorted

variable [DecidableEq κ]

def find? (map : SortedMap κ ν before) (key : κ) : Option ν :=
  (map.entries.find? (fun entry => entry.1 = key)).map Prod.snd

/-- Change the value found under a key; other entries and a missing key are left alone. -/
def modify (map : SortedMap κ ν before) (key : κ) (change : ν → ν) : SortedMap κ ν before where
  entries := map.entries.map (fun entry => if entry.1 = key then (entry.1, change entry.2) else entry)
  sorted := by
    rw [List.pairwise_map]
    refine map.sorted.imp ?_
    intro first second ordered
    split <;> split <;> exact ordered

def erase (map : SortedMap κ ν before) (key : κ) : SortedMap κ ν before where
  entries := map.entries.filter (fun entry => entry.1 ≠ key)
  sorted := map.sorted.filter _

@[simp] theorem keys_modify (map : SortedMap κ ν before) (key : κ) (change : ν → ν) :
    (map.modify key change).keys = map.keys := by
  simp only [keys, modify, List.map_map]
  apply List.map_congr_left
  intro entry _
  simp only [Function.comp_apply]
  split <;> rfl

@[simp] theorem keys_erase (map : SortedMap κ ν before) (key : κ) :
    (map.erase key).keys = map.keys.filter (fun other => other ≠ key) := by
  simp only [keys, erase, List.filter_map]
  rfl

theorem find?_eq_none {map : SortedMap κ ν before} {key : κ} : map.find? key = none ↔ key ∉ map.keys := by
  simp only [find?, Option.map_eq_none_iff, List.find?_eq_none, keys, List.mem_map, not_exists, not_and,
    decide_eq_true_eq]

theorem find?_of_mem [Std.Irrefl before] {map : SortedMap κ ν before} {entry : κ × ν} (inside : entry ∈ map.entries) :
    map.find? entry.1 = some entry.2 := by
  obtain ⟨entries, sorted⟩ := map
  simp only [find?]
  change entry ∈ entries at inside
  induction entries with
  | nil => cases inside
  | cons first rest ih =>
    rw [List.pairwise_cons] at sorted
    rcases List.mem_cons.mp inside with same | later
    · subst same
      rw [List.find?_cons_of_pos (by simp)]
      rfl
    · have different : first.1 ≠ entry.1 := by
        intro same
        have below := sorted.1 entry later
        rw [same] at below
        exact irrefl_of before entry.1 below
      rw [List.find?_cons_of_neg (by simp [different])]
      exact ih sorted.2 later

theorem find?_modify (map : SortedMap κ ν before) (key other : κ) (change : ν → ν) :
    (map.modify key change).find? other =
      if other = key then (map.find? key).map change else map.find? other := by
  obtain ⟨entries, sorted⟩ := map
  simp only [find?, modify]
  clear sorted
  induction entries with
  | nil => simp
  | cons entry rest ih =>
    simp only [List.map_cons, List.find?_cons]
    by_cases here : entry.1 = key
    · by_cases asked : key = other
      · subst asked
        simp [here]
      · have different : other ≠ key := fun same => asked same.symm
        simpa [here, asked, different] using ih
    · by_cases asked : entry.1 = other
      · have different : other ≠ key := fun same => here (asked.trans same)
        simp [asked, different]
      · simpa [here, asked] using ih

theorem find?_erase (map : SortedMap κ ν before) (key other : κ) :
    (map.erase key).find? other = if other = key then none else map.find? other := by
  obtain ⟨entries, sorted⟩ := map
  simp only [find?, erase]
  clear sorted
  induction entries with
  | nil => simp
  | cons entry rest ih =>
    by_cases here : entry.1 = key
    · by_cases asked : other = key
      · simp [asked]
      · have missed : key ≠ other := fun same => asked same.symm
        simpa [here, asked, missed] using ih
    · by_cases asked : entry.1 = other
      · have different : other ≠ key := fun same => here (asked.trans same)
        simp [asked, different]
      · simpa [here, asked] using ih

section MapValues
variable {μ : Type} (map : SortedMap κ ν before) (f : ν → μ)

omit [DecidableEq κ] in
def mapValues : SortedMap κ μ before where
  entries := map.entries.map (fun entry => (entry.1, f entry.2))
  sorted := List.pairwise_map.mpr map.sorted

omit [DecidableEq κ] in
@[simp] theorem keys_mapValues : (map.mapValues f).keys = map.keys := by
  simp [keys, mapValues]

omit [DecidableEq κ] in
@[simp] theorem mapValues_id : map.mapValues id = map := by
  ext1
  simp [mapValues]

@[simp] theorem find?_mapValues (key : κ) : (map.mapValues f).find? key = (map.find? key).map f := by
  simp only [find?, mapValues, List.find?_map, Option.map_map]
  rfl

theorem mapValues_modify (key : κ) (change : ν → ν) (change' : μ → μ)
    (alike : ∀ value, change' (f value) = f (change value)) :
    (map.modify key change).mapValues f = (map.mapValues f).modify key change' := by
  ext1
  simp only [mapValues, modify, List.map_map]
  apply List.map_congr_left
  intro entry _
  simp only [Function.comp_apply]
  split <;> simp [alike]

theorem mapValues_erase (key : κ) : (map.erase key).mapValues f = (map.mapValues f).erase key := by
  ext1
  simp only [mapValues, erase, List.filter_map]
  rfl

end MapValues

variable [DecidableRel before]

def upsertEntries (before : κ → κ → Prop) [DecidableRel before] (key : κ) (initial : ν)
    (change : ν → ν) : List (κ × ν) → List (κ × ν)
  | [] => [(key, change initial)]
  | entry :: rest =>
      if entry.1 = key then (entry.1, change entry.2) :: rest
      else if before key entry.1 then (key, change initial) :: entry :: rest
      else entry :: upsertEntries before key initial change rest

theorem upsertEntries_keys (key : κ) (initial : ν) (change : ν → ν) (entries : List (κ × ν)) :
    (upsertEntries before key initial change entries).map Prod.fst =
      insertKey before key (entries.map Prod.fst) := by
  induction entries with
  | nil => rfl
  | cons entry rest ih =>
    simp only [upsertEntries, List.map_cons, insertKey]
    split
    · rfl
    · split
      · rfl
      · simp only [List.map_cons, ih]

theorem mem_insertKey (key other : κ) (keys : List κ) :
    other ∈ insertKey before key keys ↔ other = key ∨ other ∈ keys := by
  induction keys with
  | nil => simp [insertKey]
  | cons first rest ih =>
    simp only [insertKey]
    split
    next same =>
      subst same
      simp
    next different =>
      split
      · simp
      · simp only [List.mem_cons, ih]
        tauto

variable [IsStrictTotalOrder κ before]

theorem insertKey_sorted (key : κ) (keys : List κ) (sorted : keys.Pairwise before) :
    (insertKey before key keys).Pairwise before := by
  induction keys with
  | nil => simp [insertKey]
  | cons first rest ih =>
    obtain ⟨ahead, later⟩ := List.pairwise_cons.mp sorted
    simp only [insertKey]
    split
    · exact sorted
    next different =>
      split
      next earlier =>
        refine List.pairwise_cons.mpr ⟨?_, sorted⟩
        intro other member
        rcases List.mem_cons.mp member with rfl | member
        · exact earlier
        · exact IsTrans.trans _ _ _ earlier (ahead other member)
      next notEarlier =>
        refine List.pairwise_cons.mpr ⟨?_, ih later⟩
        intro other member
        rcases (mem_insertKey key other rest).mp member with rfl | member
        · rcases trichotomous_of before first other with below | same | above
          · exact below
          · exact absurd same different
          · exact absurd above notEarlier
        · exact ahead other member

/-- Subscripting with insertion: a missing key first gets `initial`, then the value is changed. -/
def upsert (map : SortedMap κ ν before) (key : κ) (initial : ν) (change : ν → ν) :
    SortedMap κ ν before where
  entries := upsertEntries before key initial change map.entries
  sorted := by
    have keysSorted := insertKey_sorted key (map.entries.map Prod.fst) (List.pairwise_map.mpr map.sorted)
    rw [← upsertEntries_keys key initial change] at keysSorted
    exact List.pairwise_map.mp keysSorted

@[simp] theorem keys_upsert (map : SortedMap κ ν before) (key : κ) (initial : ν) (change : ν → ν) :
    (map.upsert key initial change).keys = insertKey before key map.keys :=
  upsertEntries_keys key initial change map.entries

theorem mapValues_upsert {μ : Type} (map : SortedMap κ ν before) (f : ν → μ) (key : κ) {initial : ν} {initial' : μ}
    (change : ν → ν) (change' : μ → μ) (start : initial' = f initial)
    (alike : ∀ value, change' (f value) = f (change value)) :
    (map.upsert key initial change).mapValues f = (map.mapValues f).upsert key initial' change' := by
  ext1
  obtain ⟨entries, sorted⟩ := map
  simp only [mapValues, upsert]
  clear sorted
  induction entries with
  | nil => simp [upsertEntries, start, alike]
  | cons entry rest ih =>
    simp only [upsertEntries, List.map_cons]
    split
    · simp [alike]
    · split
      · simp [start, alike]
      · simp only [List.map_cons, ih]

theorem find?_upsert (map : SortedMap κ ν before) (key other : κ) (initial : ν) (change : ν → ν) :
    (map.upsert key initial change).find? other =
      if other = key then some (change ((map.find? key).getD initial)) else map.find? other := by
  obtain ⟨entries, sorted⟩ := map
  simp only [find?, upsert]
  induction entries with
  | nil =>
    by_cases asked : other = key
    · simp [upsertEntries, asked]
    · have missed : key ≠ other := fun same => asked same.symm
      simp [upsertEntries, asked, missed]
  | cons entry rest ih =>
    obtain ⟨ahead, later⟩ := List.pairwise_cons.mp sorted
    simp only [upsertEntries]
    split
    next here =>
      by_cases asked : other = key
      · simp [here, asked]
      · have missed : key ≠ other := fun same => asked same.symm
        simp [here, asked, missed]
    next here =>
      split
      next earlier =>
        -- the key stands ahead of every entry, so it was not in the map
        have absent : rest.find? (fun entry => decide (entry.1 = key)) = none := by
          rw [List.find?_eq_none]
          intro entry' member same
          have below := IsTrans.trans _ _ _ earlier (ahead entry' member)
          rw [decide_eq_true_eq.mp same] at below
          exact irrefl_of before key below
        by_cases asked : other = key
        · simp [asked, here, absent]
        · have missed : key ≠ other := fun same => asked same.symm
          simp [asked, missed]
      next =>
        by_cases asked : entry.1 = other
        · have different : other ≠ key := fun same => here (asked.trans same)
          simp [asked, different]
        · simpa [asked, here] using ih later

end SortedMap

end ChronoBook.Library
