import ChronoBook.Library.SortedMap
import Mathlib.Data.List.Induction
import Mathlib.Data.List.Sort

/-! Priority lists: elements stand in key order, and elements of one key stand in
the order they arrived. Joining behind one's equals, grouping by key and stable
sorting are three views of the same list. -/

namespace ChronoBook.Library.Priority

variable {α β κ : Type} (before : κ → κ → Prop) [DecidableRel before] (key : α → κ)

/-- Join behind every element that has the same key or an earlier one. -/
def enqueue (item : α) : List α → List α
  | [] => [item]
  | first :: rest =>
      if before (key item) (key first) then item :: first :: rest else first :: enqueue item rest

def Ordered (items : List α) : Prop := items.Pairwise (fun first second => ¬before (key second) (key first))

/-- Let the elements of a list arrive one after the other. -/
def arrange (items : List α) : List α :=
  items.foldl (fun queue item => enqueue before key item queue) []

variable {before key}

theorem enqueue_perm (item : α) (items : List α) : (enqueue before key item items).Perm (item :: items) := by
  induction items with
  | nil => exact List.Perm.refl _
  | cons first rest ih =>
    simp only [enqueue]
    split
    · exact List.Perm.refl _
    · exact (ih.cons first).trans (List.Perm.swap item first rest)

@[simp] theorem mem_enqueue {item other : α} {items : List α} :
    other ∈ enqueue before key item items ↔ other = item ∨ other ∈ items := by
  rw [(enqueue_perm item items).mem_iff, List.mem_cons]

theorem enqueue_behind {item : α} {front : List α} (back : List α)
    (notAhead : ∀ other ∈ front, ¬before (key item) (key other)) :
    enqueue before key item (front ++ back) = front ++ enqueue before key item back := by
  induction front with
  | nil => rfl
  | cons first rest ih =>
    rw [List.cons_append, enqueue, if_neg (notAhead first List.mem_cons_self),
      ih (fun other member => notAhead other (List.mem_cons_of_mem _ member)), List.cons_append]

/-- A change of the elements that keeps the order of their keys changes nothing else. -/
theorem enqueue_map {γ μ : Type} {before' : μ → μ → Prop} [DecidableRel before'] {key' : γ → μ} (change : α → γ) (item : α)
    (items : List α)
    (kept : ∀ other ∈ items, (before' (key' (change item)) (key' (change other)) ↔ before (key item) (key other))) :
    enqueue before' key' (change item) (items.map change) = (enqueue before key item items).map change := by
  induction items with
  | nil => rfl
  | cons first rest ih =>
    have ⟨here, later⟩ := List.forall_mem_cons.mp kept
    rw [List.map_cons, enqueue, enqueue, ih later]
    by_cases ahead : before (key item) (key first)
    · rw [if_pos ahead, if_pos (here.mpr ahead)]
      rfl
    · rw [if_neg ahead, if_neg (fun other => ahead (here.mp other))]
      rfl

theorem enqueue_ahead {item : α} {items : List α} (allAhead : ∀ other ∈ items, before (key item) (key other)) :
    enqueue before key item items = item :: items := by
  cases items with
  | nil => rfl
  | cons first rest => rw [enqueue, if_pos (allAhead first List.mem_cons_self)]

theorem head?_enqueue (item : α) (items : List α) :
    (enqueue before key item items).head? =
      match items.head? with
      | none => some item
      | some first => if before (key item) (key first) then some item else some first := by
  cases items with
  | nil => rfl
  | cons first rest =>
    simp only [enqueue, List.head?_cons]
    split <;> rfl

theorem map_enqueue {key' : β → κ} (f : α → β) (sameKey : ∀ item, key' (f item) = key item)
    (item : α) (items : List α) :
    (enqueue before key item items).map f = enqueue before key' (f item) (items.map f) := by
  induction items with
  | nil => rfl
  | cons first rest ih =>
    simp only [enqueue, List.map_cons, sameKey]
    split
    · rfl
    · rw [List.map_cons, ih]

theorem arrange_append (items : List α) (item : α) :
    arrange before key (items ++ [item]) = enqueue before key item (arrange before key items) := by
  simp [arrange]

theorem map_arrange {key' : β → κ} (f : α → β) (sameKey : ∀ item, key' (f item) = key item)
    (items : List α) :
    (arrange before key items).map f = arrange before key' (items.map f) := by
  induction items using List.reverseRecOn with
  | nil => rfl
  | append_singleton rest item ih =>
    rw [arrange_append, map_enqueue f sameKey, ih, List.map_append, List.map_singleton, arrange_append]

theorem arrange_perm (items : List α) : (arrange before key items).Perm items := by
  induction items using List.reverseRecOn with
  | nil => exact List.Perm.refl _
  | append_singleton rest item ih =>
    rw [arrange_append]
    exact ((enqueue_perm item _).trans (ih.cons item)).trans (List.perm_append_singleton item rest).symm

theorem mem_arrange {item : α} {items : List α} : item ∈ arrange before key items ↔ item ∈ items :=
  (arrange_perm items).mem_iff

theorem arrange_eq_self {items : List α} (ordered : Ordered before key items) : arrange before key items = items := by
  induction items using List.reverseRecOn with
  | nil => rfl
  | append_singleton rest item ih =>
    unfold Ordered at ordered
    rw [List.pairwise_append] at ordered
    have last : enqueue before key item (rest ++ []) = rest ++ enqueue before key item [] :=
      enqueue_behind [] (fun other inside => ordered.2.2 other inside item List.mem_cons_self)
    rw [List.append_nil] at last
    rw [arrange_append, ih ordered.1]
    exact last

variable [IsStrictTotalOrder κ before]

theorem enqueue_ordered {items : List α} (ordered : Ordered before key items) (item : α) :
    Ordered before key (enqueue before key item items) := by
  induction items with
  | nil => simp [enqueue, Ordered]
  | cons first rest ih =>
    obtain ⟨ahead, later⟩ := List.pairwise_cons.mp ordered
    simp only [enqueue]
    split
    next earlier =>
      refine List.pairwise_cons.mpr ⟨?_, ordered⟩
      intro other member wrong
      rcases List.mem_cons.mp member with rfl | member
      · exact asymm_of before earlier wrong
      · exact ahead other member (IsTrans.trans _ _ _ wrong earlier)
    next notEarlier =>
      refine List.pairwise_cons.mpr ⟨?_, ih later⟩
      intro other member
      rcases mem_enqueue.mp member with rfl | member
      · exact notEarlier
      · exact ahead other member

theorem arrange_ordered (items : List α) : Ordered before key (arrange before key items) := by
  induction items using List.reverseRecOn with
  | nil => exact List.Pairwise.nil
  | append_singleton rest item ih =>
    rw [arrange_append]
    exact enqueue_ordered ih item

omit [DecidableRel before] in
theorem not_before_of_before {first second third : κ} (behind : ¬before second first)
    (earlier : before third first) : before third second := by
  rcases trichotomous_of before first second with below | rfl | above
  · exact IsTrans.trans _ _ _ earlier below
  · exact earlier
  · exact absurd above behind

/-- Joining goes between those it is not ahead of and those it is ahead of. -/
theorem enqueue_split {items : List α} (ordered : Ordered before key items) (item : α) :
    ∃ front back, items = front ++ back ∧ enqueue before key item items = front ++ item :: back ∧
      (∀ other ∈ front, ¬before (key item) (key other)) ∧ ∀ other ∈ back, before (key item) (key other) := by
  induction items with
  | nil => exact ⟨[], [], by simp [enqueue]⟩
  | cons first rest ih =>
    unfold Ordered at ordered
    rw [List.pairwise_cons] at ordered
    rw [enqueue]
    by_cases ahead : before (key item) (key first)
    · refine ⟨[], first :: rest, rfl, if_pos ahead, by simp, ?_⟩
      intro other inside
      rcases List.mem_cons.mp inside with same | later
      · rw [same]
        exact ahead
      · exact not_before_of_before (ordered.1 other later) ahead
    · obtain ⟨front, back, split, joined, notAhead, allAhead⟩ := ih ordered.2
      refine ⟨first :: front, back, ?_, ?_, ?_, allAhead⟩
      · rw [split, List.cons_append]
      · rw [if_neg ahead, joined, List.cons_append]
      · intro other inside
        rcases List.mem_cons.mp inside with same | later
        · rw [same]
          exact ahead
        · exact notAhead other later

/-- An element more in the list does not change where the others stand when one joins. -/
theorem enqueue_past {front back : List α} {extra : α} (ordered : Ordered before key (front ++ extra :: back))
    (item : α) :
    ∃ front' back', enqueue before key item (front ++ back) = front' ++ back' ∧
      enqueue before key item (front ++ extra :: back) = front' ++ extra :: back' ∧ ∀ other ∈ front, other ∈ front' := by
  unfold Ordered at ordered
  induction front with
  | nil =>
    rw [List.nil_append, List.pairwise_cons] at ordered
    rw [List.nil_append, List.nil_append, enqueue]
    by_cases ahead : before (key item) (key extra)
    · refine ⟨[item], back, ?_, if_pos ahead, fun other inside => absurd inside List.not_mem_nil⟩
      exact enqueue_ahead (fun other inside => not_before_of_before (ordered.1 other inside) ahead)
    · exact ⟨[], _, rfl, if_neg ahead, fun other inside => absurd inside List.not_mem_nil⟩
  | cons first rest ih =>
    rw [List.cons_append, List.pairwise_cons] at ordered
    rw [List.cons_append, List.cons_append, enqueue, enqueue]
    by_cases ahead : before (key item) (key first)
    · refine ⟨item :: first :: rest, back, if_pos ahead, if_pos ahead, ?_⟩
      exact fun other inside => List.mem_cons_of_mem _ inside
    · obtain ⟨front', back', plain, crowded, member⟩ := ih ordered.2
      refine ⟨first :: front', back', ?_, ?_, ?_⟩
      · rw [if_neg ahead, plain, List.cons_append]
      · rw [if_neg ahead, crowded, List.cons_append]
      · intro other inside
        rcases List.mem_cons.mp inside with same | later
        · exact same ▸ List.mem_cons_self
        · exact List.mem_cons_of_mem _ (member other later)

/-- Leaving a priority list does not disturb the others: selection commutes with joining. -/
theorem filter_enqueue {items : List α} (ordered : Ordered before key items) (keep : α → Bool) (item : α) :
    (enqueue before key item items).filter keep =
      if keep item then enqueue before key item (items.filter keep) else items.filter keep := by
  induction items with
  | nil =>
    simp only [enqueue, List.filter_cons, List.filter_nil]
  | cons first rest ih =>
    obtain ⟨ahead, later⟩ := List.pairwise_cons.mp ordered
    simp only [enqueue]
    split
    next earlier =>
      -- everything kept behind `first` is behind the new element as well
      have allAhead : ∀ other ∈ (first :: rest).filter keep, before (key item) (key other) := by
        intro other member
        rcases List.mem_cons.mp (List.mem_of_mem_filter member) with rfl | member
        · exact earlier
        · exact not_before_of_before (ahead other member) earlier
      rw [enqueue_ahead allAhead, List.filter_cons]
    next notEarlier =>
      simp only [List.filter_cons, ih later]
      by_cases keepItem : keep item <;> by_cases keepFirst : keep first <;>
        simp [keepItem, keepFirst, enqueue, notEarlier]

theorem filter_arrange (keep : α → Bool) (items : List α) :
    (arrange before key items).filter keep = arrange before key (items.filter keep) := by
  induction items using List.reverseRecOn with
  | nil => rfl
  | append_singleton rest item ih =>
    rw [arrange_append, filter_enqueue (arrange_ordered rest), ih, List.filter_append]
    by_cases keepItem : keep item
    · simp [keepItem, arrange_append]
    · simp [keepItem]

variable (key) in
/-- Grouped by key, joining appends to one group and may open it. -/
theorem flatMap_insertKey [DecidableEq κ] {keys : List κ} {queue queue' : κ → List α} {item : α}
    (sorted : keys.Pairwise before) (keyed : ∀ group ∈ keys, ∀ member ∈ queue group, key member = group)
    (absent : key item ∉ keys → queue (key item) = [])
    (joined : queue' (key item) = queue (key item) ++ [item])
    (others : ∀ group, group ≠ key item → queue' group = queue group) :
    (insertKey before (key item) keys).flatMap queue' = enqueue before key item (keys.flatMap queue) := by
  induction keys with
  | nil => simp [insertKey, joined, absent, enqueue]
  | cons group rest ih =>
    obtain ⟨ahead, later⟩ := List.pairwise_cons.mp sorted
    have restKeyed : ∀ group ∈ rest, ∀ member ∈ queue group, key member = group :=
      fun other member => keyed other (List.mem_cons_of_mem _ member)
    have behind : ∀ other ∈ rest.flatMap queue, before group (key other) := by
      intro other member
      obtain ⟨place, inside, within⟩ := List.mem_flatMap.mp member
      rw [restKeyed place inside other within]
      exact ahead place inside
    simp only [insertKey]
    split
    next same =>
      have rest_eq : rest.flatMap queue' = rest.flatMap queue := by
        apply List.flatMap_congr
        intro other member
        apply others
        rintro rfl
        exact irrefl_of before group (same ▸ ahead _ member)
      rw [List.flatMap_cons, List.flatMap_cons, same, joined, rest_eq, enqueue_behind, enqueue_ahead]
      · simp
      · intro other member
        rw [← same]
        exact behind other member
      · intro other member
        rw [keyed group List.mem_cons_self other (same ▸ member), same]
        exact irrefl_of before _
    next different =>
      split
      next earlier =>
        have fresh : key item ∉ group :: rest := by
          intro member
          rcases List.mem_cons.mp member with same | member
          · exact different same.symm
          · exact asymm_of before earlier (ahead _ member)
        have same_rest : (group :: rest).flatMap queue' = (group :: rest).flatMap queue := by
          apply List.flatMap_congr
          intro other member
          exact others other (fun same => fresh (same ▸ member))
        rw [List.flatMap_cons, joined, absent fresh, same_rest, enqueue_ahead]
        · rfl
        · intro other member
          rw [List.flatMap_cons, List.mem_append] at member
          rcases member with member | member
          · rw [keyed group List.mem_cons_self other member]
            exact earlier
          · exact IsTrans.trans _ _ _ earlier (behind other member)
      next notEarlier =>
        have absentRest : key item ∉ rest → queue (key item) = [] := by
          intro missing
          apply absent
          rw [List.mem_cons, not_or]
          exact ⟨fun same => different same.symm, missing⟩
        rw [List.flatMap_cons, List.flatMap_cons, others group different, ih later restKeyed absentRest,
          enqueue_behind]
        intro other member
        rw [keyed group List.mem_cons_self other member]
        exact notEarlier

omit [DecidableRel before] [IsStrictTotalOrder κ before] in
/-- Closing an empty group does not change the list. -/
theorem flatMap_filter_ne [DecidableEq κ] {queue : κ → List α} {group : κ} (closed : queue group = [])
    (keys : List κ) : (keys.filter (fun other => other ≠ group)).flatMap queue = keys.flatMap queue := by
  induction keys with
  | nil => rfl
  | cons other rest ih =>
    rw [List.filter_cons, List.flatMap_cons]
    by_cases same : other = group
    · rw [if_neg (by simpa using same), ih, same, closed, List.nil_append]
    · rw [if_pos (by simpa using same), List.flatMap_cons, ih]

end ChronoBook.Library.Priority
