import Mathlib.Data.List.Basic
import Mathlib.Data.List.Induction
import Mathlib.Data.List.Nodup

/-! Lists threaded through memory. The addresses of a list are related to the
link fields that hold it by position alone, so that a link update is answered by
comparing one address with the two ends of a split. -/

namespace ChronoBook.Library.Linked

variable {α : Type}

/-- In a list that has grown at its end an entry is the new one, or it was met before. -/
theorem split_concat {items earlier later : List α} {last item : α}
    (split : items ++ [last] = earlier ++ item :: later) :
    (items = earlier ∧ last = item ∧ later = []) ∨ ∃ rest, later = rest ++ [last] ∧ items = earlier ++ item :: rest := by
  cases later using List.reverseRecOn with
  | nil =>
    obtain ⟨same, last⟩ : items = earlier ∧ last = item := by simpa using split
    exact Or.inl ⟨same, last, rfl⟩
  | append_singleton rest final =>
    have split' : items ++ [last] = (earlier ++ item :: rest) ++ [final] := by simpa using split
    obtain ⟨inside, same⟩ : items = earlier ++ item :: rest ∧ last = final := by
      simpa using List.append_inj' split' rfl
    exact Or.inr ⟨rest, by rw [same], inside⟩

/-- Following `next` from `start` visits exactly `items` and then stops. -/
def Chained (next : α → Option α) : Option α → List α → Prop
  | start, [] => start = none
  | start, item :: rest => start = some item ∧ Chained next (next item) rest

/-- The addresses met by following `next` for at most `fuel` steps. -/
def walk (next : α → Option α) : Nat → Option α → List α
  | 0, _ => []
  | _ + 1, none => []
  | fuel + 1, some item => item :: walk next fuel (next item)

theorem Chained.walk_eq {next : α → Option α} {start : Option α} {items : List α} {fuel : Nat}
    (chain : Chained next start items) (enough : items.length ≤ fuel) :
    walk next fuel start = items := by
  induction items generalizing start fuel with
  | nil =>
    cases chain
    cases fuel <;> rfl
  | cons item rest ih =>
    obtain ⟨rfl, later⟩ := chain
    cases fuel with
    | zero => simp at enough
    | succ fuel =>
      have shorter : rest.length ≤ fuel := by simpa using enough
      rw [walk, ih later shorter]

theorem Chained.congr {next next' : α → Option α} {start : Option α} {items : List α}
    (chain : Chained next start items) (same : ∀ item ∈ items, next' item = next item) :
    Chained next' start items := by
  induction items generalizing start with
  | nil => exact chain
  | cons item rest ih =>
    refine ⟨chain.1, ?_⟩
    rw [same item List.mem_cons_self]
    exact ih chain.2 (fun other member => same other (List.mem_cons_of_mem _ member))

theorem Chained.start_eq {next : α → Option α} {start : Option α} {items : List α}
    (chain : Chained next start items) : start = items.head? := by
  cases items with
  | nil => exact chain
  | cons item rest => exact chain.1

theorem Chained.unique {next : α → Option α} {start : Option α} {items others : List α}
    (chain : Chained next start items) (other : Chained next start others) : items = others := by
  induction items generalizing start others with
  | nil =>
    cases others with
    | nil => rfl
    | cons item rest => cases chain.symm.trans other.1
  | cons item rest ih =>
    cases others with
    | nil => cases chain.1.symm.trans other
    | cons item' rest' =>
      have same : item = item' := Option.some.inj (chain.1.symm.trans other.1)
      subst same
      rw [ih chain.2 other.2]

/-- A doubly linked list: the two link fields of every element hold its neighbours. -/
structure Threaded (next prev : α → Option α) (head tail : Option α) (items : List α) : Prop where
  nodup : items.Nodup
  head_eq : head = items.head?
  tail_eq : tail = items.getLast?
  links : ∀ before item after, items = before ++ item :: after →
    next item = after.head? ∧ prev item = before.getLast?

namespace Threaded

variable {next prev next' prev' : α → Option α} {head tail : Option α} {items : List α}

theorem nil : Threaded next prev none none [] where
  nodup := List.nodup_nil
  head_eq := rfl
  tail_eq := rfl
  links := by simp

theorem congr (thread : Threaded next prev head tail items)
    (same : ∀ item ∈ items, next' item = next item ∧ prev' item = prev item) :
    Threaded next' prev' head tail items where
  nodup := thread.nodup
  head_eq := thread.head_eq
  tail_eq := thread.tail_eq
  links := by
    intro before item after split
    have member : item ∈ items := by simp [split]
    rw [(same item member).1, (same item member).2]
    exact thread.links before item after split

private theorem chained_suffix (thread : Threaded next prev head tail items) (before after : List α)
    (split : items = before ++ after) : Chained next after.head? after := by
  induction after generalizing before with
  | nil => rfl
  | cons item rest ih =>
    refine ⟨rfl, ?_⟩
    rw [(thread.links before item rest split).1]
    exact ih (before ++ [item]) (by simpa using split)

/-- Following `next` from the head visits the list in order. -/
theorem forward (thread : Threaded next prev head tail items) : Chained next head items := by
  rw [thread.head_eq]
  exact thread.chained_suffix [] items rfl

private theorem chained_prefix (thread : Threaded next prev head tail items) (before after : List α)
    (split : items = before ++ after) : Chained prev before.getLast? before.reverse := by
  induction before using List.reverseRecOn generalizing after with
  | nil => rfl
  | append_singleton before item ih =>
    have here : items = before ++ item :: after := by simpa using split
    rw [List.getLast?_concat, List.reverse_concat]
    refine ⟨rfl, ?_⟩
    rw [(thread.links before item after here).2]
    exact ih (item :: after) here

/-- Following `prev` from the tail visits the list from its end. -/
theorem backward (thread : Threaded next prev head tail items) : Chained prev tail items.reverse := by
  rw [thread.tail_eq]
  exact thread.chained_prefix items [] (List.append_nil items).symm

theorem next_mem (thread : Threaded next prev head tail items) {item other : α}
    (member : item ∈ items) (link : next item = some other) : other ∈ items := by
  obtain ⟨before, after, split⟩ := List.append_of_mem member
  rw [(thread.links before item after split).1] at link
  have later := List.mem_of_mem_head? link
  simp [split, later]

theorem prev_mem (thread : Threaded next prev head tail items) {item other : α}
    (member : item ∈ items) (link : prev item = some other) : other ∈ items := by
  obtain ⟨before, after, split⟩ := List.append_of_mem member
  rw [(thread.links before item after split).2] at link
  have earlier := List.mem_of_mem_getLast? link
  simp [split, earlier]

/-- Linking a fresh element behind the tail. Only the old tail and the element itself are written. -/
theorem append (thread : Threaded next prev head tail items) {item : α} (fresh : item ∉ items)
    (itemNext : next' item = none) (itemPrev : prev' item = tail)
    (tailNext : ∀ last, tail = some last → next' last = some item)
    (otherNext : ∀ other ∈ items, tail ≠ some other → next' other = next other)
    (otherPrev : ∀ other ∈ items, prev' other = prev other) :
    Threaded next' prev' (if tail = none then some item else head) (some item) (items ++ [item]) where
  nodup := by
    rw [List.nodup_append]
    refine ⟨thread.nodup, List.nodup_singleton item, ?_⟩
    intro other member last single same
    rw [List.mem_singleton] at single
    exact fresh (single ▸ same ▸ member)
  head_eq := by
    rw [thread.tail_eq, thread.head_eq]
    cases items <;> simp
  tail_eq := by simp
  links := by
    intro before other after split
    cases after using List.reverseRecOn with
    | nil =>
      obtain ⟨rfl, rfl⟩ : items = before ∧ item = other := by simpa using split
      exact ⟨itemNext, itemPrev.trans thread.tail_eq⟩
    | append_singleton after last =>
      obtain ⟨inside, rfl⟩ : items = before ++ other :: after ∧ item = last := by
        have split' : items ++ [item] = (before ++ other :: after) ++ [last] := by simpa using split
        simpa using List.append_inj' split' rfl
      have member : other ∈ items := by simp [inside]
      have old := thread.links before other after inside
      refine ⟨?_, (otherPrev other member).trans old.2⟩
      cases after with
      | nil => exact tailNext other (by simp [thread.tail_eq, inside])
      | cons second after =>
        -- `other` is not the last element, and the elements are distinct
        have notTail : tail ≠ some other := by
          intro isTail
          have distinct := thread.nodup
          rw [inside, List.nodup_append] at distinct
          have last : other ∈ second :: after := by
            apply List.mem_of_mem_getLast?
            rw [thread.tail_eq, inside, List.getLast?_append, List.getLast?_cons_cons] at isTail
            simpa [List.getLast?_eq_some_getLast] using isTail
          exact (List.nodup_cons.mp distinct.2.1).1 last
        rw [otherNext other member notTail, old.1]
        rfl

/-- Unlinking one element. Only its two neighbours are written, each taking over one of its links. -/
theorem remove {before after : List α} {item : α}
    (thread : Threaded next prev head tail (before ++ item :: after))
    (nextOf : ∀ other ∈ before ++ after, (prev item = some other → next' other = next item) ∧
      (prev item ≠ some other → next' other = next other))
    (prevOf : ∀ other ∈ before ++ after, (next item = some other → prev' other = prev item) ∧
      (next item ≠ some other → prev' other = prev other)) :
    Threaded next' prev' (if prev item = none then next item else head)
      (if next item = none then prev item else tail) (before ++ after) := by
  obtain ⟨itemNext, itemPrev⟩ := thread.links before item after rfl
  have distinct := thread.nodup
  rw [List.nodup_append, List.nodup_cons] at distinct
  obtain ⟨beforeDistinct, ⟨_, afterDistinct⟩, apart⟩ := distinct
  refine ⟨?_, ?_, ?_, ?_⟩
  · rw [List.nodup_append]
    exact ⟨beforeDistinct, afterDistinct,
      fun other early last late => apart other early last (List.mem_cons_of_mem _ late)⟩
  · rw [itemPrev, itemNext, thread.head_eq]
    cases before <;> simp
  · rw [itemPrev, itemNext, thread.tail_eq]
    cases after with
    | nil => simp
    | cons second after => simp [List.getLast?_append, List.getLast?_cons_cons]
  · intro left other right split
    have member : other ∈ before ++ after := by simp [split]
    have nextOther := nextOf other member
    have prevOther := prevOf other member
    rw [itemNext, itemPrev] at nextOther prevOther
    rcases List.append_eq_append_iff.mp split with ⟨gap, rfl, rest⟩ | ⟨gap, rfl, rest⟩
    · -- `other` stands behind the removed element
      subst rest
      have old := thread.links (before ++ item :: gap) other right (by simp)
      have notLast : before.getLast? ≠ some other := by
        intro last
        exact apart other (List.mem_of_mem_getLast? last) other (by simp) rfl
      rw [nextOther.2 notLast]
      refine ⟨old.1, ?_⟩
      cases gap with
      | nil => simpa using prevOther.1 rfl
      | cons first gap =>
        have notFirst : first ≠ other := by
          rintro rfl
          simp at afterDistinct
        rw [prevOther.2 (by simpa using notFirst), old.2]
        simp [List.getLast?_append, List.getLast?_cons_cons]
    · cases gap with
      | nil =>
        simp only [List.nil_append] at rest
        subst rest
        have old := thread.links (left ++ [item]) other right (by simp)
        have notLast : left.getLast? ≠ some other := by
          intro last
          exact apart other (by simpa using List.mem_of_mem_getLast? last) other (by simp) rfl
        simp only [List.append_nil] at nextOther prevOther
        exact ⟨(nextOther.2 notLast).trans old.1, prevOther.1 rfl⟩
      | cons first gap =>
        -- `other` stands ahead of the removed element
        obtain ⟨rfl, rfl⟩ : other = first ∧ right = gap ++ after := by simpa using rest
        have old := thread.links left other (gap ++ item :: after) (by simp)
        have notHead : after.head? ≠ some other := by
          intro second
          exact apart other (by simp) other (List.mem_cons_of_mem _ (List.mem_of_mem_head? second)) rfl
        rw [prevOther.2 notHead]
        refine ⟨?_, old.2⟩
        cases gap with
        | nil => simpa using nextOther.1 (by simp)
        | cons second gap =>
          have notLast : (left ++ other :: second :: gap).getLast? ≠ some other := by
            intro last
            rw [List.getLast?_append, List.getLast?_cons_cons] at last
            have inside : other ∈ second :: gap := by
              apply List.mem_of_mem_getLast?
              simpa [List.getLast?_eq_some_getLast] using last
            rw [List.nodup_append] at beforeDistinct
            exact (List.nodup_cons.mp beforeDistinct.2.1).1 inside
          rw [nextOther.2 notLast, old.1]
          simp

end Threaded

end ChronoBook.Library.Linked
