import ChronoBook.Core.Order
import ChronoBook.Library.Linked
import Mathlib.Data.List.Perm.Basic
import Mathlib.Data.List.Range

/-! The slab pool. The free list has no storage of its own: the first word of a
free slot holds the address of the next one, so the same bytes belong to the
free list or to a client, never to both. -/

namespace ChronoBook
open Library.Linked

/-- The first word of a slot's storage, where the pool keeps its link. -/
class FirstWord (T : Type) where
  word : T → Option Slot
  setWord : T → Option Slot → T
  word_setWord : ∀ object link, word (setWord object link) = link

instance : FirstWord Order where
  word order := order.next
  setWord order link := { order with next := link }
  word_setWord _ _ := rfl

/-- One call on the pool, with the object as it was when it was given back. -/
inductive PoolCall (T : Type) where
  | allocate (slot : Slot)
  | deallocate (slot : Slot) (object : T)

/-- `calls` is a ghost record that no operation reads. -/
structure SlabPool (T : Type) where
  slab : Slot → T
  freeHead : Option Slot
  capacity : Nat
  allocated : Nat
  calls : List (PoolCall T)

abbrev OrderPool := SlabPool Order

/-- The slots handed out by a sequence of calls and not given back since. -/
def liveAfter {T : Type} (calls : List (PoolCall T)) : List Slot :=
  calls.foldl (fun live call => match call with
    | .allocate slot => slot :: live
    | .deallocate slot _ => live.erase slot) []

/-- Every slot given back was handed out at that moment. -/
def Disciplined {T : Type} (calls : List (PoolCall T)) : Prop :=
  ∀ earlier slot object later, calls = earlier ++ .deallocate slot object :: later → slot ∈ liveAfter earlier

def Exclusive {T : Type} (calls : List (PoolCall T)) : Prop :=
  ∀ earlier slot later, calls = earlier ++ .allocate slot :: later → slot ∉ liveAfter earlier

namespace SlabPool

variable {T : Type} [FirstWord T]

def pushFree (pool : SlabPool T) (slot : Slot) : SlabPool T :=
  { pool with
    slab := Function.update pool.slab slot (FirstWord.setWord (pool.slab slot) pool.freeHead)
    freeHead := some slot }

/-- The constructor over raw storage: slots are pushed from the first to the last. -/
def create (storage : Slot → T) (capacity : Nat) : SlabPool T :=
  (List.range capacity).foldl pushFree
    { slab := storage, freeHead := none, capacity := capacity, allocated := 0, calls := [] }

/-- The object is constructed in the slot at the head of the free list; null when there is none. -/
def allocate (pool : SlabPool T) (object : T) : Option (Slot × SlabPool T) :=
  match pool.freeHead with
  | none => none
  | some slot =>
      some (slot,
        { pool with
          freeHead := FirstWord.word (pool.slab slot)
          allocated := pool.allocated + 1
          slab := Function.update pool.slab slot object
          calls := pool.calls ++ [.allocate slot] })

def deallocate (pool : SlabPool T) : Option Slot → SlabPool T
  | none => pool
  | some slot =>
      { pool.pushFree slot with
        allocated := pool.allocated - 1
        calls := pool.calls ++ [.deallocate slot (pool.slab slot)] }

def allocatedCount (pool : SlabPool T) : Nat := pool.allocated

def freeCount (pool : SlabPool T) : Nat := pool.capacity - pool.allocated

/-- The free list holds `free`, clients hold `live`, and together they are the slab. -/
structure Valid (pool : SlabPool T) (free live : List Slot) : Prop where
  chain : Chained (fun slot => FirstWord.word (pool.slab slot)) pool.freeHead free
  cover : (free ++ live).Perm (List.range pool.capacity)
  count : pool.allocated = live.length
  history : (liveAfter pool.calls).Perm live
  disciplined : Disciplined pool.calls
  exclusive : Exclusive pool.calls

end SlabPool

theorem liveAfter_append {T : Type} (calls : List (PoolCall T)) (call : PoolCall T) :
    liveAfter (calls ++ [call]) =
      match call with
      | .allocate slot => slot :: liveAfter calls
      | .deallocate slot _ => (liveAfter calls).erase slot := by
  simp only [liveAfter, List.foldl_append, List.foldl_cons, List.foldl_nil]

theorem Disciplined.append {T : Type} {calls : List (PoolCall T)} (disciplined : Disciplined calls)
    (call : PoolCall T) (permitted : ∀ slot object, call = .deallocate slot object → slot ∈ liveAfter calls) :
    Disciplined (calls ++ [call]) := by
  intro earlier slot object later split
  rcases split_concat split with ⟨rfl, same, _⟩ | ⟨rest, _, inside⟩
  · exact permitted slot object same
  · exact disciplined earlier slot object rest inside

theorem Exclusive.append {T : Type} {calls : List (PoolCall T)} (exclusive : Exclusive calls)
    (call : PoolCall T) (permitted : ∀ slot, call = .allocate slot → slot ∉ liveAfter calls) :
    Exclusive (calls ++ [call]) := by
  intro earlier slot later split
  rcases split_concat split with ⟨rfl, same, _⟩ | ⟨rest, _, inside⟩
  · exact permitted slot same
  · exact exclusive earlier slot rest inside

namespace SlabPool

variable {T : Type} [FirstWord T] {pool : SlabPool T} {slot : Slot} {free : List Slot}

/-- The head of the free list is handed out, and the list goes on behind it. -/
theorem allocate_chain (chain : Chained (fun other => FirstWord.word (pool.slab other)) pool.freeHead (slot :: free))
    (fresh : slot ∉ free) (object : T) :
    ∃ pool', pool.allocate object = some (slot, pool') ∧
      Chained (fun other => FirstWord.word (pool'.slab other)) pool'.freeHead free ∧
      pool'.slab = Function.update pool.slab slot object ∧ pool'.capacity = pool.capacity ∧
      pool'.allocated = pool.allocated + 1 ∧ pool'.calls = pool.calls ++ [.allocate slot] := by
  obtain ⟨head, rest⟩ := chain
  have result : pool.allocate object = some (slot,
      { pool with
        freeHead := FirstWord.word (pool.slab slot)
        allocated := pool.allocated + 1
        slab := Function.update pool.slab slot object
        calls := pool.calls ++ [.allocate slot] }) := by
    simp only [SlabPool.allocate, head]
  refine ⟨_, result, rest.congr ?_, rfl, rfl, rfl, rfl⟩
  intro other member
  have different : other ≠ slot := fun same => fresh (same ▸ member)
  simp [Function.update_of_ne different]

theorem deallocate_chain (chain : Chained (fun other => FirstWord.word (pool.slab other)) pool.freeHead free)
    (fresh : slot ∉ free) :
    Chained (fun other => FirstWord.word ((pool.deallocate (some slot)).slab other))
      (pool.deallocate (some slot)).freeHead (slot :: free) := by
  refine ⟨rfl, ?_⟩
  simp only [SlabPool.deallocate, pushFree, Function.update_self, FirstWord.word_setWord]
  refine chain.congr ?_
  intro other member
  have different : other ≠ slot := fun same => fresh (same ▸ member)
  simp [Function.update_of_ne different]

theorem pushFree_range (count : Nat) (start : SlabPool T) (outside : count ≤ slot) :
    ((List.range count).foldl pushFree start).slab slot = start.slab slot := by
  induction count with
  | zero => rfl
  | succ count ih =>
    have different : slot ≠ count := Nat.ne_of_gt outside
    rw [List.range_succ, List.foldl_append, List.foldl_cons, List.foldl_nil, ← ih (Nat.le_of_succ_le outside)]
    exact Function.update_of_ne different _ _

end SlabPool

namespace SlabPool.Valid

variable {T : Type} [FirstWord T] {pool : SlabPool T} {free live : List Slot}

theorem nodup (valid : pool.Valid free live) : (free ++ live).Nodup :=
  valid.cover.nodup_iff.mpr List.nodup_range

theorem disjoint (valid : pool.Valid free live) {slot : Slot} (isFree : slot ∈ free) (isLive : slot ∈ live) :
    False :=
  (List.nodup_append.mp valid.nodup).2.2 slot isFree slot isLive rfl

theorem perm {live' : List Slot} (valid : pool.Valid free live) (same : live.Perm live') :
    pool.Valid free live' where
  chain := valid.chain
  cover := (same.symm.append_left free).trans valid.cover
  count := valid.count.trans same.length_eq
  history := valid.history.trans same
  disciplined := valid.disciplined
  exclusive := valid.exclusive

/-- Clients may write the slots they hold. -/
theorem write {slab : Slot → T} (valid : pool.Valid free live)
    (untouched : ∀ slot ∈ free, slab slot = pool.slab slot) :
    ({ pool with slab := slab } : SlabPool T).Valid free live where
  chain := valid.chain.congr (fun slot member => by simp only [untouched slot member])
  cover := valid.cover
  count := valid.count
  history := valid.history
  disciplined := valid.disciplined
  exclusive := valid.exclusive

theorem freeHead_eq (valid : pool.Valid free live) : pool.freeHead = free.head? := valid.chain.start_eq

theorem length_le (valid : pool.Valid free live) : live.length ≤ pool.capacity := by
  have total := valid.cover.length_eq
  rw [List.length_append, List.length_range] at total
  omega

theorem freeHead_eq_none (valid : pool.Valid free live) :
    pool.freeHead = none ↔ live.length = pool.capacity := by
  have total := valid.cover.length_eq
  rw [List.length_append, List.length_range] at total
  rw [valid.freeHead_eq, List.head?_eq_none_iff, ← List.length_eq_zero_iff]
  omega

theorem freeCount_eq (valid : pool.Valid free live) : pool.freeCount = free.length := by
  have total := valid.cover.length_eq
  rw [List.length_append, List.length_range] at total
  rw [SlabPool.freeCount, valid.count, ← total, Nat.add_sub_cancel]

theorem allocate {slot : Slot} {free : List Slot} (valid : pool.Valid (slot :: free) live) (object : T) :
    ∃ pool', pool.allocate object = some (slot, pool') ∧ pool'.Valid free (slot :: live) ∧
      pool'.slab = Function.update pool.slab slot object ∧ pool'.capacity = pool.capacity ∧
      pool'.calls = pool.calls ++ [.allocate slot] := by
  have apart : slot ∉ free ++ live := (List.nodup_cons.mp valid.nodup).1
  obtain ⟨pool', result, chain, slab, capacity, allocated, calls⟩ :=
    allocate_chain valid.chain (fun member => apart (List.mem_append_left _ member)) object
  refine ⟨pool', result, ⟨chain, ?_, ?_, ?_, ?_, ?_⟩, slab, capacity, calls⟩
  · rw [capacity]
    exact List.perm_middle.trans valid.cover
  · rw [allocated, valid.count, List.length_cons]
  · rw [calls, liveAfter_append]
    exact valid.history.cons slot
  · rw [calls]
    exact valid.disciplined.append _ (fun slot object same => by cases same)
  · rw [calls]
    refine valid.exclusive.append _ ?_
    intro other same
    cases same
    rw [valid.history.mem_iff]
    exact fun member => apart (List.mem_append_right _ member)

theorem deallocate {slot : Slot} (valid : pool.Valid free (slot :: live)) :
    (pool.deallocate (some slot)).Valid (slot :: free) live := by
  have apart : slot ∉ free := fun isFree => valid.disjoint isFree List.mem_cons_self
  have held : slot ∈ liveAfter pool.calls := valid.history.mem_iff.mpr List.mem_cons_self
  refine ⟨deallocate_chain valid.chain apart, ?_, ?_, ?_, ?_, ?_⟩
  · exact List.perm_middle.symm.trans valid.cover
  · simp [SlabPool.deallocate, valid.count]
  · simp only [SlabPool.deallocate, liveAfter_append]
    have erased := valid.history.erase slot
    rwa [List.erase_cons_head] at erased
  · refine valid.disciplined.append _ ?_
    intro other object same
    cases same
    exact held
  · exact valid.exclusive.append _ (fun other same => by cases same)

theorem deallocate_slab (pool : SlabPool T) {slot other : Slot} (different : other ≠ slot) :
    (pool.deallocate (some slot)).slab other = pool.slab other := by
  simp [SlabPool.deallocate, pushFree, Function.update_of_ne different]

private theorem pushAll (count : Nat) (start : SlabPool T) (empty : start.freeHead = none) :
    let pool := (List.range count).foldl SlabPool.pushFree start
    Chained (fun slot => FirstWord.word (pool.slab slot)) pool.freeHead (List.range count).reverse ∧
      pool.capacity = start.capacity ∧ pool.allocated = start.allocated ∧ pool.calls = start.calls := by
  induction count with
  | zero => exact ⟨empty, rfl, rfl, rfl⟩
  | succ count ih =>
    obtain ⟨chain, rest⟩ := ih
    simp only [List.range_succ, List.foldl_append, List.foldl_cons, List.foldl_nil, List.reverse_append,
      List.reverse_singleton, List.singleton_append]
    refine ⟨⟨rfl, ?_⟩, rest⟩
    simp only [pushFree, Function.update_self, FirstWord.word_setWord]
    refine chain.congr ?_
    intro other member
    have different : other ≠ count :=
      Nat.ne_of_lt (List.mem_range.mp (List.mem_reverse.mp member))
    simp [Function.update_of_ne different]

theorem create (storage : Slot → T) (capacity : Nat) :
    (SlabPool.create storage capacity).Valid (List.range capacity).reverse [] := by
  obtain ⟨chain, cap, count, calls⟩ := pushAll capacity
    { slab := storage, freeHead := none, capacity := capacity, allocated := 0, calls := [] } rfl
  refine ⟨chain, ?_, count, ?_, ?_, ?_⟩
  · rw [List.append_nil, SlabPool.create, cap]
    exact List.reverse_perm _
  · rw [SlabPool.create, calls]
    exact List.Perm.refl _
  · rw [SlabPool.create, calls]
    intro earlier slot object later split
    simp at split
  · rw [SlabPool.create, calls]
    intro earlier slot later split
    simp at split

end SlabPool.Valid

end ChronoBook
