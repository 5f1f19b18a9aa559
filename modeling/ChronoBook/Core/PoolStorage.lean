import ChronoBook.Core.SlabPool

/-! The slab pool in its storage and over its life. The constructor computes the size
of the storage as a word of 64 bits and pushes every slot; after that the pool is
driven by any calls, with clients that write what they hold. -/

namespace ChronoBook
open Library.Linked

namespace SlabPool

variable {T : Type} [FirstWord T]

/-- `pushFree` stores a word at the beginning of the slot; outside of the storage the code has no meaning. -/
def pushInside (size bytes : UInt64) (pool : SlabPool T) (slot : Slot) : Option (SlabPool T) :=
  if (UInt64.ofNat slot * size).toNat + 8 ≤ bytes.toNat then some (pool.pushFree slot) else none

/-- The constructor, for objects of `size` bytes, in storage of `m_bytes` bytes. -/
def construct (size : UInt64) (storage : Slot → T) (capacity : UInt64) : Option (SlabPool T) :=
  (List.range capacity.toNat).foldlM (pushInside size (capacity * size))
    { slab := storage, freeHead := none, capacity := capacity.toNat, allocated := 0, calls := [] }

theorem pushInside_slot {size capacity : UInt64} {slot : Nat} (word : 8 ≤ size.toNat)
    (fits : capacity.toNat * size.toNat < 2 ^ 64) (below : slot < capacity.toNat) (pool : SlabPool T) :
    pool.pushInside size (capacity * size) slot = some (pool.pushFree slot) := by
  have small := capacity.toNat_lt
  have place : (UInt64.ofNat slot).toNat = slot := by
    rw [UInt64.toNat_ofNat']
    exact Nat.mod_eq_of_lt (below.trans small)
  have last : slot * size.toNat + size.toNat ≤ capacity.toNat * size.toNat := by
    rw [← Nat.succ_mul]
    exact Nat.mul_le_mul_right _ below
  have offset : (UInt64.ofNat slot * size).toNat = slot * size.toNat := by
    rw [UInt64.toNat_mul, place]
    exact Nat.mod_eq_of_lt (by omega)
  have bytes : (capacity * size).toNat = capacity.toNat * size.toNat := by
    rw [UInt64.toNat_mul, Nat.mod_eq_of_lt fits]
  apply if_pos
  rw [offset, bytes]
  omega

/-- Storage whose size does not wrap has room for all slots. -/
theorem construct_fits {size capacity : UInt64} (word : 8 ≤ size.toNat)
    (fits : capacity.toNat * size.toNat < 2 ^ 64) (storage : Slot → T) :
    construct size storage capacity = some (create storage capacity.toNat) := by
  have pushes : ∀ (slots : List Slot) (pool : SlabPool T), (∀ slot ∈ slots, slot < capacity.toNat) →
      slots.foldlM (pushInside size (capacity * size)) pool = some (slots.foldl pushFree pool) := by
    intro slots
    induction slots with
    | nil => exact fun _ _ => rfl
    | cons slot later ih =>
      intro pool inside
      rw [List.foldlM_cons, pushInside_slot word fits (inside slot List.mem_cons_self)]
      exact ih _ (fun other member => inside other (List.mem_cons_of_mem _ member))
  exact pushes _ _ (fun slot member => List.mem_range.mp member)

/-- One slot outside of the storage is enough for the constructor to fail. -/
theorem construct_outside {size capacity : UInt64} {slot : Nat} (below : slot < capacity.toNat)
    (outside : (capacity * size).toNat < (UInt64.ofNat slot * size).toNat + 8) (storage : Slot → T) :
    construct size storage capacity = none := by
  have fails : ∀ (slots : List Slot) (pool : SlabPool T), slot ∈ slots →
      slots.foldlM (pushInside size (capacity * size)) pool = none := by
    intro slots
    induction slots with
    | nil => intro pool member; cases member
    | cons first later ih =>
      intro pool member
      rw [List.foldlM_cons]
      rcases List.mem_cons.mp member with same | member
      · rw [← same, pushInside, if_neg (Nat.not_le.mpr outside)]
        rfl
      · cases pushInside size (capacity * size) pool first with
        | none => rfl
        | some next => exact ih next member
  exact fails _ _ (List.mem_range.mpr below)

def orderSize : UInt64 := 48

/-- Where the storage of orders wraps, the slot at the end of the address space is not in it: sizes are multiples of 16. -/
theorem construct_wraps {capacity : UInt64} (wraps : 2 ^ 64 ≤ capacity.toNat * 48) (storage : Slot → T) :
    construct orderSize storage capacity = none := by
  have below : 384307168202282325 < capacity.toNat := by omega
  apply construct_outside below
  have offset : (UInt64.ofNat 384307168202282325 * orderSize).toNat = 2 ^ 64 - 16 := by decide
  have bytes : (capacity * orderSize).toNat = capacity.toNat * 48 % 2 ^ 64 := UInt64.toNat_mul capacity orderSize
  omega

/-- The pools of orders that can be made. -/
theorem construct_orders (storage : Slot → T) (capacity : UInt64) :
    construct orderSize storage capacity =
      if capacity.toNat * 48 < 2 ^ 64 then some (create storage capacity.toNat) else none := by
  by_cases fits : capacity.toNat * 48 < 2 ^ 64
  · rw [if_pos fits, construct_fits (by decide) fits]
  · rw [if_neg fits, construct_wraps (Nat.not_lt.mp fits)]

end SlabPool

/-- A call on the pool, or a client that writes an object it holds. -/
inductive PoolUse (T : Type) where
  | allocate (object : T)
  | deallocate (slot : Option Slot)
  | write (slot : Slot) (object : T)

namespace SlabPool

variable {T : Type} [FirstWord T] {pool : SlabPool T} {free : List Slot}

def live (pool : SlabPool T) : List Slot := liveAfter pool.calls

def use (pool : SlabPool T) : PoolUse T → SlabPool T
  | .allocate object => (pool.allocate object).elim pool Prod.snd
  | .deallocate slot => pool.deallocate slot
  | .write slot object => { pool with slab := Function.update pool.slab slot object }

/-- Only null or an allocated slot is given back, and only an allocated slot is written. -/
def Fair (pool : SlabPool T) : PoolUse T → Prop
  | .allocate _ => True
  | .deallocate none => True
  | .deallocate (some slot) => slot ∈ pool.live
  | .write slot _ => slot ∈ pool.live

instance (pool : SlabPool T) : (step : PoolUse T) → Decidable (pool.Fair step)
  | .allocate _ => isTrue trivial
  | .deallocate none => isTrue trivial
  | .deallocate (some slot) => inferInstanceAs (Decidable (slot ∈ pool.live))
  | .write slot _ => inferInstanceAs (Decidable (slot ∈ pool.live))

def AllFair : SlabPool T → List (PoolUse T) → Prop
  | _, [] => True
  | pool, step :: later => pool.Fair step ∧ AllFair (pool.use step) later

/-- The free list and the allocated slots make up the pool. -/
def Sorted (pool : SlabPool T) (capacity : Nat) : Prop := pool.capacity = capacity ∧ ∃ free, pool.Valid free pool.live

theorem Valid.used_allocate (valid : pool.Valid free pool.live) (object : T) :
    (pool.use (.allocate object)).capacity = pool.capacity ∧
      ∃ free', (pool.use (.allocate object)).Valid free' (pool.use (.allocate object)).live := by
  simp only [use]
  cases free with
  | nil =>
    have none : pool.allocate object = none := by
      unfold SlabPool.allocate
      rw [valid.freeHead_eq]
      rfl
    rw [none]
    exact ⟨rfl, [], valid⟩
  | cons slot rest =>
    obtain ⟨pool', result, valid', _, capacity, calls⟩ := valid.allocate object
    have live' : pool'.live = slot :: pool.live := by
      unfold live
      rw [calls, liveAfter_append]
    rw [result]
    exact ⟨capacity, rest, live' ▸ valid'⟩

theorem Valid.used_deallocate (valid : pool.Valid free pool.live) {slot : Slot} (held : slot ∈ pool.live) :
    (pool.deallocate (some slot)).Valid (slot :: free) (pool.deallocate (some slot)).live := by
  have returned := (valid.perm (List.perm_cons_erase held)).deallocate
  have live' : (pool.deallocate (some slot)).live = pool.live.erase slot := liveAfter_append _ _
  rw [live']
  exact returned

/-- One use keeps free list and allocated slots apart. -/
theorem Sorted.use {capacity : Nat} (sorted : pool.Sorted capacity) (step : PoolUse T) (fair : pool.Fair step) :
    (pool.use step).Sorted capacity := by
  obtain ⟨size, free, valid⟩ := sorted
  cases step with
  | allocate object =>
    obtain ⟨same, free', valid'⟩ := valid.used_allocate object
    exact ⟨same.trans size, free', valid'⟩
  | deallocate slot =>
    cases slot with
    | none => exact ⟨size, free, valid⟩
    | some slot => exact ⟨size, slot :: free, valid.used_deallocate fair⟩
  | write slot object =>
    refine ⟨size, free, valid.write ?_⟩
    intro other isFree
    have different : other ≠ slot := fun same => valid.disjoint isFree (same ▸ fair)
    rw [Function.update_of_ne different]

theorem Sorted.run {capacity : Nat} {uses : List (PoolUse T)} (sorted : pool.Sorted capacity)
    (fair : pool.AllFair uses) : (uses.foldl SlabPool.use pool).Sorted capacity := by
  induction uses generalizing pool with
  | nil => exact sorted
  | cons step later ih => exact ih (sorted.use step fair.1) fair.2

theorem Sorted.construct {size capacity : UInt64} (word : 8 ≤ size.toNat)
    (fits : capacity.toNat * size.toNat < 2 ^ 64) (storage : Slot → T) :
    ∃ start, construct size storage capacity = some start ∧ start.Sorted capacity.toNat := by
  have valid := Valid.create storage capacity.toNat
  have total := valid.cover.length_eq
  refine ⟨_, construct_fits word fits storage, ?_, _, valid.perm valid.history.symm⟩
  simpa using total.symm

theorem Valid.covers {capacity : Nat} (valid : pool.Valid free pool.live) (size : pool.capacity = capacity)
    (slot : Slot) : slot < capacity ↔ slot ∈ free ∨ slot ∈ pool.live := by
  rw [← size, ← List.mem_range, ← valid.cover.mem_iff, List.mem_append]

theorem Valid.allocate_eq_none (valid : pool.Valid free pool.live) (object : T) :
    pool.allocate object = none ↔ ∀ slot, slot < pool.capacity → slot ∈ pool.live := by
  have null : pool.allocate object = none ↔ free = [] := by
    rw [← List.head?_eq_none_iff, ← valid.freeHead_eq]
    unfold SlabPool.allocate
    cases pool.freeHead <;> simp
  rw [null]
  constructor
  · intro empty slot below
    have member := (valid.covers rfl slot).mp below
    rw [empty] at member
    exact member.resolve_left List.not_mem_nil
  · intro all
    rw [List.eq_nil_iff_forall_not_mem]
    intro slot isFree
    exact valid.disjoint isFree (all slot ((valid.covers rfl slot).mpr (.inl isFree)))

/-- What is handed out was free, and nothing else is written. -/
theorem Valid.allocate_some {object : T} {slot : Slot} {pool' : SlabPool T} (valid : pool.Valid free pool.live)
    (result : pool.allocate object = some (slot, pool')) :
    slot ∈ free ∧ pool'.slab = Function.update pool.slab slot object ∧ pool'.live = slot :: pool.live := by
  cases free with
  | nil =>
    unfold SlabPool.allocate at result
    rw [valid.freeHead_eq] at result
    cases result
  | cons first rest =>
    obtain ⟨there, result', _, slab, _, calls⟩ := valid.allocate object
    rw [result] at result'
    cases result'
    refine ⟨List.mem_cons_self, slab, ?_⟩
    unfold live
    rw [calls, liveAfter_append]

/-- A pool whose storage has a size that does not wrap, under any calls; the size of a pool of orders that does
wrap leaves no pool. -/
theorem free_list_sound (size capacity : UInt64) (word : 8 ≤ size.toNat) (storage : Slot → T) :
    (size = orderSize → 2 ^ 64 ≤ capacity.toNat * size.toNat → construct size storage capacity = none) ∧
    (capacity.toNat * size.toNat < 2 ^ 64 →
      ∃ start, construct size storage capacity = some start ∧ ∀ uses, start.AllFair uses →
        let pool := uses.foldl SlabPool.use start
        (∃ free, Chained (fun slot => FirstWord.word (pool.slab slot)) pool.freeHead free ∧ free.Nodup ∧
          (∀ slot, slot ∈ free → slot ∉ pool.live) ∧
          ∀ slot, slot < capacity.toNat ↔ slot ∈ free ∨ slot ∈ pool.live) ∧
        pool.live.Nodup ∧
        (∀ object, pool.allocate object = none ↔ ∀ slot, slot < capacity.toNat → slot ∈ pool.live) ∧
        (∀ object slot pool', pool.allocate object = some (slot, pool') →
          slot < capacity.toNat ∧ slot ∉ pool.live ∧ pool'.live = slot :: pool.live ∧
            ∀ other, other ≠ slot → pool'.slab other = pool.slab other) ∧
        (∀ slot, slot ∈ pool.live → (pool.deallocate (some slot)).live = pool.live.erase slot ∧
          ∀ other, other ≠ slot → (pool.deallocate (some slot)).slab other = pool.slab other) ∧
        pool.deallocate none = pool ∧
        pool.allocatedCount + pool.freeCount = capacity.toNat ∧ pool.allocatedCount = pool.live.length) := by
  constructor
  · rintro rfl wraps
    exact construct_wraps wraps storage
  intro fits
  obtain ⟨start, built, sorted⟩ := Sorted.construct word fits storage
  refine ⟨start, built, ?_⟩
  intro uses fair pool
  obtain ⟨bound, free, valid⟩ : pool.Sorted capacity.toNat := sorted.run fair
  obtain ⟨freeNodup, liveNodup, _⟩ := List.nodup_append.mp valid.nodup
  refine ⟨⟨free, valid.chain, freeNodup, fun slot => valid.disjoint, valid.covers bound⟩, liveNodup, ?_, ?_, ?_, rfl,
    ?_, valid.count⟩
  · intro object
    rw [← bound]
    exact valid.allocate_eq_none object
  · intro object slot pool' result
    obtain ⟨isFree, slab, held⟩ := valid.allocate_some result
    refine ⟨(valid.covers bound slot).mpr (.inl isFree), valid.disjoint isFree, held, ?_⟩
    intro other different
    rw [slab, Function.update_of_ne different]
  · intro slot _
    exact ⟨liveAfter_append _ _, fun other different => Valid.deallocate_slab pool different⟩
  · have within := valid.length_le
    unfold allocatedCount freeCount
    rw [valid.count, bound]
    omega

/-- A pool of two orders that is used up and gets one of them back. -/
theorem free_list_sound_two :
    ∃ start, construct orderSize (fun _ => ({} : Order)) 2 = some start ∧
      let pool := [.allocate { orderId := 1 }, .allocate { orderId := 2 }, .deallocate (some 1)].foldl SlabPool.use start
      pool.live.Nodup ∧ pool.allocatedCount + pool.freeCount = 2 := by
  obtain ⟨start, built, sound⟩ := (free_list_sound orderSize 2 (by decide) (fun _ => ({} : Order))).2 (by decide)
  refine ⟨start, built, ?_⟩
  cases built
  obtain ⟨_, distinct, _, _, _, _, counts, _⟩ := sound
    [.allocate { orderId := 1 }, .allocate { orderId := 2 }, .deallocate (some 1)] ⟨trivial, trivial, by decide, trivial⟩
  exact ⟨distinct, counts⟩

/-- The size of 2^60 orders wraps to nothing, and the first slot is pushed outside of the storage. -/
theorem storage_wraps :
    (0x1000000000000000 : UInt64).toNat = 2 ^ 60 ∧ (0x1000000000000000 : UInt64) * orderSize = 0 ∧
      construct orderSize (fun _ => ({} : Order)) 0x1000000000000000 = none :=
  ⟨by decide, by decide, construct_wraps (by decide) _⟩

end SlabPool

end ChronoBook
