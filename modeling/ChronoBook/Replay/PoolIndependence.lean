import ChronoBook.Matching.Twin
import ChronoBook.Replay.RecoveryReconciler
import ChronoBook.Replay.ReplayCounters

/-! The live replay and the recovery replay of one feed. They are two loops over two
pools that hand out different slots, and the recovery may have more of them; as long
as the live run drops nothing, neither the loop nor the pool can be told from the
fills, the counters and the book. -/

namespace ChronoBook
open Library Linked MatchingEngine

namespace MatchingEngine

variable {engine engine' : MatchingEngine} {queues : Queues} {free others : List Slot} {name : Slot → Slot}
  {extra : List Slot}

theorem Naming.shift (more : Nat) : Naming (more + ·) (List.range more).reverse where
  distinct _ _ same := Nat.add_left_cancel same
  apart slot inside := by
    rw [List.mem_reverse, List.mem_range] at inside
    omega

/-- A new engine on a larger pool: its free list begins with the slots that the smaller pool has, in the same order. -/
theorem Twin.create (capacity more : Nat) :
    Twin (more + ·) (List.range more).reverse (List.range capacity).reverse (MatchingEngine.create capacity)
      (MatchingEngine.create (more + capacity)) where
  book := rfl
  fills := rfl
  currentSeq := rfl
  chain := (Sound.create capacity).pool.chain
  chain' := by
    have slots : (List.range capacity).reverse.map (more + ·) ++ (List.range more).reverse =
        (List.range (more + capacity)).reverse := by
      rw [List.range_add, List.reverse_append, List.map_reverse]
    rw [slots]
    exact (Sound.create (more + capacity)).pool.chain
  copies := by
    intro slot outside
    rw [List.mem_reverse, List.mem_range, Nat.not_lt] at outside
    have raw : (MatchingEngine.create capacity).pool.slab slot = {} := SlabPool.pushFree_range capacity _ outside
    have raw' : (MatchingEngine.create (more + capacity)).pool.slab (more + slot) = {} :=
      SlabPool.pushFree_range (more + capacity) _ (Nat.add_le_add_left outside more)
    rw [raw, raw']
    rfl

theorem allocate_ne_none {object : Order} (sound : engine.Sound queues free others) :
    engine.pool.allocate object ≠ none ↔ free ≠ [] := by
  cases free with
  | nil =>
    have empty : engine.pool.freeHead = none := sound.pool.freeHead_eq
    simp [SlabPool.allocate, empty]
  | cons slot rest =>
    obtain ⟨pool, granted, _⟩ := sound.acquire object
    simp [granted]

theorem PoolSuffices.twin {messages : List FeedMessage} (room : engine.PoolSuffices messages)
    (naming : Naming name extra) (idle : engine.Idle queues free others) (twin : Twin name extra free engine engine') :
    engine'.PoolSuffices messages := by
  intro earlier m later split valid kind fills last' ran'
  obtain ⟨fills₁, last, last₁, queues₁, free₁, ran, ran₁, idle₁, twin₁⟩ := Twin.feed naming earlier idle twin
    (Or.inr (fun before n rest split' => room before n (rest ++ m :: later) (by rw [split, split']; simp)))
  rw [ran'] at ran₁
  cases ran₁
  have served := (allocate_ne_none idle₁.steady.sound).mp (room earlier m later split valid kind fills last ran)
  obtain ⟨slot, rest, rfl⟩ := List.exists_cons_of_ne_nil served
  have head : last'.pool.freeHead = some (name slot) := twin₁.chain'.start_eq
  simp [SlabPool.allocate, head]

end MatchingEngine

namespace RecoveryReconciler

end RecoveryReconciler

end ChronoBook
