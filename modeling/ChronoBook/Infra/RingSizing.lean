import ChronoBook.Infra.SPSCRingBuffer
import Mathlib.Order.Bounds.Defs

/-! The size of a ring. The smearing loop is compared with the same steps on unbounded
numbers, and what it returns is the least power of two that leaves room for the
requested values and the slot that stays free. -/

namespace ChronoBook

namespace SPSCRingBuffer

variable {T : Type}

/-- The steps of `nextPowerOfTwo` in arithmetic that never wraps. -/
def unboundedPowerOfTwo (n : Nat) : Nat :=
  if n ≤ 2 then 2 else [1, 2, 4, 8, 16, 32].foldl (fun n shift => n ||| (n >>> shift)) (n - 1) + 1

/-- The powers of two a ring for `n` slots can have as its size. -/
def Suitable (n : Nat) : Set Nat := { size | (∃ exponent, size = 2 ^ exponent) ∧ max n 2 ≤ size }

theorem smear_toNat {shifts : List UInt64} (short : ∀ shift ∈ shifts, shift.toNat < 64) (n : UInt64) :
    (shifts.foldl (fun n shift => n ||| (n >>> shift)) n).toNat =
      (shifts.map UInt64.toNat).foldl (fun n shift => n ||| (n >>> shift)) n.toNat := by
  induction shifts generalizing n with
  | nil => rfl
  | cons shift later ih =>
    have amount : shift.toNat % 64 = shift.toNat := Nat.mod_eq_of_lt (short shift List.mem_cons_self)
    rw [List.foldl_cons, ih (fun other member => short other (List.mem_cons_of_mem _ member)), List.map_cons,
      List.foldl_cons, UInt64.toNat_or, UInt64.toNat_shiftRight, amount]

theorem nextPowerOfTwo_small {n : UInt64} (small : n.toNat ≤ 2) : nextPowerOfTwo n = 2 :=
  if_pos (UInt64.le_iff_toNat_le.mpr small)

theorem nextPowerOfTwo_unbounded {n : UInt64} (bound : n.toNat ≤ 2 ^ 63) :
    (nextPowerOfTwo n).toNat = unboundedPowerOfTwo n.toNat := by
  unfold unboundedPowerOfTwo
  by_cases small : n.toNat ≤ 2
  · rw [if_pos small, nextPowerOfTwo_small small]
    rfl
  have large : ¬n ≤ 2 := fun le => small (UInt64.le_iff_toNat_le.mp le)
  have less : (n - 1).toNat = n.toNat - 1 :=
    UInt64.toNat_sub_of_le _ _ (UInt64.le_iff_toNat_le.mpr (by rw [UInt64.toNat_one]; omega))
  let smeared := ([1, 2, 4, 8, 16, 32] : List UInt64).foldl (fun n shift => n ||| (n >>> shift)) (n - 1)
  have value : smeared.toNat = [1, 2, 4, 8, 16, 32].foldl (fun n shift => n ||| (n >>> shift)) (n.toNat - 1) := by
    rw [← less]
    exact smear_toNat (by simp) (n - 1)
  obtain ⟨power, top⟩ := nextPowerOfTwo_toNat (by omega) bound
  have result : nextPowerOfTwo n = smeared + 1 := if_neg large
  rw [if_neg small, ← value, result, UInt64.toNat_add, UInt64.toNat_one]
  rw [result, UInt64.toNat_add, UInt64.toNat_one] at power
  -- a sum that wraps is zero, and no power of two is
  have positive := Nat.two_pow_pos ((n.toNat - 1).log2 + 1)
  have word := smeared.toNat_lt
  omega

/-- What is returned is a power of two that suffices, and half of it does not. -/
theorem nextPowerOfTwo_least {n : UInt64} (bound : n.toNat ≤ 2 ^ 63) :
    IsLeast (Suitable n.toNat) (nextPowerOfTwo n).toNat := by
  by_cases small : n.toNat ≤ 2
  · have two : (nextPowerOfTwo n).toNat = 2 := by
      rw [nextPowerOfTwo_small small]
      rfl
    rw [two]
    refine ⟨⟨⟨1, rfl⟩, by omega⟩, ?_⟩
    intro size suits
    exact (le_max_right n.toNat 2).trans suits.2
  · obtain ⟨power, _⟩ := nextPowerOfTwo_toNat (by omega) bound
    have nonzero : n.toNat - 1 ≠ 0 := by omega
    have above : n.toNat - 1 < 2 ^ ((n.toNat - 1).log2 + 1) := Nat.lt_log2_self
    have below : 2 ^ (n.toNat - 1).log2 ≤ n.toNat - 1 := Nat.log2_self_le nonzero
    rw [power]
    refine ⟨⟨⟨_, rfl⟩, by omega⟩, ?_⟩
    rintro size ⟨⟨exponent, rfl⟩, enough⟩
    have longer : (n.toNat - 1).log2 < exponent := by
      by_contra short
      have half : 2 ^ exponent ≤ 2 ^ (n.toNat - 1).log2 := Nat.pow_le_pow_right (by decide) (by omega)
      omega
    exact Nat.pow_le_pow_right (by decide) longer

theorem next_toNat {c : UInt64} (requested : c.toNat < 2 ^ 63) : (c + 1).toNat = c.toNat + 1 := by
  rw [UInt64.toNat_add, UInt64.toNat_one]
  omega

/-- The rings of 40-byte elements that can be made and have slots. -/
theorem sizable_iff (c : UInt64) : Sizable maxSize c ↔ c.toNat < 2 ^ 57 ∨ c.toNat = 2 ^ 64 - 1 := by
  have limit : maxSize = 230584300921369395 := rfl
  have word := c.toNat_lt
  have value : (c + 1).toNat = (c.toNat + 1) % 2 ^ 64 := UInt64.toNat_add c 1
  constructor
  · rintro ⟨unwrapped, fits⟩
    by_contra others
    by_cases wraps : 2 ^ 63 ≤ c.toNat
    · exact unwrapped (nextPowerOfTwo_wraps (by omega))
    -- the least power of two above `2 ^ 57` is already too long
    obtain ⟨⟨exponent, power⟩, enough⟩ := (nextPowerOfTwo_least (n := c + 1) (by omega)).1
    rw [power] at fits enough
    have long : 2 ^ 58 ≤ 2 ^ exponent := by
      apply Nat.pow_le_pow_right (by decide)
      by_contra short
      have less : 2 ^ exponent ≤ 2 ^ 57 := Nat.pow_le_pow_right (by decide) (by omega)
      omega
    omega
  · rintro (small | last)
    · refine ⟨size_unwrapped (by omega), ?_⟩
      have least := (nextPowerOfTwo_least (n := c + 1) (by omega)).2 ⟨⟨57, rfl⟩, by omega⟩
      omega
    · have least : (c + 1).toNat ≤ 2 := by omega
      rw [Sizable, nextPowerOfTwo_small least]
      decide

theorem store_isSome (ring : SPSCRingBuffer T) (i : UInt64) (value : T) :
    (({ ring with head := i } : SPSCRingBuffer T).store value).isSome = true ↔ i.toNat < ring.slots.length := by
  unfold store
  by_cases inside : i.toNat < ring.slots.length <;> simp [inside]

theorem load_isSome (ring : SPSCRingBuffer T) (i : UInt64) :
    (({ ring with tail := i } : SPSCRingBuffer T).load).isSome = true ↔ i.toNat < ring.slots.length := by
  simp [load]

/-- The size that the loop computes, and a ring of that size, where the vector can have it. -/
theorem ring_sizing [Inhabited T] (n c : UInt64) (bound : n.toNat ≤ 2 ^ 63) (requested : c.toNat < 2 ^ 63)
    (maxSize : Nat) :
    (nextPowerOfTwo n).toNat = unboundedPowerOfTwo n.toNat ∧
      IsLeast (Suitable n.toNat) (nextPowerOfTwo n).toNat ∧ (c + 1).toNat = c.toNat + 1 ∧
      (maxSize < (nextPowerOfTwo (c + 1)).toNat →
        (create maxSize c : Except Failure (SPSCRingBuffer T)) = .error (.thrown lengthError)) ∧
      ((nextPowerOfTwo (c + 1)).toNat ≤ maxSize →
        ∃ ring : SPSCRingBuffer T, create maxSize c = .ok ring ∧ ring.capacity = nextPowerOfTwo (c + 1) ∧
          ring.slots.length = ring.capacity.toNat ∧ c.toNat ≤ ring.usable.toNat ∧
          (∀ i value, (({ ring with head := i } : SPSCRingBuffer T).store value).isSome = true ↔
            i.toNat < ring.capacity.toNat) ∧
          (∀ i, (({ ring with tail := i } : SPSCRingBuffer T).load).isSome = true ↔ i.toNat < ring.capacity.toNat) ∧
          ∀ i, i.toNat < ring.capacity.toNat →
            (ring.increment i).toNat < ring.capacity.toNat ∧
              (ring.increment i).toNat = (i.toNat + 1) % ring.capacity.toNat) := by
  have next := next_toNat requested
  refine ⟨nextPowerOfTwo_unbounded bound, nextPowerOfTwo_least bound, next, create_throws, ?_⟩
  intro fits
  obtain ⟨ring, made⟩ := create_ok (T := T) fits
  have queued : ring.Queued [] := Queued.create made (size_unwrapped requested)
  have length := queued.circle.length_eq
  have size : ring.capacity = nextPowerOfTwo (c + 1) := by rw [(create_made made).2]
  have enough : max (c + 1).toNat 2 ≤ ring.capacity.toNat := size ▸ (nextPowerOfTwo_least (by omega)).1.2
  refine ⟨ring, made, size, length, ?_, length ▸ ring.store_isSome, length ▸ ring.load_isSome, ?_⟩
  · rw [queued.usable_toNat]
    omega
  · intro i inside
    rw [queued.increment_toNat inside]
    exact ⟨Nat.mod_lt _ (by omega), rfl⟩

theorem ring_sizing_four :
    (nextPowerOfTwo 5).toNat = unboundedPowerOfTwo 5 ∧ IsLeast (Suitable 5) (nextPowerOfTwo 5).toNat ∧
      ∃ ring : SPSCRingBuffer UInt8, create (maxSizeOf 1) 4 = .ok ring ∧ ring.slots.length = 8 ∧
        (ring.increment 7).toNat = 0 ∧ 4 ≤ ring.usable.toNat := by
  obtain ⟨value, least, _, _, makes⟩ := ring_sizing (T := UInt8) 5 4 (by decide) (by decide) (maxSizeOf 1)
  obtain ⟨ring, made, size, length, enough, _, _, around⟩ := makes (by decide)
  have eight : ring.capacity.toNat = 8 := by
    rw [size]
    decide
  rw [eight] at length around
  exact ⟨value, least, ring, made, length, (around 7 (by decide)).2, enough⟩

/-- Half of the address space is more than any vector can have. -/
theorem ring_size_refused :
    (4611686018427387904 : UInt64).toNat < 2 ^ 63 ∧
      (create (maxSizeOf 1) 4611686018427387904 : Except Failure (SPSCRingBuffer UInt8)) =
        .error (.thrown lengthError) :=
  ⟨by decide, create_throws (by decide)⟩

end SPSCRingBuffer

end ChronoBook
