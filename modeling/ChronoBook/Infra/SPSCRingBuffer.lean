import ChronoBook.Core.Failure
import ChronoBook.Library.Circular
import Mathlib.Data.Nat.Bitwise
import Mathlib.Data.UInt

/-! The single-producer single-consumer ring. A call is given as the accesses it
makes, in order, because the other thread may run between any two of them; the
indices are the 64-bit words of the code and their arithmetic wraps. -/

namespace ChronoBook
open Library

structure SPSCRingBuffer (T : Type) where
  capacity : UInt64
  mask : UInt64
  slots : List T
  head : UInt64
  tail : UInt64

namespace SPSCRingBuffer

variable {T : Type}

def nextPowerOfTwo (n : UInt64) : UInt64 :=
  if n ≤ 2 then 2
  else
    let n := n - 1
    let n := ([1, 2, 4, 8, 16, 32] : List UInt64).foldl (fun n shift => n ||| (n >>> shift)) n
    n + 1

/-- The constructor, for elements of which a vector holds at most `maxSize`. -/
def create [Inhabited T] (maxSize : Nat) (capacity : UInt64) : Except Failure (SPSCRingBuffer T) := do
  let size := nextPowerOfTwo (capacity + 1)
  checkLength maxSize size.toNat
  return { capacity := size, mask := size - 1, slots := List.replicate size.toNat default, head := 0, tail := 0 }

def increment (ring : SPSCRingBuffer T) (i : UInt64) : UInt64 := (i + 1) &&& ring.mask

/-- `tryPush` loads the tail and gives up if the ring is full. -/
def isFull (ring : SPSCRingBuffer T) : Bool := ring.increment ring.head = ring.tail

/-- `tryPush` writes its slot; outside of the vector the code has no meaning. -/
def store (ring : SPSCRingBuffer T) (value : T) : Option (SPSCRingBuffer T) :=
  if ring.head.toNat < ring.slots.length then some { ring with slots := ring.slots.set ring.head.toNat value }
  else none

def publish (ring : SPSCRingBuffer T) : SPSCRingBuffer T := { ring with head := ring.increment ring.head }

/-- The result of `capacity()`: one slot stays free. -/
def usable (ring : SPSCRingBuffer T) : UInt64 := ring.capacity - 1

/-- `tryPop` loads the head and gives up if the ring is empty. -/
def empty (ring : SPSCRingBuffer T) : Bool := ring.tail = ring.head

def load (ring : SPSCRingBuffer T) : Option T := ring.slots[ring.tail.toNat]?

def release (ring : SPSCRingBuffer T) : SPSCRingBuffer T := { ring with tail := ring.increment ring.tail }

theorem store_capacity {ring ring' : SPSCRingBuffer T} {value : T} (stored : ring.store value = some ring') :
    ring'.capacity = ring.capacity := by
  unfold store at stored
  split at stored <;> cases stored
  rfl

/-- A requested capacity for which the size of the ring does not wrap to zero and the vector can be made. -/
def Sizable (maxSize : Nat) (capacity : UInt64) : Prop :=
  nextPowerOfTwo (capacity + 1) ≠ 0 ∧ (nextPowerOfTwo (capacity + 1)).toNat ≤ maxSize

instance (maxSize : Nat) (capacity : UInt64) : Decidable (Sizable maxSize capacity) := inferInstanceAs (Decidable (_ ∧ _))

/-- A constructor that returns has made a vector of the computed size. -/
theorem create_made [Inhabited T] {maxSize : Nat} {capacity : UInt64} {ring : SPSCRingBuffer T}
    (made : create maxSize capacity = .ok ring) :
    (nextPowerOfTwo (capacity + 1)).toNat ≤ maxSize ∧
      ring = ⟨nextPowerOfTwo (capacity + 1), nextPowerOfTwo (capacity + 1) - 1,
        List.replicate (nextPowerOfTwo (capacity + 1)).toNat default, 0, 0⟩ := by
  dsimp only [create] at made
  by_cases long : maxSize < (nextPowerOfTwo (capacity + 1)).toNat
  · rw [checkLength_error long] at made
    cases made
  · rw [checkLength_ok (Nat.not_lt.mp long)] at made
    cases made
    exact ⟨Nat.not_lt.mp long, rfl⟩

theorem create_ok [Inhabited T] {maxSize : Nat} {capacity : UInt64}
    (fits : (nextPowerOfTwo (capacity + 1)).toNat ≤ maxSize) :
    ∃ ring : SPSCRingBuffer T, create maxSize capacity = .ok ring := by
  dsimp only [create]
  rw [checkLength_ok fits]
  exact ⟨_, rfl⟩

theorem create_throws [Inhabited T] {maxSize : Nat} {capacity : UInt64}
    (long : maxSize < (nextPowerOfTwo (capacity + 1)).toNat) :
    (create maxSize capacity : Except Failure (SPSCRingBuffer T)) = .error (.thrown lengthError) := by
  dsimp only [create]
  rw [checkLength_error long]
  rfl

/-- Each bit of `a` tells whether `n` has a bit at this place or less than `width` places above. -/
def Spread (n width a : Nat) : Prop :=
  ∀ bit, a.testBit bit = true ↔ ∃ above, above < width ∧ n.testBit (bit + above) = true

theorem Spread.start (n : Nat) : Spread n 1 n := by
  intro bit
  constructor
  · intro set
    exact ⟨0, Nat.zero_lt_one, set⟩
  · intro found
    obtain ⟨above, below, set⟩ := found
    rwa [show above = 0 by omega] at set

/-- One shift of the loop doubles the width. -/
theorem Spread.shift {n width : Nat} {a shift : UInt64} (spread : Spread n width a.toNat)
    (amount : shift.toNat % 64 = width) : Spread n (2 * width) (a ||| (a >>> shift)).toNat := by
  intro bit
  rw [UInt64.toNat_or, UInt64.toNat_shiftRight, amount, Nat.testBit_or, Nat.testBit_shiftRight, Bool.or_eq_true,
    spread, spread]
  constructor
  · intro found
    rcases found with ⟨above, below, set⟩ | ⟨above, below, set⟩
    · exact ⟨above, by omega, set⟩
    · exact ⟨width + above, by omega, by rw [← set]; congr 1; omega⟩
  · intro found
    obtain ⟨above, below, set⟩ := found
    by_cases near : above < width
    · exact Or.inl ⟨above, near, set⟩
    · exact Or.inr ⟨above - width, by omega, by rw [← set]; congr 1; omega⟩

/-- After the last shift every bit up to the highest one is set. -/
theorem Spread.all {n a : Nat} (spread : Spread n 64 a) (positive : n ≠ 0) (bound : n < 2 ^ 64) :
    a = 2 ^ (n.log2 + 1) - 1 := by
  apply Nat.eq_of_testBit_eq
  intro bit
  rw [Bool.eq_iff_iff, spread, Nat.testBit_two_pow_sub_one, decide_eq_true_eq]
  have top : n.log2 < 64 := (Nat.log2_lt positive).mpr bound
  constructor
  · intro found
    obtain ⟨above, _, set⟩ := found
    have reach := (Nat.le_log2 positive).mpr (Nat.ge_two_pow_of_testBit set)
    omega
  · intro below
    refine ⟨n.log2 - bit, by omega, ?_⟩
    rw [show bit + (n.log2 - bit) = n.log2 by omega]
    exact Nat.testBit_log2 positive

theorem Spread.shifts {n : Nat} {a : UInt64} (start : Spread n 1 a.toNat) :
    Spread n 64 (([1, 2, 4, 8, 16, 32] : List UInt64).foldl (fun n shift => n ||| (n >>> shift)) a).toNat :=
  (((((start.shift (by decide)).shift (by decide)).shift (by decide)).shift (by decide)).shift (by decide)).shift
    (by decide)

theorem nextPowerOfTwo_toNat {n : UInt64} (large : 2 < n.toNat) (bound : n.toNat ≤ 2 ^ 63) :
    (nextPowerOfTwo n).toNat = 2 ^ ((n.toNat - 1).log2 + 1) ∧ (n.toNat - 1).log2 < 63 := by
  have less : (n - 1).toNat = n.toNat - 1 :=
    UInt64.toNat_sub_of_le _ _ (UInt64.le_iff_toNat_le.mpr (by rw [UInt64.toNat_one]; omega))
  have positive : n.toNat - 1 ≠ 0 := by omega
  have top : (n.toNat - 1).log2 < 63 := (Nat.log2_lt positive).mpr (by omega)
  have start : Spread (n.toNat - 1) 1 (n - 1).toNat := less ▸ Spread.start _
  have ones := start.shifts.all positive (by omega)
  have power : 2 ^ ((n.toNat - 1).log2 + 1) ≤ 2 ^ 63 := Nat.pow_le_pow_right (by omega) (by omega)
  refine ⟨?_, top⟩
  unfold nextPowerOfTwo
  rw [if_neg (by rw [UInt64.le_iff_toNat_le]; exact Nat.not_le.mpr large)]
  change (_ + 1 : UInt64).toNat = _
  rw [UInt64.toNat_add, ones, UInt64.toNat_one]
  have positivePower := Nat.two_pow_pos ((n.toNat - 1).log2 + 1)
  rw [Nat.mod_eq_of_lt (by omega)]
  omega

/-- Beyond `2 ^ 63` the size wraps to zero. -/
theorem nextPowerOfTwo_wraps {n : UInt64} (large : 2 ^ 63 < n.toNat) : nextPowerOfTwo n = 0 := by
  have less : (n - 1).toNat = n.toNat - 1 :=
    UInt64.toNat_sub_of_le _ _ (UInt64.le_iff_toNat_le.mpr (by rw [UInt64.toNat_one]; omega))
  have bound := n.toNat_lt
  have positive : n.toNat - 1 ≠ 0 := by omega
  have top : (n.toNat - 1).log2 = 63 := by
    apply Nat.le_antisymm
    · exact Nat.le_of_lt_succ ((Nat.log2_lt positive).mpr (by omega))
    · exact (Nat.le_log2 positive).mpr (by omega)
  have ones := (less ▸ Spread.start _ : Spread (n.toNat - 1) 1 (n - 1).toNat).shifts.all positive (by omega)
  unfold nextPowerOfTwo
  rw [if_neg (by rw [UInt64.le_iff_toNat_le]; exact Nat.not_le.mpr (Nat.lt_trans (by decide) large))]
  change (_ + 1 : UInt64) = 0
  apply UInt64.toNat_inj.mp
  rw [UInt64.toNat_add, ones, top]
  rfl

theorem size_power {capacity : UInt64} (unwrapped : nextPowerOfTwo (capacity + 1) ≠ 0) :
    ∃ exponent, 1 ≤ exponent ∧ exponent ≤ 63 ∧ (nextPowerOfTwo (capacity + 1)).toNat = 2 ^ exponent := by
  by_cases small : (capacity + 1).toNat ≤ 2
  · refine ⟨1, Nat.le_refl _, by omega, ?_⟩
    unfold nextPowerOfTwo
    rw [if_pos (UInt64.le_iff_toNat_le.mpr small)]
    rfl
  · have bound : (capacity + 1).toNat ≤ 2 ^ 63 := by
      by_contra large
      exact unwrapped (nextPowerOfTwo_wraps (Nat.not_le.mp large))
    obtain ⟨power, top⟩ := nextPowerOfTwo_toNat (by omega) bound
    exact ⟨_, by omega, by omega, power⟩

theorem size_unwrapped {capacity : UInt64} (small : capacity.toNat < 2 ^ 63) : nextPowerOfTwo (capacity + 1) ≠ 0 := by
  have value : (capacity + 1).toNat = (capacity.toNat + 1) % 2 ^ 64 := UInt64.toNat_add capacity 1
  intro zero
  by_cases least : (capacity + 1).toNat ≤ 2
  · unfold nextPowerOfTwo at zero
    rw [if_pos (UInt64.le_iff_toNat_le.mpr least)] at zero
    cases zero
  · obtain ⟨power, _⟩ := nextPowerOfTwo_toNat (by omega) (by omega : (capacity + 1).toNat ≤ 2 ^ 63)
    rw [zero] at power
    exact absurd power.symm (Nat.two_pow_pos _).ne'

/-- The ring holds `items`, oldest first. -/
structure Queued (ring : SPSCRingBuffer T) (items : List T) : Prop where
  sized : ∃ exponent, 1 ≤ exponent ∧ exponent ≤ 63 ∧ ring.capacity.toNat = 2 ^ exponent
  masked : ring.mask.toNat = ring.capacity.toNat - 1
  circle : Circular ring.capacity.toNat ring.head.toNat ring.tail.toNat ring.slots items

theorem Queued.create [Inhabited T] {maxSize : Nat} {capacity : UInt64} {ring : SPSCRingBuffer T}
    (made : create maxSize capacity = .ok ring) (unwrapped : nextPowerOfTwo (capacity + 1) ≠ 0) : ring.Queued [] := by
  obtain ⟨exponent, low, high, power⟩ := size_power unwrapped
  have positive := Nat.two_pow_pos exponent
  obtain ⟨_, rfl⟩ := create_made made
  refine ⟨⟨exponent, low, high, power⟩, ?_, ?_⟩
  · exact UInt64.toNat_sub_of_le _ _ (UInt64.le_iff_toNat_le.mpr (by rw [power, UInt64.toNat_one]; omega))
  · exact Circular.create (power ▸ positive) List.length_replicate

namespace Queued

variable {ring : SPSCRingBuffer T} {items : List T}

/-- Incrementing goes around the circle. -/
theorem increment_toNat (queued : ring.Queued items) {i : UInt64} (below : i.toNat < ring.capacity.toNat) :
    (ring.increment i).toNat = (i.toNat + 1) % ring.capacity.toNat := by
  obtain ⟨exponent, _, high, power⟩ := queued.sized
  have bound : 2 ^ exponent ≤ 2 ^ 63 := Nat.pow_le_pow_right (by omega) high
  unfold increment
  rw [UInt64.toNat_and, queued.masked, UInt64.toNat_add, UInt64.toNat_one]
  rw [power] at below ⊢
  rw [Nat.mod_eq_of_lt (by omega), Nat.and_two_pow_sub_one_eq_mod]

theorem isFull_iff (queued : ring.Queued items) :
    ring.isFull = true ↔ items.length + 1 = ring.capacity.toNat := by
  unfold isFull
  rw [decide_eq_true_eq, ← UInt64.toNat_inj, queued.increment_toNat queued.circle.head_lt]
  exact queued.circle.full_iff

theorem empty_iff (queued : ring.Queued items) : ring.empty = true ↔ items = [] := by
  unfold empty
  rw [decide_eq_true_eq, ← UInt64.toNat_inj]
  exact queued.circle.empty_iff

theorem usable_toNat (queued : ring.Queued items) : ring.usable.toNat = ring.capacity.toNat - 1 := by
  obtain ⟨exponent, _, _, power⟩ := queued.sized
  have positive := Nat.two_pow_pos exponent
  exact UInt64.toNat_sub_of_le _ _ (UInt64.le_iff_toNat_le.mpr (by rw [power, UInt64.toNat_one]; omega))

/-- The producer writes inside the vector and not over an item. -/
theorem store (queued : ring.Queued items) (value : T) :
    ∃ ring', ring.store value = some ring' ∧ ring'.Queued items ∧ ring'.slots[ring'.head.toNat]? = some value ∧
      ring'.isFull = ring.isFull := by
  have inside : ring.head.toNat < ring.slots.length := queued.circle.length_eq ▸ queued.circle.head_lt
  refine ⟨_, if_pos inside, ⟨queued.sized, queued.masked, queued.circle.write value⟩, ?_, rfl⟩
  exact List.getElem?_set_self inside

theorem publish {value : T} (queued : ring.Queued items) (room : ring.isFull = false)
    (written : ring.slots[ring.head.toNat]? = some value) : ring.publish.Queued (items ++ [value]) := by
  have notFull : items.length + 1 ≠ ring.capacity.toNat := by
    intro full
    rw [queued.isFull_iff.mpr full] at room
    cases room
  have short := queued.circle.short
  refine ⟨queued.sized, queued.masked, ?_⟩
  have pushed := queued.circle.push (by omega) written
  rwa [← queued.increment_toNat queued.circle.head_lt] at pushed

/-- The consumer reads inside the vector and gets the oldest item. -/
theorem load {item : T} (queued : ring.Queued (item :: items)) : ring.load = some item := queued.circle.front

theorem release {item : T} (queued : ring.Queued (item :: items)) : ring.release.Queued items := by
  refine ⟨queued.sized, queued.masked, ?_⟩
  have popped := queued.circle.pop
  rwa [← queued.increment_toNat queued.circle.tail_lt] at popped

theorem release_room {item : T} (queued : ring.Queued (item :: items)) : ring.release.isFull = false := by
  have short := queued.circle.short
  rw [List.length_cons] at short
  rw [← Bool.not_eq_true, queued.release.isFull_iff]
  exact Nat.ne_of_lt short

end Queued

/-- A ring in use: it holds `items`, or its size has wrapped to zero and nothing was ever pushed. -/
def Carries (ring : SPSCRingBuffer T) (items : List T) : Prop :=
  ring.Queued items ∨ (ring.capacity = 0 ∧ ring.slots = []) ∧ ring.head = ring.tail ∧ items = []

theorem create_barren [Inhabited T] {maxSize : Nat} {capacity : UInt64} {ring : SPSCRingBuffer T}
    (made : create maxSize capacity = .ok ring) (wrapped : nextPowerOfTwo (capacity + 1) = 0) :
    ring = ⟨0, 0 - 1, [], 0, 0⟩ := by
  obtain ⟨_, rfl⟩ := create_made made
  rw [wrapped]
  rfl

theorem Carries.create [Inhabited T] {maxSize : Nat} {capacity : UInt64} {ring : SPSCRingBuffer T}
    (made : create maxSize capacity = .ok ring) : ring.Carries [] := by
  by_cases wrapped : nextPowerOfTwo (capacity + 1) = 0
  · obtain rfl := create_barren made wrapped
    exact Or.inr ⟨⟨rfl, rfl⟩, rfl, rfl⟩
  · exact Or.inl (Queued.create made wrapped)

namespace Carries

variable {ring : SPSCRingBuffer T} {items : List T}

theorem empty_iff (carries : ring.Carries items) : ring.empty = true ↔ items = [] := by
  rcases carries with queued | ⟨_, same, nothing⟩
  · exact queued.empty_iff
  · unfold empty
    rw [decide_eq_true_eq, same]
    exact ⟨fun _ => nothing, fun _ => rfl⟩

/-- A ring with something in it has its size. -/
theorem queued (carries : ring.Carries items) (some : items ≠ []) : ring.Queued items := by
  rcases carries with queued | ⟨_, _, nothing⟩
  · exact queued
  · exact absurd nothing some

theorem sized (carries : ring.Carries items) (some : ring.capacity ≠ 0) : ring.Queued items := by
  rcases carries with queued | ⟨none, _, _⟩
  · exact queued
  · exact absurd none.1 some

/-- A ring that can be written to has its size. -/
theorem stored {ring' : SPSCRingBuffer T} {value : T} (carries : ring.Carries items)
    (stored : ring.store value = some ring') :
    ring.Queued items ∧ ring'.Queued items ∧ ring'.slots[ring'.head.toNat]? = some value ∧
      ring'.isFull = ring.isFull := by
  rcases carries with queued | ⟨⟨_, nothing⟩, _, _⟩
  · obtain ⟨there, result, kept, value, room⟩ := queued.store value
    rw [stored] at result
    cases result
    exact ⟨queued, kept, value, room⟩
  · unfold SPSCRingBuffer.store at stored
    rw [nothing, List.length_nil, if_neg (Nat.not_lt_zero _)] at stored
    cases stored

end Carries

end SPSCRingBuffer

end ChronoBook
