import ChronoBook.Infra.SPSCRingBuffer
import ChronoBook.Library.Runs

/-! A producer and a consumer of one ring. Each call is taken apart into its single
loads and stores of an index and reads and writes of a slot, and the threads may be
interleaved between any two of them. -/

namespace ChronoBook
open Library

/-- Where the producer is in `tryPush`; the index is its local variable. -/
inductive PushPc (T : Type) where
  | idle
  | loadTail (value : T) (head : UInt64)
  | write (value : T) (head : UInt64)
  | storeHead (value : T) (head : UInt64)
  | crashed

/-- Where the consumer is in `tryPop`. -/
inductive PopPc (T : Type) where
  | idle
  | loadHead (tail : UInt64)
  | read (tail : UInt64)
  | storeTail (tail : UInt64) (value : T)
  | crashed

/-- The threads with the values of the calls that returned true, in order. -/
structure RingThreads (T : Type) where
  ring : SPSCRingBuffer T
  producer : PushPc T
  consumer : PopPc T
  pushed : List T
  popped : List T

/-- `push` and `pop` begin a call with the load of the thread's own index; `producer` and `consumer` go on with it. -/
inductive RingMove (T : Type) where
  | push (value : T)
  | producer
  | pop
  | consumer

namespace RingThreads

variable {T : Type}

def create (ring : SPSCRingBuffer T) : RingThreads T := ⟨ring, .idle, .idle, [], []⟩

def pushStep (s : RingThreads T) : Option (RingThreads T) :=
  match s.producer with
  | .idle => none
  | .loadTail value head =>
      if s.ring.increment head = s.ring.tail then some { s with producer := .idle }
      else some { s with producer := .write value head }
  | .write value head =>
      if head.toNat < s.ring.slots.length then
        some { s with
          ring := { s.ring with slots := s.ring.slots.set head.toNat value }
          producer := .storeHead value head }
      else some { s with producer := .crashed }
  | .storeHead value head =>
      some { s with
        ring := { s.ring with head := s.ring.increment head }
        producer := .idle
        pushed := s.pushed ++ [value] }
  | .crashed => none

def popStep (s : RingThreads T) : Option (RingThreads T) :=
  match s.consumer with
  | .idle => none
  | .loadHead tail =>
      if tail = s.ring.head then some { s with consumer := .idle } else some { s with consumer := .read tail }
  | .read tail =>
      match s.ring.slots[tail.toNat]? with
      | some value => some { s with consumer := .storeTail tail value }
      | none => some { s with consumer := .crashed }
  | .storeTail tail value =>
      some { s with
        ring := { s.ring with tail := s.ring.increment tail }
        consumer := .idle
        popped := s.popped ++ [value] }
  | .crashed => none

def step (s : RingThreads T) : RingMove T → Option (RingThreads T)
  | .push value =>
      match s.producer with
      | .idle => some { s with producer := .loadTail value s.ring.head }
      | _ => none
  | .producer => s.pushStep
  | .pop =>
      match s.consumer with
      | .idle => some { s with consumer := .loadHead s.ring.tail }
      | _ => none
  | .consumer => s.popStep

def run (s : RingThreads T) : List (RingMove T) → Option (RingThreads T)
  | [] => some s
  | move :: later => (s.step move).bind (fun s => s.run later)

def unread (s : RingThreads T) : Nat := s.pushed.length - s.popped.length

/-- The slots of the values that are pushed and not popped. -/
def Unread (s : RingThreads T) (slot : Nat) : Prop :=
  ∃ index, index < s.unread ∧ slot = (s.ring.tail.toNat + index) % s.ring.capacity.toNat

/-- What the producer has seen of the ring stays so: its own index, and that there is room. -/
def Pushes (ring : SPSCRingBuffer T) : PushPc T → Prop
  | .idle => True
  | .loadTail _ head => head = ring.head
  | .write _ head => head = ring.head ∧ ring.isFull = false
  | .storeHead value head => head = ring.head ∧ ring.isFull = false ∧ ring.slots[ring.head.toNat]? = some value
  | .crashed => False

/-- What the consumer has seen: its own index, that there is a value, and which. -/
def Pops (ring : SPSCRingBuffer T) (items : List T) : PopPc T → Prop
  | .idle => True
  | .loadHead tail => tail = ring.tail
  | .read tail => tail = ring.tail ∧ items ≠ []
  | .storeTail tail value => tail = ring.tail ∧ items.head? = some value
  | .crashed => False

/-- The ring holds `items`, the values that are pushed and not popped. -/
structure Sound (s : RingThreads T) (items : List T) : Prop where
  queued : s.ring.Queued items
  split : s.pushed = s.popped ++ items
  pushes : Pushes s.ring s.producer
  pops : Pops s.ring items s.consumer

variable {s s' : RingThreads T} {items : List T}

theorem Pops.push {ring : SPSCRingBuffer T} {pc : PopPc T} (pops : Pops ring items pc) (head : UInt64) (value : T) :
    Pops { ring with head := head } (items ++ [value]) pc := by
  cases pc with
  | read tail => exact ⟨pops.1, List.append_ne_nil_of_left_ne_nil pops.2 _⟩
  | storeTail tail first =>
    refine ⟨pops.1, ?_⟩
    cases items with
    | nil => cases pops.2
    | cons _ _ => exact pops.2
  | _ => exact pops

theorem Pushes.release {ring : SPSCRingBuffer T} {pc : PushPc T} (pushes : Pushes ring pc)
    (room : ring.release.isFull = false) : Pushes ring.release pc := by
  cases pc with
  | write value head => exact ⟨pushes.1, room⟩
  | storeHead value head => exact ⟨pushes.1, room, pushes.2.2⟩
  | _ => exact pushes

/-- Nobody moves the tail but the consumer, so what the producer saw as room is room. -/
theorem Sound.pushStep (sound : s.Sound items) (moved : s.pushStep = some s') : ∃ items', s'.Sound items' := by
  have pushes := sound.pushes
  unfold RingThreads.pushStep at moved
  cases at' : s.producer with
  | idle => rw [at'] at moved; cases moved
  | crashed => rw [at'] at moved; cases moved
  | loadTail value head =>
    rw [at'] at moved pushes
    dsimp only at moved
    by_cases full : s.ring.increment head = s.ring.tail
    · rw [if_pos full] at moved
      cases moved
      exact ⟨items, sound.queued, sound.split, trivial, sound.pops⟩
    · rw [if_neg full] at moved
      cases moved
      refine ⟨items, sound.queued, sound.split, ⟨pushes, ?_⟩, sound.pops⟩
      rw [pushes] at full
      exact decide_eq_false full
  | write value head =>
    rw [at'] at moved pushes
    obtain ⟨own, room⟩ := pushes
    obtain ⟨ring, stored, queued, slot, same⟩ := sound.queued.store value
    unfold SPSCRingBuffer.store at stored
    dsimp only at moved
    rw [own] at moved
    by_cases inside : s.ring.head.toNat < s.ring.slots.length
    · rw [if_pos inside] at moved stored
      cases moved
      cases stored
      exact ⟨items, queued, sound.split, ⟨rfl, room, slot⟩, sound.pops⟩
    · rw [if_neg inside] at stored
      cases stored
  | storeHead value head =>
    rw [at'] at moved pushes
    obtain ⟨own, room, slot⟩ := pushes
    have queued := sound.queued.publish room slot
    cases moved
    refine ⟨items ++ [value], own ▸ queued, ?_, trivial, sound.pops.push _ _⟩
    dsimp only
    rw [sound.split, List.append_assoc]

/-- Nobody moves the head back, so what the consumer saw as a value is one, the first that is unread. -/
theorem Sound.popStep (sound : s.Sound items) (moved : s.popStep = some s') : ∃ items', s'.Sound items' := by
  have pops := sound.pops
  unfold RingThreads.popStep at moved
  cases at' : s.consumer with
  | idle => rw [at'] at moved; cases moved
  | crashed => rw [at'] at moved; cases moved
  | loadHead tail =>
    rw [at'] at moved pops
    dsimp only at moved
    by_cases none : tail = s.ring.head
    · rw [if_pos none] at moved
      cases moved
      exact ⟨items, sound.queued, sound.split, sound.pushes, trivial⟩
    · rw [if_neg none] at moved
      cases moved
      refine ⟨items, sound.queued, sound.split, sound.pushes, pops, ?_⟩
      intro empty
      apply none
      rw [pops]
      exact of_decide_eq_true (sound.queued.empty_iff.mpr empty)
  | read tail =>
    rw [at'] at moved pops
    obtain ⟨own, unread⟩ := pops
    obtain ⟨first, rest, same⟩ := List.exists_cons_of_ne_nil unread
    have queued := sound.queued
    rw [same] at queued
    have loaded : s.ring.slots[s.ring.tail.toNat]? = some first := queued.load
    dsimp only at moved
    rw [own, loaded] at moved
    cases moved
    refine ⟨items, sound.queued, sound.split, sound.pushes, rfl, ?_⟩
    rw [same]
    rfl
  | storeTail tail value =>
    rw [at'] at moved pops
    obtain ⟨own, front⟩ := pops
    have queued := sound.queued
    have split := sound.split
    cases items with
    | nil => cases front
    | cons first rest =>
      cases front
      cases moved
      refine ⟨rest, own ▸ queued.release, ?_, own ▸ sound.pushes.release queued.release_room, trivial⟩
      dsimp only
      rw [split, List.append_assoc]
      rfl

theorem Sound.step (sound : s.Sound items) {move : RingMove T} (moved : s.step move = some s') :
    ∃ items', s'.Sound items' := by
  cases move with
  | producer => exact sound.pushStep moved
  | consumer => exact sound.popStep moved
  | push value =>
    unfold RingThreads.step at moved
    dsimp only at moved
    split at moved <;> cases moved
    exact ⟨items, sound.queued, sound.split, rfl, sound.pops⟩
  | pop =>
    unfold RingThreads.step at moved
    dsimp only at moved
    split at moved <;> cases moved
    exact ⟨items, sound.queued, sound.split, sound.pushes, rfl⟩

theorem run_eq (s : RingThreads T) (schedule : List (RingMove T)) : s.run schedule = runFrom step s schedule :=
  eq_runFrom (fun _ => rfl) (fun _ _ _ => rfl) s schedule

theorem Sound.run {schedule : List (RingMove T)} (sound : s.Sound items) (ran : s.run schedule = some s') :
    ∃ items', s'.Sound items' := by
  rw [run_eq] at ran
  refine runFrom_keeps (P := fun next => ∃ items, next.Sound items) ?_ ran ⟨items, sound⟩
  intro before move after _ moved kept
  obtain ⟨items, kept⟩ := kept
  exact kept.step moved

theorem Sound.create {ring : SPSCRingBuffer T} (queued : ring.Queued []) : (RingThreads.create ring).Sound [] :=
  ⟨queued, rfl, trivial, trivial⟩

theorem Sound.unread_eq (sound : s.Sound items) : s.unread = items.length := by
  unfold unread
  rw [sound.split, List.length_append]
  omega

/-- The producer is about to write a slot that holds no unread value. -/
theorem Sound.write_free (sound : s.Sound items) {value : T} {head : UInt64} (at' : s.producer = .write value head) :
    ¬s.Unread head.toNat := by
  have pushes := sound.pushes
  rw [at'] at pushes
  rintro ⟨index, below, same⟩
  rw [sound.unread_eq] at below
  rw [pushes.1] at same
  exact sound.queued.circle.head_free below same.symm

theorem Sound.read_unread (sound : s.Sound items) {tail : UInt64} (at' : s.consumer = .read tail) :
    s.Unread tail.toNat := by
  have pops := sound.pops
  rw [at'] at pops
  refine ⟨0, ?_, ?_⟩
  · rw [sound.unread_eq]
    exact List.length_pos_of_ne_nil pops.2
  · rw [pops.1, Nat.add_zero, Nat.mod_eq_of_lt sound.queued.circle.tail_lt]

/-- A call of `tryPush` that gives up at its load of the tail. -/
theorem Sound.refused (sound : s.Sound items) {value : T} {head : UInt64} (at' : s.producer = .loadTail value head)
    (moved : s.step .producer = some s') (gave : s'.producer = .idle) : s.unread = s.ring.usable.toNat := by
  have pushes := sound.pushes
  rw [at'] at pushes
  have full : s.ring.isFull = true := by
    change s.pushStep = some s' at moved
    unfold RingThreads.pushStep at moved
    rw [at', pushes] at moved
    dsimp only at moved
    split at moved <;> cases moved
    next full => exact decide_eq_true full
    · cases gave
  have count := sound.queued.isFull_iff.mp full
  rw [sound.unread_eq, sound.queued.usable_toNat]
  omega

/-- A call of `tryPop` that gives up at its load of the head. -/
theorem Sound.starved (sound : s.Sound items) {tail : UInt64} (at' : s.consumer = .loadHead tail)
    (moved : s.step .consumer = some s') (gave : s'.consumer = .idle) : s.unread = 0 := by
  have pops := sound.pops
  rw [at'] at pops
  have empty : s.ring.empty = true := by
    change s.popStep = some s' at moved
    unfold RingThreads.popStep at moved
    rw [at', pops] at moved
    dsimp only at moved
    split at moved <;> cases moved
    next empty => exact decide_eq_true empty
    · cases gave
  rw [sound.unread_eq, sound.queued.empty_iff.mp empty, List.length_nil]

end RingThreads

/-- In every state that the two threads can reach: what was popped is a prefix of what was pushed; no more values are
unread than the ring can hold; a write goes to no unread slot, so not to the one being read; a call gives up only at a
full ring, or at an empty one; and no access leaves the vector. -/
theorem spsc_ring_correct {T : Type} [Inhabited T] (maxSize : Nat) (capacity : UInt64)
    (small : capacity.toNat < 2 ^ 63) (ring : SPSCRingBuffer T) (made : SPSCRingBuffer.create maxSize capacity = .ok ring)
    (schedule : List (RingMove T)) (s : RingThreads T) (ran : (RingThreads.create ring).run schedule = some s) :
    s.popped <+: s.pushed ∧ s.unread ≤ s.ring.usable.toNat ∧
      (∀ value head, s.producer = .write value head →
        ¬s.Unread head.toNat ∧ ∀ tail, s.consumer = .read tail → s.Unread tail.toNat ∧ head ≠ tail) ∧
      (∀ value head s', s.producer = .loadTail value head → s.step .producer = some s' → s'.producer = .idle →
        s.unread = s.ring.usable.toNat) ∧
      (∀ tail s', s.consumer = .loadHead tail → s.step .consumer = some s' → s'.consumer = .idle → s.unread = 0) ∧
      s.producer ≠ .crashed ∧ s.consumer ≠ .crashed := by
  have queued : ring.Queued [] := .create made (SPSCRingBuffer.size_unwrapped small)
  obtain ⟨items, sound⟩ := (RingThreads.Sound.create queued).run ran
  refine ⟨?_, ?_, ?_, fun value head s' => sound.refused, fun tail s' => sound.starved, ?_, ?_⟩
  · rw [sound.split]
    exact List.prefix_append _ _
  · have short := sound.queued.circle.short
    rw [sound.unread_eq, sound.queued.usable_toNat]
    omega
  · intro value head writes
    have free := sound.write_free writes
    refine ⟨free, fun tail reads => ⟨sound.read_unread reads, ?_⟩⟩
    intro same
    rw [same] at free
    exact free (sound.read_unread reads)
  · intro crashed
    have pushes := sound.pushes
    rw [crashed] at pushes
    exact pushes
  · intro crashed
    have pops := sound.pops
    rw [crashed] at pops
    exact pops

/-- One value goes through a ring for one value, and a second one is refused in between. -/
theorem spsc_ring_correct_sample :
    ∃ (ring : SPSCRingBuffer Nat) (s : RingThreads Nat), SPSCRingBuffer.create (maxSizeOf 8) 1 = .ok ring ∧
      (RingThreads.create ring).run
        [.push 7, .producer, .producer, .pop, .producer, .push 8, .consumer, .producer, .consumer, .consumer] = some s ∧
      s.pushed = [7] ∧ s.popped = [7] ∧ s.popped <+: s.pushed ∧ s.unread ≤ s.ring.usable.toNat := by
  have facts : ((RingThreads.create ⟨2, 1, [0, 0], 0, 0⟩ : RingThreads Nat).run
      [.push 7, .producer, .producer, .pop, .producer, .push 8, .consumer, .producer, .consumer, .consumer]).any
      (fun s => s.pushed = [7] ∧ s.popped = [7]) = true := by decide
  obtain ⟨s, ran, values⟩ := (Option.any_eq_true _ _).mp facts
  obtain ⟨pushed, popped⟩ := of_decide_eq_true values
  have correct := spsc_ring_correct (maxSizeOf 8) 1 (by decide) ⟨2, 1, [0, 0], 0, 0⟩ rfl _ s ran
  exact ⟨_, s, rfl, ran, pushed, popped, correct.1, correct.2.1⟩

end ChronoBook
