import ChronoBook.Library.Progress

/-! The blocking queue over a mutex and a condition variable, as any number of
producers and consumers use it. Each operation on the `std::queue` is a step of its own,
so that two consumers could take the same element if the mutex did not keep them apart. -/

namespace ChronoBook
open Library Monitor

/-- What is shared, and an account of the elements that no operation reads. -/
structure ThreadSafeQueue (T : Type) where
  q : List T := []
  closed : Bool := false
  pushed : List T := []
  popped : List T := []
  deriving DecidableEq, Repr

/-- What a call returns: `push` and `close` nothing, `pop` and `tryPop` an element if there is one. -/
inductive QueueResult (T : Type) where
  | push
  | pop (value : Option T)
  | tryPop (value : Option T)
  | close
  | closed (value : Bool)
  | size (value : Nat)
  deriving DecidableEq, Repr

/-- Where a thread stands: before taking the mutex, at the operations under it, at `leave` where it is given back on
return, and at the notification. `pop` and `tryPop` end alike; `pops` tells them apart. Taking the front of an
empty queue has no meaning. -/
inductive QueuePlace (T : Type) where
  | idle
  | returned (result : QueueResult T)
  | pushLock (value : T)
  | pushBody (value : T)
  | pushUnlock
  | pushNotify
  | popLock
  | popTest
  | popWait
  | popEmpty
  | tryPopLock
  | tryPopEmpty
  | front (pops : Bool)
  | take (pops : Bool) (value : T)
  | closeLock
  | closeBody
  | closeUnlock
  | closeNotify
  | closedLock
  | closedRead
  | sizeLock
  | sizeRead
  | leave (result : QueueResult T)
  | undefined
  deriving DecidableEq, Repr

namespace ThreadSafeQueue

variable {T : Type}

/-- The element goes to the caller of `pop` or of `tryPop`. -/
def result (pops : Bool) (value : Option T) : QueueResult T := if pops then .pop value else .tryPop value

def code : QueuePlace T → Instr (ThreadSafeQueue T) (QueuePlace T)
  | .idle => .idle
  | .returned _ => .idle
  | .pushLock value => .lock (.pushBody value)
  | .pushBody value => .act (fun queue =>
      ({ queue with q := queue.q ++ [value], pushed := queue.pushed ++ [value] }, .pushUnlock))
  | .pushUnlock => .unlock .pushNotify
  | .pushNotify => .notifyOne (.returned .push)
  | .popLock => .lock .popTest
  | .popTest => .act (fun queue => (queue, if !queue.q.isEmpty || queue.closed then .popEmpty else .popWait))
  | .popWait => .wait .popTest none
  | .popEmpty => .act (fun queue => (queue, if queue.q.isEmpty then .leave (.pop none) else .front true))
  | .tryPopLock => .lock .tryPopEmpty
  | .tryPopEmpty => .act (fun queue => (queue, if queue.q.isEmpty then .leave (.tryPop none) else .front false))
  | .front pops => .act (fun queue =>
      match queue.q with
      | [] => (queue, .undefined)
      | value :: _ => (queue, .take pops value))
  | .take pops value => .act (fun queue =>
      match queue.q with
      | [] => (queue, .undefined)
      | _ :: rest => ({ queue with q := rest, popped := queue.popped ++ [value] }, .leave (result pops (some value))))
  | .closeLock => .lock .closeBody
  | .closeBody => .act (fun queue => ({ queue with closed := true }, .closeUnlock))
  | .closeUnlock => .unlock .closeNotify
  | .closeNotify => .notifyAll (.returned .close)
  | .closedLock => .lock .closedRead
  | .closedRead => .act (fun queue => (queue, .leave (.closed queue.closed)))
  | .sizeLock => .lock .sizeRead
  | .sizeRead => .act (fun queue => (queue, .leave (.size queue.q.length)))
  | .leave result => .unlock (.returned result)
  | .undefined => .act (fun queue => (queue, .undefined))

def entry : QueuePlace T → Bool
  | .pushLock _ => true
  | .popLock => true
  | .tryPopLock => true
  | .closeLock => true
  | .closedLock => true
  | .sizeLock => true
  | _ => false

def program (T : Type) : Program (ThreadSafeQueue T) (QueuePlace T) := { code := code, entry := entry }

def create (T : Type) (m : Nat) : Monitor m (ThreadSafeQueue T) (QueuePlace T) := start m {} .idle

end ThreadSafeQueue

namespace QueuePlace

variable {T : Type}

def holds : QueuePlace T → Bool
  | .pushBody _ => true
  | .pushUnlock => true
  | .popTest => true
  | .popWait => true
  | .popEmpty => true
  | .tryPopEmpty => true
  | .front _ => true
  | .take _ _ => true
  | .closeBody => true
  | .closeUnlock => true
  | .closedRead => true
  | .sizeRead => true
  | .leave _ => true
  | .undefined => true
  | _ => false

end QueuePlace

namespace ThreadSafeQueue

variable {T : Type} {m : Nat}

theorem disciplined (T : Type) : (program T).Disciplined QueuePlace.holds where
  code := by
    intro here
    cases here with
    | popTest | popEmpty | tryPopEmpty | front | take =>
      intro queue
      dsimp only
      split <;> rfl
    | popWait => exact ⟨rfl, rfl, nofun⟩
    | pushBody | closeBody | closedRead | sizeRead | undefined => exact fun _ => rfl
    | pushLock | pushUnlock | popLock | tryPopLock | closeLock | closeUnlock | closedLock | sizeLock | leave =>
      exact ⟨rfl, rfl⟩
    | idle | returned | pushNotify | closeNotify => rfl
  entry := by
    intro here enters
    cases here <;> first | rfl | cases enters
  weak := by
    intro here next fails
    cases fails

/-- The elements are popped in the order in which they were pushed, and the others are queued. -/
def Inv (queue : ThreadSafeQueue T) : Prop := queue.pushed = queue.popped ++ queue.q

/-- What a result says about the queue at the moment when the mutex is given back. -/
def Right (queue : ThreadSafeQueue T) : QueueResult T → Prop
  | .pop (some value) => queue.popped.getLast? = some value
  | .pop none => queue.closed = true ∧ queue.q = []
  | .tryPop (some value) => queue.popped.getLast? = some value
  | .tryPop none => queue.q = []
  | .closed value => queue.closed = value
  | .size value => queue.q.length = value
  | _ => True

def Remains (queue : ThreadSafeQueue T) : QueueResult T → Prop
  | .pop (some value) => value ∈ queue.popped
  | .pop none => queue.closed = true
  | .tryPop (some value) => value ∈ queue.popped
  | _ => True

def asserts : QueuePlace T → ThreadSafeQueue T → Prop
  | .popEmpty, queue => queue.q ≠ [] ∨ queue.closed = true
  | .front _, queue => queue.q ≠ []
  | .take _ value, queue => queue.q.head? = some value
  | .leave result, queue => queue.Right result
  | .returned result, queue => queue.Remains result
  | .undefined, _ => False
  | _, _ => True

theorem Right.remains {queue : ThreadSafeQueue T} {result : QueueResult T} (right : queue.Right result) :
    queue.Remains result := by
  cases result with
  | pop value =>
    cases value with
    | none => exact right.1
    | some value => exact List.mem_of_getLast? right
  | tryPop value =>
    cases value with
    | none => trivial
    | some value => exact List.mem_of_getLast? right
  | _ => trivial

theorem right_result {queue : ThreadSafeQueue T} {value : T} (last : queue.popped.getLast? = some value) (pops : Bool) :
    queue.Right (result pops (some value)) := by
  cases pops <;> exact last

/-- An operation that keeps what was popped and does not reopen the queue disturbs nobody who is outside. -/
theorem undisturbed {before after : ThreadSafeQueue T} (more : before.popped ⊆ after.popped)
    (stays : before.closed = true → after.closed = true) {here : QueuePlace T} (held : here.holds = true)
    (other : QueuePlace T) (outside : here.holds = true → other.holds = false) (asserted : asserts other before) :
    asserts other after := by
  have free := outside held
  cases other with
  | returned result =>
    cases result with
    | pop value =>
      cases value with
      | none => exact stays asserted
      | some value => exact more asserted
    | tryPop value =>
      cases value with
      | none => trivial
      | some value => exact more asserted
    | _ => trivial
  | popEmpty => cases free
  | front pops => cases free
  | take pops value => cases free
  | leave result => cases free
  | undefined => cases free
  | _ => trivial

theorem outlined (T : Type) : (program T).Outlined QueuePlace.holds Inv asserts where
  code := by
    intro here
    have still : ∀ (queue : ThreadSafeQueue T) {place : QueuePlace T}, place.holds = true → ∀ other,
        (place.holds = true → other.holds = false) → asserts other queue → asserts other queue :=
      fun queue _ held => undisturbed (List.Subset.refl queue.popped) id held
    cases here with
    | pushBody value =>
      intro queue inv _
      refine ⟨?_, trivial, fun other => undisturbed ?_ ?_ rfl other⟩
      · change queue.pushed ++ [value] = queue.popped ++ (queue.q ++ [value])
        rw [show queue.pushed = _ from inv, List.append_assoc]
      · exact List.Subset.refl _
      · exact id
    | popTest =>
      intro queue inv _
      refine ⟨inv, ?_, still queue rfl⟩
      dsimp only
      split
      next some =>
        rw [Bool.or_eq_true, Bool.not_eq_true', List.isEmpty_eq_false_iff] at some
        exact some
      · trivial
    | popWait => exact fun _ _ => ⟨trivial, nofun⟩
    | popEmpty =>
      intro queue inv some
      refine ⟨inv, ?_, still queue rfl⟩
      dsimp only
      split
      next none =>
        have empty := List.isEmpty_iff.mp none
        exact ⟨some.resolve_left (fun full => full empty), empty⟩
      next full => exact fun empty => full (List.isEmpty_iff.mpr empty)
    | tryPopEmpty =>
      intro queue inv _
      refine ⟨inv, ?_, still queue rfl⟩
      dsimp only
      split
      next none => exact List.isEmpty_iff.mp none
      next full => exact fun empty => full (List.isEmpty_iff.mpr empty)
    | front pops =>
      intro queue inv full
      dsimp only
      split
      next empty => exact absurd empty full
      next value rest found =>
        refine ⟨inv, ?_, still queue rfl⟩
        change queue.q.head? = some value
        rw [found, List.head?_cons]
    | take pops value =>
      intro queue inv first
      change queue.q.head? = some value at first
      dsimp only
      split
      next empty =>
        rw [empty] at first
        cases first
      next front rest found =>
        rw [found, List.head?_cons, Option.some_inj] at first
        refine ⟨?_, right_result List.getLast?_concat pops, fun other => undisturbed ?_ ?_ rfl other⟩
        · change queue.pushed = queue.popped ++ [value] ++ rest
          rw [show queue.pushed = _ from inv, found, first, List.append_assoc, List.singleton_append]
        · exact List.subset_append_left _ _
        · exact id
    | closeBody =>
      intro queue inv _
      refine ⟨inv, trivial, fun other => undisturbed ?_ ?_ rfl other⟩
      · exact List.Subset.refl _
      · exact fun _ => rfl
    | closedRead => exact fun queue inv _ => ⟨inv, rfl, still queue rfl⟩
    | sizeRead => exact fun queue inv _ => ⟨inv, rfl, still queue rfl⟩
    | leave result => exact fun queue _ right => Right.remains right
    | undefined => exact fun queue inv impossible => ⟨inv, impossible, still queue rfl⟩
    | idle => trivial
    | returned result => trivial
    | _ => exact fun _ _ _ => trivial
  entry := by
    intro here enters
    cases here <;> first | exact fun _ _ => trivial | cases enters
  weak := by
    intro here next fails
    cases fails

def goesToSleep : QueuePlace T → Bool
  | .popWait => true
  | _ => false

theorem goesToSleep_holds (here : QueuePlace T) (parks : goesToSleep here = true) : here.holds = true := by
  cases here <;> first | rfl | cases parks

/-- What consumers wait for, with who will take or signal it. -/
def elements (T : Type) : Account (ThreadSafeQueue T) (QueuePlace T) where
  supply := fun queue => queue.q.length
  parks := goesToSleep
  early := fun _ => 0
  due
    | .pushUnlock => 1
    | .pushNotify => 1
    | .popTest => 1
    | .popEmpty => 1
    | .front _ => 1
    | .take _ _ => 1
    | _ => 0
  credit := 1

/-- That the queue is closed, with who will tell it. -/
def closing (T : Type) : Account (ThreadSafeQueue T) (QueuePlace T) where
  supply := fun queue => queue.closed.toNat
  parks := goesToSleep
  early := fun _ => 0
  due
    | .closeUnlock => 1
    | .closeNotify => 1
    | _ => 0
  credit := 0

theorem elements_balanced (T : Type) : (program T).Balanced QueuePlace.holds Inv asserts (elements T) where
  code := by
    intro here
    cases here with
    | pushBody value =>
      intro queue _ _
      refine Or.inr ⟨nofun, ?_, Or.inl ⟨rfl, rfl⟩⟩
      change (queue.q ++ [value]).length + 0 ≤ queue.q.length + 1
      rw [List.length_append, List.length_singleton]
    | popTest =>
      intro queue _ _
      dsimp only
      split
      · exact Or.inr ⟨nofun, Nat.le_refl _, Or.inl ⟨rfl, rfl⟩⟩
      next none =>
        rw [Bool.or_eq_true, Bool.not_eq_true', List.isEmpty_eq_false_iff, not_or, not_not] at none
        exact Or.inl (List.length_eq_zero_iff.mpr none.1)
    | popEmpty =>
      intro queue _ _
      dsimp only
      split
      next none => exact Or.inl (List.length_eq_zero_iff.mpr (List.isEmpty_iff.mp none))
      · exact Or.inr ⟨nofun, Nat.le_refl _, Or.inl ⟨rfl, rfl⟩⟩
    | tryPopEmpty =>
      intro queue _ _
      dsimp only
      split
      next none => exact Or.inl (List.length_eq_zero_iff.mpr (List.isEmpty_iff.mp none))
      · exact Or.inr ⟨nofun, Nat.le_succ _, Or.inl ⟨rfl, rfl⟩⟩
    | front pops =>
      intro queue _ _
      dsimp only
      split
      next none => exact Or.inl (List.length_eq_zero_iff.mpr none)
      · exact Or.inr ⟨nofun, Nat.le_refl _, Or.inl ⟨rfl, rfl⟩⟩
    | take pops value =>
      intro queue _ _
      dsimp only
      split
      next none => exact Or.inl (List.length_eq_zero_iff.mpr none)
      next front rest found =>
        refine Or.inr ⟨nofun, ?_, Or.inl ⟨rfl, rfl⟩⟩
        change rest.length + 1 ≤ queue.q.length + 0
        rw [found, List.length_cons]
    | closeBody | closedRead | sizeRead | undefined =>
      exact fun _ _ _ => Or.inr ⟨nofun, Nat.le_refl _, Or.inl ⟨rfl, rfl⟩⟩
    | popWait => exact ⟨rfl, rfl, ⟨Nat.le_refl 1, rfl⟩, nofun⟩
    | pushNotify => exact ⟨Nat.le_refl 1, Nat.le_refl 0, rfl⟩
    | closeNotify => exact ⟨Nat.le_refl 0, rfl⟩
    | idle | returned => rfl
    | popLock => exact ⟨Nat.zero_le _, rfl⟩
    | pushLock | pushUnlock | tryPopLock | closeLock | closeUnlock | closedLock | sizeLock | leave =>
      exact ⟨Nat.le_refl _, rfl⟩
  entry := by
    intro here enters
    cases here <;> first | rfl | cases enters
  weak := by
    intro here next fails
    cases fails
  parks := goesToSleep_holds

theorem closing_balanced (T : Type) : (program T).Balanced QueuePlace.holds Inv asserts (closing T) where
  code := by
    intro here
    cases here with
    | popTest =>
      intro queue _ _
      dsimp only
      split
      · exact Or.inr ⟨nofun, Nat.le_refl _, Or.inl ⟨rfl, rfl⟩⟩
      next none =>
        rw [Bool.or_eq_true, not_or, Bool.not_eq_true, Bool.not_eq_true] at none
        exact Or.inl (congrArg Bool.toNat none.2)
    | popEmpty | tryPopEmpty | front | take =>
      intro queue _ _
      dsimp only
      split <;> exact Or.inr ⟨nofun, Nat.le_refl _, Or.inl ⟨rfl, rfl⟩⟩
    | pushBody | closedRead | sizeRead | undefined =>
      exact fun _ _ _ => Or.inr ⟨nofun, Nat.le_refl _, Or.inl ⟨rfl, rfl⟩⟩
    | closeBody => exact fun _ _ _ => Or.inr ⟨nofun, Nat.le_add_left _ _, Or.inl ⟨rfl, rfl⟩⟩
    | popWait => exact ⟨rfl, rfl, ⟨Nat.le_refl 0, rfl⟩, nofun⟩
    | pushNotify => exact ⟨Nat.le_refl 0, Nat.le_refl 0, rfl⟩
    | closeNotify => exact ⟨Nat.le_refl 0, rfl⟩
    | idle | returned => rfl
    | pushLock | pushUnlock | popLock | tryPopLock | closeLock | closeUnlock | closedLock | sizeLock | leave =>
      exact ⟨Nat.le_refl _, rfl⟩
  entry := by
    intro here enters
    cases here <;> first | rfl | cases enters
  weak := by
    intro here next fails
    cases fails
  parks := goesToSleep_holds

/-- Nobody opens a closed queue again. -/
theorem closed_lasts (T : Type) : (program T).Lasts (closing T).supply := by
  intro here run code queue closed
  cases here <;> cases code <;> dsimp only <;> (try split) <;> first | exact closed | exact Nat.zero_lt_one

/-- How far the news of the close has come. No call leaves the mutex with this result. -/
def news (T : Type) : Notice (QueuePlace T) where
  heard
    | .closeUnlock => true
    | .closeNotify => true
    | .leave .close => true
    | .returned .close => true
    | _ => false
  told
    | .leave .close => true
    | .returned .close => true
    | _ => false

theorem announces (T : Type) : (program T).Announces QueuePlace.holds Inv asserts (closing T) (news T) where
  code := by
    intro here
    cases here with
    | popTest | popEmpty | tryPopEmpty | front =>
      intro queue _ _
      dsimp only
      split <;> exact ⟨nofun, nofun⟩
    | take pops value =>
      intro queue _ _
      dsimp only
      split
      · exact ⟨nofun, nofun⟩
      · cases pops <;> exact ⟨nofun, nofun⟩
    | closeBody => exact fun _ _ _ => ⟨nofun, fun _ => Or.inr ⟨rfl, Nat.zero_lt_one, rfl⟩⟩
    | pushBody | closedRead | sizeRead | undefined => exact fun _ _ _ => ⟨nofun, nofun⟩
    | popWait => exact ⟨rfl, nofun⟩
    | leave result => cases result <;> exact ⟨id, id⟩
    | closeUnlock => exact ⟨nofun, fun _ => rfl⟩
    | closeNotify => exact fun _ => rfl
    | pushNotify => rfl
    | idle | returned => trivial
    | pushLock | pushUnlock | popLock | tryPopLock | closeLock | closedLock | sizeLock => exact ⟨nofun, nofun⟩
  entry := by
    intro here enters
    cases here <;> first | rfl | cases enters
  weak := by
    intro here next fails
    cases fails
  heard := by
    intro here told
    cases here with
    | leave result | returned result => cases result <;> first | rfl | cases told
    | _ => cases told

section Runs

variable {s : Monitor m (ThreadSafeQueue T) (QueuePlace T)} {moves : List (Move m (QueuePlace T))}

theorem verified (T : Type) : (program T).Verified QueuePlace.holds Inv asserts := ⟨disciplined T, outlined T⟩

theorem create_kept (T : Type) (m : Nat) : (create T m).Kept QueuePlace.holds Inv asserts :=
  Kept.start m _ _ rfl rfl trivial

theorem kept (ran : (create T m).run (program T) moves = some s) : s.Kept QueuePlace.holds Inv asserts :=
  (create_kept T m).run (verified T) ran

theorem served (ran : (create T m).run (program T) moves = some s) : s.Served (elements T) := by
  have start : (create T m).Served (elements T) := Served.start m _ _ rfl
  exact start.run (verified T) (elements_balanced T) (create_kept T m) ran

theorem told (ran : (create T m).run (program T) moves = some s) : s.Served (closing T) := by
  have start : (create T m).Served (closing T) := Served.start m _ _ rfl
  exact start.run (verified T) (closing_balanced T) (create_kept T m) ran

theorem announced (ran : (create T m).run (program T) moves = some s) : s.Announced (closing T) (news T) := by
  have start : (create T m).Announced (closing T) (news T) := Announced.start m _ _ rfl rfl
  exact start.run (verified T) (announces T) (closing_balanced T) (closed_lasts T) (create_kept T m)
    (Served.start m _ _ rfl) ran

end Runs

/-- In every interleaving at most one thread is inside, the elements are popped in the order in which they were pushed,
each once, and what a call returns is right at the moment when it gives the mutex back: in particular `pop` comes
back without an element only when the queue is closed and everything that was pushed has been popped. -/
theorem queue_fifo (T : Type) (m : Nat) (moves : List (Move m (QueuePlace T)))
    (s : Monitor m (ThreadSafeQueue T) (QueuePlace T)) (ran : (create T m).run (program T) moves = some s) :
    s.shared.pushed = s.shared.popped ++ s.shared.q ∧
      (∀ t u, (s.threads t).holds QueuePlace.holds = true → (s.threads u).holds QueuePlace.holds = true → t = u) ∧
      (∀ t, s.threads t ≠ .running .undefined) ∧
      (∀ t result, s.threads t = .running (.leave result) → s.shared.Right result) ∧
      (∀ t, s.threads t = .running (.leave (.pop none)) → s.shared.closed = true ∧ s.shared.pushed = s.shared.popped) ∧
      ∀ t result, s.threads t = .running (.returned result) → s.shared.Remains result := by
  have annotated := (kept ran).annotated
  have inv : s.shared.pushed = s.shared.popped ++ s.shared.q := annotated.inv
  refine ⟨inv, fun _ _ => (kept ran).exclusive.unique, fun t place => annotated.running place,
    fun t result place => annotated.running place, fun t place => ?_, fun t result place => annotated.running place⟩
  have right : s.shared.closed = true ∧ s.shared.q = [] := annotated.running place
  refine ⟨right.1, ?_⟩
  rw [inv, right.2, List.append_nil]

/-- A consumer waits, and is handed an element. -/
def handover (consumer producer : Fin 2) : List (Move 2 (QueuePlace UInt64)) :=
  [.call consumer .popLock, .next consumer, .next consumer, .next consumer,
    .call producer (.pushLock 7), .next producer, .next producer, .next producer, .signal producer consumer,
    .next consumer, .next consumer, .next consumer, .next consumer, .next consumer]

theorem queue_fifo_handover : ∃ consumer producer s,
    (create UInt64 2).run (program UInt64) (handover consumer producer) = some s ∧
      s.threads consumer = .running (.leave (.pop (some 7))) ∧ s.shared.popped.getLast? = some 7 := by
  refine ⟨0, 1, _, rfl, rfl, ?_⟩
  exact (queue_fifo UInt64 2 (handover 0 1) _ rfl).2.2.2.1 0 _ rfl

/-- In every interleaving a consumer that sleeps leaves no element to nobody: there are not more elements than threads
that are on their way to take one or have still to notify. If no thread can go on, whoever sleeps does so at an
open queue without elements. Once a call of `close` has returned, whether another one is under way or not, nobody
sleeps or goes to sleep any more. -/
theorem queue_wakes (T : Type) (m : Nat) (moves : List (Move m (QueuePlace T)))
    (s : Monitor m (ThreadSafeQueue T) (QueuePlace T)) (ran : (create T m).run (program T) moves = some s) :
    (∀ u, (s.threads u).isAsleep = true → s.shared.q.length ≤ total (Thread.share (elements T)) s.threads) ∧
      (s.Stuck (program T) → ∀ u, (s.threads u).Rests (program T) ∧
        ((s.threads u).isAsleep = true → s.shared.q = [] ∧ s.shared.closed = false)) ∧
      ((s.shared.closed = true ∧ ∀ u, s.threads u ≠ .running .closeUnlock ∧ s.threads u ≠ .running .closeNotify) ∨
          (∃ t, s.threads t = .running (.returned .close)) →
        ∀ later s', s.run (program T) later = some s' →
          ∀ u, (s'.threads u).isAsleep = false ∧ s'.threads u ≠ .running .popWait) := by
  refine ⟨(served ran).asleep, fun stuck u => ⟨stuck.rests (disciplined T) (kept ran).exclusive u, fun sleeping => ?_⟩, ?_⟩
  · have none := (served ran).stuck (disciplined T) (elements_balanced T) (kept ran).exclusive stuck sleeping
    have opened := (told ran).stuck (disciplined T) (closing_balanced T) (kept ran).exclusive stuck sleeping
    exact ⟨List.length_eq_zero_iff.mp none, Bool.toNat_eq_zero.mp opened⟩
  · intro returned later s' ran' u
    have settled : s.Settled (closing T) := by
      rcases returned with ⟨closed, nobody⟩ | ⟨t, place⟩
      · refine (told ran).settled (by change 0 < s.shared.closed.toNat; rw [closed]; decide) rfl ?_
        intro v here owes
        cases here with
        | closeUnlock => exact (nobody v).1
        | closeNotify => exact (nobody v).2
        | _ => exact absurd rfl owes
      · exact (announced ran).told t (by rw [place]; rfl)
    have last := (settled.run (verified T) (closing_balanced T) (closed_lasts T) (kept ran) ran').never_waits u
    exact ⟨last.1, last.2 _ rfl⟩

/-- A consumer sleeps when the queue is closed, and the closing thread has notified. -/
def closeDown (consumer producer : Fin 2) : List (Move 2 (QueuePlace UInt64)) :=
  [.call consumer .popLock, .next consumer, .next consumer, .next consumer,
    .call producer .closeLock, .next producer, .next producer, .next producer, .next producer]

theorem queue_wakes_closeDown : ∃ consumer producer s,
    (create UInt64 2).run (program UInt64) (closeDown consumer producer) = some s ∧ s.shared.closed = true ∧
      (∀ u, s.threads u ≠ .running .closeUnlock ∧ s.threads u ≠ .running .closeNotify) ∧
      (s.threads consumer).isAsleep = false := by
  refine ⟨0, 1, _, rfl, rfl, by decide, ?_⟩
  exact ((queue_wakes UInt64 2 (closeDown 0 1) _ rfl).2.2 (Or.inl ⟨rfl, by decide⟩) [] _ rfl 0).1

/-! No livelock. -/

/-- The steps that are left at a place, with those of the sleepers that it wakes. -/
def steps (m : Nat) : QueuePlace T → Nat
  | .pushLock _ => 7
  | .pushBody _ => 6
  | .pushUnlock => 5
  | .pushNotify => 4
  | .popLock => 6
  | .popTest => 5
  | .popWait => 4
  | .popEmpty => 4
  | .tryPopLock => 5
  | .tryPopEmpty => 4
  | .front _ => 3
  | .take _ _ => 2
  | .closeLock => 3 * m + 4
  | .closeBody => 3 * m + 3
  | .closeUnlock => 3 * m + 2
  | .closeNotify => 3 * m + 1
  | .closedLock => 3
  | .closedRead => 2
  | .sizeLock => 3
  | .sizeRead => 2
  | .leave _ => 1
  | _ => 0

def tariff (T : Type) (m : Nat) : Tariff (QueuePlace T) := ⟨steps m, 3⟩

theorem paid (T : Type) (m : Nat) : (program T).Paid m Inv asserts (tariff T m) where
  code := by
    intro here queue inv asserted
    cases here with
    | popTest | popEmpty | tryPopEmpty =>
      dsimp only [Instr.Pays, program, code, tariff]
      split <;> simp [steps]
    | front pops | take pops value =>
      change steps m _ < _
      dsimp only
      split
      · exact Nat.succ_pos _
      · exact Nat.lt_succ_self _
    | closeLock | closeBody | closeUnlock => exact Nat.lt_succ_self _
    | closeNotify =>
      change 0 + m * 3 < 3 * m + 1
      omega
    | pushLock | pushBody | pushUnlock | popLock | tryPopLock | closedLock | closedRead | sizeLock | sizeRead | leave =>
      exact Nat.lt_succ_self _
    | pushNotify => exact Nat.lt_succ_self _
    | popWait =>
      change max (5 + 1 - 3) 0 < 4
      decide
    | idle | returned => trivial
    | undefined => exact asserted.elim
  weak := by
    intro here next fails
    cases fails

/-- A run is no longer than its calls allow: 8 steps for `push`, 7 for `pop`, 6 for `tryPop`, 5 and 3 for each thread
for `close`, 4 for the others and for every sleep that ends without a reason. From every state that can be
reached the threads run out of steps, where each of them is between calls or sleeps at an open queue without
elements. -/
theorem queue_runs_out (T : Type) (m : Nat) (moves : List (Move m (QueuePlace T)))
    (s : Monitor m (ThreadSafeQueue T) (QueuePlace T)) (ran : (create T m).run (program T) moves = some s) :
    moves.length + (tariff T m).price s ≤ (moves.map (tariff T m).charge).sum ∧
      ∃ later s', (∀ move ∈ later, Move.goesOn move = true) ∧ later.length ≤ (tariff T m).price s ∧
        s.run (program T) later = some s' ∧ ∀ u, (s'.threads u).Rests (program T) ∧
          ((s'.threads u).isAsleep = true → s'.shared.q = [] ∧ s'.shared.closed = false) := by
  have bound := run_pays (verified T) (paid T m) (create_kept T m) ran
  have nothing : (tariff T m).price (create T m) = 0 := (tariff T m).price_start m _ rfl
  obtain ⟨later, s', own, ran', stuck⟩ := runs_out (verified T) (paid T m) s (kept ran)
  have rest := run_pays (verified T) (paid T m) (kept ran) ran'
  have free : (later.map (tariff T m).charge).sum = 0 := by
    apply List.sum_eq_zero
    intro charge inside
    obtain ⟨move, member, rfl⟩ := List.mem_map.mp inside
    have goes := own move member
    cases move <;> first | rfl | cases goes
  have whole : (create T m).run (program T) (moves ++ later) = some s' := runFrom_two ran ran'
  refine ⟨by omega, later, s', own, by omega, ran', fun u => ⟨stuck.rests (disciplined T) (kept whole).exclusive u, ?_⟩⟩
  intro sleeping
  have none := (served whole).stuck (disciplined T) (elements_balanced T) (kept whole).exclusive stuck sleeping
  have opened := (told whole).stuck (disciplined T) (closing_balanced T) (kept whole).exclusive stuck sleeping
  exact ⟨List.length_eq_zero_iff.mp none, Bool.toNat_eq_zero.mp opened⟩

theorem queue_runs_out_handover : ∃ consumer producer s,
    (create UInt64 2).run (program UInt64) (handover consumer producer) = some s ∧
      (handover consumer producer).length + (tariff UInt64 2).price s ≤
        ((handover consumer producer).map (tariff UInt64 2).charge).sum := by
  refine ⟨0, 1, _, rfl, ?_⟩
  exact (queue_runs_out UInt64 2 (handover 0 1) _ rfl).1

end ThreadSafeQueue

end ChronoBook
