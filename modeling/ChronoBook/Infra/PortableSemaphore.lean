import ChronoBook.Infra.FutexSemaphore
import ChronoBook.Library.Signals
import Mathlib.Data.UInt

/-! The futex semaphore where there is no futex: the count and the shutdown flag are
atomics as on Linux, but the waiting is done on a condition variable, with an epoch
under the mutex that every release and the shutdown step. The atomics change without
the mutex, so each of the three tests of the predicate is a step of its own. -/

namespace ChronoBook
open Library Monitor

/-- What is shared, and an account of the permits that no operation reads. -/
structure PortableSemaphore where
  count : Int
  shutdown : Bool := false
  epoch : UInt64 := 0
  initial : Nat
  released : Nat := 0
  acquired : Nat := 0
  deriving DecidableEq, Repr

/-- What a call returns; `acquire` returns nothing, and `taken` says whether it took a permit. -/
inductive PortableResult where
  | release
  | acquire (taken : Bool)
  | tryAcquire (value : Bool)
  | tryAcquireFor (value : Bool)
  | shutdown
  | available (value : Nat)
  deriving DecidableEq, Repr

/-- Who evaluates the predicate: the wait of `acquire`, that of `tryAcquireFor`, or the latter once more after its
time has passed. -/
inductive WaitTest where
  | acquire
  | tryAcquireFor
  | late
  deriving DecidableEq, Repr

/-- Where a thread stands: `load` and `cas` are in `tryAcquire`, `flag` to `again` in one turn of the loop of `acquire`
or of `tryAcquireFor`. At `notifying` one more notification is due than it says. -/
inductive PortablePlace where
  | idle
  | returned (result : PortableResult)
  | post (n : UInt64)
  | releaseLock (n : UInt64)
  | releaseBody (n : UInt64)
  | releaseUnlock (n : UInt64)
  | notifying (left : Nat)
  | load (call : FutexCall)
  | cas (call : FutexCall) (observed : Int)
  | flag (timed : Bool)
  | waitLock (timed : Bool)
  | seeEpoch (timed : Bool)
  | testShutdown (test : WaitTest) (seen : UInt64)
  | testEpoch (test : WaitTest) (seen : UInt64)
  | testCount (test : WaitTest) (seen : UInt64)
  | waitWait (timed : Bool) (seen : UInt64)
  | again (timed : Bool)
  | refuse
  | store
  | shutdownLock
  | shutdownBody
  | shutdownUnlock
  | shutdownNotify
  | available
  deriving DecidableEq, Repr

namespace PortableSemaphore

def create (initial : UInt64) : PortableSemaphore := { count := toInt32 initial.toNat, initial := initial.toNat }

/-- What `tryAcquire` makes of a call that found a permit, and of one that did not. -/
def granted : FutexCall → PortableResult
  | .tryAcquire => .tryAcquire true
  | .acquire => .acquire true
  | .tryAcquireFor => .tryAcquireFor true

def refused : FutexCall → PortablePlace
  | .tryAcquire => .returned (.tryAcquire false)
  | .acquire => .flag false
  | .tryAcquireFor => .flag true

/-- The count was read, by the load or by an exchange that failed. -/
def observe (sem : PortableSemaphore) (call : FutexCall) : PortablePlace :=
  if 0 < sem.count then .cas call sem.count else refused call

def call (timed : Bool) : FutexCall := if timed then .tryAcquireFor else .acquire

def test (timed : Bool) : WaitTest := if timed then .tryAcquireFor else .acquire

/-- The predicate holds: the wait ends, and the loop goes on. -/
def ready : WaitTest → PortablePlace
  | .acquire => .again false
  | .tryAcquireFor => .again true
  | .late => .again true

def unready (seen : UInt64) : WaitTest → PortablePlace
  | .acquire => .waitWait false seen
  | .tryAcquireFor => .waitWait true seen
  | .late => .refuse

/-- The loop of `release` with so many notifications left. -/
def notifications : Nat → PortablePlace
  | 0 => .returned .release
  | left + 1 => .notifying left

def code : PortablePlace → Instr PortableSemaphore PortablePlace
  | .idle => .idle
  | .returned _ => .idle
  | .post n => .act (fun sem =>
      ({ sem with count := toInt32 (sem.count + toInt32 n.toNat), released := sem.released + n.toNat }, .releaseLock n))
  | .releaseLock n => .lock (.releaseBody n)
  | .releaseBody n => .act (fun sem => ({ sem with epoch := sem.epoch + 1 }, .releaseUnlock n))
  | .releaseUnlock n => .unlock (notifications n.toNat)
  | .notifying left => .notifyOne (notifications left)
  | .load call => .act (fun sem => (sem, sem.observe call))
  | .cas call observed => .act (fun sem =>
      if sem.count = observed then
        ({ sem with count := observed - 1, acquired := sem.acquired + 1 }, .returned (granted call))
      else (sem, sem.observe call))
  | .flag timed => .act (fun sem =>
      (sem, if sem.shutdown then .returned (if timed then .tryAcquireFor false else .acquire false) else .waitLock timed))
  | .waitLock timed => .lock (.seeEpoch timed)
  | .seeEpoch timed => .act (fun sem => (sem, .testShutdown (test timed) sem.epoch))
  | .testShutdown test seen => .act (fun sem => (sem, if sem.shutdown then ready test else .testEpoch test seen))
  | .testEpoch test seen => .act (fun sem => (sem, if sem.epoch ≠ seen then ready test else .testCount test seen))
  | .testCount test seen => .act (fun sem => (sem, if 0 < sem.count then ready test else unready seen test))
  | .waitWait timed seen =>
      .wait (.testShutdown (test timed) seen) (if timed then some (.testShutdown .late seen) else none)
  | .again timed => .unlock (.load (call timed))
  | .refuse => .unlock (.returned (.tryAcquireFor false))
  | .store => .act (fun sem => ({ sem with shutdown := true }, .shutdownLock))
  | .shutdownLock => .lock .shutdownBody
  | .shutdownBody => .act (fun sem => ({ sem with epoch := sem.epoch + 1 }, .shutdownUnlock))
  | .shutdownUnlock => .unlock .shutdownNotify
  | .shutdownNotify => .notifyAll (.returned .shutdown)
  | .available => .act (fun sem => (sem, .returned (.available (if 0 < sem.count then sem.count.toNat else 0))))

def entry : PortablePlace → Bool
  | .post _ => true
  | .load _ => true
  | .store => true
  | .available => true
  | _ => false

/-- A weak exchange may fail; it then loads the count. -/
def weak : PortablePlace → Option PortablePlace
  | .cas call _ => some (.load call)
  | _ => none

def program : Program PortableSemaphore PortablePlace := { code := code, entry := entry, weak := weak }

def system (m : Nat) (initial : UInt64) : Monitor m PortableSemaphore PortablePlace := start m (create initial) .idle

end PortableSemaphore

def PortablePlace.holds : PortablePlace → Bool
  | .releaseBody _ => true
  | .releaseUnlock _ => true
  | .seeEpoch _ => true
  | .testShutdown _ _ => true
  | .testEpoch _ _ => true
  | .testCount _ _ => true
  | .waitWait _ _ => true
  | .again _ => true
  | .refuse => true
  | .shutdownBody => true
  | .shutdownUnlock => true
  | _ => false

namespace PortableSemaphore

theorem notifications_holds (left : Nat) : (notifications left).holds = false := by
  cases left <;> rfl

/-- A mark that the places after a load do not have. -/
theorem observe_unmarked {marked : PortablePlace → Bool} {call : FutexCall} (sem : PortableSemaphore)
    (cas : ∀ observed, marked (.cas call observed) = false) (fails : marked (refused call) = false) :
    marked (sem.observe call) = false := by
  unfold observe
  split
  · exact cas sem.count
  · exact fails

theorem observe_holds (sem : PortableSemaphore) (call : FutexCall) : (sem.observe call).holds = false :=
  observe_unmarked sem (fun _ => rfl) (by cases call <;> rfl)

theorem ready_holds (test : WaitTest) : (ready test).holds = true := by
  cases test <;> rfl

theorem unready_holds (seen : UInt64) (test : WaitTest) : (unready seen test).holds = true := by
  cases test <;> rfl

theorem disciplined : program.Disciplined PortablePlace.holds where
  code := by
    intro here
    cases here with
    | load call => exact fun sem => observe_holds sem call
    | cas call observed =>
      intro sem
      dsimp only
      split
      · rfl
      · exact observe_holds sem call
    | flag timed =>
      intro sem
      dsimp only
      split <;> rfl
    | testShutdown test seen =>
      intro sem
      dsimp only
      split
      · exact ready_holds test
      · rfl
    | testEpoch test seen =>
      intro sem
      dsimp only
      split
      · exact ready_holds test
      · rfl
    | testCount test seen =>
      intro sem
      dsimp only
      split
      · exact ready_holds test
      · exact unready_holds seen test
    | waitWait timed seen => exact ⟨rfl, rfl, forall_late timed rfl⟩
    | releaseUnlock n => exact ⟨rfl, notifications_holds n.toNat⟩
    | notifying left => exact notifications_holds left
    | post | releaseBody | seeEpoch | store | shutdownBody | available => exact fun _ => rfl
    | releaseLock | waitLock | again | refuse | shutdownLock | shutdownUnlock => exact ⟨rfl, rfl⟩
    | idle | returned | shutdownNotify => rfl
  entry := by
    intro here enters
    cases here <;> first | rfl | cases enters
  weak := by
    intro here next code
    cases here <;> cases code
    rfl

/-- The count is an `int`, and the permits are accounted for as long as their number fits one. -/
structure Inv (sem : PortableSemaphore) : Prop where
  low : -2 ^ 31 ≤ sem.count
  permits : sem.initial + sem.released < 2 ^ 31 →
    0 ≤ sem.count ∧ sem.count + sem.acquired = sem.initial + sem.released

/-- An exchange takes a permit only if one was seen, `acquire` gives up only at a shutdown, and the flag is set when
`shutdown` asks for the mutex. -/
def asserts : PortablePlace → PortableSemaphore → Prop
  | .cas _ observed, _ => 0 < observed
  | .shutdownLock, sem => sem.shutdown = true
  | .returned (.acquire false), sem => sem.shutdown = true
  | _, _ => True

theorem Inv.create (initial : UInt64) : (create initial).Inv := by
  unfold PortableSemaphore.create
  refine ⟨?_, fun fits => ?_⟩
  · dsimp only
    exact le_toInt32 initial.toNat
  · simp only [Nat.add_zero] at fits ⊢
    have cast : toInt32 initial.toNat = initial.toNat := toInt32_of_bounds (by omega) (by omega)
    rw [cast]
    omega

theorem Inv.posted {sem : PortableSemaphore} (inv : sem.Inv) (n : UInt64) :
    Inv { sem with count := toInt32 (sem.count + toInt32 n.toNat), released := sem.released + n.toNat } := by
  refine ⟨le_toInt32 _, fun fits => ?_⟩
  change sem.initial + (sem.released + n.toNat) < 2 ^ 31 at fits
  obtain ⟨nonneg, permits⟩ := inv.permits (by omega)
  have number : toInt32 n.toNat = n.toNat := toInt32_of_bounds (by omega) (by omega)
  have count : toInt32 (sem.count + n.toNat) = sem.count + n.toNat := toInt32_of_bounds (by omega) (by omega)
  dsimp only
  rw [number, count]
  omega

theorem Inv.taken {sem : PortableSemaphore} (inv : sem.Inv) {observed : Int} (positive : 0 < observed)
    (same : sem.count = observed) : Inv { sem with count := observed - 1, acquired := sem.acquired + 1 } := by
  refine ⟨?_, fun fits => ?_⟩
  · change -2 ^ 31 ≤ observed - 1
    omega
  · obtain ⟨nonneg, permits⟩ := inv.permits fits
    dsimp only
    omega

/-- No access disturbs what is asserted elsewhere, because a shutdown is never taken back. -/
theorem undisturbed {before after : PortableSemaphore} (stays : before.shutdown = true → after.shutdown = true)
    (other : PortablePlace) : asserts other before → asserts other after := by
  cases other with
  | returned result =>
    cases result with
    | acquire taken =>
      cases taken with
      | false => exact stays
      | true => exact id
    | _ => exact id
  | shutdownLock => exact stays
  | _ => exact id

theorem observe_asserts (sem : PortableSemaphore) (call : FutexCall) : asserts (sem.observe call) sem := by
  unfold observe
  split
  next some => exact some
  · cases call <;> trivial

theorem ready_asserts (test : WaitTest) (sem : PortableSemaphore) : asserts (ready test) sem := by
  cases test <;> trivial

theorem outlined : program.Outlined PortablePlace.holds Inv asserts where
  code := by
    intro here
    cases here with
    | post n => exact fun sem inv _ => ⟨inv.posted n, trivial, fun other _ => undisturbed (by exact id) other⟩
    | load call => exact fun sem inv _ => ⟨inv, observe_asserts sem call, fun other _ => id⟩
    | cas call observed =>
      intro sem inv positive
      dsimp only
      split
      next same =>
        refine ⟨inv.taken positive same, ?_, fun other _ => undisturbed (by exact id) other⟩
        cases call <;> trivial
      next => exact ⟨inv, observe_asserts sem call, fun other _ => id⟩
    | flag timed =>
      intro sem inv _
      refine ⟨inv, ?_, fun other _ => id⟩
      dsimp only
      split
      next closed =>
        cases timed
        · exact closed
        · trivial
      · trivial
    | testShutdown test seen =>
      intro sem inv _
      refine ⟨inv, ?_, fun other _ => id⟩
      dsimp only
      split
      · exact ready_asserts test sem
      · trivial
    | testEpoch test seen =>
      intro sem inv _
      refine ⟨inv, ?_, fun other _ => id⟩
      dsimp only
      split
      · exact ready_asserts test sem
      · trivial
    | testCount test seen =>
      intro sem inv _
      refine ⟨inv, ?_, fun other _ => id⟩
      dsimp only
      split
      · exact ready_asserts test sem
      · cases test <;> trivial
    | waitWait timed seen => exact fun _ _ => ⟨trivial, forall_late timed trivial⟩
    | releaseBody | shutdownBody => exact fun sem inv _ => ⟨⟨inv.low, inv.permits⟩, trivial, fun other _ => undisturbed (by exact id) other⟩
    | seeEpoch | available => exact fun sem inv _ => ⟨inv, trivial, fun other _ => id⟩
    | store => exact fun sem inv _ => ⟨⟨inv.low, inv.permits⟩, rfl, fun other _ => undisturbed (fun _ => rfl) other⟩
    | releaseUnlock n => exact fun _ _ _ => by cases n.toNat <;> trivial
    | notifying left => exact fun _ _ _ => by cases left <;> trivial
    | idle | returned => trivial
    | releaseLock | waitLock | again | refuse | shutdownLock | shutdownUnlock | shutdownNotify =>
      exact fun _ _ _ => trivial
  entry := by
    intro here enters
    cases here <;> first | exact fun _ _ => trivial | cases enters
  weak := by
    intro here next code
    cases here <;> cases code
    exact fun _ _ _ => trivial

/-- The permits, with who will take or signal them. A release that has posted its permits signals them only after it
has taken the mutex. -/
def permits : Account PortableSemaphore PortablePlace where
  supply := fun sem => sem.count.toNat
  parks
    | .waitWait _ _ => true
    | _ => false
  early
    | .releaseLock n => n.toNat
    | _ => 0
  due
    | .releaseBody n => n.toNat
    | .releaseUnlock n => n.toNat
    | .notifying left => left + 1
    | .load _ => 1
    | .cas _ _ => 1
    | .testShutdown _ _ => 1
    | .testEpoch _ _ => 1
    | .testCount _ _ => 1
    | .again _ => 1
    | _ => 0
  credit := 1

/-- That the semaphore is shut down, with who will tell it. A wait that has tested the flag does not look again. -/
def closing : Account PortableSemaphore PortablePlace where
  supply := fun sem => sem.shutdown.toNat
  parks
    | .testEpoch _ _ => true
    | .testCount _ _ => true
    | .waitWait _ _ => true
    | _ => false
  early
    | .shutdownLock => 1
    | _ => 0
  due
    | .shutdownBody => 1
    | .shutdownUnlock => 1
    | .shutdownNotify => 1
    | _ => 0
  credit := 0

/-- A release adds at most the permits that it was asked to, whether the count wraps or not. -/
theorem posted_le {count : Int} (low : -2 ^ 31 ≤ count) (n : Nat) :
    (toInt32 (count + toInt32 n)).toNat ≤ count.toNat + n := by
  have same : toInt32 (count + toInt32 n) = toInt32 (count + n) := Int.add_bmod_bmod
  rw [same]
  by_cases negative : count + n < 0
  · rw [toInt32_of_bounds (by omega) (by omega)]
    omega
  · have reached : (((count + n).toNat : Nat) : Int) = count + n := Int.toNat_of_nonneg (by omega)
    have bound := toInt32_le (count + n).toNat
    rw [reached] at bound
    omega

theorem notifications_share (left : Nat) : permits.share (notifications left) = left := by
  cases left with
  | zero => rfl
  | succ left => exact Nat.zero_add _

theorem notifications_awake (left : Nat) : permits.parks (notifications left) = false := by
  cases left <;> rfl

/-- Who reads the count goes for the permit it saw, or there is none. -/
theorem observe_allowed {sem : PortableSemaphore} {here : PortablePlace} (share : permits.share here ≤ 1)
    (early : permits.early here = 0) (call : FutexCall) :
    permits.Allows PortablePlace.holds here sem (sem, sem.observe call) := by
  unfold observe
  split
  · refine Or.inr ⟨nofun, Nat.add_le_add_left share _, Or.inr ?_⟩
    rw [early]
    exact Nat.le_refl _
  next none => exact Or.inl (Int.toNat_of_nonpos (Int.not_lt.mp none))

theorem ready_allowed {sem : PortableSemaphore} {here : PortablePlace} (held : here.holds = true)
    (unparked : permits.parks here = false) (share : permits.share here = 1) (test : WaitTest) :
    permits.Allows PortablePlace.holds here sem (sem, ready test) := by
  refine Or.inr ⟨fun parking => ?_, Nat.add_le_add_left ?_ _, Or.inl ⟨held, unparked⟩⟩
  · cases test <;> cases parking
  · rw [share]
    cases test <;> exact Nat.le_refl 1

theorem permits_balanced : program.Balanced PortablePlace.holds Inv asserts permits where
  code := by
    intro here
    cases here with
    | post n =>
      intro sem inv _
      have less := posted_le inv.low n.toNat
      exact Or.inr ⟨nofun, less, Or.inr less⟩
    | load call => exact fun sem _ _ => observe_allowed (Nat.le_of_eq rfl) rfl call
    | cas call observed =>
      intro sem _ positive
      dsimp only
      split
      next same =>
        have less : (observed - 1).toNat + 1 ≤ sem.count.toNat := by
          rw [same]
          change 0 < observed at positive
          omega
        exact Or.inr ⟨by cases call <;> exact nofun, less, Or.inr (Nat.le_of_succ_le less)⟩
      next => exact observe_allowed (Nat.le_of_eq rfl) rfl call
    | flag timed =>
      intro sem _ _
      dsimp only
      split <;> exact Or.inr ⟨nofun, Nat.le_refl _, Or.inr (Nat.le_refl _)⟩
    | testShutdown test seen =>
      intro sem _ _
      dsimp only
      split
      · exact ready_allowed rfl rfl rfl test
      · exact Or.inr ⟨nofun, Nat.le_refl _, Or.inl ⟨rfl, rfl⟩⟩
    | testEpoch test seen =>
      intro sem _ _
      dsimp only
      split
      · exact ready_allowed rfl rfl rfl test
      · exact Or.inr ⟨nofun, Nat.le_refl _, Or.inl ⟨rfl, rfl⟩⟩
    | testCount test seen =>
      intro sem _ _
      dsimp only
      split
      · exact ready_allowed rfl rfl rfl test
      next none => exact Or.inl (Int.toNat_of_nonpos (Int.not_lt.mp none))
    | waitWait timed seen => exact ⟨rfl, rfl, ⟨Nat.le_refl 1, rfl⟩, forall_late timed ⟨Nat.le_refl 1, rfl⟩⟩
    | releaseBody | shutdownBody => exact fun _ _ _ => Or.inr ⟨nofun, Nat.le_refl _, Or.inl ⟨rfl, rfl⟩⟩
    | seeEpoch => exact fun _ _ _ => Or.inr ⟨nofun, Nat.le_succ _, Or.inl ⟨rfl, rfl⟩⟩
    | store | available => exact fun _ _ _ => Or.inr ⟨nofun, Nat.le_refl _, Or.inr (Nat.le_refl _)⟩
    | releaseUnlock n =>
      refine ⟨?_, notifications_awake n.toNat⟩
      rw [notifications_share]
      exact Nat.le_of_eq (Nat.zero_add _)
    | notifying left =>
      refine ⟨?_, Nat.zero_le _, notifications_awake left⟩
      rw [notifications_share]
      exact Nat.le_of_eq (Nat.zero_add _)
    | releaseLock n => exact ⟨Nat.le_of_eq (Nat.add_comm _ _), rfl⟩
    | again timed => exact ⟨Nat.le_refl 1, rfl⟩
    | idle | returned => rfl
    | shutdownNotify => exact ⟨Nat.le_refl 0, rfl⟩
    | waitLock | refuse | shutdownLock | shutdownUnlock => exact ⟨Nat.le_refl _, rfl⟩
  entry := by
    intro here enters
    cases here <;> first | rfl | cases enters
  weak := by
    intro here next code
    cases here <;> cases code
    exact ⟨Nat.le_refl 1, Nat.le_refl 0, rfl⟩
  parks := by
    intro here parks
    cases here <;> first | rfl | cases parks

/-- An access that leads to no wait does not change what the closing thread owes. -/
theorem closing_still {sem : PortableSemaphore} {here next : PortablePlace} (share : closing.share here = 0)
    (unparked : closing.parks next = false) : closing.Allows PortablePlace.holds here sem (sem, next) := by
  have none : closing.early here = 0 := Nat.eq_zero_of_add_eq_zero_right share
  refine Or.inr ⟨fun parking => (nomatch unparked.symm.trans parking), ?_, Or.inr ?_⟩
  · rw [share]
    exact Nat.le_add_right _ _
  · rw [none]
    exact Nat.le_add_right _ _

theorem closing_observe (sem : PortableSemaphore) (call : FutexCall) : closing.parks (sem.observe call) = false :=
  observe_unmarked sem (fun _ => rfl) (by cases call <;> rfl)

theorem closing_ready (test : WaitTest) : closing.parks (ready test) = false := by cases test <;> rfl

theorem closing_balanced : program.Balanced PortablePlace.holds Inv asserts closing where
  code := by
    intro here
    cases here with
    | load call => exact fun sem _ _ => closing_still rfl (closing_observe sem call)
    | cas call observed =>
      intro sem _ _
      dsimp only
      split
      · exact Or.inr ⟨nofun, Nat.le_refl _, Or.inr (Nat.le_refl _)⟩
      · exact closing_still rfl (closing_observe sem call)
    | flag timed =>
      refine fun sem _ _ => closing_still rfl ?_
      split <;> rfl
    | testShutdown test seen =>
      intro sem _ _
      dsimp only
      split
      · exact closing_still rfl (closing_ready test)
      next opened => exact Or.inl (Bool.toNat_eq_zero.mpr (Bool.eq_false_iff.mpr opened))
    | testEpoch test seen =>
      intro sem _ _
      dsimp only
      split
      · exact closing_still rfl (closing_ready test)
      · exact Or.inr ⟨fun _ => rfl, Nat.le_refl _, Or.inr (Nat.le_refl _)⟩
    | testCount test seen =>
      intro sem _ _
      dsimp only
      split
      · exact closing_still rfl (closing_ready test)
      · refine Or.inr ⟨fun _ => rfl, ?_, Or.inr ?_⟩ <;> cases test <;> exact Nat.le_refl _
    | waitWait timed seen => exact ⟨rfl, rfl, ⟨Nat.le_refl 0, rfl⟩, forall_late timed ⟨Nat.le_refl 0, rfl⟩⟩
    | store => exact fun _ _ _ => Or.inr ⟨nofun, Nat.le_add_left _ _, Or.inr (Nat.le_add_left _ _)⟩
    | post | releaseBody | seeEpoch | shutdownBody | available =>
      exact fun _ _ _ => Or.inr ⟨nofun, Nat.le_refl _, Or.inr (Nat.le_refl _)⟩
    | releaseUnlock n => exact ⟨Nat.zero_le _, by cases n.toNat <;> rfl⟩
    | notifying left => exact ⟨Nat.zero_le _, Nat.zero_le _, by cases left <;> rfl⟩
    | idle | returned => rfl
    | shutdownNotify => exact ⟨Nat.le_refl 0, rfl⟩
    | releaseLock | waitLock | again | refuse | shutdownLock | shutdownUnlock => exact ⟨Nat.le_refl _, rfl⟩
  entry := by
    intro here enters
    cases here <;> first | rfl | cases enters
  weak := by
    intro here next code
    cases here <;> cases code
    exact ⟨Nat.le_refl 0, Nat.le_refl 0, rfl⟩
  parks := by
    intro here parks
    cases here <;> first | rfl | cases parks

/-- Nobody takes a shutdown back. -/
theorem shutdown_lasts : program.Lasts closing.supply := by
  intro here run code sem closed
  cases here <;> cases code <;> dsimp only <;> (try split) <;> first | exact closed | exact Nat.zero_lt_one

/-- How far the news of the shutdown has come. Who takes the mutex after the flag was set meets nobody that has tested
it before. -/
def news : Notice PortablePlace where
  heard
    | .shutdownBody => true
    | .shutdownUnlock => true
    | .shutdownNotify => true
    | .returned .shutdown => true
    | _ => false
  told
    | .returned .shutdown => true
    | _ => false

theorem news_observe (sem : PortableSemaphore) (call : FutexCall) : news.heard (sem.observe call) = false :=
  observe_unmarked sem (fun _ => rfl) (by cases call <;> rfl)

theorem news_heard (here : PortablePlace) (told : news.told here = true) : news.heard here = true := by
  cases here with
  | returned result => cases result <;> first | rfl | cases told
  | _ => cases told

/-- An access of a call that has nothing to tell. -/
theorem unheard_announces {here next : PortablePlace} {sem : PortableSemaphore} (unheard : news.heard next = false) :
    (news.told next = true → news.told here = true) ∧ (news.heard next = true → news.heard here = true ∨
      here.holds = true ∧ 0 < closing.supply sem ∧ closing.parks next = false) :=
  ⟨fun told => (nomatch unheard.symm.trans (news_heard next told)), fun heard => nomatch unheard.symm.trans heard⟩

theorem announces : program.Announces PortablePlace.holds Inv asserts closing news where
  code := by
    intro here
    cases here with
    | load call => exact fun sem _ _ => unheard_announces (news_observe sem call)
    | cas call observed =>
      intro sem _ _
      dsimp only
      split
      · exact unheard_announces (by cases call <;> rfl)
      · exact unheard_announces (news_observe sem call)
    | flag timed =>
      refine fun sem _ _ => unheard_announces ?_
      dsimp only
      split
      · cases timed <;> rfl
      · rfl
    | testShutdown test seen | testEpoch test seen =>
      refine fun sem _ _ => unheard_announces ?_
      dsimp only
      split
      · cases test <;> rfl
      · rfl
    | testCount test seen =>
      refine fun sem _ _ => unheard_announces ?_
      dsimp only
      split <;> cases test <;> rfl
    | waitWait timed seen => exact ⟨rfl, forall_late timed rfl⟩
    | post | releaseBody | seeEpoch | store | available => exact fun _ _ _ => unheard_announces rfl
    | shutdownBody => exact fun _ _ _ => ⟨nofun, fun _ => Or.inl rfl⟩
    | releaseUnlock n => cases sent : n.toNat <;> (dsimp only [program, code]; rw [sent]; exact ⟨nofun, nofun⟩)
    | notifying left => cases left <;> rfl
    | shutdownLock =>
      refine ⟨nofun, fun _ sem _ closed => ?_⟩
      change 0 < sem.shutdown.toNat
      rw [show sem.shutdown = true from closed]
      exact Nat.zero_lt_one
    | shutdownUnlock => exact ⟨nofun, fun _ => rfl⟩
    | shutdownNotify => exact fun _ => rfl
    | idle | returned => trivial
    | releaseLock | waitLock | again | refuse => exact ⟨nofun, nofun⟩
  entry := by
    intro here enters
    cases here <;> first | rfl | cases enters
  weak := by
    intro here next code
    cases here <;> cases code
    rfl
  heard := news_heard

section Runs

variable {m : Nat} {initial : UInt64} {s : Monitor m PortableSemaphore PortablePlace} {moves : List (Move m PortablePlace)}

theorem verified : program.Verified PortablePlace.holds Inv asserts := ⟨disciplined, outlined⟩

theorem system_kept (m : Nat) (initial : UInt64) : (system m initial).Kept PortablePlace.holds Inv asserts :=
  Kept.start m _ _ rfl (Inv.create initial) trivial

theorem kept (ran : (system m initial).run program moves = some s) : s.Kept PortablePlace.holds Inv asserts :=
  (system_kept m initial).run verified ran

theorem served (ran : (system m initial).run program moves = some s) : s.Served permits := by
  have start : (system m initial).Served permits := Served.start m _ _ rfl
  exact start.run verified permits_balanced (system_kept m initial) ran

theorem told (ran : (system m initial).run program moves = some s) : s.Served closing := by
  have start : (system m initial).Served closing := Served.start m _ _ rfl
  exact start.run verified closing_balanced (system_kept m initial) ran

theorem announced (ran : (system m initial).run program moves = some s) : s.Announced closing news := by
  have start : (system m initial).Announced closing news := Announced.start m _ _ rfl rfl
  exact start.run verified announces closing_balanced shutdown_lasts (system_kept m initial) (Served.start m _ _ rfl) ran

theorem initial_kept (ran : (system m initial).run program moves = some s) : s.shared.initial = initial.toNat := by
  refine run_keeps (P := fun s => s.shared.initial = initial.toNat) ?_ ran rfl
  intro s s' stepped before
  cases stepped with
  | @acted t here run place code =>
    refine Eq.trans ?_ before
    cases here <;> cases code <;> try rfl
    dsimp only
    split <;> rfl
  | _ => exact before

end Runs

/-- In every interleaving the permits are accounted for while their number fits an `int`, and `acquire` gives up only
at a shutdown. A thread that sleeps leaves no permit to nobody; if no thread can go on, whoever sleeps finds
neither a permit nor a shutdown; and once a call of `shutdown` has returned, whether another one is under way or
not, nobody sleeps or goes to sleep any more. -/
theorem portable_semaphore (m : Nat) (initial : UInt64) (moves : List (Move m PortablePlace))
    (s : Monitor m PortableSemaphore PortablePlace) (ran : (system m initial).run program moves = some s) :
    (initial.toNat + s.shared.released < 2 ^ 31 →
        0 ≤ s.shared.count ∧ s.shared.count + s.shared.acquired = initial.toNat + s.shared.released) ∧
      (∀ t, s.threads t = .running (.returned (.acquire false)) → s.shared.shutdown = true) ∧
      (∀ u, (s.threads u).isAsleep = true → s.shared.count.toNat ≤ total (Thread.share permits) s.threads) ∧
      (s.Stuck program → ∀ u, (s.threads u).Rests program ∧
        ((s.threads u).isAsleep = true → s.shared.count ≤ 0 ∧ s.shared.shutdown = false)) ∧
      ((s.shared.shutdown = true ∧
          ∀ u, s.threads u ≠ .running .shutdownLock ∧ s.threads u ≠ .running .shutdownBody ∧
            s.threads u ≠ .running .shutdownUnlock ∧ s.threads u ≠ .running .shutdownNotify) ∨
          (∃ t, s.threads t = .running (.returned .shutdown)) →
        ∀ later s', s.run program later = some s' →
          ∀ u, (s'.threads u).isAsleep = false ∧ ∀ timed seen, s'.threads u ≠ .running (.waitWait timed seen)) := by
  refine ⟨fun fits => ?_, fun t place => (kept ran).annotated.running place, (served ran).asleep,
    fun stuck u => ⟨stuck.rests disciplined (kept ran).exclusive u, fun sleeping => ?_⟩, ?_⟩
  · rw [← initial_kept ran] at fits ⊢
    exact (kept ran).annotated.inv.permits fits
  · have none := (served ran).stuck disciplined permits_balanced (kept ran).exclusive stuck sleeping
    have opened := (told ran).stuck disciplined closing_balanced (kept ran).exclusive stuck sleeping
    exact ⟨Int.toNat_eq_zero.mp none, Bool.toNat_eq_zero.mp opened⟩
  · intro returned later s' ran' u
    have settled : s.Settled closing := by
      rcases returned with ⟨closed, nobody⟩ | ⟨t, place⟩
      · refine (told ran).settled (by change 0 < s.shared.shutdown.toNat; rw [closed]; decide) rfl ?_
        intro v here owes
        cases here with
        | shutdownLock => exact (nobody v).1
        | shutdownBody => exact (nobody v).2.1
        | shutdownUnlock => exact (nobody v).2.2.1
        | shutdownNotify => exact (nobody v).2.2.2
        | _ => exact absurd rfl owes
      · exact (announced ran).told t (by rw [place]; rfl)
    have last := (settled.run verified closing_balanced shutdown_lasts (kept ran) ran').never_waits u
    exact ⟨last.1, fun timed seen => last.2 _ rfl⟩

/-- The order of events that strands a waiter of the futex: the waiter has tested the flag when the shutdown comes.
Here the shutdown has to wait for the mutex, and then finds it asleep. -/
def shutdownInWindow (waiter helper : Fin 2) : List (Move 2 PortablePlace) :=
  [.call waiter (.load .acquire), .next waiter, .next waiter, .next waiter, .next waiter, .next waiter,
    .call helper .store, .next helper, .next waiter, .next waiter, .next waiter,
    .next helper, .next helper, .next helper, .next helper]

theorem portable_semaphore_inWindow : ∃ waiter helper s,
    (system 2 0).run program (shutdownInWindow waiter helper) = some s ∧ s.shared.shutdown = true ∧
      (∀ u, s.threads u ≠ .running .shutdownLock ∧ s.threads u ≠ .running .shutdownBody ∧
        s.threads u ≠ .running .shutdownUnlock ∧ s.threads u ≠ .running .shutdownNotify) ∧
      (s.threads waiter).isAsleep = false := by
  refine ⟨0, 1, _, rfl, rfl, by decide, ?_⟩
  exact ((portable_semaphore 2 0 (shutdownInWindow 0 1) _ rfl).2.2.2.2 (Or.inl ⟨rfl, by decide⟩) [] _ rfl 0).1

end PortableSemaphore

end ChronoBook
