import ChronoBook.Library.Signals
import Mathlib.Data.UInt

/-! The counting semaphore over a mutex and a condition variable, as any number of
threads use it. The count is a `size_t` and wraps. -/

namespace ChronoBook
open Library Monitor

/-- What is shared, and an account of the permits that no operation reads. -/
structure CvSemaphore where
  count : UInt64
  shutdown : Bool := false
  initial : Nat
  released : Nat := 0
  acquired : Nat := 0
  deriving DecidableEq, Repr

/-- What a call returns; `acquire` returns nothing, and `taken` says whether it took a permit. -/
inductive CvResult where
  | release
  | acquire (taken : Bool)
  | tryAcquire (value : Bool)
  | tryAcquireFor (value : Bool)
  | shutdown
  | available (value : UInt64)
  deriving DecidableEq, Repr

/-- Where a thread stands. `waitTest`, `waitWait` and `take` are the wait with its predicate and what follows it, in
`acquire` or, if `timed`, in `tryAcquireFor`, where `late` is the last test after the time has passed. At `notifying`
one more notification is due than it says. -/
inductive CvPlace where
  | idle
  | returned (result : CvResult)
  | releaseLock (n : UInt64)
  | releaseBody (n : UInt64)
  | releaseUnlock (n : UInt64)
  | notifying (left : Nat)
  | waitLock (timed : Bool)
  | waitTest (timed : Bool)
  | waitWait (timed : Bool)
  | late
  | take (timed : Bool)
  | tryAcquireLock
  | tryAcquireBody
  | shutdownLock
  | shutdownBody
  | shutdownUnlock
  | shutdownNotify
  | availableLock
  | availableRead
  | leave (result : CvResult)
  deriving DecidableEq, Repr

namespace CvSemaphore

def create (initial : UInt64) : CvSemaphore := { count := initial, initial := initial.toNat }

/-- The predicate of both waits. -/
def ready (sem : CvSemaphore) : Bool := decide (0 < sem.count) || sem.shutdown

def decremented (sem : CvSemaphore) : CvSemaphore := { sem with count := sem.count - 1, acquired := sem.acquired + 1 }

/-- The loop of `release` with so many notifications left. -/
def notifications : Nat → CvPlace
  | 0 => .returned .release
  | left + 1 => .notifying left

def taking (timed : Bool) (taken : Bool) : CvResult := if timed then .tryAcquireFor taken else .acquire taken

def code : CvPlace → Instr CvSemaphore CvPlace
  | .idle => .idle
  | .returned _ => .idle
  | .releaseLock n => .lock (.releaseBody n)
  | .releaseBody n => .act (fun sem =>
      ({ sem with count := sem.count + n, released := sem.released + n.toNat }, .releaseUnlock n))
  | .releaseUnlock n => .unlock (notifications n.toNat)
  | .notifying left => .notifyOne (notifications left)
  | .waitLock timed => .lock (.waitTest timed)
  | .waitTest timed => .act (fun sem => (sem, if sem.ready then .take timed else .waitWait timed))
  | .waitWait timed => .wait (.waitTest timed) (if timed then some .late else none)
  | .late => .act (fun sem => (sem, if sem.ready then .take true else .leave (.tryAcquireFor false)))
  | .take timed => .act (fun sem =>
      if 0 < sem.count then (sem.decremented, .leave (taking timed true)) else (sem, .leave (taking timed false)))
  | .tryAcquireLock => .lock .tryAcquireBody
  | .tryAcquireBody => .act (fun sem =>
      if sem.count = 0 then (sem, .leave (.tryAcquire false)) else (sem.decremented, .leave (.tryAcquire true)))
  | .shutdownLock => .lock .shutdownBody
  | .shutdownBody => .act (fun sem => ({ sem with shutdown := true }, .shutdownUnlock))
  | .shutdownUnlock => .unlock .shutdownNotify
  | .shutdownNotify => .notifyAll (.returned .shutdown)
  | .availableLock => .lock .availableRead
  | .availableRead => .act (fun sem => (sem, .leave (.available sem.count)))
  | .leave result => .unlock (.returned result)

def entry : CvPlace → Bool
  | .releaseLock _ => true
  | .waitLock _ => true
  | .tryAcquireLock => true
  | .shutdownLock => true
  | .availableLock => true
  | _ => false

def program : Program CvSemaphore CvPlace := { code := code, entry := entry }

def system (m : Nat) (initial : UInt64) : Monitor m CvSemaphore CvPlace := start m (create initial) .idle

end CvSemaphore

def CvPlace.holds : CvPlace → Bool
  | .releaseBody _ => true
  | .releaseUnlock _ => true
  | .waitTest _ => true
  | .waitWait _ => true
  | .late => true
  | .take _ => true
  | .tryAcquireBody => true
  | .shutdownBody => true
  | .shutdownUnlock => true
  | .availableRead => true
  | .leave _ => true
  | _ => false

namespace CvSemaphore

theorem notifications_holds (left : Nat) : (notifications left).holds = false := by
  cases left <;> rfl

theorem disciplined : program.Disciplined CvPlace.holds where
  code := by
    intro here
    cases here with
    | waitTest | late | take | tryAcquireBody =>
      intro sem
      dsimp only
      split <;> rfl
    | waitWait timed => exact ⟨rfl, rfl, forall_late timed rfl⟩
    | releaseUnlock n => exact ⟨rfl, notifications_holds n.toNat⟩
    | notifying left => exact notifications_holds left
    | releaseBody | shutdownBody | availableRead => exact fun _ => rfl
    | releaseLock | waitLock | tryAcquireLock | shutdownLock | shutdownUnlock | availableLock | leave => exact ⟨rfl, rfl⟩
    | idle | returned | shutdownNotify => rfl
  entry := by
    intro here enters
    cases here <;> first | rfl | cases enters
  weak := by
    intro here next fails
    cases fails

/-- The permits are accounted for, as long as their number fits a `size_t`. -/
def Inv (sem : CvSemaphore) : Prop :=
  sem.initial + sem.released < 2 ^ 64 → sem.count.toNat + sem.acquired = sem.initial + sem.released

/-- What a result says about the semaphore at the moment when the mutex is given back. -/
def Right (sem : CvSemaphore) : CvResult → Prop
  | .acquire false => sem.count = 0 ∧ sem.shutdown = true
  | .tryAcquire false => sem.count = 0
  | .tryAcquireFor false => sem.count = 0
  | .available value => sem.count = value
  | _ => True

def asserts : CvPlace → CvSemaphore → Prop
  | .take _, sem => sem.ready = true
  | .leave result, sem => sem.Right result
  | _, _ => True

theorem Inv.decremented {sem : CvSemaphore} (inv : sem.Inv) (positive : 0 < sem.count) : sem.decremented.Inv := by
  intro fits
  have before := inv fits
  have some := UInt64.lt_iff_toNat_lt.mp positive
  rw [UInt64.toNat_zero] at some
  have less : (sem.count - 1).toNat = sem.count.toNat - 1 :=
    UInt64.toNat_sub_of_le _ _ (UInt64.le_iff_toNat_le.mpr (by rw [UInt64.toNat_one]; omega))
  change (sem.count - 1).toNat + (sem.acquired + 1) = sem.initial + sem.released
  omega

theorem Inv.posted {sem : CvSemaphore} (inv : sem.Inv) (n : UInt64) :
    Inv { sem with count := sem.count + n, released := sem.released + n.toNat } := by
  intro fits
  change sem.initial + (sem.released + n.toNat) < 2 ^ 64 at fits
  have before := inv (by omega)
  have sum : (sem.count + n).toNat = sem.count.toNat + n.toNat := by
    rw [UInt64.toNat_add, Nat.mod_eq_of_lt (by omega)]
  change (sem.count + n).toNat + sem.acquired = sem.initial + (sem.released + n.toNat)
  omega

theorem undisturbed {before after : CvSemaphore} {here : CvPlace} (held : here.holds = true) (other : CvPlace)
    (outside : here.holds = true → other.holds = false) : asserts other before → asserts other after := by
  have free := outside held
  cases other with
  | take timed => cases free
  | leave result => cases free
  | _ => exact id

theorem right_taken (sem : CvSemaphore) (timed : Bool) : sem.Right (taking timed true) := by
  cases timed <;> trivial

/-- Who could go on but finds no permit was let go by the shutdown. -/
theorem right_refused {sem : CvSemaphore} (ready : sem.ready = true) (none : ¬0 < sem.count) (timed : Bool) :
    sem.Right (taking timed false) := by
  have zero : sem.count = 0 := by
    rw [UInt64.lt_iff_toNat_lt, UInt64.toNat_zero, Nat.not_lt, Nat.le_zero_eq] at none
    exact UInt64.toNat_inj.mp none
  cases timed with
  | true => exact zero
  | false =>
    unfold CvSemaphore.ready at ready
    rw [decide_eq_false none, Bool.false_or] at ready
    exact ⟨zero, ready⟩

theorem count_of_unready {sem : CvSemaphore} (unready : ¬sem.ready = true) : sem.count = 0 ∧ sem.shutdown = false := by
  unfold ready at unready
  rw [Bool.or_eq_true, not_or, decide_eq_true_eq, Bool.not_eq_true] at unready
  refine ⟨?_, unready.2⟩
  have none := unready.1
  rw [UInt64.lt_iff_toNat_lt, UInt64.toNat_zero, Nat.not_lt, Nat.le_zero_eq] at none
  exact UInt64.toNat_inj.mp none

theorem outlined : program.Outlined CvPlace.holds Inv asserts where
  code := by
    intro here
    cases here with
    | releaseBody n => exact fun sem inv _ => ⟨inv.posted n, trivial, undisturbed rfl⟩
    | waitTest timed =>
      intro sem inv _
      refine ⟨inv, ?_, undisturbed rfl⟩
      dsimp only
      split
      next ready => exact ready
      · trivial
    | waitWait timed => exact fun _ _ => ⟨trivial, forall_late timed trivial⟩
    | late =>
      intro sem inv _
      refine ⟨inv, ?_, undisturbed rfl⟩
      dsimp only
      split
      next ready => exact ready
      next unready => exact (count_of_unready unready).1
    | take timed =>
      intro sem inv ready
      dsimp only
      split
      next some => exact ⟨inv.decremented some, right_taken _ timed, undisturbed rfl⟩
      next none => exact ⟨inv, right_refused ready none timed, undisturbed rfl⟩
    | tryAcquireBody =>
      intro sem inv _
      dsimp only
      split
      next none => exact ⟨inv, none, undisturbed rfl⟩
      next some => exact ⟨inv.decremented (UInt64.pos_iff_ne_zero.mpr some), trivial, undisturbed rfl⟩
    | shutdownBody => exact fun sem inv _ => ⟨inv, trivial, undisturbed rfl⟩
    | availableRead => exact fun sem inv _ => ⟨inv, rfl, undisturbed rfl⟩
    | releaseUnlock n => exact fun _ _ _ => by cases n.toNat <;> trivial
    | notifying left => exact fun _ _ _ => by cases left <;> trivial
    | idle | returned => trivial
    | releaseLock | waitLock | tryAcquireLock | shutdownLock | shutdownUnlock | shutdownNotify | availableLock | leave =>
      exact fun _ _ _ => trivial
  entry := by
    intro here enters
    cases here <;> first | exact fun _ _ => trivial | cases enters
  weak := by
    intro here next fails
    cases fails

def goesToSleep : CvPlace → Bool
  | .waitWait _ => true
  | _ => false

theorem goesToSleep_holds (here : CvPlace) (parks : goesToSleep here = true) : here.holds = true := by
  cases here <;> first | rfl | cases parks

/-- The permits, with who will take or signal them. -/
def permits : Account CvSemaphore CvPlace where
  supply := fun sem => sem.count.toNat
  parks := goesToSleep
  early := fun _ => 0
  due
    | .releaseUnlock n => n.toNat
    | .notifying left => left + 1
    | .waitTest _ => 1
    | .late => 1
    | .take _ => 1
    | _ => 0
  credit := 1

/-- That the semaphore is shut down, with who will tell it. -/
def closing : Account CvSemaphore CvPlace where
  supply := fun sem => sem.shutdown.toNat
  parks := goesToSleep
  early := fun _ => 0
  due
    | .shutdownUnlock => 1
    | .shutdownNotify => 1
    | _ => 0
  credit := 0

theorem notifications_share (left : Nat) : permits.share (notifications left) = left := by
  cases left with
  | zero => rfl
  | succ left => exact Nat.zero_add _

theorem notifications_awake (left : Nat) : goesToSleep (notifications left) = false := by
  cases left <;> rfl

theorem supply_decremented {sem : CvSemaphore} (positive : 0 < sem.count) :
    permits.supply sem.decremented + 1 = permits.supply sem := by
  have some := UInt64.lt_iff_toNat_lt.mp positive
  rw [UInt64.toNat_zero] at some
  have less : (sem.count - 1).toNat = sem.count.toNat - 1 :=
    UInt64.toNat_sub_of_le _ _ (UInt64.le_iff_toNat_le.mpr (by rw [UInt64.toNat_one]; omega))
  change (sem.count - 1).toNat + 1 = sem.count.toNat
  omega

theorem supply_zero {sem : CvSemaphore} (zero : sem.count = 0) : permits.supply sem = 0 := congrArg UInt64.toNat zero

theorem permits_balanced : program.Balanced CvPlace.holds Inv asserts permits where
  code := by
    intro here
    cases here with
    | releaseBody n =>
      intro sem _ _
      refine Or.inr ⟨nofun, ?_, Or.inl ⟨rfl, rfl⟩⟩
      change (sem.count + n).toNat + 0 ≤ sem.count.toNat + (0 + n.toNat)
      rw [UInt64.toNat_add]
      have wraps := Nat.mod_le (sem.count.toNat + n.toNat) (2 ^ 64)
      omega
    | waitTest timed =>
      intro sem _ _
      dsimp only
      split
      · exact Or.inr ⟨nofun, Nat.le_refl _, Or.inl ⟨rfl, rfl⟩⟩
      next unready => exact Or.inl (supply_zero (count_of_unready unready).1)
    | late =>
      intro sem _ _
      dsimp only
      split
      · exact Or.inr ⟨nofun, Nat.le_refl _, Or.inl ⟨rfl, rfl⟩⟩
      next unready => exact Or.inl (supply_zero (count_of_unready unready).1)
    | take timed =>
      intro sem _ _
      dsimp only
      split
      next some => exact Or.inr ⟨nofun, Nat.le_of_eq (supply_decremented some), Or.inl ⟨rfl, rfl⟩⟩
      next none =>
        have zero : permits.supply sem = 0 := by
          rw [UInt64.lt_iff_toNat_lt, UInt64.toNat_zero, Nat.not_lt, Nat.le_zero_eq] at none
          exact none
        exact Or.inl zero
    | tryAcquireBody =>
      intro sem _ _
      dsimp only
      split
      next none => exact Or.inl (supply_zero none)
      next some =>
        have less := supply_decremented (UInt64.pos_iff_ne_zero.mpr some)
        exact Or.inr ⟨nofun, Nat.le_of_succ_le (Nat.le_of_eq less), Or.inl ⟨rfl, rfl⟩⟩
    | shutdownBody | availableRead => exact fun _ _ _ => Or.inr ⟨nofun, Nat.le_refl _, Or.inl ⟨rfl, rfl⟩⟩
    | waitWait timed => exact ⟨rfl, rfl, ⟨Nat.le_refl 1, rfl⟩, forall_late timed ⟨Nat.le_refl 1, rfl⟩⟩
    | releaseUnlock n =>
      refine ⟨?_, notifications_awake n.toNat⟩
      rw [notifications_share]
      exact Nat.le_of_eq (Nat.zero_add _)
    | notifying left =>
      refine ⟨?_, Nat.zero_le _, notifications_awake left⟩
      rw [notifications_share]
      exact Nat.le_of_eq (Nat.zero_add _)
    | idle | returned => rfl
    | shutdownNotify => exact ⟨Nat.le_refl 0, rfl⟩
    | releaseLock | waitLock | tryAcquireLock | shutdownLock | shutdownUnlock | availableLock | leave =>
      exact ⟨Nat.zero_le _, rfl⟩
  entry := by
    intro here enters
    cases here <;> first | rfl | cases enters
  weak := by
    intro here next fails
    cases fails
  parks := goesToSleep_holds

theorem closing_balanced : program.Balanced CvPlace.holds Inv asserts closing where
  code := by
    intro here
    cases here with
    | waitTest timed =>
      intro sem _ _
      dsimp only
      split
      · exact Or.inr ⟨nofun, Nat.le_refl _, Or.inl ⟨rfl, rfl⟩⟩
      next unready => exact Or.inl (congrArg Bool.toNat (count_of_unready unready).2)
    | late | take | tryAcquireBody =>
      intro sem _ _
      dsimp only
      split <;> exact Or.inr ⟨nofun, Nat.le_refl _, Or.inl ⟨rfl, rfl⟩⟩
    | shutdownBody => exact fun _ _ _ => Or.inr ⟨nofun, Nat.le_add_left _ _, Or.inl ⟨rfl, rfl⟩⟩
    | releaseBody | availableRead => exact fun _ _ _ => Or.inr ⟨nofun, Nat.le_refl _, Or.inl ⟨rfl, rfl⟩⟩
    | waitWait timed => exact ⟨rfl, rfl, ⟨Nat.le_refl 0, rfl⟩, forall_late timed ⟨Nat.le_refl 0, rfl⟩⟩
    | releaseUnlock n => exact ⟨Nat.zero_le _, notifications_awake n.toNat⟩
    | notifying left => exact ⟨Nat.zero_le _, Nat.zero_le _, notifications_awake left⟩
    | idle | returned => rfl
    | shutdownNotify => exact ⟨Nat.le_refl 0, rfl⟩
    | releaseLock | waitLock | tryAcquireLock | shutdownLock | shutdownUnlock | availableLock | leave =>
      exact ⟨Nat.le_refl _, rfl⟩
  entry := by
    intro here enters
    cases here <;> first | rfl | cases enters
  weak := by
    intro here next fails
    cases fails
  parks := goesToSleep_holds

/-- Nobody takes a shutdown back. -/
theorem shutdown_lasts : program.Lasts closing.supply := by
  intro here run code sem closed
  cases here <;> cases code <;> dsimp only <;> (try split) <;> first | exact closed | exact Nat.zero_lt_one

/-- How far the news of the shutdown has come. No call leaves the mutex with this result. -/
def news : Notice CvPlace where
  heard
    | .shutdownUnlock => true
    | .shutdownNotify => true
    | .leave .shutdown => true
    | .returned .shutdown => true
    | _ => false
  told
    | .leave .shutdown => true
    | .returned .shutdown => true
    | _ => false

theorem announces : program.Announces CvPlace.holds Inv asserts closing news where
  code := by
    intro here
    cases here with
    | waitTest | late | tryAcquireBody =>
      intro sem _ _
      dsimp only
      split <;> exact ⟨nofun, nofun⟩
    | take timed =>
      intro sem _ _
      dsimp only
      split <;> cases timed <;> exact ⟨nofun, nofun⟩
    | shutdownBody => exact fun _ _ _ => ⟨nofun, fun _ => Or.inr ⟨rfl, Nat.zero_lt_one, rfl⟩⟩
    | releaseBody | availableRead => exact fun _ _ _ => ⟨nofun, nofun⟩
    | waitWait timed => exact ⟨rfl, forall_late timed rfl⟩
    | releaseUnlock n => cases sent : n.toNat <;> (dsimp only [program, code]; rw [sent]; exact ⟨nofun, nofun⟩)
    | notifying left => cases left <;> rfl
    | leave result => cases result <;> exact ⟨id, id⟩
    | shutdownUnlock => exact ⟨nofun, fun _ => rfl⟩
    | shutdownNotify => exact fun _ => rfl
    | idle | returned => trivial
    | releaseLock | waitLock | tryAcquireLock | shutdownLock | availableLock => exact ⟨nofun, nofun⟩
  entry := by
    intro here enters
    cases here <;> first | rfl | cases enters
  weak := by
    intro here next fails
    cases fails
  heard := by
    intro here told
    cases here with
    | leave result | returned result => cases result <;> first | rfl | cases told
    | _ => cases told

section Runs

variable {m : Nat} {initial : UInt64} {s : Monitor m CvSemaphore CvPlace} {moves : List (Move m CvPlace)}

theorem verified : program.Verified CvPlace.holds Inv asserts := ⟨disciplined, outlined⟩

theorem system_kept (m : Nat) (initial : UInt64) : (system m initial).Kept CvPlace.holds Inv asserts :=
  Kept.start m _ _ rfl (fun _ => rfl) trivial

theorem kept (ran : (system m initial).run program moves = some s) : s.Kept CvPlace.holds Inv asserts :=
  (system_kept m initial).run verified ran

theorem served (ran : (system m initial).run program moves = some s) : s.Served permits := by
  have start : (system m initial).Served permits := Served.start m _ _ rfl
  exact start.run verified permits_balanced (system_kept m initial) ran

theorem told (ran : (system m initial).run program moves = some s) : s.Served closing := by
  have start : (system m initial).Served closing := Served.start m _ _ rfl
  exact start.run verified closing_balanced (system_kept m initial) ran

theorem announced (ran : (system m initial).run program moves = some s) : s.Announced closing news := by
  have start : (system m initial).Announced closing news := Announced.start m _ _ rfl rfl
  exact start.run verified announces closing_balanced shutdown_lasts (system_kept m initial) (Served.start m _ _ rfl) ran

theorem initial_kept (ran : (system m initial).run program moves = some s) : s.shared.initial = initial.toNat := by
  refine run_keeps (P := fun s => s.shared.initial = initial.toNat) ?_ ran rfl
  intro s s' stepped before
  cases stepped with
  | @acted t here run place code =>
    refine Eq.trans ?_ before
    cases here <;> cases code <;> first | rfl | (dsimp only; split <;> rfl)
  | _ => exact before

end Runs

/-- In every interleaving the permits are accounted for while their number fits, no call of `acquire` comes back
without a permit unless the semaphore is shut down, and no call of the others is refused while there is one. A
thread that sleeps leaves no permit to nobody; if no thread can go on, whoever sleeps finds none; and once
a call of `shutdown` has returned, whether another one is under way or not, nobody sleeps or goes to sleep any more. -/
theorem cv_semaphore (m : Nat) (initial : UInt64) (moves : List (Move m CvPlace)) (s : Monitor m CvSemaphore CvPlace)
    (ran : (system m initial).run program moves = some s) :
    (initial.toNat + s.shared.released < 2 ^ 64 →
        s.shared.count.toNat + s.shared.acquired = initial.toNat + s.shared.released) ∧
      (∀ t result, s.threads t = .running (.leave result) → s.shared.Right result) ∧
      (∀ u, (s.threads u).isAsleep = true → s.shared.count.toNat ≤ total (Thread.share permits) s.threads) ∧
      (s.Stuck program → ∀ u, (s.threads u).Rests program ∧
        ((s.threads u).isAsleep = true → s.shared.count = 0 ∧ s.shared.shutdown = false)) ∧
      ((s.shared.shutdown = true ∧
          ∀ u, s.threads u ≠ .running .shutdownUnlock ∧ s.threads u ≠ .running .shutdownNotify) ∨
          (∃ t, s.threads t = .running (.returned .shutdown)) →
        ∀ later s', s.run program later = some s' →
          ∀ u, (s'.threads u).isAsleep = false ∧ ∀ timed, s'.threads u ≠ .running (.waitWait timed)) := by
  refine ⟨fun fits => ?_, fun t result place => (kept ran).annotated.running place, (served ran).asleep,
    fun stuck u => ⟨stuck.rests disciplined (kept ran).exclusive u, fun sleeping => ?_⟩, ?_⟩
  · rw [← initial_kept ran] at fits ⊢
    exact (kept ran).annotated.inv fits
  · have none := (served ran).stuck disciplined permits_balanced (kept ran).exclusive stuck sleeping
    have opened := (told ran).stuck disciplined closing_balanced (kept ran).exclusive stuck sleeping
    exact ⟨UInt64.toNat_inj.mp none, Bool.toNat_eq_zero.mp opened⟩
  · intro returned later s' ran' u
    have settled : s.Settled closing := by
      rcases returned with ⟨closed, nobody⟩ | ⟨t, place⟩
      · refine (told ran).settled (by change 0 < s.shared.shutdown.toNat; rw [closed]; decide) rfl ?_
        intro v here owes
        cases here with
        | shutdownUnlock => exact (nobody v).1
        | shutdownNotify => exact (nobody v).2
        | _ => exact absurd rfl owes
      · exact (announced ran).told t (by rw [place]; rfl)
    have last := (settled.run verified closing_balanced shutdown_lasts (kept ran) ran').never_waits u
    exact ⟨last.1, fun timed => last.2 _ rfl⟩

/-- Two threads wait, one of them for a time that passes; one permit is released. -/
def oneRelease (first second helper : Fin 3) : List (Move 3 CvPlace) :=
  [.call first (.waitLock false), .next first, .next first, .next first,
    .call second (.waitLock true), .next second, .next second, .next second,
    .call helper (.releaseLock 1), .next helper, .next helper, .next helper, .timeOut second]

theorem cv_semaphore_oneRelease : ∃ first second helper s,
    (system 3 0).run program (oneRelease first second helper) = some s ∧ s.shared.count = 1 ∧
      (s.threads first).isAsleep = true ∧ s.shared.count.toNat ≤ total (Thread.share permits) s.threads := by
  refine ⟨0, 1, 2, _, rfl, rfl, rfl, ?_⟩
  exact (cv_semaphore 3 0 (oneRelease 0 1 2) _ rfl).2.2.1 0 rfl

end CvSemaphore

end ChronoBook
