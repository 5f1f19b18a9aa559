import ChronoBook.Library.Runs
import ChronoBook.Library.Tally

/-! The semaphore over a futex, as any number of threads use it. A thread stands before
the next operation on shared memory, and every such operation is a step of its own.
The futex compares the count with zero and puts to sleep in one step; a wake takes any
sleepers, as many as it is asked for, or all if there are fewer. -/

namespace ChronoBook
open Library

/-- The value of an unsigned number that is cast to an `int`. -/
def toInt32 (value : Int) : Int := value.bmod (2 ^ 32)

theorem toInt32_le (value : Nat) : toInt32 value ≤ value := by
  unfold toInt32
  rw [Int.bmod_def]
  split <;> omega

theorem toInt32_lt (value : Int) : toInt32 value < 2 ^ 31 := Int.bmod_lt (by decide)

theorem le_toInt32 (value : Int) : -2 ^ 31 ≤ toInt32 value := Int.le_bmod (by decide)

theorem toInt32_of_bounds {value : Int} (low : -2 ^ 31 ≤ value) (high : value < 2 ^ 31) : toInt32 value = value :=
  Int.bmod_eq_of_le low high

def INT_MAX : Nat := 2 ^ 31 - 1

inductive FutexCall where
  | tryAcquire
  | acquire
  | tryAcquireFor
  deriving DecidableEq, Repr

/-- How a wait ended, if there was one. -/
inductive WaitResult where
  | skipped
  | again
  | woken
  | interrupted
  | timedOut
  deriving DecidableEq, Repr

/-- What a thread does next: `load` and `cas` are in `tryAcquire`, `flag` to `deregister` in one turn of the loop of
`acquire` or of `tryAcquireFor`, `posted` and `waking` in `release`, `closing` in `shutdown`. A thread whose sleep was
ended by a wake is marked until its next `tryAcquire` has ended. -/
inductive FutexThread where
  | idle
  | load (call : FutexCall) (woken : Bool)
  | cas (call : FutexCall) (woken : Bool) (observed : Int)
  | flag (timed : Bool)
  | clock
  | register (timed : Bool)
  | check (timed : Bool)
  | recheck (timed : Bool)
  | wait (timed : Bool)
  | asleep (timed : Bool)
  | deregister (timed : Bool) (result : WaitResult)
  | posted (n : Int)
  | waking (n : Int)
  | closing
  deriving DecidableEq, Repr

/-- The three words, and an account of the permits that no operation reads. `returned` says that a call of `shutdown`
has returned. -/
structure FutexSemaphore where
  count : Int
  waiters : Int := 0
  shutdown : Bool := false
  initial : Nat
  released : Nat := 0
  acquired : Nat := 0
  returned : Bool := false
  deriving DecidableEq, Repr

/-- What a thread does, or what happens to it: a call begins, the next operation is done, the exchange fails without a
reason, the deadline has passed, a sleep ends by its timeout or by a signal. -/
inductive FutexAction where
  | call (call : FutexCall)
  | release (n : Nat)
  | shutdown
  | next
  | casFails
  | expire
  | timeOut
  | interrupt
  deriving DecidableEq, Repr

namespace FutexSemaphore

def create (initial : Nat) : FutexSemaphore := { count := toInt32 initial, initial := initial }

/-- Where a `tryAcquire` without success leads. -/
def refused : FutexCall → FutexThread
  | .tryAcquire => .idle
  | .acquire => .flag false
  | .tryAcquireFor => .flag true

/-- The count was read, by the load or by an exchange that failed. -/
def observe (sem : FutexSemaphore) (call : FutexCall) (woken : Bool) : FutexThread :=
  if 0 < sem.count then .cas call woken sem.count else refused call

/-- The next operation of a thread; a thread that sleeps has none, and a wake is not done by one thread alone. -/
def next (sem : FutexSemaphore) : FutexThread → Option (FutexThread × FutexSemaphore)
  | .load call woken => some (sem.observe call woken, sem)
  | .cas call woken observed =>
      if sem.count = observed then
        some (.idle, { sem with count := observed - 1, acquired := sem.acquired + 1 })
      else some (sem.observe call woken, sem)
  | .flag timed => some (if sem.shutdown then .idle else if timed then .clock else .register false, sem)
  | .clock => some (.register true, sem)
  | .register timed => some (.check timed, { sem with waiters := toInt32 (sem.waiters + 1) })
  | .check timed => some (if sem.count = 0 then .recheck timed else .deregister timed .skipped, sem)
  | .recheck timed => some (if sem.shutdown then .deregister timed .skipped else .wait timed, sem)
  | .wait timed => some (if sem.count = 0 then .asleep timed else .deregister timed .again, sem)
  | .deregister timed result =>
      some (if timed = true ∧ result = .timedOut then .idle
        else .load (if timed then .tryAcquireFor else .acquire) (result = .woken),
        { sem with waiters := toInt32 (sem.waiters - 1) })
  | .posted n => some (if 0 < sem.waiters then .waking n else .idle, sem)
  | _ => none

def act (sem : FutexSemaphore) (thread : FutexThread) : FutexAction → Option (FutexThread × FutexSemaphore)
  | .call call => if thread = .idle then some (.load call false, sem) else none
  | .release n =>
      if thread = .idle then
        some (.posted (toInt32 n), { sem with count := toInt32 (sem.count + toInt32 n), released := sem.released + n })
      else none
  | .shutdown => if thread = .idle then some (.closing, { sem with shutdown := true }) else none
  | .next => sem.next thread
  | .casFails =>
      match thread with
      | .cas call woken _ => some (sem.observe call woken, sem)
      | _ => none
  | .expire =>
      match thread with
      | .clock => some (.idle, sem)
      | _ => none
  | .timeOut =>
      match thread with
      | .asleep true => some (.deregister true .timedOut, sem)
      | _ => none
  | .interrupt =>
      match thread with
      | .asleep timed => some (.deregister timed .interrupted, sem)
      | _ => none

end FutexSemaphore

/-- The steps of a thread that touch no word. -/
inductive FutexThread.Quiet : FutexThread → FutexThread → Prop where
  | begins (call : FutexCall) : Quiet .idle (.load call false)
  | expires : Quiet .clock .idle
  | timesOut : Quiet (.asleep true) (.deregister true .timedOut)
  | interrupted (timed : Bool) : Quiet (.asleep timed) (.deregister timed .interrupted)

/-- What an action may do. -/
inductive FutexSemaphore.Acted (sem : FutexSemaphore) : FutexThread → FutexThread → FutexSemaphore → Prop where
  | next {thread now : FutexThread} {sem' : FutexSemaphore} (done : sem.next thread = some (now, sem')) :
      Acted sem thread now sem'
  | released (n : Nat) : Acted sem .idle (.posted (toInt32 n))
      { sem with count := toInt32 (sem.count + toInt32 n), released := sem.released + n }
  | closing : Acted sem .idle .closing { sem with shutdown := true }
  | failed (call : FutexCall) (woken : Bool) (observed : Int) :
      Acted sem (.cas call woken observed) (sem.observe call woken) sem
  | quiet {thread now : FutexThread} (step : FutexThread.Quiet thread now) : Acted sem thread now sem

theorem FutexSemaphore.acted_of_act {sem sem' : FutexSemaphore} {thread now : FutexThread} {action : FutexAction}
    (acted : sem.act thread action = some (now, sem')) : sem.Acted thread now sem' := by
  cases action with
  | next => exact .next acted
  | call call =>
    simp only [act] at acted
    split at acted
    next here =>
      cases acted
      cases here
      exact .quiet (.begins call)
    · cases acted
  | release n =>
    simp only [act] at acted
    split at acted
    next here =>
      cases acted
      cases here
      exact .released n
    · cases acted
  | shutdown =>
    simp only [act] at acted
    split at acted
    next here =>
      cases acted
      cases here
      exact .closing
    · cases acted
  | casFails =>
    simp only [act] at acted
    split at acted <;> cases acted
    exact .failed _ _ _
  | expire =>
    simp only [act] at acted
    split at acted <;> cases acted
    exact .quiet .expires
  | timeOut =>
    simp only [act] at acted
    split at acted <;> cases acted
    exact .quiet .timesOut
  | interrupt =>
    simp only [act] at acted
    split at acted <;> cases acted
    exact .quiet (.interrupted _)

namespace FutexThread

def isAsleep : FutexThread → Bool
  | .asleep _ => true
  | _ => false

def registered : FutexThread → Bool
  | .check _ => true
  | .recheck _ => true
  | .wait _ => true
  | .asleep _ => true
  | .deregister _ _ => true
  | _ => false

def awakened : FutexThread → Bool
  | .deregister _ result => result = .woken
  | .load _ woken => woken
  | .cas _ woken _ => woken
  | _ => false

/-- The wakes that a release has still to make. -/
def owed : FutexThread → Nat
  | .posted n => n.toNat
  | .waking n => n.toNat
  | _ => 0

/-- The permits that need no further wake on behalf of this thread. -/
def share (thread : FutexThread) : Nat := thread.awakened.toNat + thread.owed

/-- An exchange takes a permit only if one was seen. -/
def Hopeful : FutexThread → Prop
  | .cas _ _ observed => 0 < observed
  | _ => True

def rouse : FutexThread → FutexThread
  | .asleep timed => .deregister timed .woken
  | other => other

end FutexThread

structure FutexSystem (m : Nat) where
  sem : FutexSemaphore
  threads : Fin m → FutexThread

inductive FutexMove (m : Nat) where
  | thread (t : Fin m) (action : FutexAction)
  | wake (t : Fin m) (chosen : Finset (Fin m))
  deriving DecidableEq

namespace FutexSystem

variable {m : Nat}

def create (m initial : Nat) : FutexSystem m := ⟨FutexSemaphore.create initial, fun _ => .idle⟩

def sleepers (s : FutexSystem m) : Finset (Fin m) := Finset.univ.filter (fun t => (s.threads t).isAsleep = true)

/-- `FUTEX_WAKE` for `n` sleepers wakes these. -/
def Wakes (s : FutexSystem m) (n : Nat) (chosen : Finset (Fin m)) : Prop :=
  chosen ⊆ s.sleepers ∧ chosen.card = min n s.sleepers.card

instance (s : FutexSystem m) (n : Nat) (chosen : Finset (Fin m)) : Decidable (s.Wakes n chosen) :=
  inferInstanceAs (Decidable (_ ∧ _))

/-- The threads after a wake by a thread whose call then returns. -/
def woken (s : FutexSystem m) (t : Fin m) (chosen : Finset (Fin m)) : Fin m → FutexThread :=
  fun u => if u ∈ chosen then (Function.update s.threads t .idle u).rouse else Function.update s.threads t .idle u

def wake (s : FutexSystem m) (t : Fin m) (chosen : Finset (Fin m)) : Option (FutexSystem m) :=
  match s.threads t with
  | .waking n => if s.Wakes n.toNat chosen then some ⟨s.sem, s.woken t chosen⟩ else none
  | .closing => if s.Wakes INT_MAX chosen then some ⟨{ s.sem with returned := true }, s.woken t chosen⟩ else none
  | _ => none

def step (s : FutexSystem m) : FutexMove m → Option (FutexSystem m)
  | .thread t action =>
      (s.sem.act (s.threads t) action).map (fun (now, sem) => ⟨sem, Function.update s.threads t now⟩)
  | .wake t chosen => s.wake t chosen

def run (s : FutexSystem m) (moves : List (FutexMove m)) : Option (FutexSystem m) := runFrom step s moves

/-- The permits are accounted for, every waiter is counted, and while somebody sleeps every permit has somebody awake
who will look for it or a wake that is still to come. -/
structure Invariant (s : FutexSystem m) : Prop where
  permits : s.sem.count + s.sem.acquired = s.sem.initial + s.sem.released
  nonneg : 0 ≤ s.sem.count
  waiters : s.sem.waiters = tally FutexThread.registered s.threads
  covered : 0 < tally FutexThread.isAsleep s.threads → s.sem.count ≤ total FutexThread.share s.threads
  hopeful : ∀ t, (s.threads t).Hopeful

variable {s s' : FutexSystem m}

theorem Invariant.put (inv : s.Invariant) {t : Fin m} {now : FutexThread} {sem : FutexSemaphore}
    (permits : sem.count + sem.acquired = sem.initial + sem.released) (nonneg : 0 ≤ sem.count)
    (waiters : sem.waiters + (s.threads t).registered.toNat = s.sem.waiters + now.registered.toNat)
    (covered : sem.count = 0 ∨ tally FutexThread.isAsleep s.threads = 0 ∧ now.isAsleep = false ∨
      now.isAsleep.toNat ≤ (s.threads t).isAsleep.toNat ∧ sem.count + (s.threads t).share ≤ s.sem.count + now.share)
    (hopeful : now.Hopeful) : Invariant ⟨sem, Function.update s.threads t now⟩ := by
  refine ⟨permits, nonneg, ?_, ?_, ?_⟩
  · have counted := tally_update FutexThread.registered s.threads t now
    have before := inv.waiters
    dsimp only
    omega
  · intro some
    have asleep := tally_update FutexThread.isAsleep s.threads t now
    have shares := total_update FutexThread.share s.threads t now
    have before := inv.covered
    dsimp only at some ⊢
    rcases covered with none | ⟨nobody, awake⟩ | ⟨fewer, balanced⟩
    · omega
    · rw [awake, Bool.toNat_false] at asleep
      omega
    · have slept := before (by omega)
      omega
  · intro u
    by_cases same : u = t
    · rw [same]
      simpa using hopeful
    · simpa [Function.update_of_ne same] using inv.hopeful u

theorem Invariant.move (inv : s.Invariant) {t : Fin m} {before now : FutexThread} (here : s.threads t = before)
    (registered : now.registered = before.registered) (awake : now.isAsleep = false) (share : before.share ≤ now.share)
    (hopeful : now.Hopeful) : Invariant ⟨s.sem, Function.update s.threads t now⟩ := by
  subst here
  refine inv.put inv.permits inv.nonneg (by rw [registered]) ?_ hopeful
  rw [awake]
  exact Or.inr (Or.inr ⟨Nat.zero_le _, by omega⟩)

theorem refused_simple (call : FutexCall) : (FutexSemaphore.refused call).registered = false ∧
    (FutexSemaphore.refused call).isAsleep = false ∧ (FutexSemaphore.refused call).Hopeful := by
  cases call <;> exact ⟨rfl, rfl, trivial⟩

/-- A retry goes on while there is a permit, and ends when there is none. -/
theorem Invariant.observe (inv : s.Invariant) {t : Fin m} {call : FutexCall} {woken : Bool}
    (outside : (s.threads t).registered = false) (share : (s.threads t).share = woken.toNat) :
    Invariant ⟨s.sem, Function.update s.threads t (s.sem.observe call woken)⟩ := by
  unfold FutexSemaphore.observe
  split
  next some => exact inv.move rfl outside.symm rfl (Nat.le_of_eq share) some
  next none =>
    obtain ⟨registered, _, hopeful⟩ := refused_simple call
    have nonneg := inv.nonneg
    exact inv.put inv.permits nonneg (by rw [registered, outside]) (Or.inl (by omega)) hopeful

theorem Invariant.register (inv : s.Invariant) (few : m < 2 ^ 31) {t : Fin m} {timed : Bool}
    (here : s.threads t = .register timed) :
    Invariant ⟨{ s.sem with waiters := toInt32 (s.sem.waiters + 1) }, Function.update s.threads t (.check timed)⟩ := by
  have counted := inv.waiters
  have room : tally FutexThread.registered s.threads < Fintype.card (Fin m) :=
    tally_lt_card (by rw [here]; rfl) (show (FutexThread.check timed).registered = true from rfl)
  rw [Fintype.card_fin] at room
  refine inv.put inv.permits inv.nonneg ?_ ?_ trivial
  · rw [here, toInt32_of_bounds (by omega) (by omega)]
    exact Int.add_zero _
  · rw [here]
    exact Or.inr (Or.inr ⟨Nat.le_refl 0, Int.le_refl _⟩)

theorem Invariant.deregister (inv : s.Invariant) (few : m < 2 ^ 31) {t : Fin m} {timed : Bool} {result : WaitResult}
    (here : s.threads t = .deregister timed result) {now : FutexThread} (outside : now.registered = false)
    (awake : now.isAsleep = false) (share : now.share = (decide (result = .woken)).toNat) (hopeful : now.Hopeful) :
    Invariant ⟨{ s.sem with waiters := toInt32 (s.sem.waiters - 1) }, Function.update s.threads t now⟩ := by
  have counted := inv.waiters
  have own := le_tally FutexThread.registered s.threads t
  have bound := tally_le_card FutexThread.registered s.threads
  rw [here] at own
  change 1 ≤ _ at own
  rw [Fintype.card_fin] at bound
  refine inv.put inv.permits inv.nonneg ?_ ?_ hopeful
  · rw [here, outside, toInt32_of_bounds (by omega) (by omega)]
    show s.sem.waiters - 1 + 1 = s.sem.waiters + 0
    omega
  · rw [here, awake, share]
    exact Or.inr (Or.inr ⟨Nat.le_refl 0, Int.le_refl _⟩)

/-- A release that sees no waiter owes nothing, because nobody sleeps. -/
theorem Invariant.posted (inv : s.Invariant) {t : Fin m} {n : Int} (here : s.threads t = .posted n) :
    Invariant ⟨s.sem, Function.update s.threads t (if 0 < s.sem.waiters then .waking n else .idle)⟩ := by
  split
  next => exact inv.move here rfl rfl (Nat.le_refl _) trivial
  next unseen =>
    have counted := inv.waiters
    have sleeping : tally FutexThread.isAsleep s.threads ≤ tally FutexThread.registered s.threads := by
      apply tally_mono
      intro thread asleep
      cases thread with
      | asleep timed => rfl
      | _ => cases asleep
    refine inv.put inv.permits inv.nonneg (by rw [here]; rfl) ?_ trivial
    exact Or.inr (Or.inl ⟨by omega, rfl⟩)

theorem Invariant.next (inv : s.Invariant) (few : m < 2 ^ 31) {t : Fin m} {now : FutexThread} {sem : FutexSemaphore}
    (acted : s.sem.next (s.threads t) = some (now, sem)) : Invariant ⟨sem, Function.update s.threads t now⟩ := by
  have nonneg := inv.nonneg
  cases here : s.threads t with
  | load call woken =>
    rw [here] at acted
    cases acted
    exact inv.observe (by rw [here]; rfl) (by rw [here]; rfl)
  | cas call woken observed =>
    have positive := inv.hopeful t
    rw [here] at acted positive
    rw [FutexSemaphore.next] at acted
    split at acted
    next same =>
      cases acted
      have permits := inv.permits
      change 0 < observed at positive
      refine inv.put ?_ ?_ (by rw [here]; rfl) ?_ trivial
      · dsimp only
        omega
      · dsimp only
        omega
      · rw [here]
        refine Or.inr (Or.inr ⟨Nat.le_refl 0, ?_⟩)
        have one : (FutexThread.cas call woken observed).share ≤ 1 := Bool.toNat_le woken
        dsimp only
        omega
    · cases acted
      exact inv.observe (by rw [here]; rfl) (by rw [here]; rfl)
  | flag timed =>
    rw [here] at acted
    cases acted
    split
    · exact inv.move here rfl rfl (Nat.le_refl 0) trivial
    · split
      · exact inv.move here rfl rfl (Nat.le_refl 0) trivial
      · exact inv.move here rfl rfl (Nat.le_refl 0) trivial
  | clock =>
    rw [here] at acted
    cases acted
    exact inv.move here rfl rfl (Nat.le_refl 0) trivial
  | register timed =>
    rw [here] at acted
    cases acted
    exact inv.register few here
  | check timed =>
    rw [here] at acted
    cases acted
    split
    · exact inv.move here rfl rfl (Nat.le_refl 0) trivial
    · exact inv.move here rfl rfl (Nat.le_refl 0) trivial
  | recheck timed =>
    rw [here] at acted
    cases acted
    split
    · exact inv.move here rfl rfl (Nat.le_refl 0) trivial
    · exact inv.move here rfl rfl (Nat.le_refl 0) trivial
  | wait timed =>
    rw [here] at acted
    cases acted
    split
    next none => exact inv.put inv.permits nonneg (by rw [here]; rfl) (Or.inl none) trivial
    · exact inv.move here rfl rfl (Nat.le_refl 0) trivial
  | deregister timed result =>
    rw [here] at acted
    cases acted
    split
    next ended =>
      refine inv.deregister few here rfl rfl ?_ trivial
      rw [ended.2]
      rfl
    next => exact inv.deregister few here rfl rfl rfl trivial
  | posted n =>
    rw [here] at acted
    cases acted
    exact inv.posted here
  | _ =>
    rw [here] at acted
    cases acted

theorem Invariant.release (inv : s.Invariant) {t : Fin m} (here : s.threads t = .idle) {n : Nat}
    (small : s.sem.initial + (s.sem.released + n) < 2 ^ 31) :
    Invariant ⟨{ s.sem with count := toInt32 (s.sem.count + toInt32 n), released := s.sem.released + n },
      Function.update s.threads t (.posted (toInt32 n))⟩ := by
  have permits := inv.permits
  have nonneg := inv.nonneg
  have number : toInt32 n = n := toInt32_of_bounds (by omega) (by omega)
  have count : toInt32 (s.sem.count + n) = s.sem.count + n := toInt32_of_bounds (by omega) (by omega)
  rw [number, count]
  refine inv.put ?_ ?_ (by rw [here]; rfl) ?_ trivial
  · push_cast
    omega
  · dsimp only
    omega
  · rw [here]
    refine Or.inr (Or.inr ⟨Nat.le_refl 0, ?_⟩)
    show s.sem.count + n + 0 ≤ s.sem.count + ((0 + (n : Int).toNat : Nat) : Int)
    omega

theorem Invariant.act (inv : s.Invariant) (few : m < 2 ^ 31) {t : Fin m} {now : FutexThread} {sem : FutexSemaphore}
    (acted : s.sem.Acted (s.threads t) now sem) (small : sem.initial + sem.released < 2 ^ 31) :
    Invariant ⟨sem, Function.update s.threads t now⟩ := by
  generalize here : s.threads t = before at acted
  cases acted with
  | next done => exact inv.next few (here ▸ done)
  | released n => exact inv.release here small
  | closing =>
    have closing : Invariant ⟨s.sem, Function.update s.threads t .closing⟩ :=
      inv.move here rfl rfl (Nat.le_refl 0) trivial
    exact ⟨closing.permits, closing.nonneg, closing.waiters, closing.covered, closing.hopeful⟩
  | failed call woken observed => exact inv.observe (by rw [here]; rfl) (by rw [here]; rfl)
  | quiet step => cases step <;> exact inv.move here rfl rfl (Nat.le_refl 0) trivial

theorem mem_sleepers {t : Fin m} : t ∈ s.sleepers ↔ (s.threads t).isAsleep = true := by
  simp only [sleepers, Finset.mem_filter, Finset.mem_univ, true_and]

theorem asleep_of_isAsleep {thread : FutexThread} (asleep : thread.isAsleep = true) :
    ∃ timed, thread = .asleep timed := by
  cases thread with
  | asleep timed => exact ⟨timed, rfl⟩
  | _ => cases asleep

/-- What a wake changes in a sum over the threads: the caller becomes idle, and the chosen ones are no longer asleep. -/
theorem total_woken {t : Fin m} {n : Nat} {chosen : Finset (Fin m)} (wakes : s.Wakes n chosen)
    (awake : (s.threads t).isAsleep = false) (weight : FutexThread → Nat) {before after : Nat}
    (old : ∀ timed, weight (.asleep timed) = before) (new : ∀ timed, weight (.deregister timed .woken) = after) :
    total weight (s.woken t chosen) + chosen.card * before + weight (s.threads t) =
      total weight s.threads + chosen.card * after + weight .idle := by
  have sleeps : ∀ u ∈ chosen, ∃ timed, Function.update s.threads t .idle u = .asleep timed := by
    intro u member
    have asleep := mem_sleepers.mp (wakes.1 member)
    have other : u ≠ t := by
      rintro rfl
      rw [awake] at asleep
      cases asleep
    rw [Function.update_of_ne other]
    exact asleep_of_isAsleep asleep
  have changed : total weight (s.woken t chosen) + chosen.card * before =
      total weight (Function.update s.threads t .idle) + chosen.card * after := by
    apply total_chosen
    · intro u member
      obtain ⟨timed, here⟩ := sleeps u member
      rw [here, old]
    · intro u member
      obtain ⟨timed, here⟩ := sleeps u member
      rw [here]
      exact new timed
  have caller := total_update weight s.threads t .idle
  omega

/-- A wake passes on what it owed to as many threads, or nobody sleeps any more. -/
theorem Invariant.woken (inv : s.Invariant) {t : Fin m} {n : Nat} {chosen : Finset (Fin m)} (wakes : s.Wakes n chosen)
    (awake : (s.threads t).isAsleep = false) (outside : (s.threads t).registered = false)
    (share : (s.threads t).share ≤ n) : Invariant ⟨s.sem, s.woken t chosen⟩ := by
  have size := wakes.2
  have all : s.sleepers.card = tally FutexThread.isAsleep s.threads := (tally_eq_card _ _).symm
  refine ⟨inv.permits, inv.nonneg, ?_, ?_, ?_⟩
  · have counted : tally FutexThread.registered (s.woken t chosen) + chosen.card * 1 + (s.threads t).registered.toNat =
        tally FutexThread.registered s.threads + chosen.card * 1 + 0 :=
      total_woken wakes awake (fun thread => thread.registered.toNat) (fun _ => rfl) (fun _ => rfl)
    have before := inv.waiters
    rw [outside] at counted
    change _ + 0 = _ at counted
    dsimp only
    omega
  · intro some
    have asleep : tally FutexThread.isAsleep (s.woken t chosen) + chosen.card * 1 + (s.threads t).isAsleep.toNat =
        tally FutexThread.isAsleep s.threads + chosen.card * 0 + 0 :=
      total_woken wakes awake (fun thread => thread.isAsleep.toNat) (fun _ => rfl) (fun _ => rfl)
    have shares : total FutexThread.share (s.woken t chosen) + chosen.card * 0 + (s.threads t).share =
        total FutexThread.share s.threads + chosen.card * 1 + 0 :=
      total_woken wakes awake FutexThread.share (fun _ => rfl) (fun _ => rfl)
    have covered := inv.covered
    rw [awake] at asleep
    change _ + 0 = _ at asleep
    dsimp only at some ⊢
    have slept := covered (by omega)
    omega
  · intro u
    have settled : (Function.update s.threads t .idle u).Hopeful := by
      by_cases same : u = t
      · rw [same, Function.update_self]
        trivial
      · rw [Function.update_of_ne same]
        exact inv.hopeful u
    show (FutexSystem.woken s t chosen u).Hopeful
    unfold FutexSystem.woken
    split
    · cases here : Function.update s.threads t .idle u with
      | asleep timed => trivial
      | _ =>
        rw [here] at settled
        exact settled
    · exact settled

theorem wake_cases {t : Fin m} {chosen : Finset (Fin m)} (moved : s.wake t chosen = some s') :
    (∃ n, s.threads t = .waking n ∧ s.Wakes n.toNat chosen ∧ s' = ⟨s.sem, s.woken t chosen⟩) ∨
      (s.threads t = .closing ∧ s.Wakes INT_MAX chosen ∧ s' = ⟨{ s.sem with returned := true }, s.woken t chosen⟩) := by
  unfold wake at moved
  split at moved
  next n here =>
    split at moved
    next wakes =>
      cases moved
      exact Or.inl ⟨n, here, wakes, rfl⟩
    · cases moved
  next here =>
    split at moved
    next wakes =>
      cases moved
      exact Or.inr ⟨here, wakes, rfl⟩
    · cases moved
  · cases moved

theorem Invariant.wake (inv : s.Invariant) {t : Fin m} {chosen : Finset (Fin m)} (moved : s.wake t chosen = some s') :
    s'.Invariant := by
  rcases wake_cases moved with ⟨n, here, wakes, rfl⟩ | ⟨here, wakes, rfl⟩
  · exact inv.woken wakes (by rw [here]; rfl) (by rw [here]; rfl) (by rw [here]; exact Nat.le_of_eq (Nat.zero_add _))
  · have woken := inv.woken wakes (by rw [here]; rfl) (by rw [here]; rfl) (by rw [here]; exact Nat.zero_le _)
    exact ⟨woken.permits, woken.nonneg, woken.waiters, woken.covered, woken.hopeful⟩

theorem Invariant.step (inv : s.Invariant) (few : m < 2 ^ 31) {move : FutexMove m} (moved : s.step move = some s')
    (small : s'.sem.initial + s'.sem.released < 2 ^ 31) : s'.Invariant := by
  cases move with
  | thread t action =>
    obtain ⟨⟨now, sem⟩, acted, rfl⟩ := Option.map_eq_some_iff.mp moved
    exact inv.act few (FutexSemaphore.acted_of_act acted) small
  | wake t chosen => exact inv.wake moved

theorem observe_ne_closing (sem : FutexSemaphore) (call : FutexCall) (woken : Bool) :
    sem.observe call woken ≠ .closing := by
  unfold FutexSemaphore.observe
  split
  · nofun
  · cases call <;> nofun

/-- What the operations of the waiting calls leave alone. -/
theorem next_frame {sem sem' : FutexSemaphore} {thread now : FutexThread} (acted : sem.next thread = some (now, sem')) :
    sem'.initial = sem.initial ∧ sem'.released = sem.released ∧ sem'.shutdown = sem.shutdown ∧ now ≠ .closing := by
  cases thread with
  | load call woken =>
    cases acted
    exact ⟨rfl, rfl, rfl, observe_ne_closing sem call woken⟩
  | cas call woken observed =>
    rw [FutexSemaphore.next] at acted
    split at acted
    · cases acted
      exact ⟨rfl, rfl, rfl, nofun⟩
    · cases acted
      exact ⟨rfl, rfl, rfl, observe_ne_closing sem call woken⟩
  | flag timed =>
    cases acted
    refine ⟨rfl, rfl, rfl, ?_⟩
    split
    · nofun
    · split <;> nofun
  | clock =>
    cases acted
    exact ⟨rfl, rfl, rfl, nofun⟩
  | register timed =>
    cases acted
    exact ⟨rfl, rfl, rfl, nofun⟩
  | idle => cases acted
  | asleep timed => cases acted
  | waking n => cases acted
  | closing => cases acted
  | _ =>
    cases acted
    refine ⟨rfl, rfl, rfl, ?_⟩
    split <;> nofun

theorem step_released {move : FutexMove m} (moved : s.step move = some s') :
    s'.sem.initial = s.sem.initial ∧ s.sem.released ≤ s'.sem.released := by
  cases move with
  | thread t action =>
    obtain ⟨⟨now, sem⟩, acted, rfl⟩ := Option.map_eq_some_iff.mp moved
    have did := FutexSemaphore.acted_of_act acted
    generalize s.threads t = thread at did
    cases did with
    | next done =>
      obtain ⟨initial, released, _⟩ := next_frame done
      exact ⟨initial, Nat.le_of_eq released.symm⟩
    | released n => exact ⟨rfl, Nat.le_add_right _ _⟩
    | closing | failed | quiet => exact ⟨rfl, Nat.le_refl _⟩
  | wake t chosen =>
    rcases wake_cases moved with ⟨n, _, _, rfl⟩ | ⟨_, _, rfl⟩
    · exact ⟨rfl, Nat.le_refl _⟩
    · exact ⟨rfl, Nat.le_refl _⟩

theorem run_initial {moves : List (FutexMove m)} (ran : s.run moves = some s') : s'.sem.initial = s.sem.initial :=
  runFrom_keeps (P := fun next => next.sem.initial = s.sem.initial)
    (fun _ _ _ _ moved before => (step_released moved).1.trans before) ran rfl

/-- While the totals stay below the range of an `int`, the invariant is kept. -/
theorem Invariant.run (inv : s.Invariant) (few : m < 2 ^ 31) {moves : List (FutexMove m)} (ran : s.run moves = some s')
    (small : s'.sem.initial + s'.sem.released < 2 ^ 31) : s'.Invariant := by
  refine runFrom_keeps (P := fun next => next.sem.initial + next.sem.released < 2 ^ 31 → next.Invariant) ?_ ran
    (fun _ => inv) small
  intro before move after _ moved kept bounded
  have account := step_released moved
  exact (kept (by omega)).step few moved bounded

theorem Invariant.create (m : Nat) {initial : Nat} (small : initial < 2 ^ 31) : (create m initial).Invariant := by
  have cast : toInt32 initial = initial := toInt32_of_bounds (by omega) (by omega)
  have number : (FutexSystem.create m initial).sem.count = initial := by
    simp only [FutexSystem.create, FutexSemaphore.create, cast]
  have unregistered : tally FutexThread.registered (FutexSystem.create m initial).threads = 0 := tally_zero (fun _ => rfl)
  have awake : tally FutexThread.isAsleep (FutexSystem.create m initial).threads = 0 := tally_zero (fun _ => rfl)
  refine ⟨?_, ?_, ?_, ?_, fun _ => trivial⟩
  · rw [number]
    rfl
  · rw [number]
    omega
  · rw [unregistered]
    rfl
  · intro some
    omega

/-- In every state the permits are accounted for, and while a thread sleeps there are not more permits than
awakened threads that have still to retry and wakes that are still to be made. -/
theorem no_waiter_stranded (m initial : Nat) (few : m < 2 ^ 31) (moves : List (FutexMove m)) (s : FutexSystem m)
    (ran : (create m initial).run moves = some s) (small : initial + s.sem.released < 2 ^ 31) :
    s.sem.count = initial + s.sem.released - s.sem.acquired ∧ 0 ≤ s.sem.count ∧
      (0 < s.sem.count → (∃ t, (s.threads t).isAsleep = true) →
        s.sem.count ≤ tally FutexThread.awakened s.threads + total FutexThread.owed s.threads) := by
  have started : s.sem.initial = initial := run_initial ran
  have inv := (Invariant.create m (show initial < 2 ^ 31 by omega)).run few ran (by omega)
  have permits := inv.permits
  refine ⟨by omega, inv.nonneg, ?_⟩
  rintro - ⟨t, asleep⟩
  have one := le_tally FutexThread.isAsleep s.threads t
  rw [asleep] at one
  have covered := inv.covered one
  have shares : total FutexThread.share s.threads =
      tally FutexThread.awakened s.threads + total FutexThread.owed s.threads := total_add _ _ _
  omega

/-- The two threads of the runs below: one that waits and one that does something about it. -/
def waiter : Fin 2 := 0

def helper : Fin 2 := 1

/-- A thread goes to sleep, and another one releases a permit and has not yet looked for waiters. -/
def oneRelease : List (FutexMove 2) :=
  [.thread waiter (.call .acquire), .thread waiter .next, .thread waiter .next, .thread waiter .next,
    .thread waiter .next, .thread waiter .next, .thread waiter .next, .thread helper (.release 1)]

theorem no_waiter_stranded_one : ∃ s, (create 2 0).run oneRelease = some s ∧ s.sem.count = 1 ∧
    s.threads waiter = .asleep false ∧
      s.sem.count ≤ tally FutexThread.awakened s.threads + total FutexThread.owed s.threads := by
  refine ⟨_, rfl, by decide, rfl, ?_⟩
  exact (no_waiter_stranded 2 0 (by decide) oneRelease _ rfl (by decide)).2.2 (by decide) ⟨waiter, rfl⟩

end FutexSystem

end ChronoBook
