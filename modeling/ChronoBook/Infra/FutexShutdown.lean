import ChronoBook.Infra.FutexSemaphore

/-! The shutdown of the semaphore. `shutdown` raises a flag and wakes all sleepers, but
the futex compares only the count: a thread that has read the flag before it was
raised, and calls the futex after the wake, sleeps all the same. -/

namespace ChronoBook
open Library

/-- The flag was read for the last time before the wait, and the futex is not called yet. -/
def FutexThread.inWindow : FutexThread → Bool
  | .wait _ => true
  | _ => false

def FutexThread.Restless (thread : FutexThread) : Prop := thread.isAsleep = false ∧ thread.inWindow = false

namespace FutexSystem

variable {m : Nat} {s s' : FutexSystem m}

theorem observe_restless (sem : FutexSemaphore) (call : FutexCall) (woken : Bool) : (sem.observe call woken).Restless := by
  unfold FutexSemaphore.observe
  split
  · exact ⟨rfl, rfl⟩
  · cases call <;> exact ⟨rfl, rfl⟩

/-- Under the flag the check before the wait turns a thread away. -/
theorem next_restless {sem sem' : FutexSemaphore} {thread now : FutexThread} (raised : sem.shutdown = true)
    (restless : thread.Restless) (acted : sem.next thread = some (now, sem')) :
    now.Restless ∧ sem'.shutdown = true := by
  cases thread with
  | load call woken =>
    cases acted
    exact ⟨observe_restless sem call woken, raised⟩
  | cas call woken observed =>
    rw [FutexSemaphore.next] at acted
    split at acted
    · cases acted
      exact ⟨⟨rfl, rfl⟩, raised⟩
    · cases acted
      exact ⟨observe_restless sem call woken, raised⟩
  | flag timed =>
    cases acted
    rw [if_pos raised]
    exact ⟨⟨rfl, rfl⟩, raised⟩
  | check timed =>
    cases acted
    refine ⟨?_, raised⟩
    split <;> exact ⟨rfl, rfl⟩
  | recheck timed =>
    cases acted
    rw [if_pos raised]
    exact ⟨⟨rfl, rfl⟩, raised⟩
  | wait timed => cases restless.2
  | deregister timed result =>
    cases acted
    refine ⟨?_, raised⟩
    split <;> exact ⟨rfl, rfl⟩
  | posted n =>
    cases acted
    refine ⟨?_, raised⟩
    split <;> exact ⟨rfl, rfl⟩
  | _ => cases acted <;> exact ⟨⟨rfl, rfl⟩, raised⟩

theorem act_restless {sem sem' : FutexSemaphore} {thread now : FutexThread} (raised : sem.shutdown = true)
    (restless : thread.Restless) (acted : sem.Acted thread now sem') : now.Restless ∧ sem'.shutdown = true := by
  cases acted with
  | next done => exact next_restless raised restless done
  | released n => exact ⟨⟨rfl, rfl⟩, raised⟩
  | closing => exact ⟨⟨rfl, rfl⟩, rfl⟩
  | failed call woken observed => exact ⟨observe_restless sem call woken, raised⟩
  | quiet step => cases step <;> exact ⟨⟨rfl, rfl⟩, raised⟩

/-- The flag is up, and no thread sleeps or is about to. -/
structure Closed (s : FutexSystem m) : Prop where
  raised : s.sem.shutdown = true
  restless : ∀ t, (s.threads t).Restless

theorem update_restless {threads : Fin m → FutexThread} {t : Fin m} {now : FutexThread}
    (restless : ∀ u, u ≠ t → (threads u).Restless) (settled : now.Restless) (u : Fin m) :
    (Function.update threads t now u).Restless := by
  by_cases same : u = t
  · rw [same, Function.update_self]
    exact settled
  · rw [Function.update_of_ne same]
    exact restless u same

theorem rouse_restless {thread : FutexThread} (outside : thread.inWindow = false) : thread.rouse.Restless := by
  cases thread with
  | wait timed => cases outside
  | _ => exact ⟨rfl, rfl⟩

/-- What a wake leaves: the sleepers that were not chosen. -/
theorem woken_restless {t : Fin m} {chosen : Finset (Fin m)} (clear : ∀ u, (s.threads u).inWindow = false)
    (slept : ∀ u, u ∉ chosen → (s.threads u).isAsleep = false) (u : Fin m) : (s.woken t chosen u).Restless := by
  unfold woken
  split
  next =>
    apply rouse_restless
    by_cases same : u = t
    · rw [same, Function.update_self]
      rfl
    · rw [Function.update_of_ne same]
      exact clear u
  next other =>
    by_cases same : u = t
    · rw [same, Function.update_self]
      exact ⟨rfl, rfl⟩
    · rw [Function.update_of_ne same]
      exact ⟨slept u other, clear u⟩

theorem Closed.step (closed : s.Closed) {move : FutexMove m} (moved : s.step move = some s') : s'.Closed := by
  cases move with
  | thread t action =>
    obtain ⟨⟨now, sem⟩, acted, rfl⟩ := Option.map_eq_some_iff.mp moved
    obtain ⟨settled, raised⟩ := act_restless closed.raised (closed.restless t) (FutexSemaphore.acted_of_act acted)
    exact ⟨raised, update_restless (fun u _ => closed.restless u) settled⟩
  | wake t chosen =>
    have settled : ∀ u, (s.woken t chosen u).Restless :=
      woken_restless (fun u => (closed.restless u).2) (fun u _ => (closed.restless u).1)
    rcases wake_cases moved with ⟨n, _, _, rfl⟩ | ⟨_, _, rfl⟩
    · exact ⟨closed.raised, settled⟩
    · exact ⟨closed.raised, settled⟩

theorem Closed.run (closed : s.Closed) {moves : List (FutexMove m)} (ran : s.run moves = some s') : s'.Closed :=
  runFrom_keeps (fun _ _ _ _ moved before => before.step moved) ran closed

/-- The flag stays up, and a thread in `shutdown` has raised it. -/
theorem act_raised {sem sem' : FutexSemaphore} {thread now : FutexThread} (acted : sem.Acted thread now sem') :
    (sem.shutdown = true → sem'.shutdown = true) ∧ (now = .closing → sem'.shutdown = true) := by
  cases acted with
  | next done =>
    obtain ⟨_, _, same, other⟩ := next_frame done
    exact ⟨fun raised => same.trans raised, fun closing => absurd closing other⟩
  | released n => exact ⟨fun raised => raised, fun never => by cases never⟩
  | closing => exact ⟨fun _ => rfl, fun _ => rfl⟩
  | failed call woken observed =>
    exact ⟨fun raised => raised, fun closing => absurd closing (observe_ne_closing sem call woken)⟩
  | quiet step => exact ⟨fun raised => raised, fun never => by cases step <;> cases never⟩

theorem closing_of_woken {t u : Fin m} {chosen : Finset (Fin m)} (closing : s.woken t chosen u = .closing) :
    s.threads u = .closing := by
  have inside : Function.update s.threads t .idle u = .closing := by
    unfold woken at closing
    split at closing
    · cases here : Function.update s.threads t .idle u with
      | closing => rfl
      | _ =>
        rw [here] at closing
        cases closing
    · exact closing
  by_cases same : u = t
  · rw [same, Function.update_self] at inside
    cases inside
  · rwa [Function.update_of_ne same] at inside

theorem raised_run {initial : Nat} {moves : List (FutexMove m)} (ran : (create m initial).run moves = some s) {t : Fin m}
    (calls : s.threads t = .closing) : s.sem.shutdown = true := by
  refine runFrom_keeps (P := fun next => ∀ u, next.threads u = .closing → next.sem.shutdown = true) ?_ ran ?_ t calls
  · intro before move after _ moved raised
    cases move with
    | thread u action =>
      obtain ⟨⟨now, sem⟩, acted, rfl⟩ := Option.map_eq_some_iff.mp moved
      obtain ⟨stays, raises⟩ := act_raised (FutexSemaphore.acted_of_act acted)
      intro v closing
      by_cases same : v = u
      · subst same
        exact raises (by simpa using closing)
      · exact stays (raised v (by simpa [Function.update_of_ne same] using closing))
    | wake u chosen =>
      intro v closing
      rcases wake_cases moved with ⟨n, _, _, rfl⟩ | ⟨_, _, rfl⟩
      · exact raised v (closing_of_woken closing)
      · exact raised v (closing_of_woken closing)
  · intro u closing
    cases closing

theorem closed_of_wake {t : Fin m} {chosen : Finset (Fin m)} (few : m < 2 ^ 31) (raised : s.sem.shutdown = true)
    (wakes : s.Wakes INT_MAX chosen) (clear : ∀ u, (s.threads u).inWindow = false) :
    Closed ⟨{ s.sem with returned := true }, s.woken t chosen⟩ := by
  have bound : s.sleepers.card ≤ m := by
    simpa only [Fintype.card_fin] using Finset.card_le_univ s.sleepers
  have all : chosen = s.sleepers := by
    apply Finset.eq_of_subset_of_card_le wakes.1
    rw [wakes.2]
    apply Nat.le_min.mpr
    exact ⟨Nat.le_trans bound (Nat.le_of_lt_succ few), Nat.le_refl _⟩
  refine ⟨raised, woken_restless clear ?_⟩
  intro u other
  rw [all, mem_sleepers, Bool.not_eq_true] at other
  exact other

theorem run_tryAcquire {t : Fin m} (idle : s.threads t = .idle) (some : 0 < s.sem.count) :
    s.run [.thread t (.call .tryAcquire), .thread t .next, .thread t .next] =
      Option.some ⟨{ s.sem with count := s.sem.count - 1, acquired := s.sem.acquired + 1 }, s.threads⟩ := by
  have same : Function.update s.threads t .idle = s.threads := by
    rw [← idle, Function.update_eq_self]
  simp [run, runFrom, step, FutexSemaphore.act, FutexSemaphore.next, FutexSemaphore.observe, idle, some, same]

theorem run_drain {t : Fin m} {permits : Nat} (idle : s.threads t = .idle) (count : s.sem.count = permits) :
    ∃ moves s', s.run moves = some s' ∧ s'.sem.count = 0 ∧ s'.threads = s.threads := by
  induction permits generalizing s with
  | zero => exact ⟨[], s, rfl, count, rfl⟩
  | succ permits ih =>
    have one := run_tryAcquire idle (show 0 < s.sem.count by omega)
    obtain ⟨moves, s', ran, none, same⟩ := ih (s := ⟨{ s.sem with count := s.sem.count - 1, acquired := s.sem.acquired + 1 }, s.threads⟩)
      idle (by dsimp only; omega)
    exact ⟨_, s', runFrom_two one ran, none, same⟩

/-- A thread that is about to call the futex can be put to sleep: another one takes all permits before. -/
theorem run_to_sleep {t u : Fin m} (idle : s.threads t = .idle) (nonneg : 0 ≤ s.sem.count)
    (window : (s.threads u).inWindow = true) :
    ∃ later after, s.run later = some after ∧ (after.threads u).isAsleep = true := by
  obtain ⟨moves, empty, ran, none, same⟩ := run_drain idle (Int.toNat_of_nonneg nonneg).symm
  cases here : s.threads u with
  | wait timed =>
    have last : empty.run [.thread u .next] = some ⟨empty.sem, Function.update empty.threads u (.asleep timed)⟩ := by
      simp [run, runFrom, step, FutexSemaphore.act, FutexSemaphore.next, same, here, none]
    refine ⟨_, _, runFrom_two ran last, ?_⟩
    simp only [Function.update_self]
    rfl
  | _ =>
    rw [here] at window
    cases window

/-- A thread that was about to call the futex when the sleepers were woken is about to call it afterwards. -/
theorem inWindow_woken {t u : Fin m} {chosen : Finset (Fin m)} (other : u ≠ t) (window : (s.threads u).inWindow = true) :
    s.woken t chosen u = s.threads u := by
  unfold woken
  rw [Function.update_of_ne other]
  split
  · cases here : s.threads u with
    | wait timed => rfl
    | _ =>
      rw [here] at window
      cases window
  · rfl

/-- Whether a shutdown keeps its promise is decided when it wakes the sleepers. If no thread then stands between
its check of the flag and the futex, nobody sleeps any more, whatever happens; if one does, it may go to sleep
after the shutdown has returned. -/
theorem shutdown_decided (m initial : Nat) (few : m < 2 ^ 31) (moves : List (FutexMove m)) (before closed : FutexSystem m)
    (t : Fin m) (chosen : Finset (Fin m)) (ran : (create m initial).run moves = some before)
    (calls : before.threads t = .closing) (woken : before.step (.wake t chosen) = some closed) :
    ((∀ u, (before.threads u).inWindow = false) →
      ∀ later after, closed.run later = some after → ∀ u, (after.threads u).isAsleep = false) ∧
    (initial + before.sem.released < 2 ^ 31 → ∀ u, (before.threads u).inWindow = true →
      ∃ later after, closed.run later = some after ∧ (after.threads u).isAsleep = true) := by
  rcases wake_cases woken with ⟨n, waking, _⟩ | ⟨_, wakes, rfl⟩
  · rw [calls] at waking
    cases waking
  constructor
  · intro clear later after rest u
    have closed := closed_of_wake (t := t) few (raised_run ran calls) wakes clear
    exact ((closed.run rest).restless u).1
  · intro small u window
    have inv : before.Invariant :=
      (Invariant.create m (show initial < 2 ^ 31 by omega)).run few ran (by rw [run_initial ran]; exact small)
    have other : u ≠ t := by
      rintro rfl
      rw [calls] at window
      cases window
    have idle : before.woken t chosen t = .idle := by
      have outside : t ∉ chosen := by
        intro member
        have asleep := mem_sleepers.mp (wakes.1 member)
        rw [calls] at asleep
        cases asleep
      unfold FutexSystem.woken
      rw [if_neg outside, Function.update_self]
    have stands : (before.woken t chosen u).inWindow = true := by rwa [inWindow_woken other window]
    exact run_to_sleep idle inv.nonneg stands

/-- A thread sleeps when the semaphore is shut down. -/
def earlySleeper : List (FutexMove 2) :=
  [.thread waiter (.call .acquire), .thread waiter .next, .thread waiter .next, .thread waiter .next,
    .thread waiter .next, .thread waiter .next, .thread waiter .next, .thread helper .shutdown]

theorem shutdown_decided_early : ∃ before closed, (create 2 0).run earlySleeper = some before ∧
    before.threads waiter = .asleep false ∧ before.step (.wake helper {waiter}) = some closed ∧
      ∀ later after, closed.run later = some after → ∀ u, (after.threads u).isAsleep = false :=
  ⟨_, _, rfl, rfl, rfl,
    (shutdown_decided 2 0 (by decide) earlySleeper _ _ helper {waiter} rfl rfl rfl).1 (by decide)⟩

/-- A thread checks the flag, another one shuts the semaphore down, and the first calls the futex. -/
def lateSleeper : List (FutexMove 2) :=
  [.thread waiter (.call .acquire), .thread waiter .next, .thread waiter .next, .thread waiter .next,
    .thread waiter .next, .thread waiter .next, .thread helper .shutdown, .wake helper ∅, .thread waiter .next]

/-- The shutdown has returned, no wake is owed to anybody, and a thread sleeps in `acquire`. -/
theorem shutdown_strands_sleeper : ∃ s, (create 2 0).run lateSleeper = some s ∧ s.sem.returned = true ∧
    s.threads waiter = .asleep false ∧ s.threads helper = .idle ∧ total FutexThread.owed s.threads = 0 :=
  ⟨_, rfl, rfl, rfl, rfl, by decide⟩

end FutexSystem

end ChronoBook
