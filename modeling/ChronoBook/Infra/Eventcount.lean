import ChronoBook.Library.Monitor
import Mathlib.Data.UInt

/-! The event count. A waiter takes the epoch, looks for its event, and then waits
until the epoch is another one; a notifier steps the epoch and wakes everybody. The
notifier does not take the mutex, so that it can do both while a waiter stands between
its test and its sleep. -/

namespace ChronoBook
open Library Monitor

structure Eventcount where
  epoch : UInt64 := 0
  deriving DecidableEq, Repr

inductive EventcountPlace where
  | idle
  | prepareWait
  | prepared (epoch : UInt64)
  | commitLock (observed : UInt64)
  | commitTest (observed : UInt64)
  | commitWait (observed : UInt64)
  | commitUnlock
  | committed
  | notifyAdd
  | notify
  | notified
  deriving DecidableEq, Repr

namespace EventcountPlace

def isIdle : EventcountPlace → Bool
  | .idle => true
  | .prepared _ => true
  | .committed => true
  | .notified => true
  | _ => false

end EventcountPlace

namespace Eventcount

def code : EventcountPlace → Instr Eventcount EventcountPlace
  | .prepareWait => .act (fun events => (events, .prepared events.epoch))
  | .commitLock observed => .lock (.commitTest observed)
  | .commitTest observed => .act (fun events =>
      (events, if events.epoch ≠ observed then .commitUnlock else .commitWait observed))
  | .commitWait observed => .wait (.commitTest observed) none
  | .commitUnlock => .unlock .committed
  | .notifyAdd => .act (fun events => ({ events with epoch := events.epoch + 1 }, .notify))
  | .notify => .notifyAll .notified
  | .idle => .idle
  | .prepared _ => .idle
  | .committed => .idle
  | .notified => .idle

def entry : EventcountPlace → Bool
  | .prepareWait => true
  | .commitLock _ => true
  | .notifyAdd => true
  | _ => false

def program : Program Eventcount EventcountPlace := { code := code, entry := entry }

def system (m : Nat) : Monitor m Eventcount EventcountPlace := start m {} .idle

variable {m : Nat} {s s' : Monitor m Eventcount EventcountPlace} {t u : Fin m} {moves : List (Move m EventcountPlace)}

def Unobserved (s : Monitor m Eventcount EventcountPlace) : Prop :=
  ∀ t observed, s.threads t ≠ .running (.commitWait observed)

/-- The epoch is stepped only while nobody stands between its test and its sleep. -/
def Outside (s : Monitor m Eventcount EventcountPlace) : List (Move m EventcountPlace) → Prop
  | [] => True
  | move :: later => ∀ s', s.step program move = some s' →
      (s'.shared.epoch ≠ s.shared.epoch → Unobserved s) ∧ Outside s' later

def Waits (thread : Thread EventcountPlace) : Prop :=
  (∀ next late, thread = .asleep next late → late = none ∧ ∃ observed, next = .commitTest observed) ∧
    ∀ next, thread = .waking next → ∃ observed, next = .commitTest observed

/-- Who is going to sleep has seen this epoch. -/
def Sees (epoch : UInt64) (thread : Thread EventcountPlace) : Prop :=
  ∀ observed, thread = .running (.commitWait observed) → epoch = observed

/-- Who sleeps on an old epoch will be awakened. -/
def Heeded (epoch : UInt64) (pending : Prop) (thread : Thread EventcountPlace) : Prop :=
  ∀ observed, thread = .asleep (.commitTest observed) none → epoch = observed ∨ pending

structure Awaited (s : Monitor m Eventcount EventcountPlace) : Prop where
  waits : ∀ t, Waits (s.threads t)
  parked : ∀ t, Sees s.shared.epoch (s.threads t)
  asleep : ∀ t, Heeded s.shared.epoch (∃ u, s.threads u = .running .notify) (s.threads t)

theorem waits_running (here : EventcountPlace) : Waits (.running here) := ⟨nofun, nofun⟩

theorem waits_waking (observed : UInt64) : Waits (.waking (.commitTest observed)) := by
  refine ⟨nofun, fun next same => ?_⟩
  cases same
  exact ⟨observed, rfl⟩

theorem Heeded.mono {epoch : UInt64} {pending pending' : Prop} {thread : Thread EventcountPlace}
    (heeded : Heeded epoch pending thread) (still : pending → pending') : Heeded epoch pending' thread :=
  fun observed sleeper => (heeded observed sleeper).imp id still

/-- A thread goes on that was not about to notify, and the epoch stays. -/
theorem Awaited.put (awaited : Awaited s) (now : Thread EventcountPlace) (owner : Option (Fin m))
    (before : s.threads t ≠ .running .notify) (waits : Waits now) (parks : Sees s.shared.epoch now)
    (sleeps : Heeded s.shared.epoch False now) :
    Awaited ⟨s.shared, owner, Function.update s.threads t now⟩ where
  waits := forall_update (P := fun _ => Waits) now waits (fun u _ => awaited.waits u)
  parked := forall_update (P := fun _ => Sees s.shared.epoch) now parks (fun u _ => awaited.parked u)
  asleep := by
    refine forall_update (P := fun _ => Heeded s.shared.epoch _) now (sleeps.mono False.elim)
      (fun u _ => (awaited.asleep u).mono ?_)
    rintro ⟨v, notifies⟩
    have other : v ≠ t := by
      rintro rfl
      exact before notifies
    refine ⟨v, ?_⟩
    dsimp only
    rw [Function.update_of_ne other]
    exact notifies

theorem Awaited.step (awaited : Awaited s) (stepped : Stepped program s s')
    (outside : s'.shared.epoch ≠ s.shared.epoch → Unobserved s) : Awaited s' := by
  cases stepped with
  | @called t here entry place code allowed =>
    refine awaited.put (.running entry) s.owner ?_ (waits_running _) ?_ nofun
    · rw [place]
      rintro ⟨⟩
      cases code
    · rintro observed ⟨⟩
      cases allowed
  | @acted t here run place code =>
    cases here with
    | prepareWait =>
      cases code
      exact awaited.put (.running _) s.owner (by rw [place]; nofun) (waits_running _) nofun nofun
    | commitTest observed =>
      cases code
      refine awaited.put (.running _) s.owner (by rw [place]; nofun) (waits_running _) ?_ nofun
      intro expected same
      dsimp only at same
      split at same
      · cases same
      next current =>
        cases same
        exact not_not.mp current
    | notifyAdd =>
      cases code
      have unobserved := outside (by
        change s.shared.epoch + 1 ≠ s.shared.epoch
        simp)
      refine ⟨?_, ?_, fun v observed _ => Or.inr ⟨t, Function.update_self _ _ _⟩⟩
      · exact forall_update (P := fun _ => Waits) _ (waits_running _) (fun u _ => awaited.waits u)
      · exact forall_update (P := fun _ => Sees _) _ nofun
          (fun u _ observed place => absurd place (unobserved u observed))
    | _ => cases code
  | failed place code => cases code
  | @locked t here next place code free =>
    cases here with
    | commitLock observed =>
      cases code
      exact awaited.put (.running _) (some t) (by rw [place]; nofun) (waits_running _) nofun nofun
    | _ => cases code
  | @relocked t next place free =>
    obtain ⟨observed, rfl⟩ := (awaited.waits t).2 next place
    exact awaited.put (.running _) (some t) (by rw [place]; nofun) (waits_running _) nofun nofun
  | @unlocked t here next place code mine =>
    cases here with
    | commitUnlock =>
      cases code
      exact awaited.put (.running _) none (by rw [place]; nofun) (waits_running _) nofun nofun
    | _ => cases code
  | @slept t here next late place code mine =>
    cases here with
    | commitWait observed =>
      cases code
      refine awaited.put (.asleep _ _) none (by rw [place]; nofun) ⟨?_, nofun⟩ nofun ?_
      · rintro next late ⟨⟩
        exact ⟨rfl, observed, rfl⟩
      · rintro expected ⟨⟩
        exact Or.inl (awaited.parked t observed place)
    | _ => cases code
  | @unheard t here next place code nobody => cases here <;> cases code
  | @signalled t u here next wakes late place code sleeper => cases here <;> cases code
  | @broadcast t here next place code =>
    cases here with
    | notify =>
      cases code
      refine ⟨fun u => ?_, fun u observed same => ?_, fun u observed same => ?_⟩
      · have before : Waits (Function.update s.threads t (.running .notified) u) :=
          forall_update (P := fun _ => Waits) _ (waits_running _) (fun v _ => awaited.waits v) u
        dsimp only
        revert before
        cases Function.update s.threads t (.running .notified) u with
        | running here => exact id
        | waking next => exact id
        | asleep next late =>
          intro before
          obtain ⟨_, observed, rfl⟩ := before.1 _ _ rfl
          exact waits_waking observed
      · have before : Function.update s.threads t (.running .notified) u = .running (.commitWait observed) := by
          dsimp only at same
          revert same
          cases Function.update s.threads t (.running .notified) u with
          | running here => exact id
          | waking next => exact nofun
          | asleep next late => exact nofun
        revert before
        have unseen : Sees s.shared.epoch (.running .notified) := nofun
        exact forall_update (P := fun _ => Sees s.shared.epoch) _ unseen (fun v _ => awaited.parked v) u observed
      · dsimp only at same
        cases now : Function.update s.threads t (.running .notified) u <;> rw [now] at same <;> cases same
    | _ => cases code
  | @roused t next late place =>
    obtain ⟨_, observed, rfl⟩ := (awaited.waits t).1 _ _ place
    exact awaited.put (.waking _) s.owner (by rw [place]; nofun) (waits_waking observed) nofun nofun
  | @expired t next late place =>
    have untimed := ((awaited.waits t).1 _ _ place).1
    cases untimed

theorem Awaited.run (awaited : Awaited s) (moves : List (Move m EventcountPlace)) (ran : s.run program moves = some s')
    (outside : Outside s moves) : Awaited s' := by
  induction moves generalizing s with
  | nil =>
    cases ran
    exact awaited
  | cons move later ih =>
    obtain ⟨next, moved, rest⟩ := Option.bind_eq_some_iff.mp ran
    obtain ⟨careful, outside⟩ := outside next moved
    exact ih (awaited.step (stepped_of_step moved) careful) rest outside

theorem system_awaited (m : Nat) : Awaited (system m) where
  waits _ := waits_running _
  parked _ := nofun
  asleep _ := nofun

/-! Inside the window. -/

def holds : EventcountPlace → Bool
  | .commitTest _ => true
  | .commitWait _ => true
  | .commitUnlock => true
  | _ => false

theorem disciplined : program.Disciplined holds where
  code := by
    intro here
    cases here with
    | commitTest observed =>
      intro events
      dsimp only
      split <;> rfl
    | commitWait observed => exact ⟨rfl, rfl, nofun⟩
    | prepareWait | notifyAdd => exact fun _ => rfl
    | commitLock observed => exact ⟨rfl, rfl⟩
    | commitUnlock => exact ⟨rfl, rfl⟩
    | idle | prepared | committed | notified | notify => rfl
  entry := by
    intro here enters
    cases here <;> first | rfl | cases enters
  weak := by
    intro here next fails
    cases fails

theorem exclusive (ran : (system m).run program moves = some s) : s.Exclusive holds := by
  have free : (system m).Exclusive holds := ⟨fun _ => ⟨nofun, nofun⟩, fun _ => trivial⟩
  exact free.run disciplined ran

def notifies : Thread EventcountPlace → Bool
  | .running .notifyAdd => true
  | .running .notify => true
  | _ => false

/-- A sleeper on the epoch that it saw, and nobody to wake it. -/
structure Lost (t : Fin m) (observed : UInt64) (s : Monitor m Eventcount EventcountPlace) : Prop where
  asleep : s.threads t = .asleep (.commitTest observed) none
  quiet : ∀ u, notifies (s.threads u) = false

/-- The move neither begins a notification nor ends the sleep of this thread without one. -/
def Silent (t : Fin m) : Move m EventcountPlace → Prop
  | .call _ entry => entry ≠ .notifyAdd
  | .spurious u => u ≠ t
  | _ => True

variable {observed : UInt64}

theorem Lost.put (lost : Lost t observed s) (other : u ≠ t) (now : Thread EventcountPlace) (quiet : notifies now = false)
    (shared : Eventcount) (owner : Option (Fin m)) :
    Lost t observed ⟨shared, owner, Function.update s.threads u now⟩ where
  asleep := by
    dsimp only
    rw [Function.update_of_ne other.symm]
    exact lost.asleep
  quiet := forall_update (P := fun _ thread => notifies thread = false) now quiet (fun v _ => lost.quiet v)

theorem Lost.other (lost : Lost t observed s) {thread : Thread EventcountPlace} (place : s.threads u = thread)
    (different : thread ≠ .asleep (.commitTest observed) none) : u ≠ t := by
  rintro rfl
  exact different (place.symm.trans lost.asleep)

theorem Lost.exec (lost : Lost t observed s) {here : EventcountPlace} (place : s.threads u = .running here)
    (done : s.exec u (code here) = some s') : Lost t observed s' := by
  have other := lost.other place (by simp)
  have quiet := lost.quiet u
  rw [place] at quiet
  cases here with
  | prepareWait =>
    cases done
    exact lost.put other (.running (.prepared _)) rfl _ _
  | commitTest observed =>
    cases done
    refine lost.put other (.running _) ?_ _ _
    dsimp only
    split <;> rfl
  | commitLock observed =>
    rw [code, Monitor.exec] at done
    split at done <;> cases done
    exact lost.put other (.running (.commitTest observed)) rfl _ _
  | commitWait observed =>
    rw [code, Monitor.exec] at done
    split at done <;> cases done
    exact lost.put other (.asleep _ _) rfl _ _
  | commitUnlock =>
    rw [code, Monitor.exec] at done
    split at done <;> cases done
    exact lost.put other (.running .committed) rfl _ _
  | notifyAdd | notify => cases quiet
  | idle | prepared | committed | notified => cases done

theorem quiet_of_holds {next : EventcountPlace} (held : holds next = true) : notifies (.running next) = false := by
  cases next <;> first | rfl | cases held

theorem quiet_of_entry {entry : EventcountPlace} (allowed : program.entry entry = true) (silent : entry ≠ .notifyAdd) :
    notifies (.running entry) = false := by
  cases entry with
  | notifyAdd => exact absurd rfl silent
  | notify => cases allowed
  | _ => rfl

theorem Lost.step (lost : Lost t observed s) (exclusive : s.Exclusive holds) {move : Move m EventcountPlace}
    (silent : Silent t move) (moved : s.step program move = some s') : Lost t observed s' := by
  cases move with
  | call u entry =>
    rw [Monitor.step] at moved
    split at moved
    next here place =>
      split at moved
      next idle =>
        split at moved <;> cases moved
        next allowed => exact lost.put (lost.other place (by simp)) (.running entry) (quiet_of_entry allowed silent) _ _
      next => cases moved
    next => cases moved
  | next u =>
    rw [Monitor.step] at moved
    split at moved
    next here place => exact lost.exec place moved
    next => cases moved
    next next place =>
      split at moved <;> cases moved
      -- who wakes goes on at a place where the mutex is held, and no notification does
      have held := exclusive.returns u
      rw [place] at held
      exact lost.put (lost.other place (by simp)) (.running next) (quiet_of_holds held) _ _
  | fail u =>
    rw [Monitor.step] at moved
    split at moved
    next here place => cases moved
    next => cases moved
  | signal u sleeper =>
    rw [Monitor.step] at moved
    split at moved
    next here wakes late place asleep => cases here <;> cases moved
    next => cases moved
  | spurious u =>
    rw [Monitor.step] at moved
    split at moved <;> cases moved
    exact lost.put silent (.waking _) rfl _ _
  | timeOut u =>
    rw [Monitor.step] at moved
    split at moved <;> cases moved
    next next late place => exact lost.put (lost.other place (by simp)) (.waking _) rfl _ _

theorem Lost.run (lost : Lost t observed s) (exclusive : s.Exclusive holds) {later : List (Move m EventcountPlace)}
    (silent : ∀ move ∈ later, Silent t move) (ran : s.run program later = some s') : Lost t observed s' := by
  induction later generalizing s with
  | nil =>
    cases ran
    exact lost
  | cons move rest ih =>
    obtain ⟨next, moved, ran⟩ := Option.bind_eq_some_iff.mp ran
    have ⟨first, others⟩ := List.forall_mem_cons.mp silent
    exact ih (lost.step exclusive first moved) (exclusive.step disciplined (stepped_of_step moved)) others ran

/-- A whole notification between a test and the sleep after it. -/
def inWindow (t u : Fin m) : List (Move m EventcountPlace) := [.call u .notifyAdd, .next u, .next u, .next t]

theorem code_of_isIdle {here : EventcountPlace} (idle : here.isIdle = true) : code here = .idle := by
  cases here <;> first | rfl | cases idle

theorem inWindow_lost (exclusive : s.Exclusive holds) {here : EventcountPlace}
    (waiter : s.threads t = .running (.commitWait observed)) (caller : s.threads u = .running here)
    (idle : here.isIdle = true) (quiet : ∀ v, notifies (s.threads v) = false) :
    ∃ s', s.run program (inWindow t u) = some s' ∧ s'.shared.epoch = s.shared.epoch + 1 ∧ Lost t observed s' := by
  have mine : s.owner = some t := (exclusive.owner t).mp (by rw [waiter]; rfl)
  have other : t ≠ u := by
    rintro rfl
    rw [waiter] at caller
    cases caller
    cases idle
  have begins : s.step program (.call u .notifyAdd) = some (s.goto u (.running .notifyAdd)) := by
    rw [Monitor.step, caller]
    dsimp only
    rw [show program.code here = .idle from code_of_isIdle idle]
    rfl
  have adds : (s.goto u (.running .notifyAdd)).step program (.next u) =
      some ⟨⟨s.shared.epoch + 1⟩, s.owner, Function.update s.threads u (.running .notify)⟩ := by
    simp [Monitor.step, goto, program, code, Monitor.exec]
  have wakes : Monitor.step program ⟨⟨s.shared.epoch + 1⟩, s.owner, Function.update s.threads u (.running .notify)⟩
      (.next u) = some ⟨⟨s.shared.epoch + 1⟩, s.owner, fun v =>
        (Function.update s.threads u (.running .notified) v).rouse⟩ := by
    simp [Monitor.step, program, code, Monitor.exec]
  have sleeps : Monitor.step program ⟨⟨s.shared.epoch + 1⟩, s.owner, fun v =>
      (Function.update s.threads u (.running .notified) v).rouse⟩ (.next t) = some ⟨⟨s.shared.epoch + 1⟩, none,
        Function.update (fun v => (Function.update s.threads u (.running .notified) v).rouse) t
          (.asleep (.commitTest observed) none)⟩ := by
    simp [Monitor.step, program, code, Monitor.exec, goto, other, waiter, mine, Thread.rouse]
  refine ⟨_, Eq.trans ?_ sleeps, rfl, by simp, ?_⟩
  · rw [inWindow, Monitor.run, runFrom, begins, Option.bind_some, runFrom, adds, Option.bind_some, runFrom, wakes,
      Option.bind_some, runFrom]
    exact Option.bind_fun_some _
  · refine forall_update (P := fun _ thread => notifies thread = false) _ rfl (fun v _ => ?_)
    have before : notifies (Function.update s.threads u (.running .notified) v) = false :=
      forall_update (P := fun _ thread => notifies thread = false) _ rfl (fun v _ => quiet v) v
    revert before
    cases Function.update s.threads u (.running .notified) v with
    | asleep next late => exact fun _ => rfl
    | _ => exact id

/-- The event count keeps its promise as long as nobody steps the epoch while a waiter stands between its test and its
sleep: whoever sleeps on an old epoch will be awakened by a `notify_all` that is still to come. A notification that
falls into that window is lost, whatever epoch the waiter has seen: if nobody else is about to notify, a thread that is
between calls can run a whole `notifyAll` there, and the waiter sleeps on until the next one. -/
theorem eventcount_window (ran : (system m).run program moves = some s) :
    (Outside (system m) moves → ∀ t observed, s.threads t = .asleep (.commitTest observed) none →
      s.shared.epoch ≠ observed → ∃ u, s.threads u = .running .notify) ∧
    ∀ t u observed here, s.threads t = .running (.commitWait observed) → s.threads u = .running here →
      here.isIdle = true → (∀ v, notifies (s.threads v) = false) →
      ∃ s', s.run program (inWindow t u) = some s' ∧ s'.shared.epoch ≠ s.shared.epoch ∧
        ∀ later s'', (∀ move ∈ later, Silent t move) → s'.run program later = some s'' →
          s''.threads t = .asleep (.commitTest observed) none := by
  refine ⟨fun outside t observed sleeper old => ?_, fun t u observed here waiter caller idle quiet => ?_⟩
  · have awaited := (system_awaited m).run moves ran outside
    exact (awaited.asleep t observed sleeper).resolve_left old
  · obtain ⟨s', ran', stepped, lost⟩ := inWindow_lost (exclusive ran) waiter caller idle quiet
    refine ⟨s', ran', ?_, fun later s'' silent last => ?_⟩
    · rw [stepped]
      simp
    · exact (lost.run ((exclusive ran).run disciplined ran') silent last).asleep

/-- A waiter goes to sleep on the first epoch. -/
def goesToSleep (waiter : Fin 2) : List (Move 2 EventcountPlace) :=
  [.call waiter .prepareWait, .next waiter, .call waiter (.commitLock 0), .next waiter, .next waiter]

theorem eventcount_window_goesToSleep : ∃ waiter notifier s s', (system 2).run program (goesToSleep waiter) = some s ∧
    s.run program (inWindow waiter notifier) = some s' ∧ s'.shared.epoch ≠ s.shared.epoch ∧
      s'.threads waiter = .asleep (.commitTest s.shared.epoch) none := by
  obtain ⟨s', ran', stepped, sleeps⟩ := (@eventcount_window 2 _ (goesToSleep 0) rfl).2 0 1 0 .idle rfl rfl rfl
    (by decide)
  exact ⟨0, 1, _, s', rfl, ran', stepped, sleeps [] s' nofun rfl⟩

end Eventcount

end ChronoBook
