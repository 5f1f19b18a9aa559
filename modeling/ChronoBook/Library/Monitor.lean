import ChronoBook.Library.Runs
import ChronoBook.Library.Tally

/-! Threads that share memory under one mutex with one condition variable. What a
thread does is given by the place where it stands in its code; every access to shared
memory and every call of the mutex or of the condition variable is a step of its own.
Two rules for such programs: places where the mutex is held exclude each other, and a
proof outline holds if every single instruction keeps it. -/

namespace ChronoBook.Library

namespace Monitor

/-- The next instruction of a thread and the place after it: `idle` between calls, one access to shared memory, or one
call of the mutex or of the condition variable. A wait gives the mutex back and blocks in one step; a timed wait
goes on at `late` when its time has passed. -/
inductive Instr (σ κ : Type) where
  | idle
  | act (run : σ → σ × κ)
  | lock (next : κ)
  | unlock (next : κ)
  | wait (next : κ) (late : Option κ)
  | notifyOne (next : κ)
  | notifyAll (next : κ)

structure Program (σ κ : Type) where
  code : κ → Instr σ κ
  /-- A call may begin here. -/
  entry : κ → Bool
  /-- An access that may fail without a reason, and where it then leads. -/
  weak : κ → Option κ := fun _ => none

/-- A thread that no longer sleeps has to take the mutex again before it goes on. -/
inductive Thread (κ : Type) where
  | running (here : κ)
  | asleep (next : κ) (late : Option κ)
  | waking (next : κ)
  deriving DecidableEq, Repr

namespace Thread

variable {κ : Type}

def isAsleep : Thread κ → Bool
  | .asleep _ _ => true
  | _ => false

def rouse : Thread κ → Thread κ
  | .asleep next _ => .waking next
  | other => other

theorem isAsleep_iff {thread : Thread κ} : thread.isAsleep = true ↔ ∃ next late, thread = .asleep next late := by
  cases thread with
  | asleep next late => exact ⟨fun _ => ⟨next, late, rfl⟩, fun _ => rfl⟩
  | running here => exact ⟨nofun, nofun⟩
  | waking next => exact ⟨nofun, nofun⟩

end Thread

end Monitor

/-- Some threads, their shared memory, and who holds the mutex. -/
structure Monitor (m : Nat) (σ κ : Type) where
  shared : σ
  owner : Option (Fin m)
  threads : Fin m → Monitor.Thread κ

namespace Monitor

/-- A call begins, a thread does its next instruction or takes the mutex again, a weak access fails, a `notify_one`
reaches this sleeper, a sleep ends without a reason, the time of a timed wait has passed. -/
inductive Move (m : Nat) (κ : Type) where
  | call (t : Fin m) (entry : κ)
  | next (t : Fin m)
  | fail (t : Fin m)
  | signal (t sleeper : Fin m)
  | spurious (t : Fin m)
  | timeOut (t : Fin m)
  deriving DecidableEq, Repr

variable {m : Nat} {σ κ : Type}

def goto (s : Monitor m σ κ) (t : Fin m) (thread : Thread κ) : Monitor m σ κ :=
  { s with threads := Function.update s.threads t thread }

def sleeps (s : Monitor m σ κ) : Bool := decide (∃ t, (s.threads t).isAsleep = true)

/-- The next instruction of a running thread; releasing a mutex that is not held has no meaning. -/
def exec (s : Monitor m σ κ) (t : Fin m) : Instr σ κ → Option (Monitor m σ κ)
  | .idle => none
  | .act run => some { s with
      shared := (run s.shared).1
      threads := Function.update s.threads t (.running (run s.shared).2) }
  | .lock next => if s.owner = none then some { s.goto t (.running next) with owner := some t } else none
  | .unlock next => if s.owner = some t then some { s.goto t (.running next) with owner := none } else none
  | .wait next late => if s.owner = some t then some { s.goto t (.asleep next late) with owner := none } else none
  | .notifyOne next => if s.sleeps then none else some (s.goto t (.running next))
  | .notifyAll next =>
      some { s with threads := fun u => (Function.update s.threads t (.running next) u).rouse }

def step (p : Program σ κ) (s : Monitor m σ κ) : Move m κ → Option (Monitor m σ κ)
  | .call t entry =>
      match s.threads t with
      | .running here =>
          match p.code here with
          | .idle => if p.entry entry then some (s.goto t (.running entry)) else none
          | _ => none
      | _ => none
  | .next t =>
      match s.threads t with
      | .running here => s.exec t (p.code here)
      | .asleep _ _ => none
      | .waking next => if s.owner = none then some { s.goto t (.running next) with owner := some t } else none
  | .fail t =>
      match s.threads t with
      | .running here => (p.weak here).map (fun next => s.goto t (.running next))
      | _ => none
  | .signal t sleeper =>
      match s.threads t, s.threads sleeper with
      | .running here, .asleep wakes _ =>
          match p.code here with
          | .notifyOne next => some ((s.goto sleeper (.waking wakes)).goto t (.running next))
          | _ => none
      | _, _ => none
  | .spurious t =>
      match s.threads t with
      | .asleep next _ => some (s.goto t (.waking next))
      | _ => none
  | .timeOut t =>
      match s.threads t with
      | .asleep _ (some late) => some (s.goto t (.waking late))
      | _ => none

def run (p : Program σ κ) (s : Monitor m σ κ) (moves : List (Move m κ)) : Option (Monitor m σ κ) :=
  runFrom (step p) s moves

def start (m : Nat) (shared : σ) (idle : κ) : Monitor m σ κ := ⟨shared, none, fun _ => .running idle⟩

/-- What a step can do. -/
inductive Stepped (p : Program σ κ) (s : Monitor m σ κ) : Monitor m σ κ → Prop where
  | called {t : Fin m} {here entry : κ} (place : s.threads t = .running here) (code : p.code here = .idle)
      (allowed : p.entry entry = true) : Stepped p s (s.goto t (.running entry))
  | acted {t : Fin m} {here : κ} {run : σ → σ × κ} (place : s.threads t = .running here)
      (code : p.code here = .act run) : Stepped p s { s with
        shared := (run s.shared).1
        threads := Function.update s.threads t (.running (run s.shared).2) }
  | failed {t : Fin m} {here next : κ} (place : s.threads t = .running here) (code : p.weak here = some next) :
      Stepped p s (s.goto t (.running next))
  | locked {t : Fin m} {here next : κ} (place : s.threads t = .running here) (code : p.code here = .lock next)
      (free : s.owner = none) : Stepped p s { s.goto t (.running next) with owner := some t }
  | relocked {t : Fin m} {next : κ} (place : s.threads t = .waking next) (free : s.owner = none) :
      Stepped p s { s.goto t (.running next) with owner := some t }
  | unlocked {t : Fin m} {here next : κ} (place : s.threads t = .running here) (code : p.code here = .unlock next)
      (mine : s.owner = some t) : Stepped p s { s.goto t (.running next) with owner := none }
  | slept {t : Fin m} {here next : κ} {late : Option κ} (place : s.threads t = .running here)
      (code : p.code here = .wait next late) (mine : s.owner = some t) :
      Stepped p s { s.goto t (.asleep next late) with owner := none }
  | unheard {t : Fin m} {here next : κ} (place : s.threads t = .running here) (code : p.code here = .notifyOne next)
      (nobody : s.sleeps = false) : Stepped p s (s.goto t (.running next))
  | signalled {t u : Fin m} {here next wakes : κ} {late : Option κ} (place : s.threads t = .running here)
      (code : p.code here = .notifyOne next) (sleeper : s.threads u = .asleep wakes late) :
      Stepped p s ((s.goto u (.waking wakes)).goto t (.running next))
  | broadcast {t : Fin m} {here next : κ} (place : s.threads t = .running here) (code : p.code here = .notifyAll next) :
      Stepped p s { s with threads := fun u => (Function.update s.threads t (.running next) u).rouse }
  | roused {t : Fin m} {next : κ} {late : Option κ} (place : s.threads t = .asleep next late) :
      Stepped p s (s.goto t (.waking next))
  | expired {t : Fin m} {next late : κ} (place : s.threads t = .asleep next (some late)) :
      Stepped p s (s.goto t (.waking late))

variable {p : Program σ κ} {s s' : Monitor m σ κ} {t : Fin m}

theorem stepped_of_exec {here : κ} (place : s.threads t = .running here) (done : s.exec t (p.code here) = some s') :
    Stepped p s s' := by
  cases code : p.code here with
  | idle =>
    rw [code] at done
    cases done
  | act run =>
    rw [code] at done
    cases done
    exact .acted place code
  | lock next =>
    rw [code, exec] at done
    split at done <;> cases done
    exact .locked place code ‹_›
  | unlock next =>
    rw [code, exec] at done
    split at done <;> cases done
    exact .unlocked place code ‹_›
  | wait next late =>
    rw [code, exec] at done
    split at done <;> cases done
    exact .slept place code ‹_›
  | notifyOne next =>
    rw [code, exec] at done
    split at done <;> cases done
    exact .unheard place code (Bool.eq_false_iff.mpr ‹_›)
  | notifyAll next =>
    rw [code] at done
    cases done
    exact .broadcast place code

theorem stepped_of_step {move : Move m κ} (moved : s.step p move = some s') : Stepped p s s' := by
  cases move with
  | call t entry =>
    rw [step] at moved
    split at moved
    next here place =>
      split at moved
      next code =>
        split at moved <;> cases moved
        exact .called place code ‹_›
      next => cases moved
    next => cases moved
  | next t =>
    rw [step] at moved
    split at moved
    next here place => exact stepped_of_exec place moved
    next => cases moved
    next next place =>
      split at moved <;> cases moved
      exact .relocked place ‹_›
  | fail t =>
    rw [step] at moved
    split at moved
    next here place =>
      obtain ⟨next, code, rfl⟩ := Option.map_eq_some_iff.mp moved
      exact .failed place code
    next => cases moved
  | signal t sleeper =>
    rw [step] at moved
    split at moved
    next here wakes late place asleep =>
      split at moved
      next next code =>
        cases moved
        exact .signalled place code asleep
      next => cases moved
    next => cases moved
  | spurious t =>
    rw [step] at moved
    split at moved
    next next late place =>
      cases moved
      exact .roused place
    next => cases moved
  | timeOut t =>
    rw [step] at moved
    split at moved
    next next late place =>
      cases moved
      exact .expired place
    next => cases moved

/-- A call begins where no other goes on. -/
theorem called_of_step {entry : κ} (moved : s.step p (.call t entry) = some s') :
    ∃ here, s.threads t = .running here ∧ p.code here = .idle ∧ s' = s.goto t (.running entry) := by
  rw [step] at moved
  split at moved
  next here place =>
    split at moved
    next code =>
      split at moved <;> cases moved
      exact ⟨here, place, code, rfl⟩
    next => cases moved
  next => cases moved

theorem call_begins {here entry : κ} (place : s.threads t = .running here) (code : p.code here = .idle)
    (allowed : p.entry entry = true) : s.step p (.call t entry) = some (s.goto t (.running entry)) := by
  rw [step, place]
  dsimp only
  rw [code]
  exact if_pos allowed

/-- A move inside the calls is one of a program that cannot be called. -/
theorem stepped_inside {move : Move m κ} (inside : ∀ t entry, move ≠ .call t entry) (moved : s.step p move = some s') :
    Stepped { p with entry := fun _ => false } s s' := by
  have same : s.step { p with entry := fun _ => false } move = s.step p move := by
    cases move with
    | call t entry => exact absurd rfl (inside t entry)
    | _ => rfl
  exact stepped_of_step (same.trans moved)

theorem run_keeps {P : Monitor m σ κ → Prop} (keeps : ∀ s s' : Monitor m σ κ, Stepped p s s' → P s → P s')
    {moves : List (Move m κ)} (ran : s.run p moves = some s') (start : P s) : P s' :=
  runFrom_keeps (fun before _ after _ moved => keeps before after (stepped_of_step moved)) ran start

/-! Mutual exclusion. -/

section Exclusion

/-- The instruction takes and gives the mutex as the places around it say. -/
def Instr.Keeps (holds : κ → Bool) (now : Bool) : Instr σ κ → Prop
  | .idle => now = false
  | .act run => ∀ shared, holds (run shared).2 = now
  | .lock next => now = false ∧ holds next = true
  | .unlock next => now = true ∧ holds next = false
  | .wait next late => now = true ∧ holds next = true ∧ ∀ place ∈ late, holds place = true
  | .notifyOne next => holds next = now
  | .notifyAll next => holds next = now

/-- The mutex is held at the places that are marked, and at no others. -/
structure Program.Disciplined (p : Program σ κ) (holds : κ → Bool) : Prop where
  code : ∀ here, (p.code here).Keeps holds (holds here)
  entry : ∀ here, p.entry here = true → holds here = false
  weak : ∀ here next, p.weak here = some next → holds next = holds here

def Thread.holds (holds : κ → Bool) : Thread κ → Bool
  | .running here => holds here
  | _ => false

/-- Who sleeps will hold the mutex when it goes on. -/
def Thread.Returns (holds : κ → Bool) : Thread κ → Prop
  | .running _ => True
  | .asleep next late => holds next = true ∧ ∀ place ∈ late, holds place = true
  | .waking next => holds next = true

/-- Who stands at a marked place owns the mutex, and nobody else does. -/
structure Exclusive (holds : κ → Bool) (s : Monitor m σ κ) : Prop where
  owner : ∀ u, (s.threads u).holds holds = true ↔ s.owner = some u
  returns : ∀ u, (s.threads u).Returns holds

variable {holds : κ → Bool}

theorem Program.Disciplined.rule (disciplined : p.Disciplined holds) {here : κ} {instr : Instr σ κ}
    (code : p.code here = instr) : instr.Keeps holds (holds here) := by
  rw [← code]
  exact disciplined.code here

/-- A wait that has a time limit or not. -/
theorem forall_late {P : κ → Prop} {place : κ} (timed : Bool) (late : P place) :
    ∀ next ∈ (if timed then some place else none), P next := by
  cases timed with
  | false => exact nofun
  | true =>
    intro next same
    cases same
    exact late

theorem Exclusive.unique (exclusive : s.Exclusive holds) {u : Fin m} (here : (s.threads t).holds holds = true)
    (there : (s.threads u).holds holds = true) : t = u :=
  Option.some_inj.mp (((exclusive.owner t).mp here).symm.trans ((exclusive.owner u).mp there))

/-- Everybody is as before but for one thread. -/
theorem forall_update {P : Fin m → Thread κ → Prop} {threads : Fin m → Thread κ} (now : Thread κ) (moved : P t now)
    (others : ∀ u, u ≠ t → P u (threads u)) (u : Fin m) : P u (Function.update threads t now u) :=
  (Function.forall_update_iff threads P).mpr ⟨moved, others⟩ u

/-- A thread goes on without touching the mutex. -/
theorem Exclusive.put (exclusive : s.Exclusive holds) (now : Thread κ)
    (same : now.holds holds = (s.threads t).holds holds) (returns : now.Returns holds) (shared : σ) :
    Exclusive holds ⟨shared, s.owner, Function.update s.threads t now⟩ where
  owner := forall_update (P := fun u thread => thread.holds holds = true ↔ s.owner = some u) now
    (by rw [same]; exact exclusive.owner t) (fun u _ => exclusive.owner u)
  returns := forall_update (P := fun _ thread => thread.Returns holds) now returns (fun u _ => exclusive.returns u)

theorem Exclusive.take (exclusive : s.Exclusive holds) (free : s.owner = none) {next : κ} (held : holds next = true) :
    Exclusive holds { s.goto t (.running next) with owner := some t } where
  owner := by
    refine forall_update (P := fun u thread => thread.holds holds = true ↔ some t = some u) _ (iff_of_true held rfl) ?_
    intro u other
    have nobody := exclusive.owner u
    rw [free] at nobody
    exact iff_of_false (fun holding => by cases nobody.mp holding) (fun mine => other (Option.some_inj.mp mine).symm)
  returns := forall_update (P := fun _ thread => thread.Returns holds) _ trivial (fun u _ => exclusive.returns u)

theorem Exclusive.give (exclusive : s.Exclusive holds) (mine : s.owner = some t) (now : Thread κ)
    (released : now.holds holds = false) (returns : now.Returns holds) :
    Exclusive holds { s.goto t now with owner := none } where
  owner := by
    refine forall_update (P := fun u thread => thread.holds holds = true ↔ none = some u) now ?_ ?_
    · rw [released]
      exact ⟨nofun, nofun⟩
    · intro u other
      refine iff_of_false (fun holding => other ?_) nofun
      exact (exclusive.unique ((exclusive.owner t).mpr mine) holding).symm
  returns := forall_update (P := fun _ thread => thread.Returns holds) now returns (fun u _ => exclusive.returns u)

theorem Thread.holds_rouse (thread : Thread κ) : thread.rouse.holds holds = thread.holds holds := by
  cases thread <;> rfl

theorem Thread.Returns.rouse {thread : Thread κ} (returns : thread.Returns holds) : thread.rouse.Returns holds := by
  cases thread with
  | running here => trivial
  | asleep next late => exact returns.1
  | waking next => exact returns

theorem ne_of_places {u : Fin m} {here next : κ} {late : Option κ} (place : s.threads t = .running here)
    (sleeper : s.threads u = .asleep next late) : t ≠ u := by
  rintro rfl
  rw [place] at sleeper
  cases sleeper

theorem Exclusive.step (disciplined : p.Disciplined holds) (exclusive : s.Exclusive holds) (stepped : Stepped p s s') :
    s'.Exclusive holds := by
  cases stepped with
  | @called t here entry place code allowed =>
    have outside := disciplined.rule code
    refine exclusive.put (.running entry) ?_ trivial s.shared
    rw [place]
    exact (disciplined.entry entry allowed).trans outside.symm
  | @acted t here run place code =>
    have kept := disciplined.rule code
    refine exclusive.put (.running _) ?_ trivial _
    rw [place]
    exact kept s.shared
  | @failed t here next place code =>
    refine exclusive.put (.running next) ?_ trivial s.shared
    rw [place]
    exact disciplined.weak here next code
  | @locked t here next place code free =>
    have kept := disciplined.rule code
    exact exclusive.take free kept.2
  | @relocked t next place free =>
    have held := exclusive.returns t
    rw [place] at held
    exact exclusive.take free held
  | @unlocked t here next place code mine =>
    have kept := disciplined.rule code
    exact exclusive.give mine (.running next) kept.2 trivial
  | @slept t here next late place code mine =>
    have kept := disciplined.rule code
    exact exclusive.give mine (.asleep next late) rfl kept.2
  | @unheard t here next place code nobody =>
    have kept := disciplined.rule code
    refine exclusive.put (.running next) ?_ trivial s.shared
    rw [place]
    exact kept
  | @signalled t u here next wakes late place code sleeper =>
    have kept := disciplined.rule code
    have back := exclusive.returns u
    rw [sleeper] at back
    have woken : (s.goto u (.waking wakes)).Exclusive holds := by
      refine exclusive.put (.waking wakes) ?_ back.1 s.shared
      rw [sleeper]
      rfl
    have other := ne_of_places place sleeper
    refine woken.put (.running next) ?_ trivial s.shared
    change holds next = ((Function.update s.threads u (.waking wakes)) t).holds holds
    rw [Function.update_of_ne other, place]
    exact kept
  | @broadcast t here next place code =>
    have kept := disciplined.rule code
    have went : Exclusive holds ⟨s.shared, s.owner, Function.update s.threads t (.running next)⟩ := by
      refine exclusive.put (.running next) ?_ trivial s.shared
      rw [place]
      exact kept
    refine ⟨fun u => ?_, fun u => (went.returns u).rouse⟩
    rw [Thread.holds_rouse]
    exact went.owner u
  | @roused t next late place =>
    have back := exclusive.returns t
    rw [place] at back
    refine exclusive.put (.waking next) ?_ back.1 s.shared
    rw [place]
    rfl
  | @expired t next late place =>
    have back := exclusive.returns t
    rw [place] at back
    refine exclusive.put (.waking late) ?_ (back.2 late rfl) s.shared
    rw [place]
    rfl

theorem Exclusive.run (disciplined : p.Disciplined holds) (exclusive : s.Exclusive holds) {moves : List (Move m κ)}
    (ran : s.run p moves = some s') : s'.Exclusive holds :=
  run_keeps (fun _ _ stepped before => before.step disciplined stepped) ran exclusive

end Exclusion

/-! Proof outlines. -/

section Outlines

/-- The instruction leads from what is asserted where it stands to what is asserted after it. An access may not disturb
what is asserted elsewhere, but at places where the mutex is held only if it is not held here. After a wait
nothing is known but the invariant. -/
def Instr.Proves (holds : κ → Bool) (Inv : σ → Prop) (asserts : κ → σ → Prop) (here : κ) : Instr σ κ → Prop
  | .idle => True
  | .act run => ∀ shared, Inv shared → asserts here shared →
      Inv (run shared).1 ∧ asserts (run shared).2 (run shared).1 ∧
        ∀ other, (holds here = true → holds other = false) → asserts other shared → asserts other (run shared).1
  | .lock next => ∀ shared, Inv shared → asserts here shared → asserts next shared
  | .unlock next => ∀ shared, Inv shared → asserts here shared → asserts next shared
  | .wait next late => ∀ shared, Inv shared → asserts next shared ∧ ∀ place ∈ late, asserts place shared
  | .notifyOne next => ∀ shared, Inv shared → asserts here shared → asserts next shared
  | .notifyAll next => ∀ shared, Inv shared → asserts here shared → asserts next shared

structure Program.Outlined (p : Program σ κ) (holds : κ → Bool) (Inv : σ → Prop) (asserts : κ → σ → Prop) : Prop where
  code : ∀ here, (p.code here).Proves holds Inv asserts here
  entry : ∀ here, p.entry here = true → ∀ shared, Inv shared → asserts here shared
  weak : ∀ here next, p.weak here = some next → ∀ shared, Inv shared → asserts here shared → asserts next shared

def Thread.Asserted (Inv : σ → Prop) (asserts : κ → σ → Prop) (shared : σ) : Thread κ → Prop
  | .running here => asserts here shared
  | .asleep next late => ∀ shared, Inv shared → asserts next shared ∧ ∀ place ∈ late, asserts place shared
  | .waking next => ∀ shared, Inv shared → asserts next shared

/-- The invariant holds, and what is asserted where the threads stand. -/
structure Annotated (Inv : σ → Prop) (asserts : κ → σ → Prop) (s : Monitor m σ κ) : Prop where
  inv : Inv s.shared
  asserted : ∀ u, (s.threads u).Asserted Inv asserts s.shared

variable {holds : κ → Bool} {Inv : σ → Prop} {asserts : κ → σ → Prop}

theorem Program.Outlined.rule (outlined : p.Outlined holds Inv asserts) {here : κ} {instr : Instr σ κ}
    (code : p.code here = instr) : instr.Proves holds Inv asserts here := by
  rw [← code]
  exact outlined.code here

theorem Annotated.running (annotated : s.Annotated Inv asserts) {here : κ} (place : s.threads t = .running here) :
    asserts here s.shared := by
  have asserted := annotated.asserted t
  rwa [place] at asserted

theorem Thread.Asserted.rouse {thread : Thread κ} {shared : σ} (asserted : thread.Asserted Inv asserts shared) :
    thread.rouse.Asserted Inv asserts shared := by
  cases thread with
  | running here => exact asserted
  | asleep next late => exact fun shared inv => (asserted shared inv).1
  | waking next => exact asserted

/-- A thread goes on and the memory stays as it is. -/
theorem Annotated.put (annotated : s.Annotated Inv asserts) (now : Thread κ) (asserted : now.Asserted Inv asserts s.shared)
    (owner : Option (Fin m)) : Annotated Inv asserts ⟨s.shared, owner, Function.update s.threads t now⟩ :=
  ⟨annotated.inv, forall_update (P := fun _ thread => thread.Asserted Inv asserts s.shared) now asserted
    (fun u _ => annotated.asserted u)⟩

theorem Annotated.step (outlined : p.Outlined holds Inv asserts) (exclusive : s.Exclusive holds)
    (annotated : s.Annotated Inv asserts) (stepped : Stepped p s s') : s'.Annotated Inv asserts := by
  cases stepped with
  | @called t here entry place code allowed =>
    exact annotated.put (.running entry) (outlined.entry entry allowed _ annotated.inv) s.owner
  | @acted t here run place code =>
    have proved := outlined.rule code
    obtain ⟨inv, after, undisturbed⟩ := proved s.shared annotated.inv (annotated.running place)
    refine ⟨inv, forall_update (P := fun _ thread => thread.Asserted Inv asserts (run s.shared).1) _ after ?_⟩
    intro u other
    have before := annotated.asserted u
    cases there : s.threads u with
    | running elsewhere =>
      rw [there] at before
      refine undisturbed elsewhere (fun mine => ?_) before
      refine Bool.eq_false_iff.mpr (fun held => other ?_)
      exact exclusive.unique (by rw [there]; exact held) (by rw [place]; exact mine)
    | asleep next late =>
      rw [there] at before
      exact before
    | waking next =>
      rw [there] at before
      exact before
  | @failed t here next place code =>
    exact annotated.put (.running next) (outlined.weak here next code _ annotated.inv (annotated.running place)) s.owner
  | @locked t here next place code free =>
    have proved := outlined.rule code
    exact annotated.put (.running next) (proved _ annotated.inv (annotated.running place)) (some t)
  | @relocked t next place free =>
    have asserted := annotated.asserted t
    rw [place] at asserted
    exact annotated.put (.running next) (asserted _ annotated.inv) (some t)
  | @unlocked t here next place code mine =>
    have proved := outlined.rule code
    exact annotated.put (.running next) (proved _ annotated.inv (annotated.running place)) none
  | @slept t here next late place code mine =>
    have proved := outlined.rule code
    exact annotated.put (.asleep next late) proved none
  | @unheard t here next place code nobody =>
    have proved := outlined.rule code
    exact annotated.put (.running next) (proved _ annotated.inv (annotated.running place)) s.owner
  | @signalled t u here next wakes late place code sleeper =>
    have proved := outlined.rule code
    have asserted := annotated.asserted u
    rw [sleeper] at asserted
    have woken : (s.goto u (.waking wakes)).Annotated Inv asserts :=
      annotated.put (.waking wakes) (fun shared inv => (asserted shared inv).1) s.owner
    exact woken.put (.running next) (proved _ annotated.inv (annotated.running place)) s.owner
  | @broadcast t here next place code =>
    have proved := outlined.rule code
    have went : Annotated Inv asserts ⟨s.shared, s.owner, Function.update s.threads t (.running next)⟩ :=
      annotated.put (.running next) (proved _ annotated.inv (annotated.running place)) s.owner
    exact ⟨annotated.inv, fun u => (went.asserted u).rouse⟩
  | @roused t next late place =>
    have asserted := annotated.asserted t
    rw [place] at asserted
    exact annotated.put (.waking next) (fun shared inv => (asserted shared inv).1) s.owner
  | @expired t next late place =>
    have asserted := annotated.asserted t
    rw [place] at asserted
    exact annotated.put (.waking late) (fun shared inv => (asserted shared inv).2 late rfl) s.owner

/-- The mutex is used as marked, and the outline holds. -/
structure Program.Verified (p : Program σ κ) (holds : κ → Bool) (Inv : σ → Prop) (asserts : κ → σ → Prop) : Prop where
  disciplined : p.Disciplined holds
  outlined : p.Outlined holds Inv asserts

structure Kept (holds : κ → Bool) (Inv : σ → Prop) (asserts : κ → σ → Prop) (s : Monitor m σ κ) : Prop where
  exclusive : s.Exclusive holds
  annotated : s.Annotated Inv asserts

theorem Kept.start (m : Nat) (shared : σ) (idle : κ) (outside : holds idle = false) (inv : Inv shared)
    (asserted : asserts idle shared) : (start m shared idle).Kept holds Inv asserts where
  exclusive := by
    refine ⟨fun u => ?_, fun _ => trivial⟩
    change holds idle = true ↔ none = some u
    rw [outside]
    exact ⟨nofun, nofun⟩
  annotated := ⟨inv, fun _ => asserted⟩

theorem Kept.step (verified : p.Verified holds Inv asserts) (kept : s.Kept holds Inv asserts) (stepped : Stepped p s s') :
    s'.Kept holds Inv asserts where
  exclusive := kept.exclusive.step verified.disciplined stepped
  annotated := kept.annotated.step verified.outlined kept.exclusive stepped

theorem Kept.run (verified : p.Verified holds Inv asserts) (kept : s.Kept holds Inv asserts) {moves : List (Move m κ)}
    (ran : s.run p moves = some s') : s'.Kept holds Inv asserts :=
  run_keeps (fun _ _ stepped before => before.step verified stepped) ran kept

end Outlines

end Monitor

end ChronoBook.Library
