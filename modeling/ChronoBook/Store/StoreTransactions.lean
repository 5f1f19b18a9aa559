import ChronoBook.Library.Runs
import ChronoBook.Store.SQLiteStore

/-! Several trade stores on one SQLite database. Their calls are transactions that
begin by taking the write lock, and any statement may fail, with or without taking
the transaction back. Of SQLite only this is used: there is one writer at a time, a
transaction works on the table as it was committed, and COMMIT shows all of it at
once; nobody waits for the lock. -/

namespace ChronoBook
open Library

namespace StoreCall

def fills : StoreCall → List Fill
  | .insertBatch fills _ => fills
  | .replaceAll fills => fills

def failing : StoreCall → Bool
  | .insertBatch _ failBeforeCommit => failBeforeCommit
  | .replaceAll _ => false

def base (store : SQLiteStore) : StoreCall → SQLiteStore
  | .insertBatch _ _ => store
  | .replaceAll _ => { store with rows := [] }

/-- The table after the call, if nobody else is there. -/
def on (store : SQLiteStore) : StoreCall → SQLiteStore
  | .insertBatch fills failBeforeCommit => (store.insertBatch fills failBeforeCommit).1
  | .replaceAll fills => (store.replaceAll fills).1

/-- What the call makes of the stored trades. -/
def leave (trades : List Fill) : StoreCall → List Fill
  | .insertBatch fills failBeforeCommit => if failBeforeCommit then trades else trades ++ fills
  | .replaceAll fills => fills

theorem on_eq (store : SQLiteStore) {call : StoreCall} (succeeds : call.failing = false) :
    call.on store = call.fills.foldl SQLiteStore.insertRow (call.base store) := by
  cases call with
  | insertBatch fills failBeforeCommit =>
    cases succeeds
    rfl
  | replaceAll fills => rfl

end StoreCall

/-- The next statement of a store. -/
inductive StorePc where
  | idle
  /-- `BEGIN IMMEDIATE`, in the constructor of the transaction -/
  | starting (call : StoreCall)
  /-- `DELETE FROM trades` -/
  | deleting (call : StoreCall)
  /-- the INSERT is taken from the statement cache -/
  | preparing (call : StoreCall)
  /-- the loop, with these fills to go -/
  | inserting (call : StoreCall) (left : List Fill)
  /-- `COMMIT` -/
  | committing (call : StoreCall)
  /-- `ROLLBACK`, in the destructor of the transaction -/
  | unwinding
  | closed
  deriving DecidableEq

/-- The statement behind `BEGIN`. -/
def StorePc.begun : StoreCall → StorePc
  | .insertBatch fills failBeforeCommit => .preparing (.insertBatch fills failBeforeCommit)
  | .replaceAll fills => .deleting (.replaceAll fills)

/-- A statement is done, or fails and has no effect, or fails and takes the transaction back. -/
inductive Answer where
  | done
  | fails
  | rollsBack
  deriving DecidableEq

structure StoreSystem (n : Nat) where
  table : SQLiteStore
  /-- The connection that holds the write lock, and the table as it sees it. -/
  writing : Option (Fin n × SQLiteStore)
  pc : Fin n → StorePc
  /-- The calls that came back without an exception. -/
  returned : List StoreCall

inductive StoreMove (n : Nat) where
  | open (i : Fin n)
  | call (i : Fin n) (call : StoreCall)
  | go (i : Fin n) (answer : Answer)
  | close (i : Fin n)

namespace StoreSystem

variable {n : Nat}

def start (n : Nat) : StoreSystem n := ⟨SQLiteStore.init, none, fun _ => .closed, []⟩

def goto (s : StoreSystem n) (i : Fin n) (next : StorePc) : StoreSystem n :=
  { s with pc := Function.update s.pc i next }

/-- A statement in the transaction of a connection. What it throws is caught nowhere, so the destructor is next. -/
def execute (s : StoreSystem n) (i : Fin n) (answer : Answer) (next : SQLiteStore → StoreSystem n) :
    Option (StoreSystem n) :=
  match s.writing with
  | none => none
  | some (holder, working) =>
      if holder = i then
        match answer with
        | .done => some (next working)
        | .fails => some (s.goto i .unwinding)
        | .rollsBack => some ({ s with writing := none }.goto i .unwinding)
      else none

def go (s : StoreSystem n) (i : Fin n) (answer : Answer) : Option (StoreSystem n) :=
  match s.pc i, answer with
  -- BEGIN IMMEDIATE does not wait, and an open transaction cannot be begun again
  | .starting call, .done =>
      if s.writing.isNone then
        some ({ s with writing := some (i, s.table) }.goto i (.begun call))
      else none
  -- the constructor throws, so there is no destructor to run
  | .starting _, .fails => some (s.goto i .idle)
  | .starting _, .rollsBack => none
  | .deleting call, answer => s.execute i answer (fun working =>
      { s with writing := some (i, { working with rows := [] }) }.goto i (.preparing call))
  | .preparing call, answer => s.execute i answer (fun _ => s.goto i (.inserting call call.fills))
  | .inserting call (f :: left), answer => s.execute i answer (fun working =>
      { s with writing := some (i, working.insertRow f) }.goto i (.inserting call left))
  | .inserting call [], .done => some (s.goto i (if call.failing then .unwinding else .committing call))
  | .inserting _ [], _ => none
  | .committing call, answer => s.execute i answer (fun working =>
      { s with table := working, writing := none, returned := s.returned ++ [call] }.goto i .idle)
  | .unwinding, .done => s.execute i .done (fun _ => { s with writing := none }.goto i .idle)
  -- swallowed by the destructor; a ROLLBACK without a transaction fails as well
  | .unwinding, .fails => some (s.goto i .idle)
  | .unwinding, .rollsBack => none
  | .idle, _ => none
  | .closed, _ => none

/-- Closing a connection gives up its transaction. -/
def close (s : StoreSystem n) (i : Fin n) : StoreSystem n :=
  { s with writing := s.writing.filter (fun held => held.1 ≠ i) }.goto i .closed

def step (s : StoreSystem n) : StoreMove n → Option (StoreSystem n)
  | .open i =>
      match s.pc i with
      | .closed => some (s.goto i .idle)
      | _ => none
  | .call i call =>
      match s.pc i with
      | .idle => some (s.goto i (.starting call))
      | _ => none
  | .go i answer => s.go i answer
  | .close i =>
      match s.pc i with
      | .idle => some (s.close i)
      | _ => none

def run (s : StoreSystem n) (moves : List (StoreMove n)) : Option (StoreSystem n) := runFrom step s moves

/-- What is left to do when a store is at this statement: its transaction is open, with what it did so far. -/
def Serves (s : StoreSystem n) (i : Fin n) : StorePc → Prop
  | .deleting call => s.writing = some (i, s.table) ∧ call.base s.table = { s.table with rows := [] }
  | .preparing call => s.writing = some (i, call.base s.table)
  | .inserting call left => ∃ done, call.fills = done ++ left ∧
      s.writing = some (i, done.foldl SQLiteStore.insertRow (call.base s.table))
  | .committing call => call.failing = false ∧ s.writing = some (i, call.on s.table)
  | _ => True

/-- The table is what the calls that returned made of it, one after the other. -/
structure Serial (s : StoreSystem n) : Prop where
  table : s.table = s.returned.foldl StoreCall.on SQLiteStore.init
  succeeded : ∀ call ∈ s.returned, call.failing = false
  serves : ∀ i, s.Serves i (s.pc i)

variable {s s' changed : StoreSystem n} {i : Fin n}

/-- A store that is not the writer has nothing open. -/
theorem Serves.quiet {pc : StorePc} (serves : s.Serves i pc) (other : ∀ working, s.writing ≠ some (i, working)) :
    s'.Serves i pc := by
  cases pc with
  | deleting call => exact absurd serves.1 (other _)
  | preparing call => exact absurd serves (other _)
  | inserting call left =>
    obtain ⟨done, _, writes⟩ := serves
    exact absurd writes (other _)
  | committing call => exact absurd serves.2 (other _)
  | _ => trivial

theorem Serial.goto {next : StorePc} (table : changed.table = changed.returned.foldl StoreCall.on SQLiteStore.init)
    (succeeded : ∀ call ∈ changed.returned, call.failing = false)
    (others : ∀ j, j ≠ i → changed.Serves j (changed.pc j)) (own : changed.Serves i next) :
    (changed.goto i next).Serial := by
  refine ⟨table, succeeded, fun j => ?_⟩
  change changed.Serves j (Function.update changed.pc i next j)
  by_cases same : j = i
  · subst same
    rw [Function.update_self]
    exact own
  · rw [Function.update_of_ne same]
    exact others j same

theorem Serial.stay (serial : s.Serial) {next : StorePc} (own : s.Serves i next) : (s.goto i next).Serial :=
  Serial.goto serial.table serial.succeeded (fun j _ => serial.serves j) own

/-- Whatever the writer does to its own copy, the others have nothing open. -/
theorem Serial.write (serial : s.Serial) (alone : ∀ j, j ≠ i → ∀ working, s.writing ≠ some (j, working))
    {writing : Option (Fin n × SQLiteStore)} {next : StorePc}
    (own : ({ s with writing := writing } : StoreSystem n).Serves i next) :
    (({ s with writing := writing } : StoreSystem n).goto i next).Serial :=
  Serial.goto serial.table serial.succeeded (fun j other => (serial.serves j).quiet (alone j other)) own

theorem alone_of_holder {working : SQLiteStore} (holder : s.writing = some (i, working)) :
    ∀ j, j ≠ i → ∀ other, s.writing ≠ some (j, other) := by
  intro j apart other same
  rw [holder] at same
  cases same
  exact apart rfl

theorem execute_cases {answer : Answer} {next : SQLiteStore → StoreSystem n} (moved : s.execute i answer next = some s') :
    ∃ working, s.writing = some (i, working) ∧
      (answer = .done ∧ s' = next working ∨ s' = s.goto i .unwinding ∨
        s' = ({ s with writing := none } : StoreSystem n).goto i .unwinding) := by
  unfold execute at moved
  split at moved
  · cases moved
  next holder working held =>
    split at moved
    next same =>
      subst same
      refine ⟨working, held, ?_⟩
      split at moved <;> cases moved
      · exact Or.inl ⟨rfl, rfl⟩
      · exact Or.inr (Or.inl rfl)
      · exact Or.inr (Or.inr rfl)
    · cases moved

theorem Serial.execute (serial : s.Serial) {answer : Answer} {next : SQLiteStore → StoreSystem n}
    (moved : s.execute i answer next = some s')
    (done : ∀ working, s.writing = some (i, working) → (next working).Serial) : s'.Serial := by
  obtain ⟨working, held, ⟨_, rfl⟩ | rfl | rfl⟩ := execute_cases moved
  · exact done working held
  · exact serial.stay trivial
  · exact serial.write (alone_of_holder held) trivial

theorem Serial.begin (serial : s.Serial) (unlocked : s.writing.isNone = true) (call : StoreCall) :
    (({ s with writing := some (i, s.table) } : StoreSystem n).goto i (.begun call)).Serial := by
  have nobody : ∀ j, j ≠ i → ∀ working, s.writing ≠ some (j, working) := by
    intro j _ working held
    rw [held] at unlocked
    cases unlocked
  cases call with
  | insertBatch fills failBeforeCommit => exact serial.write nobody rfl
  | replaceAll fills => exact serial.write nobody ⟨rfl, rfl⟩

theorem Serial.insert (serial : s.Serial) {call : StoreCall} {f : Fill} {left : List Fill} {working : SQLiteStore}
    (serves : s.Serves i (.inserting call (f :: left))) (held : s.writing = some (i, working)) :
    (({ s with writing := some (i, working.insertRow f) } : StoreSystem n).goto i (.inserting call left)).Serial := by
  obtain ⟨done, all, writes⟩ := serves
  refine serial.write (alone_of_holder held) ⟨done ++ [f], ?_, ?_⟩
  · rw [all, List.append_cons]
  · cases writes.symm.trans held
    change some (i, _) = some (i, _)
    rw [List.foldl_append]
    rfl

/-- The loop is over, and what the writer sees is what the call makes of the table. -/
theorem Serial.inserted (serial : s.Serial) {call : StoreCall} (serves : s.Serves i (.inserting call [])) :
    (s.goto i (if call.failing then .unwinding else .committing call)).Serial := by
  obtain ⟨done, all, writes⟩ := serves
  rw [List.append_nil] at all
  cases failing : call.failing with
  | true => exact serial.stay trivial
  | false =>
    refine serial.stay ⟨failing, ?_⟩
    rw [writes, call.on_eq s.table failing, all]

theorem Serial.commit (serial : s.Serial) {call : StoreCall} {working : SQLiteStore}
    (serves : s.Serves i (.committing call)) (held : s.writing = some (i, working)) :
    (({ s with table := working, writing := none, returned := s.returned ++ [call] } : StoreSystem n).goto i .idle).Serial := by
  refine Serial.goto ?_ ?_ ?_ trivial
  · cases serves.2.symm.trans held
    change call.on s.table = (s.returned ++ [call]).foldl StoreCall.on SQLiteStore.init
    rw [List.foldl_append, ← serial.table]
    rfl
  · intro other inside
    rcases List.mem_append.mp inside with old | new
    · exact serial.succeeded other old
    · rw [List.mem_singleton.mp new]
      exact serves.1
  · exact fun j other => (serial.serves j).quiet (alone_of_holder held j other)

theorem Serial.go (serial : s.Serial) {answer : Answer} (moved : s.go i answer = some s') : s'.Serial := by
  have serves := serial.serves i
  unfold StoreSystem.go at moved
  cases here : s.pc i with
  | idle => rw [here] at moved; cases moved
  | closed => rw [here] at moved; cases moved
  | starting call =>
    rw [here] at moved
    cases answer with
    | done =>
      dsimp only at moved
      split at moved <;> cases moved
      next unlocked => exact serial.begin unlocked call
    | fails =>
      cases moved
      exact serial.stay trivial
    | rollsBack => cases moved
  | deleting call =>
    rw [here] at moved serves
    refine serial.execute moved (fun working held => serial.write (alone_of_holder held) ?_)
    cases serves.1.symm.trans held
    exact congrArg (fun base => some (i, base)) serves.2.symm
  | preparing call =>
    rw [here] at moved serves
    exact serial.execute moved (fun working held => serial.stay ⟨[], rfl, serves⟩)
  | inserting call left =>
    rw [here] at moved serves
    cases left with
    | cons f left => exact serial.execute moved (fun working held => serial.insert serves held)
    | nil =>
      cases answer <;> cases moved
      exact serial.inserted serves
  | committing call =>
    rw [here] at moved serves
    exact serial.execute moved (fun working held => serial.commit serves held)
  | unwinding =>
    rw [here] at moved
    cases answer with
    | done => exact serial.execute moved (fun working held => serial.write (alone_of_holder held) trivial)
    | fails =>
      cases moved
      exact serial.stay trivial
    | rollsBack => cases moved

theorem Serial.close (serial : s.Serial) (i : Fin n) : (s.close i).Serial := by
  refine Serial.goto serial.table serial.succeeded (fun j apart => ?_) trivial
  -- the lock of another store stays as it is
  have serves := serial.serves j
  by_cases writer : ∃ working, s.writing = some (j, working)
  · obtain ⟨working, held⟩ := writer
    have same : s.writing.filter (fun held => held.1 ≠ i) = s.writing := by
      rw [held]
      simp [apart]
    rw [same]
    exact serves
  · exact serves.quiet (fun working held => writer ⟨working, held⟩)

theorem Serial.step (serial : s.Serial) {move : StoreMove n} (moved : s.step move = some s') : s'.Serial := by
  unfold StoreSystem.step at moved
  cases move with
  | go i answer => exact serial.go moved
  | «open» i =>
    dsimp only at moved
    split at moved <;> cases moved
    exact serial.stay trivial
  | call i call =>
    dsimp only at moved
    split at moved <;> cases moved
    exact serial.stay trivial
  | close i =>
    dsimp only at moved
    split at moved <;> cases moved
    exact serial.close i

theorem Serial.start (n : Nat) : (start n).Serial := ⟨rfl, by simp [StoreSystem.start], fun _ => trivial⟩

theorem Serial.run (serial : s.Serial) {moves : List (StoreMove n)} (ran : s.run moves = some s') : s'.Serial :=
  runFrom_keeps (fun _ _ _ _ moved before => before.step moved) ran serial

/-- A store whose ROLLBACK failed keeps the lock, and cannot begin again. -/
def Stuck (s : StoreSystem n) (i : Fin n) : Prop :=
  (∃ working, s.writing = some (i, working)) ∧ (s.pc i = .idle ∨ ∃ call, s.pc i = .starting call)

/-- What a move leaves alone while the lock is stuck. -/
structure Blocked (s s' : StoreSystem n) (i : Fin n) : Prop where
  stuck : s'.Stuck i
  table : s'.table = s.table
  returned : s'.returned = s.returned

theorem Stuck.goto (stuck : s.Stuck i) {j : Fin n} {next : StorePc}
    (own : j = i → next = .idle ∨ ∃ call, next = .starting call) : Blocked s (s.goto j next) i := by
  refine ⟨⟨stuck.1, ?_⟩, rfl, rfl⟩
  change Function.update s.pc j next i = _ ∨ ∃ call, Function.update s.pc j next i = _
  by_cases same : i = j
  · rw [same, Function.update_self]
    exact own same.symm
  · rw [Function.update_of_ne same]
    exact stuck.2

/-- Only the holder's statements can be executed, and the holder has none. -/
theorem Stuck.execute (stuck : s.Stuck i) {j : Fin n} {answer : Answer} {next : SQLiteStore → StoreSystem n}
    (moved : s.execute j answer next = some s') : j = i := by
  obtain ⟨working, held, _⟩ := execute_cases moved
  obtain ⟨⟨other, holds⟩, _⟩ := stuck
  cases holds.symm.trans held
  rfl

theorem Stuck.go (stuck : s.Stuck i) {j : Fin n} {answer : Answer} (moved : s.go j answer = some s') :
    Blocked s s' i := by
  have apart : s.pc j ≠ .idle → (∀ call, s.pc j ≠ .starting call) → j ≠ i := by
    rintro busy later rfl
    rcases stuck.2 with idle | ⟨call, starts⟩
    · exact busy idle
    · exact later call starts
  unfold StoreSystem.go at moved
  cases here : s.pc j with
  | idle => rw [here] at moved; cases moved
  | closed => rw [here] at moved; cases moved
  | starting call =>
    rw [here] at moved
    cases answer with
    | done =>
      obtain ⟨⟨working, held⟩, _⟩ := stuck
      dsimp only at moved
      rw [held] at moved
      cases moved
    | fails =>
      cases moved
      exact stuck.goto (fun _ => Or.inl rfl)
    | rollsBack => cases moved
  | unwinding =>
    have other := apart (by rw [here]; nofun) (by rw [here]; nofun)
    rw [here] at moved
    cases answer with
    | done => exact absurd (stuck.execute moved) other
    | fails =>
      cases moved
      exact stuck.goto (fun same => absurd same other)
    | rollsBack => cases moved
  | inserting call left =>
    have other := apart (by rw [here]; nofun) (by rw [here]; nofun)
    rw [here] at moved
    cases left with
    | cons f left => exact absurd (stuck.execute moved) other
    | nil =>
      cases answer with
      | done =>
        cases moved
        exact stuck.goto (fun same => absurd same other)
      | fails => cases moved
      | rollsBack => cases moved
  | deleting call | preparing call | committing call =>
    have other := apart (by rw [here]; nofun) (by rw [here]; nofun)
    rw [here] at moved
    exact absurd (stuck.execute moved) other

theorem Stuck.step (stuck : s.Stuck i) {move : StoreMove n} (kept : move ≠ .close i) (moved : s.step move = some s') :
    Blocked s s' i := by
  unfold StoreSystem.step at moved
  cases move with
  | go j answer => exact stuck.go moved
  | «open» j =>
    dsimp only at moved
    split at moved <;> cases moved
    exact stuck.goto (fun _ => Or.inl rfl)
  | call j call =>
    dsimp only at moved
    split at moved <;> cases moved
    exact stuck.goto (fun _ => Or.inr ⟨call, rfl⟩)
  | close j =>
    have apart : i ≠ j := fun same => kept (by rw [same])
    dsimp only at moved
    split at moved <;> cases moved
    obtain ⟨⟨working, held⟩, pc⟩ := stuck
    refine ⟨⟨⟨working, ?_⟩, ?_⟩, rfl, rfl⟩
    · change s.writing.filter (fun held => held.1 ≠ j) = _
      rw [held]
      simp [apart]
    · change Function.update s.pc j .closed i = _ ∨ ∃ call, Function.update s.pc j .closed i = _
      rw [Function.update_of_ne apart]
      exact pc

theorem Stuck.run (stuck : s.Stuck i) {moves : List (StoreMove n)} (kept : .close i ∉ moves)
    (ran : s.run moves = some s') : Blocked s s' i := by
  refine runFrom_keeps (P := fun later => Blocked s later i) (fun before move after inside moved blocked => ?_) ran
    ⟨stuck, rfl, rfl⟩
  have next := blocked.stuck.step (fun same => kept (same ▸ inside)) moved
  exact ⟨next.stuck, next.table.trans blocked.table, next.returned.trans blocked.returned⟩

end StoreSystem

end ChronoBook
