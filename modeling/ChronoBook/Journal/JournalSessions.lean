import ChronoBook.Journal.JournalOpening
import ChronoBook.Library.Runs

/-! A journal over its whole life: it is opened, appended to and closed any number
of times, and a reader may look at the file between any two stores of the writer. -/

namespace ChronoBook
open FillJournal Library

/-- Where the user of a journal is: between sessions, between calls, or in a call with the fills still to append. -/
inductive JournalPc where
  | closed
  | idle (journal : FillJournal)
  | appending (journal : FillJournal) (rest : List Fill)
  | counting (journal : FillJournal) (idx : UInt64) (fill : Fill) (rest : List Fill)
  | failed

def JournalPc.journal? : JournalPc → Option FillJournal
  | .closed | .failed => none
  | .idle journal | .appending journal _ | .counting journal _ _ _ => some journal

/-- The user of a journal with the file. Kept for the record: the fills whose append has completed, and for the last
call what had been appended before, the fills it was given and what it threw. -/
structure JournalUse where
  path : String
  capacity : UInt64
  file : Option (List UInt8)
  opened : Bool
  pc : JournalPc
  appended : List Fill
  before : List Fill
  called : List Fill
  thrown : Option Failure

/-- The moves of the user; `append` is a call with one fill, and `appendBatch` a call with several. -/
inductive JournalMove where
  | construct
  | call (fills : List Fill)
  | work
  | destroy

namespace JournalUse

def create (path : String) (capacity : UInt64) (existing : Option (List UInt8)) : JournalUse :=
  ⟨path, capacity, existing, false, .closed, [], [], [], none⟩

def constructStep (s : JournalUse) : Option JournalUse :=
  match s.pc with
  | .closed =>
      match FillJournal.create s.path s.capacity s.file with
      | (file, .ok journal) => some { s with
          file := file
          opened := true
          pc := .idle journal
          before := s.appended
          called := []
          thrown := none }
      | (file, .error failure) => some { s with file := file, pc := .failed, thrown := some failure }
  | _ => none

def callStep (s : JournalUse) (fills : List Fill) : Option JournalUse :=
  match s.pc with
  | .idle journal => some { s with
      pc := .appending journal fills
      before := s.appended
      called := fills
      thrown := none }
  | _ => none

/-- The next store of the call. A full journal ends it with an exception; flushing changes no byte. -/
def workStep (s : JournalUse) : Option JournalUse :=
  match s.pc with
  | .appending journal [] => some { s with pc := .idle journal }
  | .appending journal (fill :: rest) =>
      match journal.storeRecord fill with
      | .ok (idx, journal) => some { s with file := some journal.file, pc := .counting journal idx fill rest }
      | .error (.thrown what) => some { s with pc := .idle journal, thrown := some (.thrown what) }
      | .error .fault => some { s with pc := .failed, thrown := some .fault }
  | .counting journal idx fill rest =>
      match journal.storeCount idx with
      | .ok journal => some { s with
          file := some journal.file
          pc := .appending journal rest
          appended := s.appended ++ [fill] }
      | .error failure => some { s with pc := .failed, thrown := some failure }
  | _ => none

def destroyStep (s : JournalUse) : Option JournalUse :=
  match s.pc with
  | .idle _ => some { s with pc := .closed }
  | _ => none

def step (s : JournalUse) : JournalMove → Option JournalUse
  | .construct => s.constructStep
  | .call fills => s.callStep fills
  | .work => s.workStep
  | .destroy => s.destroyStep

def run (s : JournalUse) : List JournalMove → Option JournalUse
  | [] => some s
  | move :: later => (s.step move).bind (fun s => s.run later)

/-- The object works on the file with the asked capacity. -/
structure At (s : JournalUse) (journal : FillJournal) : Prop where
  path : journal.path = s.path
  capacity : journal.capacity = s.capacity
  size : journal.fileBytes = 24 + s.capacity * 40
  file : s.file = some journal.file

/-- How the last call ended: all was appended, or what fits and the journal was full. -/
structure Returned (s : JournalUse) : Prop where
  prefixed : s.appended = s.before ++ s.called.take (s.capacity.toNat - s.before.length)
  thrown : s.thrown = if s.capacity.toNat < s.before.length + s.called.length
    then some (.thrown ("fill journal full: " ++ s.path)) else none

/-- In the middle of a call: some of its fills are appended and these are to come. -/
def Under (s : JournalUse) (rest : List Fill) : Prop :=
  s.thrown = none ∧ ∃ done, s.called = done ++ rest ∧ s.appended = s.before ++ done

def Kept (s : JournalUse) : Prop :=
  match s.pc with
  | .closed =>
      if s.opened then ∃ journal, s.At journal ∧ journal.Holds s.appended else s.file.getD [] = [] ∧ s.appended = []
  | .idle journal => s.opened = true ∧ s.At journal ∧ journal.Holds s.appended ∧ s.Returned
  | .appending journal rest => s.opened = true ∧ s.At journal ∧ journal.Holds s.appended ∧ s.Under rest
  | .counting journal idx fill rest => s.opened = true ∧ s.At journal ∧ journal.Stored s.appended fill ∧
      idx = UInt64.ofNat s.appended.length ∧ s.Under (fill :: rest)
  | .failed => False

variable {s s' : JournalUse}

/-- The constructor finds the file as the last session left it, or no file. -/
theorem Kept.reopens (kept : s.Kept) (mappable : Mappable s.capacity) (pc : s.pc = .closed) :
    ∃ journal : FillJournal, FillJournal.create s.path s.capacity s.file = (some journal.file, .ok journal) ∧
      journal.Holds s.appended ∧ journal.path = s.path ∧ journal.capacity = s.capacity ∧
      journal.fileBytes = 24 + s.capacity * 40 := by
  unfold Kept at kept
  rw [pc] at kept
  dsimp only at kept
  by_cases opened : s.opened = true
  · rw [if_pos opened] at kept
    obtain ⟨journal, here, holds⟩ := kept
    have size := here.size
    rw [← here.capacity] at size mappable ⊢
    rw [here.file, ← size]
    exact holds.reopen mappable size s.path
  · rw [if_neg opened] at kept
    rw [kept.2]
    exact create_mappable mappable s.path kept.1

theorem Kept.construct (kept : s.Kept) (mappable : Mappable s.capacity) (moved : s.constructStep = some s') : s'.Kept := by
  unfold constructStep at moved
  split at moved
  next pc =>
    obtain ⟨journal, created, holds, path, capacity, size⟩ := kept.reopens mappable pc
    have bounded := holds.bounded
    rw [capacity] at bounded
    rw [created] at moved
    cases moved
    refine ⟨rfl, ⟨path, capacity, size, rfl⟩, holds, ?_, (if_neg (Nat.not_lt.mpr bounded)).symm⟩
    dsimp only
    rw [List.take_nil, List.append_nil]
  · cases moved

theorem Kept.call (kept : s.Kept) {fills : List Fill} (moved : s.callStep fills = some s') : s'.Kept := by
  unfold callStep at moved
  split at moved
  next journal pc =>
    cases moved
    unfold Kept at kept
    rw [pc] at kept
    obtain ⟨opened, here, holds, _⟩ := kept
    exact ⟨opened, ⟨here.path, here.capacity, here.size, here.file⟩, holds, rfl, [], rfl, (List.append_nil _).symm⟩
  · cases moved

theorem Kept.destroy (kept : s.Kept) (moved : s.destroyStep = some s') : s'.Kept := by
  unfold destroyStep at moved
  split at moved
  next journal pc =>
    cases moved
    unfold Kept at kept
    rw [pc] at kept
    obtain ⟨opened, here, holds, _⟩ := kept
    unfold Kept
    dsimp only
    rw [if_pos opened]
    exact ⟨journal, ⟨here.path, here.capacity, here.size, here.file⟩, holds⟩
  · cases moved

theorem At.room {journal : FillJournal} (here : s.At journal) (fits : 24 + 40 * s.capacity.toNat < 2 ^ 63)
    {count : Nat} (below : count < s.capacity.toNat) : ¬journal.fileBytes.toNat < 24 + 40 * (count + 1) := by
  rw [here.size, bytes_of_fits fits]
  omega

/-- The start of an append: the record is in place, or the journal is full and nothing has changed. -/
theorem Kept.record (kept : s.Kept) (fits : 24 + 40 * s.capacity.toNat < 2 ^ 63) {journal : FillJournal} {fill : Fill}
    {rest : List Fill} (pc : s.pc = .appending journal (fill :: rest)) :
    if s.appended.length < s.capacity.toNat then
      ∃ file, s.workStep = some { s with
          file := some file
          pc := .counting { journal with file := file } (UInt64.ofNat s.appended.length) fill rest } ∧
        Stored { journal with file := file } s.appended fill
    else s.workStep = some { s with
      pc := .idle journal
      thrown := some (.thrown ("fill journal full: " ++ s.path)) } := by
  unfold Kept at kept
  rw [pc] at kept
  obtain ⟨_, here, holds, _⟩ := kept
  have stored := holds.storeRecord fill
  have same : journal.capacity.toNat = s.capacity.toNat := congrArg UInt64.toNat here.capacity
  unfold workStep
  rw [pc]
  dsimp only
  by_cases below : s.appended.length < s.capacity.toNat
  · rw [if_neg (by omega), if_neg (here.room fits below)] at stored
    obtain ⟨file, result, placed⟩ := stored
    rw [if_pos below, result]
    exact ⟨file, rfl, placed⟩
  · rw [if_pos (by omega)] at stored
    rw [if_neg below, stored, here.path]

theorem Kept.work (kept : s.Kept) (fits : 24 + 40 * s.capacity.toNat < 2 ^ 63) (moved : s.workStep = some s') :
    s'.Kept := by
  have held := kept
  unfold Kept at held
  cases pc : s.pc with
  | appending journal rest =>
    rw [pc] at held
    obtain ⟨opened, here, holds, quiet, done, called, appended⟩ := held
    cases rest with
    | nil =>
      -- the call has come to its end, and all its fills were appended
      have bounded := holds.bounded
      rw [here.capacity, appended, List.length_append] at bounded
      rw [List.append_nil] at called
      unfold workStep at moved
      rw [pc] at moved
      cases moved
      refine ⟨opened, ⟨here.path, here.capacity, here.size, here.file⟩, holds, ?_, ?_⟩
      · dsimp only
        rw [called, List.take_of_length_le (by omega), appended]
      · dsimp only
        rw [called, if_neg (by omega), quiet]
    | cons fill rest =>
      have record := kept.record fits pc
      by_cases below : s.appended.length < s.capacity.toNat
      · rw [if_pos below] at record
        obtain ⟨file, result, stored⟩ := record
        rw [result] at moved
        cases moved
        exact ⟨opened, ⟨here.path, here.capacity, here.size, rfl⟩, stored, rfl, quiet, done, called, appended⟩
      · -- the journal is full, so what was appended is what fits
        have bounded := holds.bounded
        rw [here.capacity] at bounded
        rw [if_neg below] at record
        rw [record] at moved
        cases moved
        have length := congrArg List.length appended
        rw [List.length_append] at length
        refine ⟨opened, ⟨here.path, here.capacity, here.size, here.file⟩, holds, ?_, ?_⟩
        · dsimp only
          rw [called, List.take_left' (by omega), appended]
        · dsimp only
          rw [called, List.length_append, List.length_cons, if_pos (by omega)]
  | counting journal idx fill rest =>
    rw [pc] at held
    obtain ⟨opened, here, stored, index, quiet, done, called, appended⟩ := held
    obtain ⟨file, result, holds⟩ := stored.storeCount
    unfold workStep at moved
    rw [pc] at moved
    dsimp only at moved
    rw [index, result] at moved
    cases moved
    refine ⟨opened, ⟨here.path, here.capacity, here.size, rfl⟩, holds, quiet, done ++ [fill], ?_, ?_⟩
    · dsimp only
      rw [called, List.append_assoc, List.singleton_append]
    · dsimp only
      rw [appended, List.append_assoc]
  | closed => unfold workStep at moved; rw [pc] at moved; cases moved
  | idle journal => unfold workStep at moved; rw [pc] at moved; cases moved
  | failed => unfold workStep at moved; rw [pc] at moved; cases moved

theorem step_fixed {move : JournalMove} (moved : s.step move = some s') :
    s'.path = s.path ∧ s'.capacity = s.capacity := by
  cases move with
  | construct =>
    change s.constructStep = some s' at moved
    unfold constructStep at moved
    split at moved
    · split at moved <;> cases moved <;> exact ⟨rfl, rfl⟩
    · cases moved
  | call fills =>
    change s.callStep fills = some s' at moved
    unfold callStep at moved
    split at moved <;> cases moved
    exact ⟨rfl, rfl⟩
  | work =>
    change s.workStep = some s' at moved
    unfold workStep at moved
    split at moved
    · cases moved
      exact ⟨rfl, rfl⟩
    · split at moved <;> cases moved <;> exact ⟨rfl, rfl⟩
    · split at moved <;> cases moved <;> exact ⟨rfl, rfl⟩
    · cases moved
  | destroy =>
    change s.destroyStep = some s' at moved
    unfold destroyStep at moved
    split at moved <;> cases moved
    exact ⟨rfl, rfl⟩

theorem Kept.step (kept : s.Kept) (mappable : Mappable s.capacity) (fits : 24 + 40 * s.capacity.toNat < 2 ^ 63)
    {move : JournalMove} (moved : s.step move = some s') : s'.Kept := by
  cases move with
  | construct => exact kept.construct mappable moved
  | call fills => exact kept.call moved
  | work => exact kept.work fits moved
  | destroy => exact kept.destroy moved

theorem run_eq (s : JournalUse) (schedule : List JournalMove) : s.run schedule = runFrom step s schedule :=
  eq_runFrom (fun _ => rfl) (fun _ _ _ => rfl) s schedule

theorem Kept.run (kept : s.Kept) (mappable : Mappable s.capacity) (fits : 24 + 40 * s.capacity.toNat < 2 ^ 63)
    {schedule : List JournalMove} (ran : s.run schedule = some s') :
    s'.Kept ∧ s'.path = s.path ∧ s'.capacity = s.capacity := by
  rw [run_eq] at ran
  refine runFrom_keeps (P := fun next => next.Kept ∧ next.path = s.path ∧ next.capacity = s.capacity) ?_ ran
    ⟨kept, rfl, rfl⟩
  intro before move after _ moved ⟨here, path, capacity⟩
  obtain ⟨samePath, sameCapacity⟩ := step_fixed moved
  exact ⟨here.step (capacity ▸ mappable) (capacity ▸ fits) moved, samePath.trans path, sameCapacity.trans capacity⟩

/-- Once the header is there the file can be read, also between the two stores of an append. -/
theorem Kept.readable (kept : s.Kept) (opened : s.opened = true) :
    ∃ journal : FillJournal, s.file = some journal.file ∧ journal.Holds s.appended := by
  unfold Kept at kept
  split at kept
  · rw [if_pos opened] at kept
    obtain ⟨journal, here, holds⟩ := kept
    exact ⟨journal, here.file, holds⟩
  · exact ⟨_, kept.2.1.file, kept.2.2.1⟩
  · exact ⟨_, kept.2.1.file, kept.2.2.1⟩
  · exact ⟨_, kept.2.1.file, kept.2.2.1.toHolds⟩
  · cases kept

theorem Kept.written (kept : s.Kept) {journal : FillJournal} (open' : s.pc.journal? = some journal) :
    journal.recordsWritten = s.appended.length := by
  unfold Kept at kept
  cases pc : s.pc with
  | closed => rw [pc] at open'; cases open'
  | failed => rw [pc] at open'; cases open'
  | idle journal =>
    rw [pc] at open' kept
    cases open'
    exact kept.2.2.1.recordsWritten
  | appending journal rest =>
    rw [pc] at open' kept
    cases open'
    exact kept.2.2.1.recordsWritten
  | counting journal idx fill rest =>
    rw [pc] at open' kept
    cases open'
    exact kept.2.2.1.toHolds.recordsWritten

end JournalUse

/-- In every session, between any two stores, the file reads back as the fills that were appended. -/
theorem journal_round_trip (path : String) (capacity : UInt64) (positive : 1 ≤ capacity.toNat)
    (fits : 24 + 40 * capacity.toNat < 2 ^ 63) (existing : Option (List UInt8)) (absent : existing.getD [] = [])
    (schedule : List JournalMove) (s : JournalUse)
    (ran : (JournalUse.create path capacity existing).run schedule = some s) :
    s.pc ≠ .failed ∧
      (s.opened = true → FillJournal.replay path s.file = .ok (s.appended.map Fill.record)) ∧
      (∀ journal, s.pc.journal? = some journal → journal.recordsWritten = s.appended.length) ∧
      (∀ journal fill rest, s.pc = .appending journal (fill :: rest) → capacity.toNat ≤ s.appended.length →
        s.step .work = some { s with
          pc := .idle journal
          thrown := some (.thrown ("fill journal full: " ++ path)) }) ∧
      (∀ journal, s.pc = .idle journal →
        s.appended = s.before ++ s.called.take (capacity.toNat - s.before.length) ∧
        s.thrown = if capacity.toNat < s.before.length + s.called.length
          then some (.thrown ("fill journal full: " ++ path)) else none) := by
  have mappable := mappable_of_fits positive fits
  have start : (JournalUse.create path capacity existing).Kept := ⟨absent, rfl⟩
  obtain ⟨kept, samePath, sameCapacity⟩ := start.run mappable fits ran
  change s.path = path at samePath
  change s.capacity = capacity at sameCapacity
  subst samePath sameCapacity
  refine ⟨?_, ?_, fun journal there => kept.written there, ?_, ?_⟩
  · intro failed
    unfold JournalUse.Kept at kept
    rwa [failed] at kept
  · intro opened
    obtain ⟨journal, file, holds⟩ := kept.readable opened
    rw [file]
    exact holds.replay s.path
  · intro journal fill rest pc full
    have record := kept.record fits pc
    rwa [if_neg (Nat.not_lt.mpr full)] at record
  · intro journal pc
    unfold JournalUse.Kept at kept
    rw [pc] at kept
    exact ⟨kept.2.2.2.prefixed, kept.2.2.2.thrown⟩

/-- A journal of one record, read between the stores of an append, and read again when a second append was refused. -/
theorem journal_round_trip_sample :
    (∃ s, (JournalUse.create "fills.journal" 1 none).run [.construct, .call [⟨2, 1, 100, 5, 2, 7⟩], .work] = some s ∧
      FillJournal.replay "fills.journal" s.file = .ok []) ∧
    ∃ s, (JournalUse.create "fills.journal" 1 none).run
        [.construct, .call [⟨2, 1, 100, 5, 2, 7⟩, ⟨4, 3, 101, 6, 3, 7⟩], .work, .work, .work] = some s ∧
      s.thrown ≠ none ∧ FillJournal.replay "fills.journal" s.file = .ok [⟨2, 1, 100, 5, 2, 7⟩] := by
  have first : ((JournalUse.create "fills.journal" 1 none).run
      [.construct, .call [⟨2, 1, 100, 5, 2, 7⟩], .work]).map (fun s => (s.opened, s.appended)) = some (true, []) := by
    decide
  have second : ((JournalUse.create "fills.journal" 1 none).run
      [.construct, .call [⟨2, 1, 100, 5, 2, 7⟩, ⟨4, 3, 101, 6, 3, 7⟩], .work, .work, .work]).map
        (fun s => (s.opened, s.appended, s.thrown.isSome)) = some (true, [⟨2, 1, 100, 5, 2, 7⟩], true) := by
    decide
  obtain ⟨s, ran, facts⟩ := Option.map_eq_some_iff.mp first
  obtain ⟨s', ran', facts'⟩ := Option.map_eq_some_iff.mp second
  obtain ⟨opened, appended⟩ := Prod.mk.inj facts
  obtain ⟨opened', facts''⟩ := Prod.mk.inj facts'
  obtain ⟨appended', thrown⟩ := Prod.mk.inj facts''
  have one := (journal_round_trip "fills.journal" 1 (by decide) (by decide) none rfl _ s ran).2.1 opened
  have two := (journal_round_trip "fills.journal" 1 (by decide) (by decide) none rfl _ s' ran').2.1 opened'
  rw [appended] at one
  rw [appended'] at two
  exact ⟨⟨s, ran, one⟩, s', ran', Option.ne_none_iff_isSome.mpr thrown, two⟩

end ChronoBook
