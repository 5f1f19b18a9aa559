import ChronoBook.Journal.PipelineDurability
import ChronoBook.Replay.RecoveryReconciler

/-! The files outlive the process. A pipeline is killed between any two of its steps
and started again over the files it left, any number of times, and the store may be
rebuilt from the journal in between. The journal then has, one behind the other, a
first part of what each life accepted, and the store shows some of that in its order. -/

namespace ChronoBook
open FillJournal Library

namespace FillJournal

variable {capacity : UInt64} {fills : List Fill} {file : Option (List UInt8)}

/-- What a journal of this capacity leaves on the disk, if anything: a file with these fills. -/
def LeftAt (capacity : UInt64) (fills : List Fill) (file : Option (List UInt8)) : Prop :=
  file.getD [] = [] ∧ fills = [] ∨ ∃ journal : FillJournal, file = some journal.file ∧ journal.Holds fills ∧
    journal.capacity = capacity ∧ journal.fileBytes = 24 + capacity * 40

theorem LeftAt.reopens (left : LeftAt capacity fills file) (mappable : Mappable capacity) (path : String) :
    ∃ journal : FillJournal, create path capacity file = (some journal.file, .ok journal) ∧ journal.Holds fills ∧
      journal.capacity = capacity ∧ journal.fileBytes = 24 + capacity * 40 := by
  rcases left with ⟨absent, rfl⟩ | ⟨journal, rfl, holds, rfl, size⟩
  · obtain ⟨journal, created, holds, _, same, size⟩ := create_mappable mappable path absent
    exact ⟨journal, created, holds, same, size⟩
  · obtain ⟨journal', created, holds', _, same, size'⟩ := holds.reopen mappable size path
    exact ⟨journal', created, holds', same, size'.trans size⟩

theorem LeftAt.records (left : LeftAt capacity fills file) (path : String) :
    FillJournal.records path file = fills.map Fill.record := by
  rcases left with ⟨absent, rfl⟩ | ⟨journal, rfl, holds, _⟩
  · exact records_short path (by rw [absent]; decide)
  · exact holds.records path

@[simp] theorem fills_of_records (fills : List Fill) : (fills.map Fill.record).map FillRecord.fill = fills := by
  rw [List.map_map]
  exact List.map_id fills

theorem prefix_of_records {first second : List Fill} (behind : first.map Fill.record <+: second.map Fill.record) :
    first <+: second := by
  simpa only [fills_of_records] using behind.map FillRecord.fill

theorem LeftAt.of_records {path : String} (left : ∃ fills, LeftAt capacity fills file)
    (listed : FillJournal.records path file = fills.map Fill.record) : LeftAt capacity fills file := by
  obtain ⟨fills', left⟩ := left
  have same : fills'.map Fill.record = fills.map Fill.record := (left.records path).symm.trans listed
  rwa [← fills_of_records fills', same, fills_of_records] at left

end FillJournal

namespace DurabilityPipeline

variable {older : List FillRecord} {kept : List Fill} {s s' : DurabilityPipeline} {accepted taken queued : List Fill}
  {frame : Frame} {pc : LoopPc} {io : Io}

/-- Opened again, the journal would be found in order. -/
def Reopens (s : DurabilityPipeline) : Prop := ∃ fills, LeftAt s.config.journalCapacity fills s.journalFile

/-- Only the two stores of an append write the journal's file. -/
theorem loopStep_journal (s : DurabilityPipeline) (frame : Frame) (io : Io) (pc : LoopPc)
    (file : s.journalFile = some frame.journal.file) :
    (s.loopStep frame io pc).journalFile = s.journalFile ∨
      (∃ last done fill idx journal, pc = .flush last (.record done) ∧
        frame.journal.storeRecord fill = .ok (idx, journal) ∧
        (s.loopStep frame io pc).journalFile = some journal.file) ∨
      ∃ last done idx journal, pc = .flush last (.counter done idx) ∧ frame.journal.storeCount idx = .ok journal ∧
        (s.loopStep frame io pc).journalFile = some journal.file := by
  cases pc with
  | flush last pc =>
    cases pc with
    | record done =>
      unfold loopStep flushStep
      dsimp only
      split
      · exact Or.inl file.symm
      next fill _ =>
        split
        next idx journal stored => exact Or.inr (Or.inl ⟨last, done, fill, idx, journal, rfl, stored, rfl⟩)
        · exact Or.inl (fails_journalFile s _)
    | counter done idx =>
      unfold loopStep flushStep
      dsimp only
      split
      next journal stored => exact Or.inr (Or.inr ⟨last, done, idx, journal, rfl, stored, rfl⟩)
      · exact Or.inl (fails_journalFile s _)
    | sync =>
      unfold loopStep flushStep
      dsimp only
      split
      · exact Or.inl (fails_journalFile s _)
      · exact Or.inl file.symm
    | insert =>
      unfold loopStep flushStep
      dsimp only
      split
      · exact Or.inl file.symm
      · exact Or.inl (fails_journalFile _ _)
    | count | clear => exact Or.inl file.symm
  | pop =>
    unfold loopStep
    dsimp only
    split <;> exact Or.inl file.symm
  | read =>
    unfold loopStep
    dsimp only
    split
    · exact Or.inl (fails_journalFile s _)
    · exact Or.inl file.symm
  | lastSync =>
    unfold loopStep
    dsimp only
    split
    · exact Or.inl (fails_journalFile s _)
    · exact Or.inl rfl
  | flag | inbox | release | final => exact Or.inl file.symm

theorem Tracks.loop_reopens (tracks : s.Tracks older kept accepted taken queued) (reopens : s.Reopens)
    (here : s.worker = some (.loop frame pc)) : (s.loopStep frame io pc).Reopens := by
  have flow := tracks.flow
  unfold Flow at flow
  rw [here] at flow
  obtain ⟨opened, file, _, _, flow⟩ := flow
  unfold Reopens
  rw [(loopStep_worked here).config]
  rcases loopStep_journal s frame io pc file with same | ⟨last, done, fill, idx, journal, rfl, result, same⟩ |
    ⟨last, done, idx, journal, rfl, result, same⟩
  · rw [same]
    exact reopens
  · obtain ⟨new, _, _, books⟩ := flow
    rcases books.journal.storeRecord fill with ⟨failure, _, failed⟩ | ⟨bytes, base, _, result', stored⟩
    · rw [result] at failed
      cases failed
    · cases result.symm.trans result'
      rw [same]
      exact ⟨_, Or.inr ⟨_, rfl, stored.toHolds, opened.capacity, opened.size⟩⟩
  · obtain ⟨new, _, _, _, fill, base, _, _, stored, rfl⟩ := flow
    obtain ⟨bytes, result', holds⟩ := stored.storeCount
    cases result.symm.trans result'
    rw [same]
    exact ⟨_, Or.inr ⟨_, rfl, holds, opened.capacity, opened.size⟩⟩

theorem Tracks.reopens (tracks : s.Tracks older kept accepted taken queued) (reopens : s.Reopens)
    (mappable : Mappable s.config.journalCapacity) (moved : s.work io = some s') : s'.Reopens := by
  have config := (work_worked moved).config
  have flow := tracks.flow
  have same : s'.journalFile = s.journalFile → s'.Reopens := by
    intro file
    unfold Reopens
    rw [config, file]
    exact reopens
  unfold Flow at flow
  unfold DurabilityPipeline.work at moved
  cases here : s.worker with
  | none => rw [here] at moved; cases moved
  | some worker =>
    rw [here] at moved flow
    cases worker with
    | openJournal =>
      obtain ⟨fills, left⟩ := reopens
      obtain ⟨journal, created, holds, capacity, size⟩ := left.reopens mappable s.config.journalPath
      dsimp only at moved
      rw [created] at moved
      cases moved
      exact ⟨fills, Or.inr ⟨journal, rfl, holds, capacity, size⟩⟩
    | openStore journal =>
      dsimp only at moved
      split at moved <;> cases moved <;> exact same (by simp)
    | reserve journal store =>
      dsimp only at moved
      split at moved <;> cases moved
      · exact same (by simp)
      · exact same flow.2.2.2.2.1.symm
    | loop frame pc =>
      cases moved
      exact tracks.loop_reopens reopens here
    | raise what =>
      cases moved
      exact reopens
    | halt =>
      cases moved
      exact reopens
    | finished => cases moved
    | crashed => cases moved

theorem Tracks.extends (tracks : s.Tracks older kept accepted taken queued)
    (found : s.Unopened → records s.config.journalPath s.journalFile = older) (moved : s.work io = some s') :
    records s.config.journalPath s.journalFile <+: records s.config.journalPath s'.journalFile := by
  by_cases early : s.Unopened
  · rw [found early]
    have flow := tracks.flow
    unfold Flow at flow
    unfold DurabilityPipeline.work at moved
    unfold Unopened at early
    cases here : s.worker with
    | none => rw [here] at moved; cases moved
    | some worker =>
      rw [here] at moved flow early
      cases worker with
      | openJournal =>
        dsimp only at moved
        rw [← flow.2]
        split at moved
        next created => cases moved; rw [created]
        next created => cases moved; rw [created, fails_journalFile]
      | _ => exact early.elim
  · exact tracks.grows (fun unopened => absurd unopened early) moved

/-- What a store shows that is opened afresh: nothing, or what was found at first and then fills that the journal has
got since. -/
def Shows (older : List FillRecord) (kept : List Fill) (s : DurabilityPipeline) : Prop :=
  ∀ store, TradeStore.load s.config.storePath s.storeFile = .ok store → store.trades = [] ∨
    ∃ new, store.trades = kept ++ new ∧ older ++ new.map Fill.record <+: records s.config.journalPath s.journalFile

theorem Tracks.work_store (tracks : s.Tracks older kept accepted taken queued) (moved : s.work io = some s') :
    s'.storeFile = s.storeFile ∨ ∃ frame last, s.worker = some (.loop frame (.flush last .insert)) ∧
      s' = s.loopStep frame io (.flush last .insert) := by
  have flow := tracks.flow
  unfold Flow at flow
  unfold DurabilityPipeline.work at moved
  cases here : s.worker with
  | none => rw [here] at moved; cases moved
  | some worker =>
    rw [here] at moved flow
    cases worker with
    | openJournal =>
      dsimp only at moved
      split at moved <;> cases moved <;> exact Or.inl (by simp)
    | openStore journal =>
      dsimp only at moved
      split at moved <;> cases moved <;> exact Or.inl (by simp)
    | reserve journal store =>
      dsimp only at moved
      split at moved <;> cases moved
      · exact Or.inl (by simp)
      · exact Or.inl rfl
    | loop frame pc =>
      obtain ⟨_, _, committed, _, _⟩ := flow
      cases moved
      rcases loopStep_store s frame io pc committed with ⟨last, rfl⟩ | ⟨same, _⟩
      · exact Or.inr ⟨frame, last, rfl, rfl⟩
      · exact Or.inl same
    | raise what =>
      cases moved
      exact Or.inl rfl
    | halt =>
      cases moved
      exact Or.inl rfl
    | finished => cases moved
    | crashed => cases moved

/-- An insert leaves the file, or writes what the journal has got with the batch. -/
theorem loopStep_insert (s : DurabilityPipeline) (frame : Frame) (last : Bool) (io : Io)
    (file : s.journalFile = some frame.journal.file) :
    (s.loopStep frame io (.flush last .insert)).journalFile = s.journalFile ∧
      ((s.loopStep frame io (.flush last .insert)).storeFile = s.storeFile ∨
        (frame.store.trades ++ frame.batch).length ≤ maxSize ∧ (s.loopStep frame io (.flush last .insert)).storeFile =
          (TradeStore.writeAll frame.store.path (frame.store.trades ++ frame.batch) io.outcome s.storeFile).1) := by
  unfold loopStep flushStep
  dsimp only
  by_cases small : frame.store.trades.length + frame.batch.length ≤ maxSize
  · rw [TradeStore.insertBatch_writes frame.store small, List.length_append]
    rcases TradeStore.writeAll frame.store.path (frame.store.trades ++ frame.batch) io.outcome s.storeFile with
      ⟨bytes, failure | _⟩
    · exact ⟨by simp, Or.inr ⟨small, by simp⟩⟩
    · exact ⟨file.symm, Or.inr ⟨small, rfl⟩⟩
  · unfold TradeStore.insertBatch
    rw [if_pos (Nat.lt_of_not_le small)]
    exact ⟨by simp, Or.inl (by simp)⟩

theorem Tracks.shows (tracks : s.Tracks older kept accepted taken queued)
    (found : s.Unopened → records s.config.journalPath s.journalFile = older) (shows : s.Shows older kept)
    (moved : s.work io = some s') : s'.Shows older kept := by
  have config := (work_worked moved).config
  have grows := tracks.extends found moved
  have same : ∀ store, TradeStore.load s.config.storePath s.storeFile = .ok store → store.trades = [] ∨
      ∃ new, store.trades = kept ++ new ∧
        older ++ new.map Fill.record <+: records s.config.journalPath s'.journalFile := by
    intro store loads
    rcases shows store loads with nothing | ⟨new, trades, there⟩
    · exact Or.inl nothing
    · exact Or.inr ⟨new, trades, there.trans grows⟩
  unfold Shows
  rw [config]
  rcases tracks.work_store moved with file | ⟨frame, last, here, rfl⟩
  · rw [file]
    exact same
  · have flow := tracks.flow
    unfold Flow at flow
    rw [here] at flow
    obtain ⟨opened, file, _, _, new, _, _, books⟩ := flow
    obtain ⟨journal, written⟩ := loopStep_insert s frame last io file
    rcases written with store | ⟨small, store⟩
    · rw [store]
      exact same
    · intro shown loads
      rw [store, opened.store] at loads
      rcases TradeStore.load_all_or_nothing small loads with old | nothing | all
      · rw [old] at loads
        exact same shown loads
      · exact Or.inl nothing
      · refine Or.inr ⟨new ++ frame.batch, ?_, ?_⟩
        · rw [all, books.trades, List.append_assoc]
        · rw [journal, file, books.journal.records]

/-- The journal has got a first part of what was taken, and all of it if the worker ended without an error. -/
theorem Tracks.part (tracks : s.Tracks older kept accepted taken queued)
    (found : s.Unopened → records s.config.journalPath s.journalFile = older) :
    ∃ part, records s.config.journalPath s.journalFile = older ++ part.map Fill.record ∧ part <+: taken ∧
      (s.worker = some .finished → s.error = "" → part = taken) := by
  have flow := tracks.flow
  have none : records s.config.journalPath s.journalFile = older ++ ([] : List Fill).map Fill.record →
      s.worker ≠ some .finished → ∃ part, records s.config.journalPath s.journalFile = older ++ part.map Fill.record ∧
        part <+: taken ∧ (s.worker = some .finished → s.error = "" → part = taken) :=
    fun listed busy => ⟨[], listed, List.nil_prefix, fun ended => absurd ended busy⟩
  have early : s.Unopened → records s.config.journalPath s.journalFile = older ++ ([] : List Fill).map Fill.record := by
    intro unopened
    rw [found unopened]
    exact (List.append_nil _).symm
  have ended : s.Ended older kept taken → (s.worker = some .finished → s.error ≠ "") →
      ∃ part, records s.config.journalPath s.journalFile = older ++ part.map Fill.record ∧
        part <+: taken ∧ (s.worker = some .finished → s.error = "" → part = taken) := by
    intro stopped failed
    obtain ⟨journaled, _, listed, _, behind, _⟩ := stopped
    exact ⟨journaled, listed, behind, fun done silent => absurd silent (failed done)⟩
  unfold Flow at flow
  unfold Unopened at early
  cases here : s.worker with
  | none =>
    rw [here] at early none
    exact none (early trivial) (by simp)
  | some worker =>
    rw [here] at flow early none ended
    cases worker with
    | openJournal => exact none (early trivial) (by simp)
    | openStore journal =>
      refine none ?_ (by simp)
      rw [flow.2.2.1]
      exact flow.2.1.records _
    | reserve journal store =>
      obtain ⟨_, _, _, _, file, _, books⟩ := flow
      refine none ?_ (by simp)
      rw [file]
      exact books.journal.records _
    | loop frame pc =>
      obtain ⟨_, file, _, _, flow⟩ := flow
      obtain ⟨new, part, _, listed, behind, _⟩ := shown_of_flow flow
      refine ⟨new ++ part, ?_, behind, fun done => by cases done⟩
      rw [file]
      exact listed _
    | raise what => exact ended flow.1 (fun done => by cases done)
    | halt => exact ended flow.1 (fun done => by cases done)
    | crashed => exact ended flow (fun done => by cases done)
    | finished =>
      by_cases silent : s.error = ""
      · exact ⟨taken, (flow.2 silent).1, List.prefix_refl _, fun _ _ => rfl⟩
      · exact ended flow.1 (fun _ => silent)

end DurabilityPipeline

namespace DurabilityPipeline

variable {base : List Fill} {file : Option (List UInt8)} {s s' : DurabilityPipeline} {io : Io}

def Serving (s : DurabilityPipeline) : Prop :=
  match s.worker with
  | some (.reserve _ _) | some (.loop _ _) => True
  | _ => False

/-- The store's file is refused, and nothing is written. -/
structure Barred (base : List Fill) (file : Option (List UInt8)) (s : DurabilityPipeline) : Prop where
  store : s.storeFile = file
  journal : LeftAt s.config.journalCapacity base s.journalFile
  refused : ¬s.Serving

theorem Barred.fails (barred : s.Barred base file) (failure : Failure) : (s.fails failure).Barred base file := by
  cases failure <;> exact ⟨barred.store, barred.journal, fun never => never⟩

theorem Barred.work (barred : s.Barred base file) (damaged : ¬TradeStore.Loadable file)
    (mappable : Mappable s.config.journalCapacity) (moved : s.work io = some s') : s'.Barred base file := by
  have refused := barred.refused
  unfold Serving at refused
  unfold DurabilityPipeline.work at moved
  cases here : s.worker with
  | none => rw [here] at moved; cases moved
  | some worker =>
    rw [here] at moved refused
    cases worker with
    | openJournal =>
      obtain ⟨journal, created, holds, capacity, size⟩ := barred.journal.reopens mappable s.config.journalPath
      dsimp only at moved
      rw [created] at moved
      cases moved
      exact ⟨barred.store, Or.inr ⟨journal, rfl, holds, capacity, size⟩, fun never => never⟩
    | openStore journal =>
      obtain ⟨failure, failed⟩ := TradeStore.load_refused s.config.storePath damaged
      dsimp only at moved
      rw [barred.store, failed] at moved
      cases moved
      exact barred.fails failure
    | reserve journal store => exact absurd trivial refused
    | loop frame pc => exact absurd trivial refused
    | raise what =>
      cases moved
      exact ⟨barred.store, barred.journal, fun never => never⟩
    | halt =>
      cases moved
      exact ⟨barred.store, barred.journal, fun never => never⟩
    | finished => cases moved
    | crashed => cases moved

end DurabilityPipeline

namespace PipelineSystem

open DurabilityPipeline

variable {older : List FillRecord} {kept base : List Fill} {file : Option (List UInt8)} {s s' : PipelineSystem}

/-- One life, over a journal with the older records and a store that shows the kept trades if it can be loaded. -/
structure Living (older : List FillRecord) (kept : List Fill) (s : PipelineSystem) : Prop where
  invariant : s.Invariant older kept
  mappable : Mappable s.pipeline.config.journalCapacity
  found : s.pipeline.Unopened → records s.pipeline.config.journalPath s.pipeline.journalFile = older
  reopens : s.pipeline.Reopens
  shows : s.pipeline.Shows older kept

theorem Living.step (living : s.Living older kept) {move : PipelineMove} (moved : s.step move = some s') :
    s'.Living older kept := by
  obtain ⟨⟨taken, queued, tracks⟩, _⟩ := living.invariant
  have mappable := living.mappable
  rw [← step_config moved] at mappable
  rcases step_cases moved with ⟨io, _, worked, _⟩ | ⟨_, aside⟩
  · exact ⟨living.invariant.step moved, mappable, fun early => absurd early (work_worked worked).opened,
      tracks.reopens living.reopens living.mappable worked, tracks.shows living.found living.shows worked⟩
  · refine ⟨living.invariant.step moved, mappable, fun early => ?_, ?_, ?_⟩
    · rw [aside.frozen.config, aside.frozen.journalFile]
      apply living.found
      unfold Unopened at early ⊢
      rcases aside.worker with same | ⟨none, _⟩
      · rwa [← same]
      · rw [none]
        trivial
    · unfold Reopens
      rw [aside.frozen.config, aside.frozen.journalFile]
      exact living.reopens
    · unfold Shows
      rw [aside.frozen.config, aside.frozen.journalFile, aside.frozen.storeFile]
      exact living.shows

theorem Living.run (living : s.Living older kept) {moves : List PipelineMove} (ran : s.run moves = some s') :
    s'.Living older kept :=
  run_keeps (fun _ _ _ _ before moved => before.step moved) living ran

/-- What a life leaves of the fills it accepted: a first part, and all if the worker ended without an error and there is
nothing left in the ring. -/
structure Leaves (part : List Fill) (s : PipelineSystem) : Prop where
  first : part <+: s.accepted
  whole : s.pipeline.worker = some .finished → s.pipeline.error = "" → s.pipeline.ring.empty = true → part = s.accepted

theorem Living.leaves (living : s.Living (base.map Fill.record) kept) :
    ∃ part, LeftAt s.pipeline.config.journalCapacity (base ++ part) s.pipeline.journalFile ∧ Leaves part s := by
  obtain ⟨⟨taken, queued, tracks⟩, _⟩ := living.invariant
  obtain ⟨part, listed, behind, whole⟩ := tracks.part living.found
  rw [← List.map_append] at listed
  refine ⟨part, LeftAt.of_records living.reopens listed, ?_, fun ended silent drained => ?_⟩
  · rw [tracks.split]
    exact behind.trans (List.prefix_append _ _)
  · rw [tracks.split, tracks.ring.empty_iff.mp drained, List.append_nil]
    exact whole ended silent

end PipelineSystem

structure Setup where
  journalPath : String
  storePath : String
  capacity : UInt64

/-- One life of the process: what else the pipeline is made with, and its moves until it ends or is killed. -/
structure Lifetime where
  ringCapacity : UInt64
  batchSize : UInt64
  moves : List PipelineMove

/-- What may happen to the files; of the write that ends a recovery any number of bytes may arrive. -/
inductive DiskEvent where
  | live (life : Lifetime)
  | recover (outcome : WriteOutcome)

/-- The files between two lives, and how the earlier ones ended. -/
structure Disk where
  journalFile : Option (List UInt8)
  storeFile : Option (List UInt8)
  lives : List PipelineSystem

namespace RecoveryReconciler

/-- The repair with a write that may fail. -/
def rebuildStoreWriting (outcome : WriteOutcome) (journalPath : String) (journalFile : Option (List UInt8))
    (storePath : String) (storeFile : Option (List UInt8)) : Option (List UInt8) × Except Failure Nat :=
  match FillJournal.replay journalPath journalFile with
  | .error failure => (storeFile, .error failure)
  | .ok records =>
      let fills := records.map FillRecord.fill
      match TradeStore.load storePath storeFile with
      | .error failure => (storeFile, .error failure)
      | .ok store =>
          match store.replaceAll fills outcome storeFile with
          | (_, storeFile, .error failure) => (storeFile, .error failure)
          | (_, storeFile, .ok _) => (storeFile, .ok fills.length)

variable {outcome : WriteOutcome} {journalPath storePath : String} {journalFile storeFile : Option (List UInt8)}

/-- The repair leaves the store's file, or writes the journal's records there. -/
theorem rebuildStoreWriting_file :
    (rebuildStoreWriting outcome journalPath journalFile storePath storeFile).1 = storeFile ∨
      ∃ records, FillJournal.replay journalPath journalFile = .ok records ∧
        (rebuildStoreWriting outcome journalPath journalFile storePath storeFile).1 =
          (TradeStore.writeAll storePath (records.map FillRecord.fill) outcome storeFile).1 := by
  unfold rebuildStoreWriting
  split
  · exact Or.inl rfl
  next records reads =>
    dsimp only
    split
    · exact Or.inl rfl
    next store loads =>
      right
      refine ⟨records, reads, ?_⟩
      obtain ⟨trades, rfl⟩ := TradeStore.load_shape loads
      unfold TradeStore.replaceAll
      dsimp only [TradeStore.rebuildIndex]
      rcases TradeStore.writeAll storePath (records.map FillRecord.fill) outcome storeFile with ⟨bytes, failure | _⟩ <;> rfl

end RecoveryReconciler

namespace Disk

open PipelineSystem RecoveryReconciler

def empty : Disk := ⟨none, none, []⟩

def begin (disk : Disk) (setup : Setup) (life : Lifetime) : Except Failure DurabilityPipeline :=
  DurabilityPipeline.create setup.journalPath setup.storePath life.ringCapacity setup.capacity life.batchSize
    disk.journalFile disk.storeFile

/-- A pipeline that cannot be made touches no file. -/
def step (setup : Setup) (disk : Disk) : DiskEvent → Option Disk
  | .live life =>
      match disk.begin setup life with
      | .error _ => some disk
      | .ok pipeline => ((PipelineSystem.create pipeline).run life.moves).map (fun s =>
          ⟨s.pipeline.journalFile, s.pipeline.storeFile, disk.lives ++ [s]⟩)
  | .recover outcome => some { disk with
      storeFile := (rebuildStoreWriting outcome setup.journalPath disk.journalFile setup.storePath disk.storeFile).1 }

def run (setup : Setup) (disk : Disk) (events : List DiskEvent) : Option Disk := runFrom (step setup) disk events

variable {setup : Setup} {disk disk' : Disk} {parts : List (List Fill)}

def journaled (setup : Setup) (disk : Disk) : List FillRecord := records setup.journalPath disk.journalFile

/-- The journal has a part of each life, and the store shows some of them in their order, if anything. -/
structure Sound (setup : Setup) (disk : Disk) (parts : List (List Fill)) : Prop where
  lives : List.Forall₂ Leaves parts disk.lives
  journal : LeftAt setup.capacity parts.flatten disk.journalFile
  store : ∀ store, TradeStore.load setup.storePath disk.storeFile = .ok store → store.trades.Sublist parts.flatten

theorem Sound.empty (setup : Setup) : Sound setup Disk.empty [] where
  lives := .nil
  journal := Or.inl ⟨rfl, rfl⟩
  store := by
    intro store loads
    cases loads
    exact List.Sublist.refl _

theorem live_cases {life : Lifetime} (moved : disk.step setup (.live life) = some disk') :
    disk' = disk ∨ ∃ pipeline s, disk.begin setup life = .ok pipeline ∧
      (PipelineSystem.create pipeline).run life.moves = some s ∧
      disk' = ⟨s.pipeline.journalFile, s.pipeline.storeFile, disk.lives ++ [s]⟩ := by
  unfold step at moved
  dsimp only at moved
  split at moved
  · cases moved
    exact Or.inl rfl
  next pipeline made =>
    obtain ⟨s, ran, rfl⟩ := Option.map_eq_some_iff.mp moved
    exact Or.inr ⟨pipeline, s, made, ran, rfl⟩

theorem begin_config {life : Lifetime} {pipeline : DurabilityPipeline} (made : disk.begin setup life = .ok pipeline) :
    pipeline.config = ⟨setup.journalPath, setup.storePath, setup.capacity,
      if life.batchSize = 0 then 1 else life.batchSize⟩ := by
  obtain ⟨ring, _, rfl⟩ := DurabilityPipeline.create_made made
  rfl

theorem Sound.begin (sound : disk.Sound setup parts) (mappable : Mappable setup.capacity) {life : Lifetime}
    {pipeline : DurabilityPipeline} (made : disk.begin setup life = .ok pipeline) {kept : List Fill}
    (shown : ∀ store, TradeStore.load setup.storePath disk.storeFile = .ok store → store.trades = kept) :
    (PipelineSystem.create pipeline).Living (parts.flatten.map Fill.record) kept := by
  obtain ⟨journal, created, holds, _⟩ := sound.journal.reopens mappable setup.journalPath
  have invariant := Invariant.create made shown
  rw [created, holds.records] at invariant
  obtain ⟨ring, _, rfl⟩ := DurabilityPipeline.create_made made
  have listed := sound.journal.records setup.journalPath
  refine ⟨invariant, mappable, fun _ => listed, ⟨_, sound.journal⟩, fun store loads => Or.inr ⟨[], ?_, ?_⟩⟩
  · rw [shown store loads, List.append_nil]
  · rw [List.map_nil, List.append_nil]
    exact (congrArg (_ <+: ·) listed).mpr (List.prefix_refl _)

/-- A life adds its part to the journal; what the store shows afterwards is nothing, or what it showed and some of that. -/
theorem Sound.live (sound : disk.Sound setup parts) (mappable : Mappable setup.capacity) {life : Lifetime}
    (moved : disk.step setup (.live life) = some disk') :
    ∃ parts' part, disk'.Sound setup parts' ∧ parts'.flatten = parts.flatten ++ part ∧ ∀ kept : List Fill,
      (∀ store, TradeStore.load setup.storePath disk.storeFile = .ok store → store.trades = kept) →
      ∀ store, TradeStore.load setup.storePath disk'.storeFile = .ok store →
        store.trades = [] ∨ ∃ new, store.trades = kept ++ new ∧ new <+: part := by
  rcases live_cases moved with rfl | ⟨pipeline, s, made, ran, rfl⟩
  · refine ⟨parts, [], sound, (List.append_nil _).symm, fun kept shown store loads => Or.inr ⟨[], ?_, List.nil_prefix⟩⟩
    rw [shown store loads, List.append_nil]
  have config : s.pipeline.config = _ := (run_config ran).trans (begin_config made)
  have kept : ∃ kept, (∀ store, TradeStore.load setup.storePath disk.storeFile = .ok store → store.trades = kept) ∧
      kept.Sublist parts.flatten := by
    cases loads : TradeStore.load setup.storePath disk.storeFile with
    | error failure => exact ⟨[], fun store never => (by cases never), List.nil_sublist _⟩
    | ok store =>
      refine ⟨store.trades, fun other same => ?_, sound.store store loads⟩
      cases same
      rfl
  obtain ⟨kept, shown, inside⟩ := kept
  obtain ⟨part, left, leaves⟩ := ((sound.begin mappable made shown).run ran).leaves
  have shows : ∀ kept' : List Fill,
      (∀ store, TradeStore.load setup.storePath disk.storeFile = .ok store → store.trades = kept') →
      ∀ store, TradeStore.load setup.storePath s.pipeline.storeFile = .ok store →
        store.trades = [] ∨ ∃ new, store.trades = kept' ++ new ∧ new <+: part := by
    intro kept' shown' store loads
    have living := (sound.begin mappable made shown').run ran
    have shows := living.shows
    unfold DurabilityPipeline.Shows at shows
    rw [left.records, List.map_append, config] at shows
    rcases shows store loads with nothing | ⟨new, trades, behind⟩
    · exact Or.inl nothing
    · exact Or.inr ⟨new, trades, prefix_of_records ((List.prefix_append_right_inj _).mp behind)⟩
  have flat : (parts ++ [part]).flatten = parts.flatten ++ part := by
    rw [List.flatten_append, List.flatten_singleton]
  refine ⟨parts ++ [part], part, ⟨?_, ?_, fun store loads => ?_⟩, flat, shows⟩
  · exact List.rel_append sound.lives (.cons leaves .nil)
  · rw [flat]
    rw [config] at left
    exact left
  · rw [flat]
    rcases shows kept shown store loads with nothing | ⟨new, trades, behind⟩
    · rw [nothing]
      exact List.nil_sublist _
    · rw [trades]
      exact inside.append behind.sublist

theorem Sound.recover (sound : disk.Sound setup parts) {outcome : WriteOutcome}
    (moved : disk.step setup (.recover outcome) = some disk') : disk'.Sound setup parts := by
  cases moved
  refine ⟨sound.lives, sound.journal, fun store loads => ?_⟩
  change TradeStore.load setup.storePath
    (rebuildStoreWriting outcome setup.journalPath disk.journalFile setup.storePath disk.storeFile).1 = .ok store at loads
  rcases rebuildStoreWriting_file with same | ⟨records, reads, written⟩
  · rw [same] at loads
    exact sound.store store loads
  · have listed := sound.journal.records setup.journalPath
    unfold FillJournal.records at listed
    rw [reads] at listed
    dsimp only at listed
    have small : (records.map FillRecord.fill).length ≤ maxSize := by
      rw [List.length_map]
      exact replay_small reads
    rw [written] at loads
    rcases TradeStore.load_all_or_nothing small loads with same | nothing | all
    · rw [same] at loads
      exact sound.store store loads
    · rw [nothing]
      exact List.nil_sublist _
    · rw [all, listed, fills_of_records]

theorem Sound.run (sound : disk.Sound setup parts) (mappable : Mappable setup.capacity) {events : List DiskEvent}
    (ran : disk.run setup events = some disk') : ∃ parts, disk'.Sound setup parts := by
  refine runFrom_keeps (P := fun disk => ∃ parts, disk.Sound setup parts) (fun disk event disk' _ moved before => ?_) ran
    ⟨parts, sound⟩
  obtain ⟨parts, sound⟩ := before
  cases event with
  | live life =>
    obtain ⟨parts', _, sound', _⟩ := sound.live mappable moved
    exact ⟨parts', sound'⟩
  | recover outcome => exact ⟨parts, sound.recover moved⟩

end Disk

end ChronoBook
