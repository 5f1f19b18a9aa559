import ChronoBook.Journal.PipelineRuns

/-! What the pipeline has made durable, in every interleaving of its threads and
whichever calls fail: the store is never ahead of the journal, nor the journal of
what was accepted, and a worker that is over changes nothing any more. The store's
file shows everything that was counted as long as no write of it is cut. -/

namespace ChronoBook
open FillJournal

namespace DurabilityPipeline

variable {older : List FillRecord} {kept : List Fill} {s s' : DurabilityPipeline} {accepted taken queued : List Fill}
  {io : Io}

def Flushing (s : DurabilityPipeline) : Prop := ∃ frame last pc, s.worker = some (.loop frame (.flush last pc))

/-- The worker has left its loop, by an exception or at its end. -/
def Over (s : DurabilityPipeline) : Prop :=
  match s.worker with
  | some (.raise _) | some .halt | some .finished | some .crashed => True
  | _ => False

/-- The order of durability: the store, the journal, what was accepted. -/
structure Ordered (s : DurabilityPipeline) (accepted : List Fill) : Prop where
  stored : s.committed.map Fill.record <+: records s.config.journalPath s.journalFile
  journaled : records s.config.journalPath s.journalFile <+: accepted.map Fill.record
  counted : s.persisted ≤ s.committed.length
  settled : ¬s.Flushing → s.persisted = s.committed.length

/-- The journal's records are those of these fills, between the store's trades and what was popped. -/
theorem ordered_of_listed (fills : List Fill) (listed : records s.config.journalPath s.journalFile = fills.map Fill.record)
    (stored : s.committed <+: fills) (behind : fills <+: taken) (split : accepted = taken ++ queued)
    (counted : s.persisted ≤ s.committed.length) (settled : ¬s.Flushing → s.persisted = s.committed.length) :
    s.Ordered accepted := by
  refine ⟨?_, ?_, counted, settled⟩
  · rw [listed]
    exact stored.map _
  · rw [listed, split]
    exact (behind.trans (List.prefix_append _ _)).map _

theorem Ended.ordered (ended : s.Ended [] [] taken) (split : accepted = taken ++ queued) : s.Ordered accepted := by
  obtain ⟨journaled, new, listed, stored, behind, counted, committed⟩ := ended
  have same : s.committed = new := by
    rcases committed with same | ⟨none, empty⟩
    · exact same
    · rw [none, empty]
  rw [← same] at stored counted
  exact ordered_of_listed _ listed stored behind split (Nat.le_of_eq counted) (fun _ => counted)

theorem Fresh.ordered (fresh : s.Fresh kept taken) (listed : records s.config.journalPath s.journalFile = []) :
    s.Ordered accepted := by
  obtain ⟨_, committed, persisted, _, _⟩ := fresh
  have counted : s.persisted = s.committed.length := by rw [persisted, committed, List.length_nil]
  refine ordered_of_listed [] listed ?_ (List.prefix_refl []) (List.nil_append _).symm (Nat.le_of_eq counted)
    (fun _ => counted)
  rw [committed]

theorem shown_of_flow {frame : Frame} {pc : LoopPc} {persisted : Nat}
    (flow : pc.Flow older kept frame taken persisted) :
    ∃ new part, frame.store.trades = kept ++ new ∧
      (∀ path, records path (some frame.journal.file) = older ++ (new ++ part).map Fill.record) ∧
      new ++ part <+: taken ∧ persisted ≤ new.length ∧ ((∀ last pc', pc ≠ .flush last pc') → persisted = new.length) := by
  cases pc with
  | flush last pc =>
    cases pc with
    | record done =>
      obtain ⟨new, all, counted, books⟩ := flow
      refine ⟨new, _, books.trades, books.journal.records, ?_, Nat.le_of_eq counted, fun _ => counted⟩
      rw [all]
      exact (List.prefix_append_right_inj _).mpr (List.take_prefix _ _)
    | counter done idx =>
      obtain ⟨new, all, counted, trades, fill, base, _, same, stored, _⟩ := flow
      have keeps : frame.journal.Keeps older (new ++ frame.batch.take done) := Or.inl ⟨base, same, stored.toHolds⟩
      refine ⟨new, _, trades, keeps.records, ?_, Nat.le_of_eq counted, fun _ => counted⟩
      rw [all]
      exact (List.prefix_append_right_inj _).mpr (List.take_prefix _ _)
    | sync =>
      obtain ⟨new, all, counted, books⟩ := flow
      exact ⟨new, _, books.trades, books.journal.records, by rw [all], Nat.le_of_eq counted, fun _ => counted⟩
    | insert =>
      obtain ⟨new, all, counted, books⟩ := flow
      exact ⟨new, _, books.trades, books.journal.records, by rw [all], Nat.le_of_eq counted, fun _ => counted⟩
    | count =>
      obtain ⟨counted, books⟩ := flow
      exact ⟨taken, [], books.trades, books.journal.records, by rw [List.append_nil], by omega,
        fun outside => absurd rfl (outside _ _)⟩
    | clear =>
      obtain ⟨counted, books⟩ := flow
      exact ⟨taken, [], books.trades, books.journal.records, by rw [List.append_nil], Nat.le_of_eq counted,
        fun _ => counted⟩
  | lastSync =>
    obtain ⟨counted, books⟩ := flow
    exact ⟨taken, [], books.trades, books.journal.records, by rw [List.append_nil], Nat.le_of_eq counted,
      fun _ => counted⟩
  | _ =>
    obtain ⟨new, all, counted, books⟩ := flow
    refine ⟨new, [], books.trades, books.journal.records, ?_, Nat.le_of_eq counted, fun _ => counted⟩
    rw [all, List.append_nil]
    exact List.prefix_append _ _

theorem Tracks.ordered (tracks : s.Tracks [] [] accepted taken queued) (blank : s.Unopened → Blank s.journalFile) :
    s.Ordered accepted := by
  have flow := tracks.flow
  unfold Flow at flow
  unfold Unopened at blank
  cases here : s.worker with
  | none =>
    rw [here] at flow blank
    exact flow.1.ordered ((blank trivial).records _)
  | some worker =>
    rw [here] at flow blank
    cases worker with
    | openJournal => exact flow.1.ordered ((blank trivial).records _)
    | openStore journal =>
      apply flow.1.ordered
      rw [flow.2.2.1]
      exact flow.2.1.records _
    | reserve journal store =>
      obtain ⟨none, committed, persisted, _, file, _, books⟩ := flow
      have empty : s.committed = [] := committed.trans books.trades
      have counted : s.persisted = s.committed.length := by rw [persisted, empty, List.length_nil]
      refine ordered_of_listed [] ?_ ?_ List.nil_prefix tracks.split (Nat.le_of_eq counted) (fun _ => counted)
      · rw [file]
        exact books.journal.records _
      · rw [empty]
    | loop frame pc =>
      obtain ⟨_, file, committed, _, flow⟩ := flow
      obtain ⟨new, part, trades, listed, behind, counted, settled⟩ := shown_of_flow flow
      have same : s.committed = new := committed.trans trades
      rw [← same] at counted settled
      refine ordered_of_listed (new ++ part) ?_ ?_ behind tracks.split counted ?_
      · rw [file]
        exact listed _
      · rw [same]
        exact List.prefix_append _ _
      · intro outside
        apply settled
        intro last pc' inside
        exact outside ⟨frame, last, pc', by rw [here, inside]⟩
    | raise what => exact flow.1.ordered tracks.split
    | halt => exact flow.1.ordered tracks.split
    | finished => exact flow.1.ordered tracks.split
    | crashed => exact Ended.ordered flow tracks.split

theorem Over.work (ended : s.Over) (moved : s.work io = some s') : s'.Over ∧ Frozen s s' := by
  unfold Over at ended
  unfold DurabilityPipeline.work at moved
  cases here : s.worker with
  | none => rw [here] at ended; cases ended
  | some worker =>
    rw [here] at ended moved
    cases worker with
    | raise what =>
      cases moved
      exact ⟨trivial, rfl, rfl, rfl, rfl, rfl⟩
    | halt =>
      cases moved
      exact ⟨trivial, rfl, rfl, rfl, rfl, rfl⟩
    | finished => cases moved
    | crashed => cases moved
    | openJournal => cases ended
    | openStore journal => cases ended
    | reserve journal store => cases ended
    | loop frame pc => cases ended

/-- Only an insert writes the store's file, and the others leave the store as it was. -/
theorem loopStep_store (s : DurabilityPipeline) (frame : Frame) (io : Io) (pc : LoopPc)
    (committed : s.committed = frame.store.trades) :
    (∃ last, pc = .flush last .insert) ∨
      (s.loopStep frame io pc).storeFile = s.storeFile ∧ (s.loopStep frame io pc).committed = s.committed := by
  cases pc with
  | flush last pc =>
    cases pc with
    | insert => exact Or.inl ⟨last, rfl⟩
    | record done =>
      right
      unfold loopStep flushStep
      dsimp only
      split
      · exact ⟨rfl, committed.symm⟩
      split
      · exact ⟨rfl, committed.symm⟩
      · simp
    | counter done idx =>
      right
      unfold loopStep flushStep
      dsimp only
      split
      · exact ⟨rfl, committed.symm⟩
      · simp
    | sync =>
      right
      unfold loopStep flushStep
      dsimp only
      split
      · simp
      · exact ⟨rfl, committed.symm⟩
    | count => exact Or.inr ⟨rfl, committed.symm⟩
    | clear => exact Or.inr ⟨rfl, committed.symm⟩
  | pop =>
    right
    unfold loopStep
    dsimp only
    split <;> exact ⟨rfl, committed.symm⟩
  | read =>
    right
    unfold loopStep
    dsimp only
    split
    · simp
    · exact ⟨rfl, committed.symm⟩
  | lastSync =>
    right
    unfold loopStep
    dsimp only
    split
    · simp
    · exact ⟨rfl, rfl⟩
  | flag => exact Or.inr ⟨rfl, committed.symm⟩
  | inbox => exact Or.inr ⟨rfl, committed.symm⟩
  | release fill => exact Or.inr ⟨rfl, committed.symm⟩
  | final => exact Or.inr ⟨rfl, committed.symm⟩

/-- The locals of a worker that is about to insert its batch. -/
def inserting (s : DurabilityPipeline) : Option Frame :=
  match s.worker with
  | some (.loop frame (.flush _ .insert)) => some frame
  | _ => none

/-- If the next step is an insert, its write is not cut in a harmful place. -/
def Spares (s : DurabilityPipeline) (io : Io) : Prop :=
  ∀ frame ∈ s.inserting, TradeStore.Harmless frame.store.trades frame.batch io.outcome

instance (s : DurabilityPipeline) (io : Io) : Decidable (s.Spares io) := inferInstanceAs (Decidable (∀ _ ∈ _, _))

/-- An insert that commits as a unit leaves a file that shows the store's trades. -/
theorem Synced.insert {frame : Frame} {last : Bool} (synced : s.Synced) (opened : frame.Opened s.config)
    (committed : s.committed = frame.store.trades)
    (harmless : TradeStore.Harmless frame.store.trades frame.batch io.outcome) :
    (s.loopStep frame io (.flush last .insert)).Synced := by
  unfold Synced at synced
  have agrees : TradeStore.load frame.store.path s.storeFile = .ok frame.store := by
    rw [opened.store, synced, committed, ← opened.store]
    exact congrArg Except.ok (TradeStore.ext_trades rfl rfl)
  unfold loopStep flushStep
  dsimp only
  by_cases small : frame.store.trades.length + frame.batch.length ≤ maxSize
  · have unit := (TradeStore.commits_iff_harmless frame.store agrees small io.outcome).mpr harmless
    unfold TradeStore.CommitsAsUnit at unit
    rw [opened.store] at unit
    split at unit
    next store file failure result =>
      rw [result]
      unfold Synced
      simp only [fails_config, fails_storeFile, fails_committed]
      rw [unit.2, ← agrees, opened.store, synced]
    next store file _ result =>
      rw [result]
      unfold Synced
      change TradeStore.load s.config.storePath file = .ok (TradeStore.rebuildIndex s.config.storePath store.trades)
      rw [unit.2, unit.1]
      rfl
  · unfold TradeStore.insertBatch
    rw [if_pos (Nat.lt_of_not_le small)]
    exact synced

theorem Tracks.synced (tracks : s.Tracks older kept accepted taken queued) (synced : s.Synced) (spares : s.Spares io)
    (moved : s.work io = some s') : s'.Synced := by
  have config := (work_worked moved).config
  have flow := tracks.flow
  have same : s'.storeFile = s.storeFile → s'.committed = s.committed → s'.Synced := by
    intro file committed
    unfold Synced
    rw [config, file, committed]
    exact synced
  unfold Flow at flow
  unfold DurabilityPipeline.work at moved
  cases here : s.worker with
  | none => rw [here] at moved; cases moved
  | some worker =>
    rw [here] at moved flow
    cases worker with
    | openJournal =>
      dsimp only at moved
      split at moved <;> cases moved <;> exact same (by simp) (by simp)
    | openStore journal =>
      dsimp only at moved
      split at moved
      next store loads =>
        cases moved
        obtain ⟨trades, shape⟩ := TradeStore.load_shape loads
        subst shape
        exact loads
      · cases moved
        exact same (by simp) (by simp)
    | reserve journal store =>
      obtain ⟨_, committed, _⟩ := flow
      dsimp only at moved
      split at moved
      · cases moved
        exact same (by simp) (by simp)
      · cases moved
        exact same rfl committed.symm
    | loop frame pc =>
      obtain ⟨opened, _, committed, _, _⟩ := flow
      cases moved
      rcases loopStep_store s frame io pc committed with ⟨last, insert⟩ | ⟨file, trades⟩
      · subst insert
        refine synced.insert opened committed (spares frame ?_)
        unfold inserting
        rw [here]
        rfl
      · exact same file trades
    | raise what =>
      cases moved
      exact synced
    | halt =>
      cases moved
      exact synced
    | finished => cases moved
    | crashed => cases moved

/-- Only the two stores of an append write the journal's file, and they add to its records. -/
theorem Tracks.loop_grows {frame : Frame} {pc : LoopPc} (tracks : s.Tracks older kept accepted taken queued)
    (here : s.worker = some (.loop frame pc)) :
    records s.config.journalPath s.journalFile <+: records s.config.journalPath (s.loopStep frame io pc).journalFile := by
  have flow := tracks.flow
  unfold Flow at flow
  rw [here] at flow
  obtain ⟨_, file, _, _, flow⟩ := flow
  have same : ∀ bytes, bytes = s.journalFile →
      records s.config.journalPath s.journalFile <+: records s.config.journalPath bytes := by
    intro bytes equal
    rw [equal]
  cases pc with
  | flush last pc =>
    cases pc with
    | record done =>
      obtain ⟨new, _, _, books⟩ := flow
      unfold loopStep flushStep
      dsimp only
      split
      · exact same _ file.symm
      next fill next =>
        rcases books.journal.storeRecord fill with ⟨failure, _, result⟩ | ⟨bytes, base, older, result, stored⟩
        · rw [result]
          exact same _ (by simp)
        · have after := stored.toHolds.records s.config.journalPath
          rw [List.map_append, older] at after
          rw [result, file, books.journal.records, ← after]
          exact List.prefix_refl _
    | counter done idx =>
      obtain ⟨new, _, _, _, fill, base, _, _, stored, index⟩ := flow
      obtain ⟨bytes, result, holds⟩ := stored.storeCount
      unfold loopStep flushStep
      dsimp only
      have after := holds.records s.config.journalPath
      rw [List.map_append] at after
      rw [index, result, file, stored.toHolds.records]
      change _ <+: records s.config.journalPath (some bytes)
      rw [after]
      exact List.prefix_append _ _
    | sync =>
      unfold loopStep flushStep
      dsimp only
      split
      · exact same _ (by simp)
      · exact same _ file.symm
    | insert =>
      unfold loopStep flushStep
      dsimp only
      split
      · exact same _ file.symm
      · exact same _ (by simp)
    | count => exact same _ file.symm
    | clear => exact same _ file.symm
  | pop =>
    unfold loopStep
    dsimp only
    split <;> exact same _ file.symm
  | read =>
    unfold loopStep
    dsimp only
    split
    · exact same _ (by simp)
    · exact same _ file.symm
  | lastSync =>
    unfold loopStep
    dsimp only
    split
    · exact same _ (by simp)
    · exact same _ rfl
  | flag => exact same _ file.symm
  | inbox => exact same _ file.symm
  | release fill => exact same _ file.symm
  | final => exact same _ file.symm

theorem Tracks.grows (tracks : s.Tracks older kept accepted taken queued) (blank : s.Unopened → Blank s.journalFile)
    (moved : s.work io = some s') :
    records s.config.journalPath s.journalFile <+: records s.config.journalPath s'.journalFile := by
  have flow := tracks.flow
  unfold Flow at flow
  unfold DurabilityPipeline.work at moved
  cases here : s.worker with
  | none => rw [here] at moved; cases moved
  | some worker =>
    rw [here] at moved flow
    cases worker with
    | openJournal =>
      have early : s.Unopened := by
        unfold Unopened
        rw [here]
        trivial
      rw [(blank early).records]
      exact List.nil_prefix
    | openStore journal =>
      dsimp only at moved
      split at moved <;> cases moved
      · exact List.prefix_refl _
      · simp
    | reserve journal store =>
      obtain ⟨_, _, _, _, file, _⟩ := flow
      dsimp only at moved
      split at moved <;> cases moved
      · simp
      · rw [file]
        exact List.prefix_refl _
    | loop frame pc =>
      cases moved
      exact tracks.loop_grows here
    | raise what =>
      cases moved
      exact List.prefix_refl _
    | halt =>
      cases moved
      exact List.prefix_refl _
    | finished => cases moved
    | crashed => cases moved

/-- What a store shows that is opened afresh, if it can be opened, is in the journal. -/
def Behind (s : DurabilityPipeline) : Prop :=
  ∀ store, TradeStore.load s.config.storePath s.storeFile = .ok store →
    store.trades.map Fill.record <+: records s.config.journalPath s.journalFile

/-- An insert shows at most the batch, which the journal has. -/
theorem Behind.insert {frame : Frame} {last : Bool} (behind : s.Behind) (opened : frame.Opened s.config)
    (file : s.journalFile = some frame.journal.file)
    (keeps : frame.journal.Keeps [] (frame.store.trades ++ frame.batch)) :
    (s.loopStep frame io (.flush last .insert)).Behind := by
  have listed : records s.config.journalPath (some frame.journal.file) =
      (frame.store.trades ++ frame.batch).map Fill.record := keeps.records _
  unfold loopStep flushStep
  dsimp only
  by_cases small : frame.store.trades.length + frame.batch.length ≤ maxSize
  · have total : (frame.store.trades ++ frame.batch).length ≤ maxSize := by rwa [List.length_append]
    rw [TradeStore.insertBatch_writes frame.store small, opened.store]
    rcases written : TradeStore.writeAll s.config.storePath (frame.store.trades ++ frame.batch) io.outcome s.storeFile
      with ⟨bytes, failure | _⟩
    · intro store loads
      simp only [fails_config, fails_storeFile, fails_journalFile] at loads ⊢
      rcases TradeStore.load_written total written loads with same | part
      · subst same
        exact behind store loads
      · rw [file, listed]
        exact part.map _
    · intro store loads
      change _ <+: records s.config.journalPath (some frame.journal.file)
      rcases TradeStore.load_written total written loads with same | part
      · subst same
        rw [← file]
        exact behind store loads
      · rw [listed]
        exact part.map _
  · unfold TradeStore.insertBatch
    rw [if_pos (Nat.lt_of_not_le small)]
    exact behind

theorem Tracks.behind (tracks : s.Tracks [] [] accepted taken queued) (blank : s.Unopened → Blank s.journalFile)
    (behind : s.Behind) (moved : s.work io = some s') : s'.Behind := by
  have config := (work_worked moved).config
  have grows := tracks.grows blank moved
  have flow := tracks.flow
  have same : s'.storeFile = s.storeFile → s'.Behind := by
    intro file store loads
    rw [config, file] at loads
    rw [config]
    exact (behind store loads).trans grows
  unfold Flow at flow
  unfold DurabilityPipeline.work at moved
  cases here : s.worker with
  | none => rw [here] at moved; cases moved
  | some worker =>
    rw [here] at moved flow
    cases worker with
    | openJournal =>
      dsimp only at moved
      split at moved <;> cases moved <;> exact same (by simp)
    | openStore journal =>
      dsimp only at moved
      split at moved <;> cases moved <;> exact same (by simp)
    | reserve journal store =>
      dsimp only at moved
      split at moved <;> cases moved
      · exact same (by simp)
      · exact same rfl
    | loop frame pc =>
      obtain ⟨opened, file, committed, _, flow⟩ := flow
      cases moved
      rcases loopStep_store s frame io pc committed with ⟨last, insert⟩ | ⟨store, _⟩
      · subst insert
        obtain ⟨new, _, _, books⟩ := flow
        have keeps := books.journal
        rw [show new = frame.store.trades from books.trades.symm] at keeps
        exact behind.insert opened file keeps
      · exact same store
    | raise what =>
      cases moved
      exact behind
    | halt =>
      cases moved
      exact behind
    | finished => cases moved
    | crashed => cases moved

end DurabilityPipeline

namespace PipelineSystem

open DurabilityPipeline

variable {older : List FillRecord} {kept : List Fill} {s s' : PipelineSystem}

/-- A worker that is over stays so, and what is durable stays as it is. -/
theorem over_step (ended : s.pipeline.Over) {move : PipelineMove} (moved : s.step move = some s') :
    s'.pipeline.Over ∧ Frozen s.pipeline s'.pipeline := by
  rcases step_cases moved with ⟨io, _, worked, _⟩ | ⟨_, aside⟩
  · exact ended.work worked
  · refine ⟨?_, aside.frozen⟩
    unfold Over at ended ⊢
    rcases aside.worker with same | ⟨none, _⟩
    · rwa [same]
    · rw [none] at ended
      cases ended

theorem over_run (ended : s.pipeline.Over) {schedule : List PipelineMove} (ran : s.run schedule = some s') :
    Frozen s.pipeline s'.pipeline := by
  have result : s'.pipeline.Over ∧ Frozen s.pipeline s'.pipeline := by
    apply run_keeps _ ⟨ended, .refl _⟩ ran
    intro t t' move _ before moved
    obtain ⟨still, frozen⟩ := over_step before.1 moved
    exact ⟨still, before.2.trans frozen⟩
  exact result.2

/-- The journal's file is as it was found until the worker opens it. -/
theorem unopened_step {move : PipelineMove} (before : s.pipeline.Unopened → Blank s.pipeline.journalFile)
    (moved : s.step move = some s') : s'.pipeline.Unopened → Blank s'.pipeline.journalFile := by
  intro early
  rcases step_cases moved with ⟨io, _, worked, _⟩ | ⟨_, aside⟩
  · exact absurd early (work_worked worked).opened
  · rw [aside.frozen.journalFile]
    apply before
    unfold Unopened at early ⊢
    rcases aside.worker with same | ⟨none, _⟩
    · rwa [← same]
    · rw [none]
      trivial

/-- The books from empty files, and what a store opened afresh shows. -/
structure Durable (s : PipelineSystem) : Prop where
  invariant : s.Invariant [] []
  blank : s.pipeline.Unopened → Blank s.pipeline.journalFile
  behind : s.pipeline.Behind

theorem Durable.step (durable : s.Durable) {move : PipelineMove} (moved : s.step move = some s') : s'.Durable := by
  obtain ⟨⟨taken, queued, tracks⟩, _⟩ := durable.invariant
  refine ⟨durable.invariant.step moved, unopened_step durable.blank moved, ?_⟩
  rcases step_cases moved with ⟨io, _, worked, _⟩ | ⟨_, aside⟩
  · exact tracks.behind durable.blank durable.behind worked
  · intro store loads
    rw [aside.frozen.config, aside.frozen.storeFile] at loads
    rw [aside.frozen.config, aside.frozen.journalFile]
    exact durable.behind store loads

theorem Durable.run (durable : s.Durable) {schedule : List PipelineMove} (ran : s.run schedule = some s') : s'.Durable :=
  run_keeps (fun _ _ _ _ before moved => before.step moved) durable ran

theorem Durable.create {journalPath storePath : String} {ringCapacity journalCapacity batchSize : UInt64}
    {journalFile storeFile : Option (List UInt8)} {pipeline : DurabilityPipeline}
    (made : DurabilityPipeline.create journalPath storePath ringCapacity journalCapacity batchSize journalFile storeFile =
      .ok pipeline) (blank : Blank journalFile)
    (empty : TradeStore.load storePath storeFile = .ok (TradeStore.rebuildIndex storePath [])) :
    (PipelineSystem.create pipeline).Durable ∧ pipeline.Synced := by
  have shown : ∀ store, TradeStore.load storePath storeFile = .ok store → store.trades = [] := by
    intro store loads
    cases empty.symm.trans loads
    rfl
  have invariant := Invariant.create made shown
  rw [create_blank_records blank] at invariant
  obtain ⟨ring, _, rfl⟩ := DurabilityPipeline.create_made made
  refine ⟨⟨invariant, fun _ => blank, ?_⟩, empty⟩
  intro store loads
  rw [shown store loads]
  exact List.nil_prefix

/-- No write of the store's file is cut in a harmful place. -/
def Uncut (s : PipelineSystem) : List PipelineMove → Prop
  | [] => True
  | move :: later => (∀ io ∈ move.io, s.pipeline.Spares io) ∧ ∀ s' ∈ s.step move, s'.Uncut later

instance decidableUncut : ∀ (s : PipelineSystem) (schedule : List PipelineMove), Decidable (s.Uncut schedule)
  | _, [] => isTrue trivial
  | s, move :: later =>
      have := fun s' : PipelineSystem => decidableUncut s' later
      inferInstanceAs (Decidable ((∀ io ∈ move.io, s.pipeline.Spares io) ∧ ∀ s' ∈ s.step move, s'.Uncut later))

/-- As long as no write is cut, a store opened afresh shows what was committed. -/
theorem Invariant.synced_step (invariant : s.Invariant older kept) (synced : s.pipeline.Synced) {move : PipelineMove}
    (moved : s.step move = some s') (spares : ∀ io ∈ move.io, s.pipeline.Spares io) : s'.pipeline.Synced := by
  obtain ⟨⟨taken, queued, tracks⟩, _⟩ := invariant
  rcases step_cases moved with ⟨io, same, worked, _⟩ | ⟨_, aside⟩
  · exact tracks.synced synced (spares io (same ▸ rfl)) worked
  · unfold Synced
    rw [aside.frozen.config, aside.frozen.storeFile, aside.frozen.committed]
    exact synced

theorem Invariant.synced_run (invariant : s.Invariant older kept) (synced : s.pipeline.Synced)
    {schedule : List PipelineMove} (uncut : s.Uncut schedule) (ran : s.run schedule = some s') : s'.pipeline.Synced := by
  induction schedule generalizing s with
  | nil =>
    cases ran
    exact synced
  | cons move later ih =>
    obtain ⟨next, moved, rest⟩ := Option.bind_eq_some_iff.mp ran
    exact ih (invariant.step moved) (invariant.synced_step synced moved uncut.1) (uncut.2 next moved) rest

end PipelineSystem

/-- In every state that the threads can reach, whichever calls fail: the journal's records are at the front of what was
accepted, what a store opened afresh shows is at the front of them, and nothing changes after the worker's end. If no
write of the store's file was cut in a harmful place, that store can be opened, and the counter is behind its trades by a
batch in flight at most. -/
theorem durability_ordered (journalPath storePath : String) (ringCapacity journalCapacity batchSize : UInt64)
    (journalFile storeFile : Option (List UInt8)) (pipeline : DurabilityPipeline)
    (made : DurabilityPipeline.create journalPath storePath ringCapacity journalCapacity batchSize journalFile storeFile =
      .ok pipeline) (blank : Blank journalFile)
    (empty : TradeStore.load storePath storeFile = .ok (TradeStore.rebuildIndex storePath []))
    (schedule : List PipelineMove) (s : PipelineSystem)
    (ran : (PipelineSystem.create pipeline).run schedule = some s) :
    s.journaled <+: s.accepted.map Fill.record ∧
      (∀ store, TradeStore.load storePath s.pipeline.storeFile = .ok store →
        store.trades.map Fill.record <+: s.journaled) ∧
      (s.pipeline.Over → ∀ later s', s.run later = some s' →
        s'.pipeline.storeFile = s.pipeline.storeFile ∧ s'.journaled = s.journaled ∧
        s'.pipeline.persisted = s.pipeline.persisted) ∧
      ((PipelineSystem.create pipeline).Uncut schedule →
        ∃ store, TradeStore.load storePath s.pipeline.storeFile = .ok store ∧
          s.pipeline.persisted ≤ store.trades.length ∧
          (¬s.pipeline.Flushing → s.pipeline.persisted = store.trades.length)) := by
  obtain ⟨start, synced⟩ := PipelineSystem.Durable.create made blank empty
  have config : s.pipeline.config.storePath = storePath := by
    rw [PipelineSystem.run_config ran]
    obtain ⟨ring, _, rfl⟩ := DurabilityPipeline.create_made made
    rfl
  have durable := start.run ran
  obtain ⟨⟨taken, queued, tracks⟩, _⟩ := durable.invariant
  have ordered := tracks.ordered durable.blank
  refine ⟨ordered.journaled, ?_, ?_, ?_⟩
  · intro store loads
    rw [← config] at loads
    exact durable.behind store loads
  · intro ended later s' ran'
    have frozen := PipelineSystem.over_run ended ran'
    refine ⟨frozen.storeFile, ?_, frozen.persisted⟩
    unfold PipelineSystem.journaled
    rw [frozen.config, frozen.journalFile]
  · intro uncut
    have result := start.invariant.synced_run synced uncut ran
    unfold DurabilityPipeline.Synced at result
    rw [config] at result
    exact ⟨_, result, ordered.counted, ordered.settled⟩

/-- One fill is journaled, stored and counted; the next one is journaled, and the store's file cannot be opened. -/
def refusedInsert : List PipelineMove :=
  [.start, .spawn, .publish ⟨2, 1, 100, 5, 2, 7⟩, .push, .push, .push] ++ List.replicate 14 (.work .ok) ++
    [.publish ⟨4, 3, 101, 6, 4, 7⟩, .push, .push, .push] ++ List.replicate 8 (.work .ok) ++ [.work (.write .openFails)]

theorem durability_ordered_sample :
    ∃ pipeline s store, DurabilityPipeline.create "fills.journal" "trades.dat" 4 2 1 none none = .ok pipeline ∧
      (PipelineSystem.create pipeline).run refusedInsert = some s ∧
      s.journaled = [⟨2, 1, 100, 5, 2, 7⟩, ⟨4, 3, 101, 6, 4, 7⟩] ∧ s.journaled <+: s.accepted.map Fill.record ∧
      TradeStore.load "trades.dat" s.pipeline.storeFile = .ok store ∧ s.pipeline.persisted = 1 ∧
      s.pipeline.persisted ≤ store.trades.length := by
  let ring : SPSCRingBuffer Fill := ⟨8, 7, List.replicate 8 {}, 0, 0⟩
  let pipeline := DurabilityPipeline.around ⟨"fills.journal", "trades.dat", 2, 1⟩ ring none none
  have facts : ((PipelineSystem.create pipeline).run refusedInsert).map (fun s => (s.journaled, s.pipeline.persisted)) =
      some ([⟨2, 1, 100, 5, 2, 7⟩, ⟨4, 3, 101, 6, 4, 7⟩], 1) := by decide +kernel
  obtain ⟨s, ran, same⟩ := Option.map_eq_some_iff.mp facts
  obtain ⟨journaled, persisted⟩ := Prod.mk.inj same
  have ordered := durability_ordered "fills.journal" "trades.dat" 4 2 1 none none pipeline rfl (Or.inl rfl) rfl
    refusedInsert s ran
  obtain ⟨store, loads, counted, _⟩ := ordered.2.2.2 (by decide +kernel)
  exact ⟨pipeline, s, store, rfl, ran, journaled, ordered.1, loads, persisted, counted⟩

/-- One fill is journaled, stored and counted; then twenty-five more are journaled, and the write of all twenty-six stops
after four bytes. -/
def tornInsert : List PipelineMove :=
  [.start, .spawn, .publish ⟨2, 1, 100, 5, 2, 7⟩, .push, .push, .push] ++ List.replicate 16 (.work .ok) ++
    (List.replicate 25 [.publish ⟨4, 3, 101, 6, 4, 7⟩, .push, .push, .push]).flatten ++
    List.replicate 152 (.work .ok) ++ [.work (.write (.short 4 true))]

/-- The store's file was truncated before the new content had arrived, and the first fill, which was counted, is gone. -/
theorem durability_torn :
    ∃ pipeline s, DurabilityPipeline.create "fills.journal" "trades.dat" 31 26 25 none none = .ok pipeline ∧
      (PipelineSystem.create pipeline).run tornInsert = some s ∧ s.pipeline.persisted = 1 ∧
      (TradeStore.load "trades.dat" s.pipeline.storeFile).map TradeStore.trades = .ok [] := by
  let ring : SPSCRingBuffer Fill := ⟨32, 31, List.replicate 32 {}, 0, 0⟩
  let pipeline := DurabilityPipeline.around ⟨"fills.journal", "trades.dat", 26, 25⟩ ring none none
  have facts : ((PipelineSystem.create pipeline).run tornInsert).map (fun s =>
      (s.pipeline.persisted, (TradeStore.load "trades.dat" s.pipeline.storeFile).map TradeStore.trades)) =
      some (1, .ok []) := by decide +kernel
  obtain ⟨s, ran, same⟩ := Option.map_eq_some_iff.mp facts
  obtain ⟨persisted, shown⟩ := Prod.mk.inj same
  exact ⟨pipeline, s, rfl, ran, persisted, shown⟩

end ChronoBook
