import ChronoBook.Journal.PipelineDurability

/-! What the pipeline has made durable when `stop` has returned. A stop that falls
between the publisher's look at the flag and its push, or before the worker is there,
can leave an accepted fill behind in the ring; every other stop leaves none. -/

namespace ChronoBook
open FillJournal

namespace DurabilityPipeline

variable {older : List FillRecord} {kept : List Fill} {s s' : DurabilityPipeline} {accepted taken queued : List Fill}

/-- The worker has seen the flag and the empty ring and will not look into the ring again. -/
def Closing (s : DurabilityPipeline) : Prop :=
  match s.worker with
  | some (.loop _ .final) | some (.loop _ (.flush true _)) | some (.loop _ .lastSync) | some .finished => True
  | _ => False

/-- The worker has read the store and was not stopped by an exception. -/
def Loaded (s : DurabilityPipeline) : Prop :=
  match s.worker with
  | some (.reserve _ _) | some (.loop _ _) | some .finished => True
  | _ => False

@[simp] theorem fails_closing (s : DurabilityPipeline) (failure : Failure) : ¬(s.fails failure).Closing := by
  cases failure <;> exact fun never => never

@[simp] theorem fails_loaded (s : DurabilityPipeline) (failure : Failure) : ¬(s.fails failure).Loaded := by
  cases failure <;> exact fun never => never

theorem Tracks.error_stays (tracks : s.Tracks older kept accepted taken queued) {io : Io} (moved : s.work io = some s')
    (silent : s'.error = "") : s.error = "" ∧ ∀ what, s.worker ≠ some (.raise what) := by
  have flow := tracks.flow
  unfold Flow at flow
  have named : ∀ what, s.worker = some (.raise what) → s'.error = what := by
    intro what here
    unfold DurabilityPipeline.work at moved
    rw [here] at moved
    cases moved
    rfl
  have calm : ∀ what, s.worker ≠ some (.raise what) := by
    intro what here
    rw [here] at flow
    exact flow.2.2 ((named what here).symm.trans silent)
  refine ⟨?_, calm⟩
  rcases (work_worked moved).error with same | ⟨what, here, _⟩
  · rw [← same, silent]
  · exact absurd here (calm what)

theorem flushStep_loops (s : DurabilityPipeline) (frame : Frame) (io : Io) (pc : FlushPc) :
    ¬(s.flushStep frame false io pc).Closing := by
  unfold flushStep
  split
  · split
    · exact fun never => never
    split
    · exact fun never => never
    · simp
  · split
    · exact fun never => never
    · simp
  · split
    · simp
    · exact fun never => never
  · split
    · exact fun never => never
    · simp
  · exact fun never => never
  · exact fun never => never

/-- The worker leaves its loop only from the look into the ring that follows the flag. -/
theorem loopStep_closing {frame : Frame} {pc : LoopPc} {io : Io} (here : s.worker = some (.loop frame pc))
    (closing : (s.loopStep frame io pc).Closing) : s.Closing ∨ pc = .inbox ∧ s.ring.empty = true := by
  have already : (∃ last pc', pc = .flush last pc' ∧ last = true) ∨ pc = .final ∨ pc = .lastSync → s.Closing := by
    unfold Closing
    rw [here]
    rintro (⟨_, pc', rfl, rfl⟩ | rfl | rfl) <;> trivial
  cases pc with
  | flag =>
    unfold loopStep at closing
    dsimp only at closing
    split at closing <;> cases closing
  | inbox =>
    unfold loopStep at closing
    dsimp only at closing
    split at closing
    next empty => exact Or.inr ⟨rfl, empty⟩
    · cases closing
  | pop =>
    unfold loopStep at closing
    dsimp only at closing
    split at closing
    · split at closing <;> cases closing
    · cases closing
  | read =>
    unfold loopStep at closing
    dsimp only at closing
    split at closing <;> cases closing
  | release fill =>
    unfold loopStep at closing
    dsimp only at closing
    split at closing <;> cases closing
  | flush last pc =>
    cases last with
    | false => exact absurd closing (flushStep_loops s frame io pc)
    | true => exact Or.inl (already (Or.inl ⟨true, pc, rfl, rfl⟩))
  | final => exact Or.inl (already (Or.inr (Or.inl rfl)))
  | lastSync => exact Or.inl (already (Or.inr (Or.inr rfl)))

/-- A worker that leaves without an error has seen the flag set and the ring empty, and takes nothing more from it. -/
theorem Tracks.closes (tracks : s.Tracks older kept accepted taken queued) {io : Io} (moved : s.work io = some s')
    (silent : s'.error = "") (before : s.Closing → s.stop = true ∧ s.ring.empty = true) (closing : s'.Closing) :
    s'.stop = true ∧ s'.ring.empty = true := by
  have worked := work_worked moved
  have flow := tracks.flow
  have aware := tracks.aware
  unfold Flow at flow
  unfold Aware at aware
  have stays : s.stop = true → s'.stop = true := by
    intro set
    rcases worked.stop with same | ⟨_, set'⟩
    · rw [same, set]
    · exact set'
  have same : (∀ frame fill, s.worker ≠ some (.loop frame (.release fill))) → s'.ring = s.ring := by
    intro outside
    rcases worked.ring with same | ⟨⟨frame, fill, here⟩, _⟩
    · exact same
    · exact absurd here (outside frame fill)
  unfold DurabilityPipeline.work at moved
  cases here : s.worker with
  | none => rw [here] at moved; cases moved
  | some worker =>
    rw [here] at moved flow aware same
    cases worker with
    | openJournal =>
      dsimp only at moved
      split at moved <;> cases moved
      · cases closing
      · exact absurd closing (fails_closing _ _)
    | openStore journal =>
      dsimp only at moved
      split at moved <;> cases moved
      · cases closing
      · exact absurd closing (fails_closing _ _)
    | reserve journal store =>
      dsimp only at moved
      split at moved <;> cases moved
      · exact absurd closing (fails_closing _ _)
      · cases closing
    | loop frame pc =>
      cases moved
      rcases loopStep_closing here closing with already | ⟨inbox, empty⟩
      · obtain ⟨set, empty⟩ := before already
        refine ⟨stays set, ?_⟩
        rw [same, empty]
        rintro frame' fill release
        cases release
        unfold Closing at already
        rw [here] at already
        exact already
      · subst inbox
        refine ⟨stays (aware.2 rfl), ?_⟩
        rw [same nofun, empty]
    | raise what =>
      cases moved
      cases closing
    | halt =>
      cases moved
      exact absurd silent flow.2
    | finished => cases moved
    | crashed => cases moved

theorem Ended.persisted_le (ended : s.Ended older kept taken) : s.persisted ≤ taken.length := by
  obtain ⟨journaled, new, _, behind, ahead, counted, _⟩ := ended
  rw [counted]
  exact (behind.trans ahead).length_le

theorem Tracks.persisted_le (tracks : s.Tracks older kept accepted taken queued) : s.persisted ≤ taken.length := by
  have flow := tracks.flow
  unfold Flow at flow
  cases here : s.worker with
  | none =>
    rw [here] at flow
    rw [flow.1.2.2.1]
    exact Nat.zero_le _
  | some worker =>
    rw [here] at flow
    cases worker with
    | openJournal =>
      rw [flow.1.2.2.1]
      exact Nat.zero_le _
    | openStore journal =>
      rw [flow.1.2.2.1]
      exact Nat.zero_le _
    | reserve journal store =>
      rw [flow.2.2.1]
      exact Nat.zero_le _
    | loop frame pc =>
      obtain ⟨new, part, _, _, behind, counted, _⟩ := shown_of_flow flow.2.2.2.2
      have shorter := behind.length_le
      rw [List.length_append] at shorter
      omega
    | raise what => exact flow.1.persisted_le
    | halt => exact flow.1.persisted_le
    | finished => exact flow.1.persisted_le
    | crashed => exact Ended.persisted_le flow

/-- As long as the calls succeed, the store's file holds what the store shows once it has been read. -/
theorem Tracks.synced_loaded (tracks : s.Tracks older kept accepted taken queued) (moved : s.work .ok = some s')
    (silent : s'.error = "") (before : s.Loaded → s.Synced) (loaded : s'.Loaded) : s'.Synced := by
  have all := moved
  have spares : s.Spares .ok := fun _ _ => trivial
  have flow := tracks.flow
  unfold Flow at flow
  unfold Loaded at before
  unfold DurabilityPipeline.work at moved
  cases here : s.worker with
  | none => rw [here] at moved; cases moved
  | some worker =>
    rw [here] at moved flow before
    cases worker with
    | openJournal =>
      dsimp only at moved
      split at moved <;> cases moved
      · cases loaded
      · exact absurd loaded (fails_loaded _ _)
    | openStore journal =>
      dsimp only at moved
      split at moved <;> cases moved
      next store loads =>
        obtain ⟨trades, shape⟩ := TradeStore.load_shape loads
        subst shape
        exact loads
      · exact absurd loaded (fails_loaded _ _)
    | reserve journal store => exact tracks.synced (before trivial) spares all
    | loop frame pc => exact tracks.synced (before trivial) spares all
    | raise what =>
      cases moved
      cases loaded
    | halt =>
      cases moved
      exact absurd silent flow.2
    | finished => cases moved
    | crashed => cases moved

end DurabilityPipeline

namespace PipelineSystem

open DurabilityPipeline

variable {older : List FillRecord} {kept : List Fill} {s s' : PipelineSystem}

/-- Every call of `stop` sets the flag while no call of `tryPublish` is under way, and after the worker was started or
before a fill was accepted. -/
def Careful (s : PipelineSystem) : List PipelineMove → Prop
  | [] => True
  | move :: later => (move = .signal → s.publisher = .idle ∧ (s.pipeline.worker ≠ none ∨ s.accepted = [])) ∧
      ∀ s' ∈ s.step move, s'.Careful later

instance decidableCareful : ∀ (s : PipelineSystem) (schedule : List PipelineMove), Decidable (s.Careful schedule)
  | _, [] => isTrue trivial
  | s, move :: later =>
      have := fun s' : PipelineSystem => decidableCareful s' later
      inferInstanceAs (Decidable ((move = .signal → s.publisher = .idle ∧ (s.pipeline.worker ≠ none ∨ s.accepted = [])) ∧
        ∀ s' ∈ s.step move, s'.Careful later))

/-- What a run of careful stops keeps as long as there is no error. -/
structure Clean (s : PipelineSystem) : Prop where
  quiet : s.pipeline.stop = true → s.publisher = .idle
  closes : s.pipeline.Closing → s.pipeline.stop = true ∧ s.pipeline.ring.empty = true
  synced : s.pipeline.Loaded → s.pipeline.Synced
  told : 0 < s.signalled + s.joined + s.returned →
    s.pipeline.stop = true ∧ (s.pipeline.worker = none → s.accepted = [])
  ended : 0 < s.joined + s.returned → s.pipeline.worker = some .finished ∨ s.accepted = []

/-- While the publisher is in a call nothing was told to stop, so that its steps have little to keep. -/
theorem Clean.calling {pipeline : DurabilityPipeline} {publisher : PublishPc} {accepted : List Fill} (clean : s.Clean)
    (busy : s.publisher ≠ .idle) (stop : pipeline.stop = s.pipeline.stop) (closing : pipeline.Closing → s.pipeline.Closing)
    (synced : pipeline.Loaded → pipeline.Synced) :
    Clean { s with pipeline := pipeline, publisher := publisher, accepted := accepted } := by
  have unset : s.pipeline.stop ≠ true := fun set => busy (clean.quiet set)
  have unstopped : ¬0 < s.signalled + s.joined + s.returned := fun stopped => unset (clean.told stopped).1
  have none : ¬0 < s.joined + s.returned := by omega
  exact ⟨fun set => absurd (stop.symm.trans set) unset, fun closed => absurd (clean.closes (closing closed)).1 unset, synced,
    fun stopped => absurd stopped unstopped, fun stopped => absurd stopped none⟩

theorem Clean.work {pipeline : DurabilityPipeline} {taken queued : List Fill} (clean : s.Clean)
    (tracks : s.pipeline.Tracks older kept s.accepted taken queued) (silent : pipeline.error = "")
    (moved : s.pipeline.work .ok = some pipeline) : Clean { s with pipeline := pipeline } := by
  have worked := work_worked moved
  have started : pipeline.worker ≠ none := by
    intro none
    apply worked.opened
    unfold Unopened
    rw [none]
    trivial
  have running : s.pipeline.worker ≠ some .finished := by
    intro finished
    unfold DurabilityPipeline.work at moved
    rw [finished] at moved
    cases moved
  have flow := tracks.flow
  unfold DurabilityPipeline.Flow at flow
  refine ⟨?_, tracks.closes moved silent clean.closes, tracks.synced_loaded moved silent clean.synced, ?_, ?_⟩
  · intro set
    rcases worked.stop with same | ⟨halt, _⟩
    · exact clean.quiet (same ▸ set)
    · rw [halt] at flow
      exact absurd (tracks.error_stays moved silent).1 flow.2
  · intro stopped
    refine ⟨?_, fun none => absurd none started⟩
    rcases worked.stop with same | ⟨_, set⟩
    · exact same.trans (clean.told stopped).1
    · exact set
  · intro stopped
    rcases clean.ended stopped with finished | empty
    · exact absurd finished running
    · exact Or.inr empty

theorem Clean.step {move : PipelineMove} (invariant : s.Invariant older kept)
    (clean : s.pipeline.error = "" → s.Clean) (moved : s.step move = some s') (fine : ∀ io, move = .work io → io = .ok)
    (careful : move = .signal → s.publisher = .idle ∧ (s.pipeline.worker ≠ none ∨ s.accepted = []))
    (silent : s'.pipeline.error = "") : s'.Clean := by
  cases stepped_of_step moved with
  | worked worked =>
    obtain ⟨⟨taken, queued, tracks⟩, _⟩ := invariant
    rw [fine _ rfl] at worked
    exact (clean (tracks.error_stays worked silent).1).work tracks silent worked
  | full call | room call | stored call | faulted call | published call =>
    have before := clean silent
    exact before.calling (by rw [call]; nofun) rfl id before.synced
  | start =>
    have before := clean silent
    exact ⟨before.quiet, before.closes, before.synced, before.told, before.ended⟩
  | spawn absent =>
    have before := clean silent
    refine ⟨before.quiet, nofun, nofun, fun stopped => ⟨(before.told stopped).1, nofun⟩, fun stopped => Or.inr ?_⟩
    exact (before.told (by dsimp only at stopped ⊢; omega)).2 absent
  | refused => exact clean silent
  | called fill idle unset =>
    have before := clean silent
    exact ⟨fun set => absurd (unset.symm.trans set) nofun, before.closes, before.synced, before.told, before.ended⟩
  | signal =>
    obtain ⟨idle, early⟩ := careful rfl
    have before := clean silent
    refine ⟨fun _ => idle, fun closing => ⟨rfl, (before.closes closing).2⟩, before.synced, fun _ => ⟨rfl, ?_⟩, before.ended⟩
    intro none
    rcases early with started | empty
    · exact absurd none started
    · exact empty
  | join told ended =>
    have before := clean silent
    have set := before.told (by omega)
    refine ⟨before.quiet, before.closes, before.synced, fun _ => set, fun _ => ?_⟩
    rcases ended with absent | finished
    · exact Or.inr (set.2 absent)
    · exact Or.inl finished
  | rest joined =>
    have before := clean silent
    exact ⟨before.quiet, before.closes, before.synced, fun _ => before.told (by omega),
      fun _ => before.ended (by omega)⟩

theorem Clean.run {schedule : List PipelineMove} (invariant : s.Invariant older kept)
    (clean : s.pipeline.error = "" → s.Clean) (ran : s.run schedule = some s')
    (fine : ∀ io, .work io ∈ schedule → io = .ok) (careful : s.Careful schedule) : s'.pipeline.error = "" → s'.Clean := by
  induction schedule generalizing s with
  | nil =>
    cases ran
    exact clean
  | cons move later ih =>
    obtain ⟨next, moved, rest⟩ := Option.bind_eq_some_iff.mp ran
    obtain ⟨first, after⟩ := careful
    have cleanly := Clean.step invariant clean moved (fun io same => fine io (same ▸ List.mem_cons_self)) first
    exact ih (invariant.step moved) cleanly rest (fun io inside => fine io (List.mem_cons_of_mem _ inside))
      (after next moved)

/-- After careful stops, a worker that ended without an error has taken all that was accepted. -/
theorem Clean.settled (clean : s.Clean) (invariant : s.Invariant older kept) (silent : s.pipeline.error = "")
    (finished : s.pipeline.worker = some .finished) :
    s.journaled = older ++ s.accepted.map Fill.record ∧
      TradeStore.load s.pipeline.config.storePath s.pipeline.storeFile =
        .ok (TradeStore.rebuildIndex s.pipeline.config.storePath (kept ++ s.accepted)) ∧
      s.pipeline.persisted = s.accepted.length := by
  obtain ⟨⟨taken, queued, tracks⟩, _⟩ := invariant
  have flow := tracks.flow
  unfold DurabilityPipeline.Flow at flow
  rw [finished] at flow
  obtain ⟨listed, committed, counted⟩ := flow.2 silent
  have closing : s.pipeline.Closing := by
    unfold Closing
    rw [finished]
    trivial
  have loaded : s.pipeline.Loaded := by
    unfold Loaded
    rw [finished]
    trivial
  have all : s.accepted = taken := by
    rw [tracks.split, tracks.ring.empty_iff.mp (clean.closes closing).2, List.append_nil]
  have synced := clean.synced loaded
  unfold Synced at synced
  rw [committed] at synced
  rw [all]
  exact ⟨listed, synced, counted⟩

end PipelineSystem

/-- Whatever files it starts from: when a call of `stop` and the publisher's call have returned after careful stops, and
there is no error, every accepted fill is in the journal and in the store, and counted. -/
theorem accepted_fills_durable (journalPath storePath : String) (ringCapacity journalCapacity batchSize : UInt64)
    (journalFile storeFile : Option (List UInt8)) (pipeline : DurabilityPipeline)
    (made : DurabilityPipeline.create journalPath storePath ringCapacity journalCapacity batchSize journalFile storeFile =
      .ok pipeline) (schedule : List PipelineMove) (s : PipelineSystem)
    (ran : (PipelineSystem.create pipeline).run schedule = some s) (fine : ∀ io, .work io ∈ schedule → io = .ok)
    (careful : (PipelineSystem.create pipeline).Careful schedule)
    (stopped : 0 < s.returned) (silent : s.pipeline.error = "") :
    s.publisher = .idle ∧ s.accepted.map Fill.record <:+ s.journaled ∧
      (s.accepted = [] ∨ ∃ store, TradeStore.load storePath s.pipeline.storeFile = .ok store ∧
        s.accepted <:+ store.trades) ∧
      s.pipeline.persisted = s.accepted.length := by
  obtain ⟨kept, shown⟩ : ∃ kept, ∀ store, TradeStore.load storePath storeFile = .ok store → store.trades = kept := by
    cases loads : TradeStore.load storePath storeFile with
    | error failure => exact ⟨[], nofun⟩
    | ok store =>
      refine ⟨store.trades, ?_⟩
      rintro _ ⟨⟩
      rfl
  have start := PipelineSystem.Invariant.create made shown
  obtain ⟨ring, _, rfl⟩ := DurabilityPipeline.create_made made
  have clean := PipelineSystem.Clean.run start
    (fun _ => ⟨nofun, nofun, nofun, fun never => absurd never (Nat.lt_irrefl 0),
      fun never => absurd never (Nat.lt_irrefl 0)⟩)
    ran fine careful silent
  have config := PipelineSystem.run_config ran
  have invariant := start.run ran
  refine ⟨clean.quiet (clean.told (by omega)).1, ?_⟩
  rcases clean.ended (by omega) with finished | empty
  · obtain ⟨listed, loads, counted⟩ := clean.settled invariant silent finished
    rw [config] at loads
    rw [listed]
    exact ⟨List.suffix_append _ _, Or.inr ⟨_, loads, List.suffix_append _ _⟩, counted⟩
  · obtain ⟨⟨taken, queued, tracks⟩, _⟩ := invariant
    have few := tracks.persisted_le
    have none : taken = [] := (List.append_eq_nil_iff.mp (tracks.split.symm.trans empty)).1
    rw [none, List.length_nil] at few
    rw [empty]
    exact ⟨List.nil_suffix, Or.inl rfl, Nat.le_zero.mp few⟩

/-- The publisher has seen the flag unset when `stop` sets it; the worker finds the ring empty, ends and is joined, and then
the fill is pushed. -/
def lateFill : List PipelineMove :=
  [.start, .spawn, .publish ⟨2, 1, 100, 5, 2, 7⟩, .signal, .work .ok, .work .ok, .work .ok, .work .ok, .work .ok, .work .ok,
    .work .ok, .join, .rest, .push, .push, .push]

/-- A fill is accepted and the pipeline stopped without having been started. -/
def earlyStop : List PipelineMove :=
  [.publish ⟨2, 1, 100, 5, 2, 7⟩, .push, .push, .push, .signal, .join, .rest]

/-- A schedule after which `stop` has returned without an error and an accepted fill is in neither file. -/
def LosesFill (schedule : List PipelineMove) : Prop :=
  ∃ pipeline s, DurabilityPipeline.create "fills.journal" "trades.dat" 4 2 1 none none = .ok pipeline ∧
    (PipelineSystem.create pipeline).run schedule = some s ∧ 0 < s.returned ∧ s.publisher = .idle ∧
    s.pipeline.error = "" ∧ s.accepted = [⟨2, 1, 100, 5, 2, 7⟩] ∧ s.journaled = [] ∧ s.pipeline.storeFile = none ∧
    s.pipeline.persisted = 0

theorem accepted_fill_lost : LosesFill lateFill ∧ LosesFill earlyStop := by
  let ring : SPSCRingBuffer Fill := ⟨8, 7, List.replicate 8 {}, 0, 0⟩
  let pipeline := DurabilityPipeline.around ⟨"fills.journal", "trades.dat", 2, 1⟩ ring none none
  have facts : ∀ schedule ∈ [lateFill, earlyStop], ((PipelineSystem.create pipeline).run schedule).any
      (fun s => 0 < s.returned ∧ s.publisher = .idle ∧ s.pipeline.error = "" ∧ s.accepted = [⟨2, 1, 100, 5, 2, 7⟩] ∧
        s.journaled = [] ∧ s.pipeline.storeFile = none ∧ s.pipeline.persisted = 0) = true := by
    decide +kernel
  have loses : ∀ schedule ∈ [lateFill, earlyStop], LosesFill schedule := by
    intro schedule listed
    obtain ⟨s, ran, lost⟩ := (Option.any_eq_true _ _).mp (facts schedule listed)
    exact ⟨pipeline, s, rfl, ran, of_decide_eq_true lost⟩
  exact ⟨loses lateFill (by simp), loses earlyStop (by simp)⟩

/-- The fill is pushed before the flag is set; the worker takes it, writes it and ends. -/
def orderlyStop : List PipelineMove :=
  [.start, .spawn, .publish ⟨2, 1, 100, 5, 2, 7⟩, .push, .push, .push, .signal] ++ List.replicate 19 (.work .ok) ++
    [.join, .rest]

theorem accepted_fills_durable_sample :
    ∃ pipeline s, DurabilityPipeline.create "fills.journal" "trades.dat" 4 2 1 none none = .ok pipeline ∧
      (PipelineSystem.create pipeline).run orderlyStop = some s ∧ s.accepted = [⟨2, 1, 100, 5, 2, 7⟩] ∧
      s.accepted.map Fill.record <:+ s.journaled ∧ s.pipeline.persisted = s.accepted.length := by
  let ring : SPSCRingBuffer Fill := ⟨8, 7, List.replicate 8 {}, 0, 0⟩
  let pipeline := DurabilityPipeline.around ⟨"fills.journal", "trades.dat", 2, 1⟩ ring none none
  have facts : ((PipelineSystem.create pipeline).run orderlyStop).any (fun s =>
      0 < s.returned ∧ s.pipeline.error = "" ∧ s.accepted = [⟨2, 1, 100, 5, 2, 7⟩]) = true := by
    decide +kernel
  obtain ⟨s, ran, ends⟩ := (Option.any_eq_true _ _).mp facts
  obtain ⟨stopped, silent, accepted⟩ := of_decide_eq_true ends
  have fine : ∀ io, .work io ∈ orderlyStop → io = .ok := by
    intro io inside
    simpa [orderlyStop] using inside
  have durable := accepted_fills_durable "fills.journal" "trades.dat" 4 2 1 none none pipeline rfl orderlyStop s ran fine
    (by decide +kernel) stopped silent
  exact ⟨pipeline, s, rfl, ran, accepted, durable.2.1, durable.2.2.2⟩

end ChronoBook
