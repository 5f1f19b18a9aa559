import ChronoBook.Journal.PipelineFlow
import ChronoBook.Library.Runs

/-! Runs of the pipeline's threads. The books of the worker stay right whoever moves,
and a move that is not the worker's leaves the files and the counter alone. -/

namespace ChronoBook
open FillJournal Library

namespace DurabilityPipeline

variable {s s' : DurabilityPipeline}

structure Frozen (s s' : DurabilityPipeline) : Prop where
  config : s'.config = s.config
  journalFile : s'.journalFile = s.journalFile
  storeFile : s'.storeFile = s.storeFile
  committed : s'.committed = s.committed
  persisted : s'.persisted = s.persisted

theorem Frozen.refl (s : DurabilityPipeline) : Frozen s s := ⟨rfl, rfl, rfl, rfl, rfl⟩

theorem Frozen.trans {s'' : DurabilityPipeline} (first : Frozen s s') (second : Frozen s' s'') : Frozen s s'' :=
  ⟨second.config.trans first.config, second.journalFile.trans first.journalFile,
    second.storeFile.trans first.storeFile, second.committed.trans first.committed,
    second.persisted.trans first.persisted⟩

end DurabilityPipeline

theorem LoopPc.Aware.push {pc : LoopPc} {queued : List Fill} (aware : pc.Aware queued) (fill : Fill) :
    pc.Aware (queued ++ [fill]) := by
  cases pc with
  | read => exact List.append_ne_nil_of_left_ne_nil aware _
  | release held =>
    cases queued with
    | nil => cases aware
    | cons first rest => exact aware
  | _ => trivial

namespace PipelineSystem

open DurabilityPipeline

variable {older : List FillRecord} {kept : List Fill} {s s' : PipelineSystem}

/-- What each move does, and when it can be made. -/
inductive Stepped (s : PipelineSystem) : PipelineMove → PipelineSystem → Prop
  | start (unstarted : s.starting = false) : Stepped s .start { s with running := true, starting := true }
  | spawn (absent : s.pipeline.worker = none) (begun : s.starting = true) :
      Stepped s .spawn { s with pipeline := { s.pipeline with worker := some .openJournal } }
  | refused (fill : Fill) (idle : s.publisher = .idle) (set : s.pipeline.stop = true) : Stepped s (.publish fill) s
  | called (fill : Fill) (idle : s.publisher = .idle) (unset : s.pipeline.stop = false) :
      Stepped s (.publish fill) { s with publisher := .pushing fill }
  | full {fill : Fill} (call : s.publisher = .pushing fill) (full : s.pipeline.ring.isFull = true) :
      Stepped s .push { s with publisher := .idle }
  | room {fill : Fill} (call : s.publisher = .pushing fill) (room : s.pipeline.ring.isFull = false) :
      Stepped s .push { s with publisher := .storing fill }
  | stored {fill : Fill} {ring : SPSCRingBuffer Fill} (call : s.publisher = .storing fill)
      (stored : s.pipeline.ring.store fill = some ring) :
      Stepped s .push { s with pipeline := { s.pipeline with ring := ring }, publisher := .publishing fill }
  | faulted {fill : Fill} (call : s.publisher = .storing fill) (faulted : s.pipeline.ring.store fill = none) :
      Stepped s .push { s with publisher := .crashed }
  | published {fill : Fill} (call : s.publisher = .publishing fill) :
      Stepped s .push { s with
        pipeline := { s.pipeline with ring := s.pipeline.ring.publish }
        publisher := .idle
        accepted := s.accepted ++ [fill] }
  | worked {io : Io} {pipeline : DurabilityPipeline} (worked : s.pipeline.work io = some pipeline) :
      Stepped s (.work io) { s with pipeline := pipeline }
  | signal : Stepped s .signal s.signalStep
  | join (told : 0 < s.signalled) (ended : s.pipeline.worker = none ∨ s.pipeline.worker = some .finished) :
      Stepped s .join { s with signalled := s.signalled - 1, joined := s.joined + 1 }
  | rest (joined : 0 < s.joined) :
      Stepped s .rest { s with running := false, joined := s.joined - 1, returned := s.returned + 1 }

theorem stepped_push (moved : s.pushStep = some s') : Stepped s .push s' := by
  unfold pushStep at moved
  split at moved
  next fill call =>
    split at moved <;> cases moved
    next full => exact .full call full
    next room => exact .room call (Bool.eq_false_of_not_eq_true room)
  next fill call =>
    split at moved <;> cases moved
    next faulted => exact .faulted call faulted
    next stored => exact .stored call stored
  next fill call =>
    cases moved
    exact .published call
  · cases moved
  · cases moved

theorem stepped_join (moved : s.joinStep = some s') : Stepped s .join s' := by
  unfold joinStep at moved
  split at moved
  · cases moved
  next told =>
    split at moved <;> cases moved
    next absent => exact .join (Nat.pos_of_ne_zero told) (Or.inl absent)
    next finished => exact .join (Nat.pos_of_ne_zero told) (Or.inr finished)

theorem stepped_of_step {move : PipelineMove} (moved : s.step move = some s') : Stepped s move s' := by
  cases move with
  | start =>
    change s.startStep = some s' at moved
    unfold startStep at moved
    split at moved <;> cases moved
    next unstarted => exact .start (Bool.eq_false_of_not_eq_true unstarted)
  | spawn =>
    change s.spawnStep = some s' at moved
    unfold spawnStep at moved
    split at moved
    next absent =>
      split at moved <;> cases moved
      next begun => exact .spawn absent begun
    · cases moved
  | publish fill =>
    change s.publishStep fill = some s' at moved
    unfold publishStep at moved
    split at moved
    next idle =>
      split at moved <;> cases moved
      next set => exact .refused fill idle set
      next unset => exact .called fill idle (Bool.eq_false_of_not_eq_true unset)
    · cases moved
  | push => exact stepped_push moved
  | work io =>
    obtain ⟨pipeline, worked, same⟩ := Option.map_eq_some_iff.mp moved
    subst same
    exact .worked worked
  | signal =>
    cases moved
    exact .signal
  | join => exact stepped_join moved
  | rest =>
    change s.restStep = some s' at moved
    unfold restStep at moved
    split at moved <;> cases moved
    next joined => exact .rest (Nat.pos_of_ne_zero joined)

theorem Stepped.step {move : PipelineMove} (stepped : Stepped s move s') : s.step move = some s' := by
  cases stepped with
  | start unstarted => simp [PipelineSystem.step, startStep, unstarted]
  | spawn absent begun => simp [PipelineSystem.step, spawnStep, absent, begun]
  | refused fill idle set => simp [PipelineSystem.step, publishStep, idle, set]
  | called fill idle unset => simp [PipelineSystem.step, publishStep, idle, unset]
  | full call full => simp [PipelineSystem.step, pushStep, call, full]
  | room call room => simp [PipelineSystem.step, pushStep, call, room]
  | stored call stored => simp [PipelineSystem.step, pushStep, call, stored]
  | faulted call faulted => simp [PipelineSystem.step, pushStep, call, faulted]
  | published call => simp [PipelineSystem.step, pushStep, call]
  | worked worked => simp [PipelineSystem.step, worked]
  | signal => rfl
  | join told ended =>
    rcases ended with absent | finished
    · simp [PipelineSystem.step, joinStep, Nat.ne_of_gt told, absent]
    · simp [PipelineSystem.step, joinStep, Nat.ne_of_gt told, finished]
  | rest joined => simp [PipelineSystem.step, restStep, Nat.ne_of_gt joined]

/-- What the publisher has seen of the ring and relies on. -/
def Gate (ring : SPSCRingBuffer Fill) : PublishPc → Prop
  | .storing _ => ring.isFull = false
  | .publishing fill => ring.isFull = false ∧ ring.slots[ring.head.toNat]? = some fill ∧ ring.capacity ≠ 0
  | _ => True

def Invariant (older : List FillRecord) (kept : List Fill) (s : PipelineSystem) : Prop :=
  (∃ taken queued, s.pipeline.Tracks older kept s.accepted taken queued) ∧ Gate s.pipeline.ring s.publisher

theorem Aware.push {pipeline : DurabilityPipeline} {queued : List Fill} (aware : pipeline.Aware queued)
    (ring : SPSCRingBuffer Fill) (fill : Fill) :
    ({ pipeline with ring := ring } : DurabilityPipeline).Aware (queued ++ [fill]) := by
  unfold DurabilityPipeline.Aware at *
  dsimp only
  split
  next frame pc here =>
    rw [here] at aware
    exact ⟨aware.1.push fill, aware.2⟩
  · trivial

theorem Invariant.stored (invariant : s.Invariant older kept) {fill : Fill} {ring : SPSCRingBuffer Fill}
    (call : s.publisher = .storing fill) (stored : s.pipeline.ring.store fill = some ring) :
    Invariant older kept { s with pipeline := { s.pipeline with ring := ring }, publisher := .publishing fill } := by
  obtain ⟨⟨taken, queued, tracks⟩, gate⟩ := invariant
  rw [call] at gate
  obtain ⟨_, kept, slot, room⟩ := tracks.ring.stored stored
  refine ⟨⟨taken, queued, tracks.split, Or.inl kept, tracks.flow, tracks.aware⟩, room.trans gate, slot, ?_⟩
  intro zero
  obtain ⟨exponent, _, _, size⟩ := kept.sized
  change ring.capacity = 0 at zero
  rw [zero] at size
  exact absurd size.symm (Nat.two_pow_pos exponent).ne'

theorem Invariant.published (invariant : s.Invariant older kept) {fill : Fill} (call : s.publisher = .publishing fill) :
    Invariant older kept { s with
      pipeline := { s.pipeline with ring := s.pipeline.ring.publish }
      publisher := .idle
      accepted := s.accepted ++ [fill] } := by
  obtain ⟨⟨taken, queued, tracks⟩, gate⟩ := invariant
  rw [call] at gate
  obtain ⟨room, slot, size⟩ := gate
  have ring : s.pipeline.ring.Queued queued := by
    rcases tracks.ring with queued | ⟨zero, _, _⟩
    · exact queued
    · exact absurd zero.1 size
  have grown := ring.publish room slot
  refine ⟨⟨taken, queued ++ [fill], ?_, Or.inl grown, tracks.flow, Aware.push tracks.aware _ fill⟩, trivial⟩
  dsimp only
  rw [tracks.split, List.append_assoc]

/-- A step of the worker takes nothing away that the publisher relies on. -/
theorem Gate.work {pipeline pipeline' : DurabilityPipeline} {accepted taken queued : List Fill} {io : Io} {pc : PublishPc}
    (gate : Gate pipeline.ring pc) (tracks : pipeline.Tracks older kept accepted taken queued)
    (moved : pipeline.work io = some pipeline') : Gate pipeline'.ring pc := by
  rcases (work_worked moved).ring with same | ⟨⟨frame, fill, here⟩, released⟩
  · rw [same]
    exact gate
  · have aware := tracks.aware
    unfold DurabilityPipeline.Aware at aware
    rw [here] at aware
    have room : pipeline.ring.release.isFull = false := by
      cases queued with
      | nil => cases aware.1
      | cons first rest => exact (tracks.ring.queued (List.cons_ne_nil _ _)).release_room
    rw [released]
    cases pc with
    | storing fill => exact room
    | publishing fill => exact ⟨room, gate.2⟩
    | _ => trivial

theorem Invariant.step (invariant : s.Invariant older kept) {move : PipelineMove} (moved : s.step move = some s') :
    s'.Invariant older kept := by
  have all := invariant
  obtain ⟨⟨taken, queued, tracks⟩, gate⟩ := invariant
  cases stepped_of_step moved with
  | start | refused | join | rest => exact all
  | spawn absent =>
    have flow := tracks.flow
    unfold DurabilityPipeline.Flow at flow
    rw [absent] at flow
    exact ⟨⟨taken, queued, tracks.split, tracks.ring, flow, trivial⟩, gate⟩
  | called | full | faulted => exact ⟨⟨taken, queued, tracks⟩, trivial⟩
  | room call room => exact ⟨⟨taken, queued, tracks⟩, room⟩
  | stored call stored => exact all.stored call stored
  | published call => exact all.published call
  | worked worked =>
    obtain ⟨taken', after⟩ := tracks.work worked
    exact ⟨⟨taken', _, after⟩, gate.work tracks worked⟩
  | signal =>
    refine ⟨⟨taken, queued, tracks.split, tracks.ring, tracks.flow, ?_⟩, gate⟩
    have aware := tracks.aware
    unfold DurabilityPipeline.Aware at aware ⊢
    dsimp only [signalStep]
    split
    next frame pc here =>
      rw [here] at aware
      exact ⟨aware.1, fun _ => rfl⟩
    · trivial

theorem run_eq (s : PipelineSystem) (schedule : List PipelineMove) : s.run schedule = runFrom step s schedule :=
  eq_runFrom (fun _ => rfl) (fun _ _ _ => rfl) s schedule

theorem run_keeps {property : PipelineSystem → Prop} {schedule : List PipelineMove}
    (keeps : ∀ s s' move, move ∈ schedule → property s → s.step move = some s' → property s') (start : property s)
    (ran : s.run schedule = some s') : property s' := by
  rw [run_eq] at ran
  exact runFrom_keeps (fun s move s' inside moved before => keeps s s' move inside before moved) ran start

theorem Invariant.run (invariant : s.Invariant older kept) {schedule : List PipelineMove}
    (ran : s.run schedule = some s') : s'.Invariant older kept :=
  run_keeps (fun _ _ _ _ before moved => before.step moved) invariant ran

/-- The books are right before anything was done, for the records that opening the journal will leave in its file and the
trades that the store's file shows. -/
theorem Invariant.create {journalPath storePath : String} {ringCapacity journalCapacity batchSize : UInt64}
    {journalFile storeFile : Option (List UInt8)} {pipeline : DurabilityPipeline}
    (made : DurabilityPipeline.create journalPath storePath ringCapacity journalCapacity batchSize journalFile storeFile =
      .ok pipeline)
    (shown : ∀ store, TradeStore.load storePath storeFile = .ok store → store.trades = kept) :
    (PipelineSystem.create pipeline).Invariant
      (records journalPath (FillJournal.create journalPath journalCapacity journalFile).1) kept := by
  obtain ⟨ring, built, rfl⟩ := DurabilityPipeline.create_made made
  have carries : ring.Carries [] := .create built
  exact ⟨⟨[], [], rfl, carries, ⟨⟨rfl, rfl, rfl, rfl, shown⟩, rfl⟩, trivial⟩, trivial⟩

/-- What a move of another thread leaves alone: the files, the counter, and the worker unless it is spawned. -/
structure Aside (s s' : DurabilityPipeline) : Prop where
  frozen : Frozen s s'
  error : s'.error = s.error
  capacity : s'.ring.capacity = s.ring.capacity
  worker : s'.worker = s.worker ∨ s.worker = none ∧ s'.worker = some .openJournal

theorem step_cases {move : PipelineMove} (moved : s.step move = some s') :
    (∃ io, move = .work io ∧ s.pipeline.work io = some s'.pipeline ∧ s' = { s with pipeline := s'.pipeline }) ∨
      (∀ io, move ≠ .work io) ∧ Aside s.pipeline s'.pipeline := by
  cases stepped_of_step moved with
  | worked worked => exact Or.inl ⟨_, rfl, worked, rfl⟩
  | start | refused | called | full | room | faulted | join | rest =>
    exact Or.inr ⟨nofun, .refl _, rfl, rfl, Or.inl rfl⟩
  | spawn absent => exact Or.inr ⟨nofun, ⟨rfl, rfl, rfl, rfl, rfl⟩, rfl, rfl, Or.inr ⟨absent, rfl⟩⟩
  | stored call stored =>
    exact Or.inr ⟨nofun, ⟨rfl, rfl, rfl, rfl, rfl⟩, rfl, SPSCRingBuffer.store_capacity stored, Or.inl rfl⟩
  | published | signal => exact Or.inr ⟨nofun, ⟨rfl, rfl, rfl, rfl, rfl⟩, rfl, rfl, Or.inl rfl⟩

theorem step_config {move : PipelineMove} (moved : s.step move = some s') : s'.pipeline.config = s.pipeline.config := by
  rcases step_cases moved with ⟨io, _, worked, _⟩ | ⟨_, aside⟩
  · exact (work_worked worked).config
  · exact aside.frozen.config

theorem step_capacity {move : PipelineMove} (moved : s.step move = some s') :
    s'.pipeline.ring.capacity = s.pipeline.ring.capacity := by
  rcases step_cases moved with ⟨io, _, worked, _⟩ | ⟨_, aside⟩
  · rcases (work_worked worked).ring with same | ⟨_, released⟩
    · rw [same]
    · rw [released]
      rfl
  · exact aside.capacity

theorem run_config {schedule : List PipelineMove} (ran : s.run schedule = some s') :
    s'.pipeline.config = s.pipeline.config :=
  run_keeps (fun _ _ _ _ before moved => (step_config moved).trans before) rfl ran

end PipelineSystem

end ChronoBook
