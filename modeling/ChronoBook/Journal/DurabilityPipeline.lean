import ChronoBook.Infra.SPSCRingBuffer
import ChronoBook.Journal.JournalOpening
import ChronoBook.Store.TradeStore

/-! The durability pipeline with its threads: the publisher that pushes fills into a
ring, the worker that writes batches to the journal and then to the store, and the
callers of `start` and `stop`. A thread moves by one access to shared memory or one
store to a file at a time; a schedule says who moves next and which calls fail. -/

namespace ChronoBook

instance : Inhabited Fill := ⟨{}⟩

/-- What comes of the system call that a step of the worker makes. -/
inductive Io where
  | ok
  | syncFails
  | write (outcome : WriteOutcome)
  deriving DecidableEq, Repr

def Io.outcome : Io → WriteOutcome
  | .write outcome => outcome
  | _ => .done

/-- Where the worker is in `flushBatch`; the number counts the fills of the batch that were appended. -/
inductive FlushPc where
  | record (done : Nat)
  | counter (done : Nat) (idx : UInt64)
  | sync
  | insert
  | count
  | clear
  deriving DecidableEq, Repr

/-- Where the worker is in the loop of `run`; `last` tells the flush behind the loop from those in it. -/
inductive LoopPc where
  | flag
  | inbox
  | pop
  | read
  | release (fill : Fill)
  | flush (last : Bool) (pc : FlushPc)
  | final
  | lastSync
  deriving DecidableEq, Repr

structure Frame where
  journal : FillJournal
  store : TradeStore
  batch : List Fill

/-- The worker's thread, from the constructors of its locals to its end or to its exception handler. -/
inductive PipelineWorker where
  | openJournal
  | openStore (journal : FillJournal)
  | reserve (journal : FillJournal) (store : TradeStore)
  | loop (frame : Frame) (pc : LoopPc)
  | raise (what : String)
  | halt
  | finished
  | crashed

/-- The arguments of the constructor that never change. -/
structure PipelineConfig where
  journalPath : String
  storePath : String
  journalCapacity : UInt64
  batchSize : UInt64

/-- The object with its worker and its files. `committed` follows what the worker's own store shows and is kept after its
end; no step reads it. -/
structure DurabilityPipeline where
  config : PipelineConfig
  ring : SPSCRingBuffer Fill
  stop : Bool
  persisted : Nat
  error : String
  worker : Option PipelineWorker
  journalFile : Option (List UInt8)
  storeFile : Option (List UInt8)
  committed : List Fill

namespace DurabilityPipeline

/-- An object that was not started yet. -/
def around (config : PipelineConfig) (ring : SPSCRingBuffer Fill) (journalFile storeFile : Option (List UInt8)) :
    DurabilityPipeline where
  config := config
  ring := ring
  stop := false
  persisted := 0
  error := ""
  worker := none
  journalFile := journalFile
  storeFile := storeFile
  committed := []

def create (journalPath storePath : String) (ringCapacity journalCapacity batchSize : UInt64)
    (journalFile storeFile : Option (List UInt8)) : Except Failure DurabilityPipeline := do
  let ring ← SPSCRingBuffer.create maxSize ringCapacity
  return around ⟨journalPath, storePath, journalCapacity, if batchSize = 0 then 1 else batchSize⟩ ring journalFile storeFile

theorem create_made {journalPath storePath : String} {ringCapacity journalCapacity batchSize : UInt64}
    {journalFile storeFile : Option (List UInt8)} {pipeline : DurabilityPipeline}
    (made : create journalPath storePath ringCapacity journalCapacity batchSize journalFile storeFile = .ok pipeline) :
    ∃ ring, SPSCRingBuffer.create maxSize ringCapacity = .ok ring ∧
      pipeline = around ⟨journalPath, storePath, journalCapacity, if batchSize = 0 then 1 else batchSize⟩ ring journalFile
        storeFile := by
  unfold create at made
  cases built : (SPSCRingBuffer.create maxSize ringCapacity : Except Failure (SPSCRingBuffer Fill)) with
  | error failure =>
    rw [built] at made
    cases made
  | ok ring =>
    rw [built] at made
    cases made
    exact ⟨ring, rfl, rfl⟩

theorem create_fits {ringCapacity : UInt64} (journalPath storePath : String) (journalCapacity batchSize : UInt64)
    (journalFile storeFile : Option (List UInt8))
    (fits : (SPSCRingBuffer.nextPowerOfTwo (ringCapacity + 1)).toNat ≤ maxSize) :
    ∃ pipeline, create journalPath storePath ringCapacity journalCapacity batchSize journalFile storeFile = .ok pipeline := by
  obtain ⟨ring, built⟩ := SPSCRingBuffer.create_ok (T := Fill) fits
  unfold create
  rw [built]
  exact ⟨_, rfl⟩

theorem create_refused {ringCapacity : UInt64} (journalPath storePath : String) (journalCapacity batchSize : UInt64)
    (journalFile storeFile : Option (List UInt8))
    (long : maxSize < (SPSCRingBuffer.nextPowerOfTwo (ringCapacity + 1)).toNat) :
    create journalPath storePath ringCapacity journalCapacity batchSize journalFile storeFile =
      .error (.thrown lengthError) := by
  unfold create
  rw [SPSCRingBuffer.create_throws long]
  rfl

/-- The worker goes on with its locals as they are now; the journal is mapped, so its bytes are the file's. -/
def enter (s : DurabilityPipeline) (frame : Frame) (pc : LoopPc) : DurabilityPipeline :=
  { s with
    journalFile := some frame.journal.file
    committed := frame.store.trades
    worker := some (.loop frame pc) }

/-- An exception leaves the block of `run` and is caught there. -/
def fails (s : DurabilityPipeline) : Failure → DurabilityPipeline
  | .thrown what => { s with worker := some (.raise what) }
  | .fault => { s with worker := some .crashed }

def flushStep (s : DurabilityPipeline) (frame : Frame) (last : Bool) (io : Io) : FlushPc → DurabilityPipeline
  | .record done =>
      match frame.batch[done]? with
      | none => s.enter frame (.flush last .sync)
      | some fill =>
          match frame.journal.storeRecord fill with
          | .ok (idx, journal) => s.enter { frame with journal := journal } (.flush last (.counter done idx))
          | .error failure => s.fails failure
  | .counter done idx =>
      match frame.journal.storeCount idx with
      | .ok journal => s.enter { frame with journal := journal } (.flush last (.record (done + 1)))
      | .error failure => s.fails failure
  | .sync =>
      if io = .syncFails then s.fails (.thrown "failed to flush fill journal mapping")
      else s.enter frame (.flush last .insert)
  | .insert =>
      match frame.store.insertBatch frame.batch false io.outcome s.storeFile with
      | (store, file, .ok _) =>
          ({ s with storeFile := file } : DurabilityPipeline).enter { frame with store := store } (.flush last .count)
      | (_, file, .error failure) => ({ s with storeFile := file } : DurabilityPipeline).fails failure
  | .count =>
      ({ s with persisted := s.persisted + frame.batch.length } : DurabilityPipeline).enter frame (.flush last .clear)
  | .clear => s.enter { frame with batch := [] } (if last then .lastSync else .flag)

def loopStep (s : DurabilityPipeline) (frame : Frame) (io : Io) : LoopPc → DurabilityPipeline
  | .flag => s.enter frame (if s.stop then .inbox else .pop)
  | .inbox => s.enter frame (if s.ring.empty then .final else .pop)
  | .pop =>
      if s.ring.empty then s.enter frame (if frame.batch.isEmpty then .flag else .flush false (.record 0))
      else s.enter frame .read
  | .read =>
      match s.ring.load with
      | none => s.fails .fault
      | some fill => s.enter frame (.release fill)
  | .release fill =>
      let batch := frame.batch ++ [fill]
      ({ s with ring := s.ring.release } : DurabilityPipeline).enter { frame with batch := batch }
        (if s.config.batchSize.toNat ≤ batch.length then .flush false (.record 0) else .flag)
  | .flush last pc => s.flushStep frame last io pc
  | .final => s.enter frame (if frame.batch.isEmpty then .lastSync else .flush true (.record 0))
  | .lastSync =>
      if io = .syncFails then s.fails (.thrown "failed to flush fill journal mapping")
      else { s with worker := some .finished }

def work (s : DurabilityPipeline) (io : Io) : Option DurabilityPipeline :=
  match s.worker with
  | none => none
  | some .openJournal =>
      match FillJournal.create s.config.journalPath s.config.journalCapacity s.journalFile with
      | (file, .ok journal) => some { s with journalFile := file, worker := some (.openStore journal) }
      | (file, .error failure) => some (({ s with journalFile := file } : DurabilityPipeline).fails failure)
  | some (.openStore journal) =>
      match TradeStore.load s.config.storePath s.storeFile with
      | .ok store => some { s with committed := store.trades, worker := some (.reserve journal store) }
      | .error failure => some (s.fails failure)
  | some (.reserve journal store) =>
      if maxSize < s.config.batchSize.toNat then some (s.fails (.thrown lengthError))
      else some (s.enter ⟨journal, store, []⟩ .flag)
  | some (.loop frame pc) => some (s.loopStep frame io pc)
  | some (.raise what) => some { s with error := what, worker := some .halt }
  | some .halt => some { s with stop := true, worker := some .finished }
  | some .finished => none
  | some .crashed => none

end DurabilityPipeline

inductive PublishPc where
  | idle
  | pushing (fill : Fill)
  | storing (fill : Fill)
  | publishing (fill : Fill)
  | crashed
  deriving DecidableEq, Repr

/-- The pipeline with the threads that use it. `accepted` lists the fills for which `tryPublish` returns true; the
callers of `stop` are counted where they are: told the worker, joined it, returned. -/
structure PipelineSystem where
  pipeline : DurabilityPipeline
  publisher : PublishPc
  accepted : List Fill
  running : Bool
  starting : Bool
  signalled : Nat
  joined : Nat
  returned : Nat

/-- Who moves. `publish` begins a call of `tryPublish`, which `push` goes on with; `start` and `spawn` are the two steps
of the one call of `start`, and `signal`, `join` and `rest` those of any number of calls of `stop`. -/
inductive PipelineMove where
  | start
  | spawn
  | publish (fill : Fill)
  | push
  | work (io : Io)
  | signal
  | join
  | rest
  deriving DecidableEq, Repr

def PipelineMove.io : PipelineMove → Option Io
  | .work io => some io
  | _ => none

namespace PipelineSystem

def create (pipeline : DurabilityPipeline) : PipelineSystem := ⟨pipeline, .idle, [], false, false, 0, 0, 0⟩

def startStep (s : PipelineSystem) : Option PipelineSystem :=
  if s.starting then none
  else some { s with running := true, starting := true }

def spawnStep (s : PipelineSystem) : Option PipelineSystem :=
  match s.pipeline.worker with
  | none => if s.starting then some { s with pipeline := { s.pipeline with worker := some .openJournal } } else none
  | some _ => none

def publishStep (s : PipelineSystem) (fill : Fill) : Option PipelineSystem :=
  match s.publisher with
  | .idle => if s.pipeline.stop then some s else some { s with publisher := .pushing fill }
  | _ => none

def pushStep (s : PipelineSystem) : Option PipelineSystem :=
  match s.publisher with
  | .pushing fill =>
      if s.pipeline.ring.isFull then some { s with publisher := .idle } else some { s with publisher := .storing fill }
  | .storing fill =>
      match s.pipeline.ring.store fill with
      | none => some { s with publisher := .crashed }
      | some ring => some { s with pipeline := { s.pipeline with ring := ring }, publisher := .publishing fill }
  | .publishing fill => some { s with
      pipeline := { s.pipeline with ring := s.pipeline.ring.publish }
      publisher := .idle
      accepted := s.accepted ++ [fill] }
  | .idle => none
  | .crashed => none

def signalStep (s : PipelineSystem) : PipelineSystem :=
  { s with pipeline := { s.pipeline with stop := true }, signalled := s.signalled + 1 }

/-- The worker can be joined when it has returned; without a thread there is nothing to wait for. -/
def joinStep (s : PipelineSystem) : Option PipelineSystem :=
  if s.signalled = 0 then none
  else
    match s.pipeline.worker with
    | none | some .finished => some { s with signalled := s.signalled - 1, joined := s.joined + 1 }
    | some _ => none

def restStep (s : PipelineSystem) : Option PipelineSystem :=
  if s.joined = 0 then none
  else some { s with running := false, joined := s.joined - 1, returned := s.returned + 1 }

def step (s : PipelineSystem) : PipelineMove → Option PipelineSystem
  | .start => s.startStep
  | .spawn => s.spawnStep
  | .publish fill => s.publishStep fill
  | .push => s.pushStep
  | .work io => (s.pipeline.work io).map (fun pipeline => { s with pipeline := pipeline })
  | .signal => some s.signalStep
  | .join => s.joinStep
  | .rest => s.restStep

/-- The state after a schedule whose moves were all possible. -/
def run (s : PipelineSystem) : List PipelineMove → Option PipelineSystem
  | [] => some s
  | move :: later => (s.step move).bind (fun s => s.run later)

def journaled (s : PipelineSystem) : List FillRecord :=
  FillJournal.records s.pipeline.config.journalPath s.pipeline.journalFile

end PipelineSystem

end ChronoBook
