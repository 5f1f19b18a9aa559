import ChronoBook.Infra.RingSizing
import ChronoBook.Matching.Shard

/-! The sharded engine with its threads: the gateway that routes the feed, a caller
of `start` and `stop`, and one worker for each shard. A thread moves by one access
to shared memory at a time; a schedule says who moves next. -/

namespace ChronoBook

instance : Inhabited FeedMessage := ⟨{}⟩

/-- Where a worker is in `workerLoop`; `draining` tells its second loop from its first. -/
inductive WorkerPc where
  | flag
  | inbox
  | pop (draining : Bool)
  | read (draining : Bool)
  | release (draining : Bool) (msg : FeedMessage)
  | apply (draining : Bool) (msg : FeedMessage)
  | count (draining : Bool)
  | finished
  | crashed
  deriving DecidableEq, Repr

/-- A shard with its inbox and its thread; there is no thread before it is spawned and after it is joined. -/
structure ShardThread extends Shard where
  inbox : SPSCRingBuffer FeedMessage
  processed : Nat
  stopFlag : Bool
  worker : Option WorkerPc

namespace ShardThread

/-- A shard around its inbox and its pool, with no thread yet. -/
def around (shard : Shard) (inbox : SPSCRingBuffer FeedMessage) : ShardThread :=
  { shard with
    inbox := inbox
    processed := 0
    stopFlag := false
    worker := none }

/-- The constructor; the inbox is made before the pool. -/
def create (poolCap ringCap : UInt64) : Except Failure ShardThread := do
  let inbox ← SPSCRingBuffer.create maxSize ringCap
  match Shard.create poolCap with
  | none => .error .fault
  | some shard => .ok (around shard inbox)

theorem create_made {poolCap ringCap : UInt64} {thread : ShardThread} (made : create poolCap ringCap = .ok thread) :
    ∃ inbox, SPSCRingBuffer.create maxSize ringCap = .ok inbox ∧ thread = around (Shard.fresh poolCap.toNat) inbox := by
  unfold create at made
  rw [Shard.create_eq] at made
  cases ring : (SPSCRingBuffer.create maxSize ringCap : Except Failure (SPSCRingBuffer FeedMessage)) with
  | error failure =>
    rw [ring] at made
    cases made
  | ok inbox =>
    rw [ring] at made
    by_cases fits : poolCap.toNat * 48 < 2 ^ 64
    · rw [if_pos fits] at made
      cases made
      exact ⟨inbox, rfl, rfl⟩
    · rw [if_neg fits] at made
      cases made

/-- The next access of the worker. -/
def work (thread : ShardThread) : Option ShardThread :=
  match thread.worker with
  | none => none
  | some pc =>
      let goto := fun pc : WorkerPc => { thread with worker := some pc }
      match pc with
      | .flag => some (goto (if thread.stopFlag then .inbox else .pop false))
      | .inbox => some (goto (.pop thread.inbox.empty))
      | .pop draining =>
          if thread.inbox.empty then some (goto (if draining then .finished else .flag))
          else some (goto (.read draining))
      | .read draining =>
          match thread.inbox.load with
          | none => some (goto .crashed)
          | some msg => some (goto (.release draining msg))
      | .release draining msg => some { goto (.apply draining msg) with inbox := thread.inbox.release }
      | .apply draining msg =>
          match thread.toShard.applyMessage msg with
          | none => some (goto .crashed)
          | some shard => some { goto (.count draining) with toShard := shard }
      | .count draining =>
          some { goto (if draining then .pop true else .flag) with processed := thread.processed + 1 }
      | .finished => none
      | .crashed => none

end ShardThread

structure ShardedEngine (n : Nat) where
  shards : Fin n → ShardThread
  running : Bool

namespace ShardedEngine

variable {n : Nat}

/-- The constructor for at least one shard; all shards are made from the same two numbers. -/
def create (n : Nat) (poolCap ringCap : UInt64) : Except Failure (ShardedEngine n) := do
  checkLength (maxSizeOf 8) n
  let thread ← ShardThread.create poolCap ringCap
  return ⟨fun _ => thread, false⟩

/-- The arguments for which there is an engine and its rings have slots: no size wraps, and no vector is too long. -/
structure Buildable (n : Nat) (poolCap ringCap : UInt64) : Prop where
  shards : n ≤ maxSizeOf 8
  ring : ringCap.toNat < 2 ^ 57 ∨ ringCap.toNat = 2 ^ 64 - 1
  pool : poolCap.toNat * 48 < 2 ^ 64

theorem Buildable.sizable {poolCap ringCap : UInt64} (buildable : Buildable n poolCap ringCap) :
    SPSCRingBuffer.Sizable maxSize ringCap :=
  (SPSCRingBuffer.sizable_iff ringCap).mpr buildable.ring

def setShard (engine : ShardedEngine n) (i : Fin n) (thread : ShardThread) : ShardedEngine n :=
  { engine with shards := Function.update engine.shards i thread }

theorem setShard_self (engine : ShardedEngine n) (i : Fin n) (thread : ShardThread) :
    (engine.setShard i thread).shards i = thread := by
  simp [setShard]

theorem setShard_of_ne (engine : ShardedEngine n) {i j : Fin n} (thread : ShardThread) (other : j ≠ i) :
    (engine.setShard i thread).shards j = engine.shards j := by
  simp [setShard, other]

theorem forall_setShard (engine : ShardedEngine n) {i : Fin n} {thread : ShardThread}
    {motive : Fin n → ShardThread → Prop} (before : ∀ j, j ≠ i → motive j (engine.shards j)) (now : motive i thread) :
    ∀ j, motive j ((engine.setShard i thread).shards j) := by
  intro j
  by_cases same : j = i
  · subst same
    rw [setShard_self]
    exact now
  · rw [setShard_of_ne _ _ same]
    exact before j same

def shardIndex (n : Nat) [NeZero n] (symbolPacked : UInt64) : Fin n :=
  let h := symbolPacked
  let h := h ^^^ (h >>> 33)
  let h := h * 0xff51afd7ed558ccd
  let h := h ^^^ (h >>> 33)
  Fin.ofNat n h.toNat

/-- The fills of all shards, sorted by timestamp with ties in the order they stand. -/
def collectAllFills (engine : ShardedEngine n) : List Fill :=
  ((List.finRange n).flatMap (fun i => (engine.shards i).fills)).mergeSort
    (fun a b => !decide (b.timestamp < a.timestamp))

def totalProcessed (engine : ShardedEngine n) : Nat :=
  ((List.finRange n).map (fun i => (engine.shards i).processed)).sum

end ShardedEngine

/-- Where the gateway is in `route`. -/
inductive RoutePc where
  | idle
  | store
  | publish
  | crashed
  deriving DecidableEq, Repr

/-- Where the caller of `start` and `stop` is, with the next shard of the loop it is in. -/
inductive ControlPc where
  | idle
  | clearing (next : Nat)
  | spawning (next : Nat)
  | signalling (next : Nat)
  | joining (next : Nat)
  | closing
  | crashed
  deriving DecidableEq, Repr

structure System (n : Nat) where
  engine : ShardedEngine n
  remaining : List FeedMessage
  route : RoutePc
  control : ControlPc

/-- Who moves; `start` and `stop` are the calls, `control` goes on with the call in progress. -/
inductive Move (n : Nat) where
  | route
  | start
  | stop
  | control
  | work (i : Fin n)

namespace System

variable {n : Nat}

/-- A new engine, and the feed that the gateway is going to route. -/
def create (n : Nat) (poolCap ringCap : UInt64) (feed : List FeedMessage) : Except Failure (System n) := do
  let engine ← ShardedEngine.create n poolCap ringCap
  return ⟨engine, feed, .idle, .idle⟩

theorem create_made {poolCap ringCap : UInt64} {feed : List FeedMessage} {start : System n}
    (made : create n poolCap ringCap feed = .ok start) :
    ∃ inbox, SPSCRingBuffer.create maxSize ringCap = .ok inbox ∧
      start = ⟨⟨fun _ => ShardThread.around (Shard.fresh poolCap.toNat) inbox, false⟩, feed, .idle, .idle⟩ := by
  unfold create ShardedEngine.create checkLength at made
  split at made
  · cases made
  · cases built : ShardThread.create poolCap ringCap with
    | error failure =>
      rw [built] at made
      cases made
    | ok thread =>
      rw [built] at made
      obtain ⟨inbox, ring, same⟩ := ShardThread.create_made built
      cases made
      exact ⟨inbox, ring, same ▸ rfl⟩

theorem create_ok {poolCap ringCap : UInt64} (buildable : ShardedEngine.Buildable n poolCap ringCap)
    (feed : List FeedMessage) : ∃ start : System n, create n poolCap ringCap feed = .ok start := by
  obtain ⟨inbox, ring⟩ := SPSCRingBuffer.create_ok (T := FeedMessage) buildable.sizable.2
  unfold create ShardedEngine.create ShardThread.create
  rw [checkLength_ok buildable.shards, ring, Shard.create_eq, if_pos buildable.pool]
  exact ⟨_, rfl⟩

/-- `route` for the first remaining message, called again when it returns false. -/
def routeStep [NeZero n] (s : System n) : Option (System n) :=
  match s.remaining with
  | [] => none
  | msg :: rest =>
      let i := ShardedEngine.shardIndex n msg.symbolPacked
      let thread := s.engine.shards i
      match s.route with
      | .idle => if thread.inbox.isFull then some s else some { s with route := .store }
      | .store =>
          match thread.inbox.store msg with
          | none => some { s with route := .crashed }
          | some ring => some { s with engine := s.engine.setShard i { thread with inbox := ring }, route := .publish }
      | .publish =>
          some { s with
            engine := s.engine.setShard i { thread with inbox := thread.inbox.publish }
            remaining := rest
            route := .idle }
      | .crashed => none

def startStep (s : System n) : Option (System n) :=
  match s.control with
  | .idle =>
      if s.engine.running then some s
      else some { s with engine := { s.engine with running := true }, control := .clearing 0 }
  | _ => none

def stopStep (s : System n) : Option (System n) :=
  match s.control with
  | .idle => if !s.engine.running then some s else some { s with control := .signalling 0 }
  | _ => none

/-- The loops of `start` and `stop`. A thread is assigned only to a shard without one, and joined when it has ended. -/
def controlStep (s : System n) : Option (System n) :=
  match s.control with
  | .idle => none
  | .clearing next =>
      if h : next < n then
        some { s with
          engine := s.engine.setShard ⟨next, h⟩ { s.engine.shards ⟨next, h⟩ with stopFlag := false }
          control := .clearing (next + 1) }
      else some { s with control := .spawning 0 }
  | .spawning next =>
      if h : next < n then
        match (s.engine.shards ⟨next, h⟩).worker with
        | none => some { s with
            engine := s.engine.setShard ⟨next, h⟩ { s.engine.shards ⟨next, h⟩ with worker := some .flag }
            control := .spawning (next + 1) }
        | some _ => some { s with control := .crashed }
      else some { s with control := .idle }
  | .signalling next =>
      if h : next < n then
        some { s with
          engine := s.engine.setShard ⟨next, h⟩ { s.engine.shards ⟨next, h⟩ with stopFlag := true }
          control := .signalling (next + 1) }
      else some { s with control := .joining 0 }
  | .joining next =>
      if h : next < n then
        match (s.engine.shards ⟨next, h⟩).worker with
        | none => some { s with control := .joining (next + 1) }
        | some .finished => some { s with
            engine := s.engine.setShard ⟨next, h⟩ { s.engine.shards ⟨next, h⟩ with worker := none }
            control := .joining (next + 1) }
        | some _ => none
      else some { s with control := .closing }
  | .closing => some { s with engine := { s.engine with running := false }, control := .idle }
  | .crashed => none

def step [NeZero n] (s : System n) : Move n → Option (System n)
  | .route => s.routeStep
  | .start => s.startStep
  | .stop => s.stopStep
  | .control => s.controlStep
  | .work i => (s.engine.shards i).work.map (fun thread => { s with engine := s.engine.setShard i thread })

/-- The state after a schedule whose moves were all possible. -/
def run [NeZero n] (s : System n) : List (Move n) → Option (System n)
  | [] => some s
  | move :: later => (s.step move).bind (fun s => s.run later)

def Routed (s : System n) : Prop := s.remaining = [] ∧ s.route = .idle

def Stopped (s : System n) : Prop := s.control = .idle ∧ s.engine.running = false

/-- A thread of the program has left its vector, followed a null pointer or overwritten a running thread. -/
def Crashed (s : System n) : Prop :=
  s.route = .crashed ∨ s.control = .crashed ∨ ∃ i, (s.engine.shards i).worker = some .crashed

end System

end ChronoBook
