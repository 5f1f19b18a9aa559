import ChronoBook.Library.Runs
import ChronoBook.Matching.ShardedWorker

/-! What holds in every state the sharded engine can reach, whatever the schedule:
every shard has received the messages of its symbols in feed order, the gateway
and the caller of `start` and `stop` find what they rely on, and no thread crashes. -/

namespace ChronoBook
open Library

namespace System

variable {n : Nat} {s s' : System n}

/-- What a step of the caller of `start` and `stop` does, and when it can be made. -/
inductive Commanded (s : System n) : Move n → System n → Prop
  | running (idle : s.control = .idle) (runs : s.engine.running = true) : Commanded s .start s
  | started (idle : s.control = .idle) (rests : s.engine.running = false) :
      Commanded s .start { s with engine := { s.engine with running := true }, control := .clearing 0 }
  | resting (idle : s.control = .idle) (rests : s.engine.running = false) : Commanded s .stop s
  | stopping (idle : s.control = .idle) (runs : s.engine.running = true) :
      Commanded s .stop { s with control := .signalling 0 }
  | cleared {next : Nat} (here : s.control = .clearing next) (inside : next < n) :
      Commanded s .control { s with
        engine := s.engine.setShard ⟨next, inside⟩ { s.engine.shards ⟨next, inside⟩ with stopFlag := false }
        control := .clearing (next + 1) }
  | allCleared {next : Nat} (here : s.control = .clearing next) (past : ¬next < n) :
      Commanded s .control { s with control := .spawning 0 }
  | spawned {next : Nat} (here : s.control = .spawning next) (inside : next < n)
      (absent : (s.engine.shards ⟨next, inside⟩).worker = none) :
      Commanded s .control { s with
        engine := s.engine.setShard ⟨next, inside⟩ { s.engine.shards ⟨next, inside⟩ with worker := some .flag }
        control := .spawning (next + 1) }
  | overwritten {next : Nat} (here : s.control = .spawning next) (inside : next < n)
      (present : (s.engine.shards ⟨next, inside⟩).worker ≠ none) :
      Commanded s .control { s with control := .crashed }
  | allSpawned {next : Nat} (here : s.control = .spawning next) (past : ¬next < n) :
      Commanded s .control { s with control := .idle }
  | signalled {next : Nat} (here : s.control = .signalling next) (inside : next < n) :
      Commanded s .control { s with
        engine := s.engine.setShard ⟨next, inside⟩ { s.engine.shards ⟨next, inside⟩ with stopFlag := true }
        control := .signalling (next + 1) }
  | allSignalled {next : Nat} (here : s.control = .signalling next) (past : ¬next < n) :
      Commanded s .control { s with control := .joining 0 }
  | skipped {next : Nat} (here : s.control = .joining next) (inside : next < n)
      (absent : (s.engine.shards ⟨next, inside⟩).worker = none) :
      Commanded s .control { s with control := .joining (next + 1) }
  | joined {next : Nat} (here : s.control = .joining next) (inside : next < n)
      (finished : (s.engine.shards ⟨next, inside⟩).worker = some .finished) :
      Commanded s .control { s with
        engine := s.engine.setShard ⟨next, inside⟩ { s.engine.shards ⟨next, inside⟩ with worker := none }
        control := .joining (next + 1) }
  | allJoined {next : Nat} (here : s.control = .joining next) (past : ¬next < n) :
      Commanded s .control { s with control := .closing }
  | closed (here : s.control = .closing) :
      Commanded s .control { s with engine := { s.engine with running := false }, control := .idle }

theorem commanded_start (moved : s.startStep = some s') : Commanded s .start s' := by
  unfold startStep at moved
  split at moved
  next idle =>
    split at moved <;> cases moved
    next runs => exact .running idle runs
    next rests => exact .started idle (Bool.eq_false_of_not_eq_true rests)
  · cases moved

theorem commanded_stop (moved : s.stopStep = some s') : Commanded s .stop s' := by
  unfold stopStep at moved
  split at moved
  next idle =>
    cases runs : s.engine.running with
    | false =>
      rw [runs] at moved
      cases moved
      exact .resting idle runs
    | true =>
      rw [runs] at moved
      cases moved
      exact .stopping idle runs
  · cases moved

theorem commanded_control (moved : s.controlStep = some s') : Commanded s .control s' := by
  unfold controlStep at moved
  split at moved
  · cases moved
  next next here =>
    split at moved <;> cases moved
    next inside => exact .cleared here inside
    next past => exact .allCleared here past
  next next here =>
    split at moved
    next inside =>
      split at moved <;> cases moved
      next absent => exact .spawned here inside absent
      next pc present => exact .overwritten here inside (present ▸ Option.some_ne_none pc)
    next past =>
      cases moved
      exact .allSpawned here past
  next next here =>
    split at moved <;> cases moved
    next inside => exact .signalled here inside
    next past => exact .allSignalled here past
  next next here =>
    split at moved
    next inside =>
      split at moved <;> cases moved
      next absent => exact .skipped here inside absent
      next finished => exact .joined here inside finished
    next past =>
      cases moved
      exact .allJoined here past
  next here =>
    cases moved
    exact .closed here
  · cases moved

/-- Which threads there are at each point of `start` and `stop`. -/
def Controlled (s : System n) : Prop :=
  match s.control with
  | .idle =>
      if s.engine.running then ∀ i, (s.engine.shards i).Awake else ∀ i, (s.engine.shards i).worker = none
  | .clearing next => s.engine.running = true ∧
      ∀ i, (s.engine.shards i).worker = none ∧ (i.val < next → (s.engine.shards i).stopFlag = false)
  | .spawning next => s.engine.running = true ∧ ∀ i, (s.engine.shards i).stopFlag = false ∧
      (i.val < next → (s.engine.shards i).Awake) ∧ (next ≤ i.val → (s.engine.shards i).worker = none)
  | .signalling _ => s.engine.running = true
  | .joining next => s.engine.running = true ∧ ∀ i, i.val < next → (s.engine.shards i).worker = none
  | .closing => s.engine.running = true ∧ ∀ i, (s.engine.shards i).worker = none
  | .crashed => False

/-- What a step of the gateway or of a worker keeps of a thread, for `start` and `stop`. -/
structure Steady (thread thread' : ShardThread) : Prop where
  stopFlag : thread'.stopFlag = thread.stopFlag
  awake : thread.Awake → thread'.Awake
  absent : thread.worker = none → thread'.worker = none

theorem Steady.refl (thread : ShardThread) : Steady thread thread := ⟨rfl, id, id⟩

theorem Steady.inbox (thread : ShardThread) (ring : SPSCRingBuffer FeedMessage) :
    Steady thread { thread with inbox := ring } := ⟨rfl, id, id⟩

theorem Controlled.steady (controlled : s.Controlled) {i : Fin n} {thread : ShardThread}
    (kept : Steady (s.engine.shards i) thread) {remaining : List FeedMessage} {route : RoutePc} :
    Controlled ⟨s.engine.setShard i thread, remaining, route, s.control⟩ := by
  have steady : ∀ j, Steady (s.engine.shards j) ((s.engine.setShard i thread).shards j) :=
    s.engine.forall_setShard (motive := fun j thread => Steady (s.engine.shards j) thread) (fun _ _ => Steady.refl _) kept
  unfold Controlled at controlled ⊢
  cases here : s.control with
  | idle =>
    rw [here] at controlled
    dsimp only at controlled ⊢
    by_cases runs : s.engine.running = true
    · rw [if_pos runs] at controlled
      rw [if_pos (show (s.engine.setShard i thread).running = true from runs)]
      exact fun j => (steady j).awake (controlled j)
    · rw [if_neg runs] at controlled
      rw [if_neg (show ¬(s.engine.setShard i thread).running = true from runs)]
      exact fun j => (steady j).absent (controlled j)
  | clearing next =>
    rw [here] at controlled
    refine ⟨controlled.1, fun j => ⟨(steady j).absent (controlled.2 j).1, fun below => ?_⟩⟩
    rw [(steady j).stopFlag]
    exact (controlled.2 j).2 below
  | spawning next =>
    rw [here] at controlled
    refine ⟨controlled.1, fun j => ⟨(steady j).stopFlag.trans (controlled.2 j).1, ?_, ?_⟩⟩
    · exact fun below => (steady j).awake ((controlled.2 j).2.1 below)
    · exact fun above => (steady j).absent ((controlled.2 j).2.2 above)
  | signalling next =>
    rw [here] at controlled
    exact controlled
  | joining next =>
    rw [here] at controlled
    exact ⟨controlled.1, fun j below => (steady j).absent (controlled.2 j below)⟩
  | closing =>
    rw [here] at controlled
    exact ⟨controlled.1, fun j => (steady j).absent (controlled.2 j)⟩
  | crashed =>
    rw [here] at controlled
    exact controlled

structure InboxKept (thread thread' : ShardThread) : Prop where
  slots : thread'.inbox.slots = thread.inbox.slots
  head : thread'.inbox.head = thread.inbox.head
  room : thread.inbox.isFull = false → thread'.inbox.isFull = false

theorem InboxKept.refl (thread : ShardThread) : InboxKept thread thread := ⟨rfl, rfl, id⟩

variable [NeZero n] {poolCap : Nat} {feed : List FeedMessage}

def bound (n : Nat) [NeZero n] (i : Fin n) (messages : List FeedMessage) : List FeedMessage :=
  messages.filter (fun m => ShardedEngine.shardIndex n m.symbolPacked = i)

/-- What the gateway has seen of the inbox and relies on. -/
def Gate (s : System n) : Prop :=
  match s.route, s.remaining with
  | .idle, _ => True
  | .store, m :: _ => (s.engine.shards (ShardedEngine.shardIndex n m.symbolPacked)).inbox.isFull = false
  | .publish, m :: _ =>
      let inbox := (s.engine.shards (ShardedEngine.shardIndex n m.symbolPacked)).inbox
      inbox.isFull = false ∧ inbox.slots[inbox.head.toNat]? = some m
  | _, _ => False

def Flows (poolCap : Nat) (routed : List FeedMessage) (engine : ShardedEngine n) : Prop :=
  ∀ i, ∃ done queued, ShardThread.Flow poolCap (bound n i routed) (engine.shards i) done queued

structure Invariant (poolCap : Nat) (feed : List FeedMessage) (s : System n) : Prop where
  flows : ∃ routed, feed = routed ++ s.remaining ∧ Flows poolCap routed s.engine
  gate : s.Gate
  controlled : s.Controlled

theorem Invariant.create {poolCap ringCap : UInt64} (made : System.create n poolCap ringCap feed = .ok s)
    (unwrapped : SPSCRingBuffer.nextPowerOfTwo (ringCap + 1) ≠ 0) : Invariant poolCap.toNat feed s := by
  obtain ⟨inbox, ring, rfl⟩ := System.create_made made
  have queued : inbox.Queued [] := .create ring unwrapped
  exact ⟨⟨[], rfl, fun _ => ⟨[], [], rfl, queued, rfl, rfl, trivial⟩⟩, trivial, fun _ => rfl⟩

theorem Flows.setShard {routed : List FeedMessage} {engine : ShardedEngine n} (flows : Flows poolCap routed engine)
    {i : Fin n} {thread : ShardThread} {done queued : List FeedMessage}
    (flow : ShardThread.Flow poolCap (bound n i routed) thread done queued) :
    Flows poolCap routed (engine.setShard i thread) :=
  engine.forall_setShard (motive := fun j thread => ∃ done queued, ShardThread.Flow poolCap (bound n j routed) thread done queued)
    (fun j _ => flows j) ⟨done, queued, flow⟩

theorem bound_append (i : Fin n) (earlier later : List FeedMessage) :
    bound n i (earlier ++ later) = bound n i earlier ++ bound n i later :=
  List.filter_append earlier later

theorem Flows.published {routed : List FeedMessage} {engine : ShardedEngine n} (flows : Flows poolCap routed engine)
    {m : FeedMessage} {i : Fin n} (home : ShardedEngine.shardIndex n m.symbolPacked = i)
    (room : (engine.shards i).inbox.isFull = false)
    (stored : (engine.shards i).inbox.slots[(engine.shards i).inbox.head.toNat]? = some m) :
    Flows poolCap (routed ++ [m])
      (engine.setShard i { engine.shards i with inbox := (engine.shards i).inbox.publish }) := by
  intro j
  rw [bound_append]
  by_cases same : j = i
  · subst same
    rw [ShardedEngine.setShard_self]
    have mine : bound n j [m] = [m] := List.filter_eq_self.mpr (by simp [home])
    rw [mine]
    obtain ⟨done, queued, flow⟩ := flows j
    exact ⟨done, queued ++ [m], flow.published room stored⟩
  · rw [ShardedEngine.setShard_of_ne _ _ same]
    have other : bound n j [m] = [] := List.filter_eq_nil_iff.mpr (by simp [home, Ne.symm same])
    rw [other, List.append_nil]
    exact flows j

theorem Invariant.route (invariant : Invariant poolCap feed s) (moved : s.routeStep = some s') :
    Invariant poolCap feed s' := by
  obtain ⟨⟨routed, split, flows⟩, gate, controlled⟩ := invariant
  unfold routeStep at moved
  unfold Gate at gate
  cases left : s.remaining with
  | nil =>
    rw [left] at moved
    cases moved
  | cons m rest =>
    rw [left] at moved gate split
    obtain ⟨done, queued, flow⟩ := flows (ShardedEngine.shardIndex n m.symbolPacked)
    cases here : s.route with
    | idle =>
      rw [here] at moved
      dsimp only at moved
      by_cases full : (s.engine.shards (ShardedEngine.shardIndex n m.symbolPacked)).inbox.isFull = true
      · rw [if_pos full] at moved
        cases moved
        refine ⟨⟨routed, left ▸ split, flows⟩, ?_, controlled⟩
        unfold Gate
        rw [here]
        trivial
      · rw [if_neg full] at moved
        cases moved
        refine ⟨⟨routed, split, flows⟩, ?_, controlled⟩
        exact Bool.eq_false_of_not_eq_true full
    | store =>
      rw [here] at moved gate
      obtain ⟨ring, stored, queued', slot, room⟩ := flow.ring.store m
      dsimp only at moved gate
      rw [stored] at moved
      cases moved
      refine ⟨⟨routed, split, flows.setShard (flow.stored queued')⟩, ?_, controlled.steady (Steady.inbox _ _)⟩
      unfold Gate
      dsimp only
      rw [ShardedEngine.setShard_self]
      exact ⟨room.trans gate, slot⟩
    | publish =>
      rw [here] at moved gate
      dsimp only at moved gate
      cases moved
      refine ⟨⟨routed ++ [m], ?_, flows.published rfl gate.1 gate.2⟩, trivial, controlled.steady (Steady.inbox _ _)⟩
      rw [split, List.append_assoc]
      rfl
    | crashed =>
      rw [here] at gate
      exact gate.elim

theorem Gate.kept (gate : s.Gate) {engine : ShardedEngine n} {control : ControlPc}
    (inboxes : ∀ j, InboxKept (s.engine.shards j) (engine.shards j)) :
    Gate ⟨engine, s.remaining, s.route, control⟩ := by
  unfold Gate at gate ⊢
  dsimp only
  cases here : s.route with
  | idle => trivial
  | crashed =>
    rw [here] at gate
    exact gate
  | store =>
    cases left : s.remaining with
    | nil =>
      rw [here, left] at gate
      exact gate
    | cons m rest =>
      rw [here, left] at gate
      exact (inboxes _).room gate
  | publish =>
    cases left : s.remaining with
    | nil =>
      rw [here, left] at gate
      exact gate
    | cons m rest =>
      rw [here, left] at gate
      refine ⟨(inboxes _).room gate.1, ?_⟩
      rw [(inboxes _).slots, (inboxes _).head]
      exact gate.2

theorem Invariant.work (invariant : Invariant poolCap feed s) {i : Fin n} {thread : ShardThread}
    (moved : (s.engine.shards i).work = some thread) :
    Invariant poolCap feed { s with engine := s.engine.setShard i thread } := by
  obtain ⟨⟨routed, split, flows⟩, gate, controlled⟩ := invariant
  obtain ⟨done, queued, flow⟩ := flows i
  obtain ⟨worked, done', queued', flow', _⟩ := flow.work moved
  refine ⟨⟨routed, split, flows.setShard flow'⟩, ?_, ?_⟩
  · exact gate.kept (s.engine.forall_setShard (motive := fun j thread => InboxKept (s.engine.shards j) thread)
      (fun _ _ => InboxKept.refl _) ⟨worked.slots, worked.head, worked.room⟩)
  · refine controlled.steady ⟨worked.stopFlag, worked.awake, fun absent => ?_⟩
    unfold ShardThread.work at moved
    rw [absent] at moved
    cases moved

/-- A step of `start` or `stop` writes one thread's flag or worker and leaves its inbox. -/
theorem Invariant.written (invariant : Invariant poolCap feed s) {i : Fin n} {thread : ShardThread}
    (inbox : thread.inbox = (s.engine.shards i).inbox)
    (flows : ∀ {sent done queued}, ShardThread.Flow poolCap sent (s.engine.shards i) done queued →
      ShardThread.Flow poolCap sent thread done queued) {control : ControlPc}
    (controlled : Controlled ⟨s.engine.setShard i thread, s.remaining, s.route, control⟩) :
    Invariant poolCap feed ⟨s.engine.setShard i thread, s.remaining, s.route, control⟩ := by
  obtain ⟨⟨routed, split, before⟩, gate, _⟩ := invariant
  obtain ⟨done, queued, flow⟩ := before i
  refine ⟨⟨routed, split, before.setShard (flows flow)⟩, ?_, controlled⟩
  exact gate.kept (s.engine.forall_setShard (motive := fun j thread => InboxKept (s.engine.shards j) thread)
    (fun _ _ => InboxKept.refl _) ⟨by rw [inbox], by rw [inbox], fun room => by rw [inbox]; exact room⟩)

theorem Invariant.turned (invariant : Invariant poolCap feed s) {running : Bool} {control : ControlPc}
    (controlled : Controlled ⟨⟨s.engine.shards, running⟩, s.remaining, s.route, control⟩) :
    Invariant poolCap feed ⟨⟨s.engine.shards, running⟩, s.remaining, s.route, control⟩ :=
  ⟨invariant.flows, invariant.gate.kept (fun _ => InboxKept.refl _), controlled⟩

theorem Invariant.cleared (invariant : Invariant poolCap feed s) {next : Nat} (here : s.control = .clearing next)
    (inside : next < n) :
    Invariant poolCap feed { s with
      engine := s.engine.setShard ⟨next, inside⟩ { s.engine.shards ⟨next, inside⟩ with stopFlag := false }
      control := .clearing (next + 1) } := by
  have controlled := invariant.controlled
  unfold Controlled at controlled
  rw [here] at controlled
  obtain ⟨runs, threads⟩ := controlled
  apply invariant.written
  · rfl
  · exact fun flow => flow.signalled false
  -- the flags below `next` were clear, and the one at `next` now is
  · refine ⟨runs, s.engine.forall_setShard
      (motive := fun j thread => thread.worker = none ∧ (j.val < next + 1 → thread.stopFlag = false)) ?_ ?_⟩
    · intro j other
      refine ⟨(threads j).1, fun below => (threads j).2 ?_⟩
      have unlike : j.val ≠ next := fun same => other (Fin.ext same)
      omega
    · exact ⟨(threads ⟨next, inside⟩).1, fun _ => rfl⟩

theorem Invariant.spawned (invariant : Invariant poolCap feed s) {next : Nat} (here : s.control = .spawning next)
    (inside : next < n) (absent : (s.engine.shards ⟨next, inside⟩).worker = none) :
    Invariant poolCap feed { s with
      engine := s.engine.setShard ⟨next, inside⟩ { s.engine.shards ⟨next, inside⟩ with worker := some .flag }
      control := .spawning (next + 1) } := by
  have controlled := invariant.controlled
  unfold Controlled at controlled
  rw [here] at controlled
  obtain ⟨runs, threads⟩ := controlled
  apply invariant.written
  · rfl
  · exact fun flow => flow.spawned (Or.inl absent) (Or.inr rfl)
  · refine ⟨runs, s.engine.forall_setShard
      (motive := fun j thread => thread.stopFlag = false ∧ (j.val < next + 1 → thread.Awake) ∧
        (next + 1 ≤ j.val → thread.worker = none)) ?_ ?_⟩
    · intro j other
      have unlike : j.val ≠ next := fun same => other (Fin.ext same)
      refine ⟨(threads j).1, fun below => (threads j).2.1 ?_, fun above => (threads j).2.2 ?_⟩
      · omega
      · omega
    · have clear := (threads ⟨next, inside⟩).1
      refine ⟨clear, fun _ => ⟨clear, .flag, rfl, rfl⟩, fun above => ?_⟩
      exact absurd above (Nat.not_succ_le_self next)

theorem Invariant.joined (invariant : Invariant poolCap feed s) {next : Nat} (here : s.control = .joining next)
    (inside : next < n) (finished : (s.engine.shards ⟨next, inside⟩).worker = some .finished) :
    Invariant poolCap feed { s with
      engine := s.engine.setShard ⟨next, inside⟩ { s.engine.shards ⟨next, inside⟩ with worker := none }
      control := .joining (next + 1) } := by
  have controlled := invariant.controlled
  unfold Controlled at controlled
  rw [here] at controlled
  obtain ⟨runs, threads⟩ := controlled
  apply invariant.written
  · rfl
  · exact fun flow => flow.spawned (Or.inr finished) (Or.inl rfl)
  · refine ⟨runs, s.engine.forall_setShard
      (motive := fun j thread => j.val < next + 1 → thread.worker = none) ?_ (fun _ => rfl)⟩
    intro j other below
    have unlike : j.val ≠ next := fun same => other (Fin.ext same)
    exact threads j (by omega)

theorem Invariant.commanded (invariant : Invariant poolCap feed s) {move : Move n} (commanded : Commanded s move s') :
    Invariant poolCap feed s' := by
  have controlled := invariant.controlled
  unfold Controlled at controlled
  cases commanded with
  | running | resting => exact invariant
  | started idle rests =>
    rw [idle] at controlled
    dsimp only at controlled
    rw [if_neg (Bool.eq_false_iff.mp rests)] at controlled
    exact invariant.turned ⟨rfl, fun i => ⟨controlled i, fun below => absurd below (Nat.not_lt_zero _)⟩⟩
  | stopping idle runs => exact invariant.turned runs
  | cleared here inside => exact invariant.cleared here inside
  | allCleared here past =>
    rw [here] at controlled
    obtain ⟨runs, threads⟩ := controlled
    refine invariant.turned ⟨runs, fun i => ⟨(threads i).2 (by omega), ?_, fun _ => (threads i).1⟩⟩
    exact fun below => absurd below (Nat.not_lt_zero _)
  | spawned here inside absent => exact invariant.spawned here inside absent
  | overwritten here inside present =>
    rw [here] at controlled
    exact absurd ((controlled.2 ⟨_, inside⟩).2.2 (Nat.le_refl _)) present
  | allSpawned here past =>
    rw [here] at controlled
    obtain ⟨runs, threads⟩ := controlled
    apply invariant.turned
    unfold Controlled
    dsimp only
    rw [if_pos runs]
    exact fun i => (threads i).2.1 (by omega)
  | signalled here inside =>
    rw [here] at controlled
    apply invariant.written
    · rfl
    · exact fun flow => flow.signalled true
    · exact controlled
  | allSignalled here past =>
    rw [here] at controlled
    exact invariant.turned ⟨controlled, fun _ below => absurd below (Nat.not_lt_zero _)⟩
  | @skipped next here inside absent =>
    rw [here] at controlled
    obtain ⟨runs, threads⟩ := controlled
    refine invariant.turned ⟨runs, fun j below => ?_⟩
    by_cases same : j = ⟨next, inside⟩
    · rw [same]
      exact absent
    · have unlike : j.val ≠ next := fun value => same (Fin.ext value)
      exact threads j (by omega)
  | joined here inside finished => exact invariant.joined here inside finished
  | allJoined here past =>
    rw [here] at controlled
    obtain ⟨runs, threads⟩ := controlled
    exact invariant.turned ⟨runs, fun i => threads i (by omega)⟩
  | closed here =>
    rw [here] at controlled
    exact invariant.turned controlled.2

theorem Invariant.step (invariant : Invariant poolCap feed s) {move : Move n} (moved : s.step move = some s') :
    Invariant poolCap feed s' := by
  cases move with
  | route => exact invariant.route moved
  | start => exact invariant.commanded (commanded_start moved)
  | stop => exact invariant.commanded (commanded_stop moved)
  | control => exact invariant.commanded (commanded_control moved)
  | work i =>
    obtain ⟨thread, worked, same⟩ := Option.map_eq_some_iff.mp moved
    cases same
    exact invariant.work worked

theorem run_eq (s : System n) (moves : List (Move n)) : s.run moves = runFrom step s moves :=
  eq_runFrom (fun _ => rfl) (fun _ _ _ => rfl) s moves

theorem Invariant.run (moves : List (Move n)) :
    ∀ {s : System n}, Invariant poolCap feed s → s.run moves = some s' → Invariant poolCap feed s' := by
  intro s invariant ran
  rw [run_eq] at ran
  exact runFrom_keeps (fun _ _ _ _ moved before => before.step moved) ran invariant

theorem Invariant.not_crashed (invariant : Invariant poolCap feed s) : ¬s.Crashed := by
  rintro (gateway | caller | ⟨i, worker⟩)
  · have gate := invariant.gate
    unfold Gate at gate
    rw [gateway] at gate
    cases left : s.remaining <;> rw [left] at gate <;> exact gate
  · have controlled := invariant.controlled
    unfold Controlled at controlled
    rw [caller] at controlled
    exact controlled
  · obtain ⟨routed, _, flows⟩ := invariant.flows
    obtain ⟨done, queued, flow⟩ := flows i
    have aware := flow.aware
    rw [worker] at aware
    exact aware

end System

def WorkerPc.outside : WorkerPc → Bool
  | .flag | .inbox | .pop _ | .finished => true
  | .read _ | .release _ _ | .apply _ _ | .count _ | .crashed => false

/-- A thread whose ring has no slots: it never gets a message. -/
structure ShardThread.Barren (poolCap : Nat) (thread : ShardThread) : Prop where
  slots : thread.inbox.slots = []
  level : thread.inbox.head = thread.inbox.tail
  shard : thread.toShard = Shard.fresh poolCap
  worker : ∀ pc, thread.worker = some pc → pc.outside = true

namespace ShardThread.Barren

variable {poolCap : Nat} {thread thread' : ShardThread}

theorem goto (barren : thread.Barren poolCap) {worker : Option WorkerPc} {flag : Bool}
    (outside : ∀ pc, worker = some pc → pc.outside = true) :
    ({ thread with worker := worker, stopFlag := flag } : ShardThread).Barren poolCap :=
  ⟨barren.slots, barren.level, barren.shard, outside⟩

theorem work (barren : thread.Barren poolCap) (moved : thread.work = some thread') : thread'.Barren poolCap := by
  have empty : thread.inbox.empty = true := by
    unfold SPSCRingBuffer.empty
    rw [decide_eq_true_eq]
    exact barren.level.symm
  have outside := barren.worker
  unfold ShardThread.work at moved
  cases here : thread.worker with
  | none =>
    rw [here] at moved
    cases moved
  | some pc =>
    rw [here] at moved outside
    have now := outside pc rfl
    cases pc with
    | flag =>
      cases moved
      apply barren.goto
      intro pc same
      cases same
      cases thread.stopFlag <;> rfl
    | inbox =>
      cases moved
      apply barren.goto
      intro pc same
      cases same
      rfl
    | pop draining =>
      dsimp only at moved
      rw [if_pos empty] at moved
      cases moved
      apply barren.goto
      intro pc same
      cases same
      cases draining <;> rfl
    | finished => cases moved
    | _ => cases now

end ShardThread.Barren

namespace System

variable {n : Nat} {s s' : System n} {poolCap : Nat} {feed : List FeedMessage}

/-- Rings without slots: nothing is routed. -/
structure Barren (poolCap : Nat) (feed : List FeedMessage) (s : System n) : Prop where
  remaining : s.remaining = feed
  route : s.route ≠ .publish
  threads : ∀ i, (s.engine.shards i).Barren poolCap

theorem Barren.create {poolCap ringCap : UInt64} (made : System.create n poolCap ringCap feed = .ok s)
    (wrapped : SPSCRingBuffer.nextPowerOfTwo (ringCap + 1) = 0) : Barren poolCap.toNat feed s := by
  obtain ⟨inbox, ring, rfl⟩ := System.create_made made
  obtain rfl := SPSCRingBuffer.create_barren ring wrapped
  exact ⟨rfl, by simp, fun _ => ⟨rfl, rfl, rfl, by simp [ShardThread.around]⟩⟩

theorem Barren.turned (barren : Barren poolCap feed s) {running : Bool} {control : ControlPc} :
    Barren poolCap feed ⟨⟨s.engine.shards, running⟩, s.remaining, s.route, control⟩ :=
  ⟨barren.remaining, barren.route, barren.threads⟩

theorem Barren.written (barren : Barren poolCap feed s) {i : Fin n} {thread : ShardThread} {control : ControlPc}
    (now : thread.Barren poolCap) :
    Barren poolCap feed ⟨s.engine.setShard i thread, s.remaining, s.route, control⟩ :=
  ⟨barren.remaining, barren.route, s.engine.forall_setShard (motive := fun _ thread => thread.Barren poolCap)
    (fun j _ => barren.threads j) now⟩

theorem Barren.commanded (barren : Barren poolCap feed s) {move : Move n} (commanded : Commanded s move s') :
    Barren poolCap feed s' := by
  have each := barren.threads
  cases commanded with
  | running | resting => exact barren
  | started | stopping | allCleared | overwritten | allSpawned | allSignalled | skipped | allJoined | closed =>
    exact barren.turned
  | cleared | signalled => exact barren.written ((each _).goto (each _).worker)
  | spawned =>
    apply barren.written
    apply (each _).goto
    intro pc same
    cases same
    rfl
  | joined =>
    apply barren.written
    apply (each _).goto
    intro pc same
    cases same

variable [NeZero n]

theorem Barren.routeStep (barren : Barren poolCap feed s) (moved : s.routeStep = some s') :
    Barren poolCap feed s' := by
  unfold System.routeStep at moved
  split at moved
  · cases moved
  next m rest left =>
    dsimp only at moved
    cases here : s.route with
    | idle =>
      rw [here] at moved
      dsimp only at moved
      split at moved <;> cases moved
      · exact barren
      · exact ⟨barren.remaining, by simp, barren.threads⟩
    | store =>
      rw [here] at moved
      have refused : (s.engine.shards (ShardedEngine.shardIndex n m.symbolPacked)).inbox.store m = none := by
        unfold SPSCRingBuffer.store
        rw [(barren.threads _).slots]
        exact if_neg (Nat.not_lt_zero _)
      dsimp only at moved
      rw [refused] at moved
      cases moved
      exact ⟨barren.remaining, by simp, barren.threads⟩
    | publish => exact absurd here barren.route
    | crashed =>
      rw [here] at moved
      cases moved

theorem Barren.step (barren : Barren poolCap feed s) {move : Move n} (moved : s.step move = some s') :
    Barren poolCap feed s' := by
  cases move with
  | route => exact barren.routeStep moved
  | start => exact barren.commanded (commanded_start moved)
  | stop => exact barren.commanded (commanded_stop moved)
  | control => exact barren.commanded (commanded_control moved)
  | work i =>
    obtain ⟨thread, worked, same⟩ := Option.map_eq_some_iff.mp moved
    cases same
    exact barren.written ((barren.threads i).work worked)

theorem Barren.run (moves : List (Move n)) :
    ∀ {s : System n}, Barren poolCap feed s → s.run moves = some s' → Barren poolCap feed s' := by
  intro s barren ran
  rw [run_eq] at ran
  exact runFrom_keeps (fun _ _ _ _ moved before => before.step moved) ran barren

/-- Whatever the size of the rings, a shard has applied a first part of the messages that were routed to it. -/
theorem run_applied {poolCap ringCap : UInt64} {start : System n} {moves : List (Move n)}
    (made : System.create n poolCap ringCap feed = .ok start) (reached : start.run moves = some s) :
    ∃ routed, feed = routed ++ s.remaining ∧ ∀ i, ∃ done later, bound n i routed = done ++ later ∧
      (Shard.fresh poolCap.toNat).applyAll done = some (s.engine.shards i).toShard := by
  by_cases wrapped : SPSCRingBuffer.nextPowerOfTwo (ringCap + 1) = 0
  · have barren := (Barren.create made wrapped).run moves reached
    refine ⟨[], barren.remaining.symm, fun i => ⟨[], [], rfl, ?_⟩⟩
    rw [(barren.threads i).shard]
    rfl
  · obtain ⟨routed, split, flows⟩ := ((Invariant.create made wrapped).run moves reached).flows
    refine ⟨routed, split, fun i => ?_⟩
    obtain ⟨done, queued, flow⟩ := flows i
    exact ⟨done, _, flow.split.trans (List.append_assoc _ _ _), flow.shard⟩

end System

end ChronoBook
