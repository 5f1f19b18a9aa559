import ChronoBook.Matching.ShardedEngine
import ChronoBook.Matching.SymbolTrace

/-! One shard's thread. The messages sent to a shard are, in order, those applied,
the one in the worker's hands and those in the ring, and every access of the
worker keeps it so. -/

namespace ChronoBook
open Library

/-- Whether the worker is in its first loop and has not seen the stop flag set. -/
def WorkerPc.main : WorkerPc → Bool
  | .flag => true
  | .pop draining | .read draining | .release draining _ | .apply draining _ | .count draining => !draining
  | .inbox | .finished | .crashed => false

def WorkerPc.settled : WorkerPc → Bool
  | .apply _ _ | .count _ => false
  | _ => true

namespace ShardThread

def held (thread : ShardThread) : List FeedMessage :=
  match thread.worker with
  | some (.apply _ msg) => [msg]
  | _ => []

def pending (thread : ShardThread) : Nat :=
  match thread.worker with
  | some (.count _) => 1
  | _ => 0

/-- What the worker has seen of its inbox and relies on. -/
def Aware (worker : Option WorkerPc) (queued : List FeedMessage) : Prop :=
  match worker with
  | some (.read _) => queued ≠ []
  | some (.release _ msg) => queued.head? = some msg
  | some .crashed => False
  | _ => True

/-- The messages sent to a shard, shared out between those done, the one held and those queued. -/
structure Flow (poolCap : Nat) (sent : List FeedMessage) (thread : ShardThread) (done queued : List FeedMessage) :
    Prop where
  split : sent = done ++ thread.held ++ queued
  ring : thread.inbox.Queued queued
  shard : (Shard.fresh poolCap).applyAll done = some thread.toShard
  counted : thread.processed + thread.pending = done.length
  aware : Aware thread.worker queued

def Awake (thread : ShardThread) : Prop :=
  thread.stopFlag = false ∧ ∃ pc, thread.worker = some pc ∧ pc.main = true

def Ended (thread : ShardThread) : Prop := thread.worker = none ∨ thread.worker = some .finished

/-- What a step of the worker leaves alone, and what the gateway and the caller of `stop` rely on. -/
structure Worked (thread thread' : ShardThread) : Prop where
  stopFlag : thread'.stopFlag = thread.stopFlag
  slots : thread'.inbox.slots = thread.inbox.slots
  head : thread'.inbox.head = thread.inbox.head
  room : thread.inbox.isFull = false → thread'.inbox.isFull = false
  awake : thread.Awake → thread'.Awake
  present : thread'.worker ≠ none
  ended : thread'.worker = some .finished → thread'.inbox.empty = true

variable {poolCap : Nat} {sent done queued : List FeedMessage} {thread thread' : ShardThread}

theorem Flow.apply_next (flow : Flow poolCap sent thread done queued) (msg : FeedMessage) :
    ∃ shard, thread.toShard.applyMessage msg = some shard ∧
      (Shard.fresh poolCap).applyAll (done ++ [msg]) = some shard := by
  obtain ⟨shard, _, _, _, ran, _⟩ := Shard.Holds.applyAll (done ++ [msg]) (Shard.Holds.fresh poolCap)
  have next := Shard.applyAll_append (Shard.fresh poolCap) done [msg]
  rw [flow.shard, ran, Option.bind_some, Shard.applyAll] at next
  cases applied : thread.toShard.applyMessage msg with
  | none =>
    rw [applied] at next
    cases next
  | some shard' =>
    rw [applied] at next
    cases next
    exact ⟨shard, rfl, ran⟩

theorem held_settled {pc : WorkerPc} (here : thread.worker = some pc) (settled : pc.settled = true) :
    thread.held = [] := by
  unfold ShardThread.held
  rw [here]
  cases pc <;> first | rfl | cases settled

theorem pending_settled {pc : WorkerPc} (here : thread.worker = some pc) (settled : pc.settled = true) :
    thread.pending = 0 := by
  unfold ShardThread.pending
  rw [here]
  cases pc <;> first | rfl | cases settled

theorem Flow.goto (flow : Flow poolCap sent thread done queued) {pc pc' : WorkerPc} (here : thread.worker = some pc)
    (settled : pc.settled = true) (settled' : pc'.settled = true) (aware : Aware (some pc') queued) :
    Flow poolCap sent { thread with worker := some pc' } done queued where
  split := by
    rw [held_settled rfl settled', ← held_settled here settled]
    exact flow.split
  ring := flow.ring
  shard := flow.shard
  counted := by
    rw [pending_settled rfl settled', ← pending_settled here settled]
    exact flow.counted
  aware := aware

theorem Awake.main (awake : thread.Awake) {pc : WorkerPc} (here : thread.worker = some pc) : pc.main = true := by
  obtain ⟨_, now, same, main⟩ := awake
  rw [here] at same
  cases same
  exact main

theorem Awake.next (awake : thread.Awake) {pc pc' : WorkerPc} (here : thread.worker = some pc)
    (flag : thread'.stopFlag = thread.stopFlag) (there : thread'.worker = some pc')
    (stays : pc.main = true → pc'.main = true) : thread'.Awake :=
  ⟨flag.trans awake.1, pc', there, stays (awake.main here)⟩

/-- Bounds the steps a worker still takes when the stop flag is set and nothing more is sent. -/
def rank (queued : Nat) : WorkerPc → Nat
  | .flag => 10 * queued + 7
  | .inbox => 10 * queued + 6
  | .pop draining => if queued = 0 ∧ draining = false then 8 else 10 * queued + 5
  | .read _ => 10 * queued + 4
  | .release _ _ => 10 * queued + 3
  | .apply _ _ => 10 * queued + 10
  | .count _ => 10 * queued + 9
  | .finished | .crashed => 0

def Closer (thread : ShardThread) (queued : List FeedMessage) (thread' : ShardThread) (queued' : List FeedMessage) : Prop :=
  ∀ pc, thread.worker = some pc → ∃ pc', thread'.worker = some pc' ∧ rank queued'.length pc' < rank queued.length pc

theorem Closer.of_rank {queued' : List FeedMessage} {pc pc' : WorkerPc} (here : thread.worker = some pc)
    (there : thread'.worker = some pc') (less : rank queued'.length pc' < rank queued.length pc) :
    Closer thread queued thread' queued' := by
  intro now same
  rw [here] at same
  cases same
  exact ⟨pc', there, less⟩

theorem Flow.moves (flow : Flow poolCap sent thread done queued) {pc pc' : WorkerPc} (here : thread.worker = some pc)
    (settled : pc.settled = true) (settled' : pc'.settled = true) (aware : Aware (some pc') queued)
    (awake : thread.Awake → pc'.main = true) (ended : pc' = .finished → thread.inbox.empty = true)
    (less : thread.stopFlag = true → rank queued.length pc' < rank queued.length pc) :
    Worked thread { thread with worker := some pc' } ∧
      ∃ done' queued', Flow poolCap sent { thread with worker := some pc' } done' queued' ∧
        (thread.stopFlag = true → Closer thread queued { thread with worker := some pc' } queued') := by
  refine ⟨⟨rfl, rfl, rfl, id, ?_, Option.some_ne_none pc', fun same => ended (Option.some.inj same)⟩, done, queued,
    flow.goto here settled settled' aware, fun told => Closer.of_rank here rfl (less told)⟩
  exact fun before => ⟨before.1, pc', rfl, awake before⟩

theorem Flow.work (flow : Flow poolCap sent thread done queued) (moved : thread.work = some thread') :
    Worked thread thread' ∧ ∃ done' queued', Flow poolCap sent thread' done' queued' ∧
      (thread.stopFlag = true → Closer thread queued thread' queued') := by
  have aware := flow.aware
  unfold ShardThread.work at moved
  cases here : thread.worker with
  | none =>
    rw [here] at moved
    cases moved
  | some pc =>
    rw [here] at moved aware
    have main : thread.Awake → pc.main = true := fun awake => awake.main here
    cases pc with
    | flag =>
      dsimp only at moved
      by_cases told : thread.stopFlag = true
      · rw [if_pos told] at moved
        cases moved
        refine flow.moves here rfl rfl trivial ?_ nofun (fun _ => by simp [rank])
        intro awake
        rw [awake.1] at told
        cases told
      · rw [if_neg told] at moved
        cases moved
        exact flow.moves here rfl rfl trivial (fun _ => rfl) nofun (fun stop => absurd stop told)
    | inbox =>
      cases moved
      refine flow.moves here rfl rfl trivial (fun awake => absurd (main awake) Bool.false_ne_true) nofun (fun _ => ?_)
      cases queued with
      | nil => rw [flow.ring.empty_iff.mpr rfl]; decide
      | cons msg rest => simp [rank]
    | pop draining =>
      dsimp only at moved
      by_cases empty : thread.inbox.empty = true
      · rw [if_pos empty] at moved
        cases moved
        have none : queued = [] := flow.ring.empty_iff.mp empty
        subst none
        cases draining with
        | false => exact flow.moves here rfl rfl trivial (fun _ => rfl) nofun (fun _ => by decide)
        | true => exact flow.moves here rfl rfl trivial main (fun _ => empty) (fun _ => by decide)
      · rw [if_neg empty] at moved
        cases moved
        have some : queued ≠ [] := fun none => empty (flow.ring.empty_iff.mpr none)
        exact flow.moves here rfl rfl some main nofun (fun _ => by simp [rank, some])
    | read draining =>
      obtain ⟨msg, rest, same⟩ := List.exists_cons_of_ne_nil aware
      subst same
      dsimp only at moved
      rw [flow.ring.load] at moved
      cases moved
      exact flow.moves here rfl rfl rfl main nofun (fun _ => by simp [rank])
    | release draining msg =>
      cases moved
      cases queued with
      | nil => cases aware
      | cons first rest =>
        cases aware
        have split := flow.split
        have counted := flow.counted
        simp only [ShardThread.held, ShardThread.pending, here] at split counted
        refine ⟨⟨rfl, rfl, rfl, fun _ => flow.ring.release_room, fun awake => awake.next here rfl rfl id,
          Option.some_ne_none _, ?_⟩, done, rest, ⟨?_, flow.ring.release, flow.shard, counted, trivial⟩,
          fun _ => Closer.of_rank here rfl ?_⟩
        · intro same
          cases same
        · simpa [ShardThread.held] using split
        · rw [List.length_cons, rank, rank]
          omega
    | apply draining msg =>
      obtain ⟨shard, applied, ran⟩ := flow.apply_next msg
      dsimp only at moved
      rw [applied] at moved
      cases moved
      have split := flow.split
      have counted := flow.counted
      simp only [ShardThread.held, ShardThread.pending, here] at split counted
      refine ⟨⟨rfl, rfl, rfl, id, fun awake => awake.next here rfl rfl id, Option.some_ne_none _, ?_⟩,
        done ++ [msg], queued, ⟨?_, flow.ring, ran, ?_, trivial⟩, fun _ => Closer.of_rank here rfl ?_⟩
      · intro same
        cases same
      · simpa [ShardThread.held] using split
      · simpa [ShardThread.pending] using counted
      · simp [rank]
    | count draining =>
      cases moved
      have split := flow.split
      have counted := flow.counted
      simp only [ShardThread.held, ShardThread.pending, here] at split counted
      refine ⟨⟨rfl, rfl, rfl, id, fun awake => awake.next here rfl rfl ?_, Option.some_ne_none _, ?_⟩,
        done, queued, ⟨?_, flow.ring, flow.shard, ?_, ?_⟩, fun _ => Closer.of_rank here rfl ?_⟩
      · cases draining <;> decide
      · intro same
        cases draining <;> cases same
      · cases draining <;> simpa [ShardThread.held] using split
      · cases draining <;> simpa [ShardThread.pending] using counted
      · cases draining <;> trivial
      · cases draining <;> simp [rank]
    | finished => cases moved
    | crashed => cases moved

theorem Flow.can_work (flow : Flow poolCap sent thread done queued) (present : ¬thread.Ended) :
    ∃ thread', thread.work = some thread' := by
  have aware := flow.aware
  unfold ShardThread.work
  cases here : thread.worker with
  | none => exact absurd (Or.inl here) present
  | some pc =>
    cases pc with
    | finished => exact absurd (Or.inr here) present
    | crashed =>
      rw [here] at aware
      exact aware.elim
    | pop draining =>
      dsimp only
      split <;> exact ⟨_, rfl⟩
    | read draining =>
      dsimp only
      split <;> exact ⟨_, rfl⟩
    | apply draining msg =>
      dsimp only
      split <;> exact ⟨_, rfl⟩
    | _ => exact ⟨_, rfl⟩

/-- The caller of `start` and `stop` writes the flag and the thread, and neither is part of the flow. -/
theorem Flow.spawned (flow : Flow poolCap sent thread done queued) {worker : Option WorkerPc}
    (outside : thread.Ended) (fresh : worker = none ∨ worker = some .flag) :
    Flow poolCap sent { thread with worker := worker } done queued := by
  have split := flow.split
  have counted := flow.counted
  have held : thread.held = [] := by
    rcases outside with here | here <;> simp [ShardThread.held, here]
  have pending : thread.pending = 0 := by
    rcases outside with here | here <;> simp [ShardThread.pending, here]
  rw [held] at split
  rw [pending] at counted
  rcases fresh with same | same
  · subst same
    exact ⟨split, flow.ring, flow.shard, counted, trivial⟩
  · subst same
    exact ⟨split, flow.ring, flow.shard, counted, trivial⟩

theorem Flow.signalled (flow : Flow poolCap sent thread done queued) (flag : Bool) :
    Flow poolCap sent { thread with stopFlag := flag } done queued :=
  ⟨flow.split, flow.ring, flow.shard, flow.counted, flow.aware⟩

theorem Flow.stored (flow : Flow poolCap sent thread done queued) {ring : SPSCRingBuffer FeedMessage}
    (same : ring.Queued queued) : Flow poolCap sent { thread with inbox := ring } done queued :=
  ⟨flow.split, same, flow.shard, flow.counted, flow.aware⟩

/-- The gateway stores the head: one more message is sent and queued. -/
theorem Flow.published {msg : FeedMessage} (flow : Flow poolCap sent thread done queued)
    (room : thread.inbox.isFull = false) (stored : thread.inbox.slots[thread.inbox.head.toNat]? = some msg) :
    Flow poolCap (sent ++ [msg]) { thread with inbox := thread.inbox.publish } done (queued ++ [msg]) where
  split := by
    rw [flow.split, List.append_assoc]
    rfl
  ring := flow.ring.publish room stored
  shard := flow.shard
  counted := flow.counted
  aware := by
    have aware := flow.aware
    unfold Aware at aware ⊢
    dsimp only
    split
    next here =>
      rw [here] at aware
      exact List.append_ne_nil_of_left_ne_nil aware _
    next here =>
      rw [here] at aware
      rw [List.head?_append, aware]
      rfl
    next here =>
      rw [here] at aware
      exact aware
    · trivial

end ShardThread

end ChronoBook
