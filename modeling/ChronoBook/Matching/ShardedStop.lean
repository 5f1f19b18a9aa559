import ChronoBook.Matching.ShardedRun

/-! `stop` after the last message. A worker returns only from an empty inbox, so
when every message is routed and `stop` has returned nothing is left behind; and
a call of `stop` can always return. -/

namespace ChronoBook
open Library

namespace System

variable {n : Nat} {s s' : System n}

/-- All messages are routed, and a worker that has ended or was joined left nothing behind. -/
def Closed (s : System n) : Prop :=
  s.Routed ∧ ∀ i, (s.engine.shards i).Ended → (s.engine.shards i).inbox.empty = true

structure Called (s s' : System n) : Prop where
  remaining : s'.remaining = s.remaining
  route : s'.route = s.route
  inbox : ∀ i, (s'.engine.shards i).inbox = (s.engine.shards i).inbox
  ended : ∀ i, (s'.engine.shards i).Ended → (s.engine.shards i).Ended

theorem Called.written {i : Fin n} {thread : ShardThread} {control : ControlPc}
    (inbox : thread.inbox = (s.engine.shards i).inbox) (ended : thread.Ended → (s.engine.shards i).Ended) :
    Called s ⟨s.engine.setShard i thread, s.remaining, s.route, control⟩ where
  remaining := rfl
  route := rfl
  inbox := s.engine.forall_setShard (motive := fun j thread => thread.inbox = (s.engine.shards j).inbox)
    (fun _ _ => rfl) inbox
  ended := s.engine.forall_setShard (motive := fun j thread => thread.Ended → (s.engine.shards j).Ended)
    (fun _ _ => id) ended

theorem Called.turned {running : Bool} {control : ControlPc} :
    Called s ⟨⟨s.engine.shards, running⟩, s.remaining, s.route, control⟩ :=
  ⟨rfl, rfl, fun _ => rfl, fun _ => id⟩

theorem Commanded.called {move : Move n} (commanded : Commanded s move s') : Called s s' := by
  cases commanded with
  | running | started | resting | stopping | allCleared | overwritten | allSpawned | allSignalled | skipped | allJoined
  | closed => exact Called.turned
  | cleared | signalled => exact Called.written rfl id
  | spawned =>
    apply Called.written
    · rfl
    · rintro (absent | finished)
      · cases absent
      · cases finished
  | joined here inside finished =>
    apply Called.written
    · rfl
    · exact fun _ => Or.inr finished

theorem Called.closed (called : Called s s') (closed : s.Closed) : s'.Closed := by
  obtain ⟨⟨left, route⟩, drained⟩ := closed
  refine ⟨⟨called.remaining.trans left, called.route.trans route⟩, fun i ended => ?_⟩
  rw [called.inbox i]
  exact drained i (called.ended i ended)

def Told (s : System n) : Prop := ∀ i, (s.engine.shards i).stopFlag = true

theorem Told.setShard (told : s.Told) {i : Fin n} {thread : ShardThread} (flag : thread.stopFlag = true)
    {control : ControlPc} : Told ⟨s.engine.setShard i thread, s.remaining, s.route, control⟩ :=
  s.engine.forall_setShard (motive := fun _ thread => thread.stopFlag = true) (fun j _ => told j) flag

variable [NeZero n] {poolCap : Nat} {feed : List FeedMessage}

/-- When `stop` begins every worker is in its first loop. -/
theorem Invariant.closed (invariant : Invariant poolCap feed s) (routed : s.Routed) (runs : s.engine.running = true)
    (moved : s.stopStep = some s') : s'.Closed := by
  have controlled := invariant.controlled
  unfold Controlled at controlled
  cases commanded_stop moved with
  | resting idle rests =>
    rw [rests] at runs
    cases runs
  | stopping idle =>
    rw [idle] at controlled
    dsimp only at controlled
    rw [if_pos runs] at controlled
    refine ⟨routed, fun i ended => ?_⟩
    obtain ⟨_, pc, worker, main⟩ := controlled i
    unfold ShardThread.Ended at ended
    dsimp only at ended
    rw [worker] at ended
    rcases ended with absent | finished
    · cases absent
    · cases finished
      cases main

theorem Closed.step (closed : s.Closed) (invariant : Invariant poolCap feed s) {move : Move n}
    (moved : s.step move = some s') : s'.Closed := by
  cases move with
  | route =>
    change s.routeStep = some s' at moved
    unfold routeStep at moved
    rw [closed.1.1] at moved
    cases moved
  | start => exact (commanded_start moved).called.closed closed
  | stop => exact (commanded_stop moved).called.closed closed
  | control => exact (commanded_control moved).called.closed closed
  | work i =>
    obtain ⟨thread, worked, same⟩ := Option.map_eq_some_iff.mp moved
    cases same
    obtain ⟨_, _, flows⟩ := invariant.flows
    obtain ⟨_, _, flow⟩ := flows i
    have after := (flow.work worked).1
    refine ⟨closed.1, s.engine.forall_setShard
      (motive := fun _ thread => thread.Ended → thread.inbox.empty = true) (fun j _ => closed.2 j) ?_⟩
    rintro (absent | finished)
    · exact absurd absent after.present
    · exact after.ended finished

theorem Closed.run (moves : List (Move n)) :
    ∀ {s : System n}, s.Closed → Invariant poolCap feed s → s.run moves = some s' → s'.Closed := by
  intro s closed invariant ran
  rw [run_eq] at ran
  refine (runFrom_keeps (P := fun next => next.Closed ∧ Invariant poolCap feed next) ?_ ran ⟨closed, invariant⟩).1
  intro before move after _ moved ⟨closed, invariant⟩
  exact ⟨closed.step invariant moved, invariant.step moved⟩

/-- After `stop` every shard has applied and counted all messages of its symbols. -/
theorem Closed.drained (closed : s.Closed) (invariant : Invariant poolCap feed s) (stopped : s.Stopped) (i : Fin n) :
    (Shard.fresh poolCap).applyAll (bound n i feed) = some (s.engine.shards i).toShard ∧
      (s.engine.shards i).processed = (bound n i feed).length := by
  have absent : (s.engine.shards i).worker = none := by
    have controlled := invariant.controlled
    unfold Controlled at controlled
    rw [stopped.1] at controlled
    dsimp only at controlled
    rw [if_neg (by simp [stopped.2])] at controlled
    exact controlled i
  obtain ⟨routed, split, flows⟩ := invariant.flows
  obtain ⟨done, queued, flow⟩ := flows i
  rw [closed.1.1, List.append_nil] at split
  have nothing := flow.ring.empty_iff.mp (closed.2 i (Or.inl absent))
  have whole := flow.split
  have counted := flow.counted
  simp only [ShardThread.held, ShardThread.pending, absent] at whole counted
  rw [nothing, List.append_nil, List.append_nil] at whole
  rw [split, whole]
  exact ⟨flow.shard, counted⟩

theorem run_append (earlier later : List (Move n)) : ∀ {s middle : System n}, s.run earlier = some middle →
    s.run (earlier ++ later) = middle.run later := by
  intro s middle ran
  rw [run_eq] at ran
  rw [run_eq, runFrom_append, ran, Option.bind_some, run_eq]

theorem run_step {move : Move n} (moved : s.step move = some s') {later : List (Move n)} {last : System n}
    (ran : s'.run later = some last) : s.run (move :: later) = some last := by
  rw [System.run, moved]
  exact ran

/-- Left alone, a worker that was told to stop comes to its end. -/
theorem Told.finishes {sent : List FeedMessage} (i : Fin n) (bound : Nat) :
    ∀ {s : System n} {done queued : List FeedMessage} {pc : WorkerPc}, s.Told →
      ShardThread.Flow poolCap sent (s.engine.shards i) done queued → (s.engine.shards i).worker = some pc →
      ShardThread.rank queued.length pc < bound →
      ∃ moves last, s.run moves = some last ∧ last.Told ∧ last.control = s.control ∧
        (last.engine.shards i).worker = some .finished := by
  induction bound with
  | zero =>
    intro s done queued pc _ _ _ impossible
    exact absurd impossible (Nat.not_lt_zero _)
  | succ bound ih =>
    intro s done queued pc told flow here below
    by_cases ended : (s.engine.shards i).Ended
    · rcases ended with absent | finished
      · rw [absent] at here
        cases here
      · exact ⟨[], s, rfl, told, rfl, finished⟩
    · obtain ⟨thread, moved⟩ := flow.can_work ended
      obtain ⟨worked, done', queued', flow', closer⟩ := flow.work moved
      obtain ⟨pc', there, less⟩ := closer (told i) pc here
      have step : s.step (.work i) = some { s with engine := s.engine.setShard i thread } := by
        rw [System.step, moved]
        rfl
      have self : (s.engine.setShard i thread).shards i = thread := s.engine.setShard_self i thread
      obtain ⟨moves, last, ran, told', control, finished⟩ :=
        ih (s := { s with engine := s.engine.setShard i thread })
          (told.setShard (worked.stopFlag.trans (told i))) (self.symm ▸ flow') (self.symm ▸ there) (by omega)
      exact ⟨.work i :: moves, last, run_step step ran, told', control, finished⟩

theorem Invariant.joins (fuel : Nat) : ∀ {s : System n} {next : Nat}, Invariant poolCap feed s → s.Told →
    s.control = .joining next → n - next = fuel → ∃ moves last, s.run moves = some last ∧ last.Stopped := by
  induction fuel with
  | zero =>
    intro s next _ _ here beyond
    have past : ¬next < n := by omega
    refine ⟨[.control, .control],
      { s with engine := { s.engine with running := false }, control := .idle }, ?_, rfl, rfl⟩
    simp [System.run, System.step, controlStep, here, past]
  | succ fuel ih =>
    intro s next invariant told here left
    have inside : next < n := by omega
    cases present : (s.engine.shards ⟨next, inside⟩).worker with
    | none =>
      have step : s.step .control = some { s with control := .joining (next + 1) } := by
        simp [System.step, controlStep, here, inside, present]
      obtain ⟨moves, last, ran, stopped⟩ := ih (invariant.step step) told rfl (by omega)
      exact ⟨.control :: moves, last, run_step step ran, stopped⟩
    | some pc =>
      obtain ⟨_, _, flows⟩ := invariant.flows
      obtain ⟨done, queued, flow⟩ := flows ⟨next, inside⟩
      obtain ⟨waits, middle, waited, told', control, finished⟩ :=
        told.finishes ⟨next, inside⟩ _ flow present (Nat.lt_succ_self _)
      have still := control.trans here
      have step : middle.step .control = some { middle with
          engine := middle.engine.setShard ⟨next, inside⟩ { middle.engine.shards ⟨next, inside⟩ with worker := none }
          control := .joining (next + 1) } := by
        simp [System.step, controlStep, still, inside, finished]
      have flag : ({ middle.engine.shards ⟨next, inside⟩ with worker := none } : ShardThread).stopFlag = true :=
        told' ⟨next, inside⟩
      obtain ⟨moves, last, ran, stopped⟩ :=
        ih ((invariant.run waits waited).step step) (told'.setShard flag) rfl (by omega)
      refine ⟨waits ++ .control :: moves, last, ?_, stopped⟩
      rw [run_append _ _ waited]
      exact run_step step ran

/-- The loop of `stop` that sets the flags can run to its end, and the joins after it. -/
theorem Invariant.signals (fuel : Nat) : ∀ {s : System n} {next : Nat}, Invariant poolCap feed s →
    (∀ i, i.val < next → (s.engine.shards i).stopFlag = true) → s.control = .signalling next → n - next = fuel →
    ∃ moves last, s.run moves = some last ∧ last.Stopped := by
  induction fuel with
  | zero =>
    intro s next invariant told here beyond
    have past : ¬next < n := by omega
    have step : s.step .control = some { s with control := .joining 0 } := by
      simp [System.step, controlStep, here, past]
    obtain ⟨moves, last, ran, stopped⟩ := (invariant.step step).joins n (fun i => told i (by omega)) rfl rfl
    exact ⟨.control :: moves, last, run_step step ran, stopped⟩
  | succ fuel ih =>
    intro s next invariant told here left
    have inside : next < n := by omega
    have step : s.step .control = some { s with
        engine := s.engine.setShard ⟨next, inside⟩ { s.engine.shards ⟨next, inside⟩ with stopFlag := true }
        control := .signalling (next + 1) } := by
      simp [System.step, controlStep, here, inside]
    have told' := s.engine.forall_setShard (i := ⟨next, inside⟩)
      (motive := fun j thread => j.val < next + 1 → thread.stopFlag = true)
      (fun j other below => told j (by
        have unlike : j.val ≠ next := fun same => other (Fin.ext same)
        omega))
      (fun _ => (rfl : ({ s.engine.shards ⟨next, inside⟩ with stopFlag := true } : ShardThread).stopFlag = true))
    obtain ⟨moves, last, ran, stopped⟩ := ih (invariant.step step) told' rfl (by omega)
    exact ⟨.control :: moves, last, run_step step ran, stopped⟩

theorem Invariant.stops (invariant : Invariant poolCap feed s) (moved : s.stopStep = some s') :
    ∃ moves last, s'.run moves = some last ∧ last.Stopped := by
  have after := invariant.commanded (commanded_stop moved)
  cases commanded_stop moved with
  | resting idle rests => exact ⟨[], s, rfl, idle, rests⟩
  | stopping => exact after.signals n (fun i below => absurd below (Nat.not_lt_zero _)) rfl rfl

end System

end ChronoBook
