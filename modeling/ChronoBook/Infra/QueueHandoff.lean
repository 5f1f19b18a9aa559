import ChronoBook.Infra.ThreadSafeQueue

/-! One producer and one consumer of the queue: the producer pushes a feed and closes,
the consumer applies what it pops until there is nothing more. Every interleaving of the
two applies the feed in its order, and every one comes to an end. -/

namespace ChronoBook
open Library Monitor

structure Handoff (m : Nat) (T σ : Type) where
  queue : Monitor m (ThreadSafeQueue T) (QueuePlace T)
  /-- What the producer has still to push. -/
  feed : List T
  closing : Bool := false
  /-- The consumer has not yet looked at what its call of `pop` returns. -/
  popping : Bool := false
  finished : Bool := false
  state : σ
  /-- An account that nobody reads. -/
  applied : List T := []

/-- The producer or the consumer does what comes next between its calls, or a call goes on. -/
inductive HandoffMove (m : Nat) (T : Type) where
  | produce
  | consume
  | inside (move : Move m (QueuePlace T))
  deriving DecidableEq, Repr

namespace Handoff
open ThreadSafeQueue

variable {m : Nat} {T σ : Type}

section Model

variable (producer consumer : Fin m) (apply : σ → T → Option σ)

def produce (s : Handoff m T σ) : Option (Handoff m T σ) :=
  match s.feed with
  | value :: rest => (s.queue.step (program T) (.call producer (.pushLock value))).map (fun queue =>
      { s with queue := queue, feed := rest })
  | [] => if s.closing then none
      else (s.queue.step (program T) (.call producer .closeLock)).map (fun queue =>
        { s with queue := queue, closing := true })

def consume (s : Handoff m T σ) : Option (Handoff m T σ) :=
  if s.finished then none
  else if s.popping then
    match s.queue.threads consumer with
    | .running (.returned (.pop (some value))) => (apply s.state value).map (fun state =>
        { s with popping := false, state := state, applied := s.applied ++ [value] })
    | .running (.returned (.pop none)) => some { s with popping := false, finished := true }
    | _ => none
  else (s.queue.step (program T) (.call consumer .popLock)).map (fun queue =>
    { s with queue := queue, popping := true })

def inside (s : Handoff m T σ) (move : Move m (QueuePlace T)) : Option (Handoff m T σ) :=
  match move with
  | .call _ _ => none
  | _ => (s.queue.step (program T) move).map (fun queue => { s with queue := queue })

def step (s : Handoff m T σ) : HandoffMove m T → Option (Handoff m T σ)
  | .produce => s.produce producer
  | .consume => s.consume consumer apply
  | .inside move => s.inside move

def run (s : Handoff m T σ) (moves : List (HandoffMove m T)) : Option (Handoff m T σ) :=
  runFrom (step producer consumer apply) s moves

def create (m : Nat) (feed : List T) (initial : σ) : Handoff m T σ :=
  { queue := ThreadSafeQueue.create T m, feed := feed, state := initial }

end Model

/-! Where the two can stand. -/

/-- The producer, by what it has begun and by what the queue shows of it. -/
def Produces (closing closed : Bool) : Thread (QueuePlace T) → Prop
  | .running .idle => closing = false ∧ closed = false
  | .running (.returned .push) => closing = false ∧ closed = false
  | .running (.pushLock _) => closing = false ∧ closed = false
  | .running (.pushBody _) => closing = false ∧ closed = false
  | .running .pushUnlock => closing = false ∧ closed = false
  | .running .pushNotify => closing = false ∧ closed = false
  | .running .closeLock => closing = true ∧ closed = false
  | .running .closeBody => closing = true ∧ closed = false
  | .running .closeUnlock => closing = true ∧ closed = true
  | .running .closeNotify => closing = true ∧ closed = true
  | .running (.returned .close) => closing = true ∧ closed = true
  | _ => False

def pushing : Thread (QueuePlace T) → List T
  | .running (.pushLock value) => [value]
  | .running (.pushBody value) => [value]
  | _ => []

def Consumes (popping finished : Bool) : Thread (QueuePlace T) → Prop
  | .running .idle => popping = false ∧ finished = false
  | .running .popLock => popping = true ∧ finished = false
  | .running .popTest => popping = true ∧ finished = false
  | .running .popWait => popping = true ∧ finished = false
  | .running .popEmpty => popping = true ∧ finished = false
  | .running (.front true) => popping = true ∧ finished = false
  | .running (.take true _) => popping = true ∧ finished = false
  | .running (.leave (.pop _)) => popping = true ∧ finished = false
  | .running (.returned (.pop (some _))) => finished = false
  | .running (.returned (.pop none)) => popping = !finished
  | .asleep .popTest none => popping = true ∧ finished = false
  | .waking .popTest => popping = true ∧ finished = false
  | _ => False

def told : Thread (QueuePlace T) → Bool
  | .running (.leave (.pop none)) => true
  | .running (.returned (.pop none)) => true
  | _ => false

/-- The element that was popped and not yet applied. -/
def inHand (popping : Bool) : Thread (QueuePlace T) → List T
  | .running (.leave (.pop (some value))) => [value]
  | .running (.returned (.pop (some value))) => if popping then [value] else []
  | _ => []

/-- Everything is accounted for: what was pushed, is being pushed and is left makes the feed; what was popped is what was
applied and what is in the consumer's hand. -/
structure Fits (apply : σ → T → Option σ) (initial : σ) (whole : List T) (s : Handoff m T σ) (queue : ThreadSafeQueue T)
    (producing consuming : Thread (QueuePlace T)) : Prop where
  produces : Produces s.closing queue.closed producing
  consumes : Consumes s.popping s.finished consuming
  pushed : queue.pushed ++ pushing producing ++ s.feed = whole
  spent : s.closing = true → s.feed = []
  popped : queue.popped = s.applied ++ inHand s.popping consuming
  ended : told consuming = true → queue.closed = true ∧ queue.q = []
  state : s.applied.foldlM apply initial = some s.state

structure Placed (producer consumer : Fin m) (queue : Monitor m (ThreadSafeQueue T) (QueuePlace T))
    (producing consuming : Thread (QueuePlace T)) : Prop where
  produces : queue.threads producer = producing
  consumes : queue.threads consumer = consuming
  others : ∀ u, u ≠ producer → u ≠ consumer → queue.threads u = .running .idle

section Places

variable {producer consumer : Fin m} {queue queue' : Monitor m (ThreadSafeQueue T) (QueuePlace T)}
  {producing consuming : Thread (QueuePlace T)}

theorem Placed.produced (placed : Placed producer consumer queue producing consuming) (different : producer ≠ consumer)
    (now : Thread (QueuePlace T)) (shared : ThreadSafeQueue T) (owner : Option (Fin m)) :
    Placed producer consumer ⟨shared, owner, Function.update queue.threads producer now⟩ now consuming where
  produces := Function.update_self _ _ _
  consumes := (Function.update_of_ne different.symm _ _).trans placed.consumes
  others u other others := (Function.update_of_ne other _ _).trans (placed.others u other others)

theorem Placed.consumed (placed : Placed producer consumer queue producing consuming) (different : producer ≠ consumer)
    (now : Thread (QueuePlace T)) (shared : ThreadSafeQueue T) (owner : Option (Fin m)) :
    Placed producer consumer ⟨shared, owner, Function.update queue.threads consumer now⟩ producing now where
  produces := (Function.update_of_ne different _ _).trans placed.produces
  consumes := Function.update_self _ _ _
  others u other others := (Function.update_of_ne others _ _).trans (placed.others u other others)

theorem Placed.roused (placed : Placed producer consumer queue producing consuming) :
    Placed producer consumer ⟨queue.shared, queue.owner, fun u => (queue.threads u).rouse⟩ producing.rouse
      consuming.rouse where
  produces := congrArg Thread.rouse placed.produces
  consumes := congrArg Thread.rouse placed.consumes
  others u other others := congrArg Thread.rouse (placed.others u other others)

/-- Whoever does something is one of the two. -/
theorem Placed.busy (placed : Placed producer consumer queue producing consuming) {t : Fin m}
    {thread : Thread (QueuePlace T)} (place : queue.threads t = thread) (busy : thread ≠ .running .idle) :
    (t = producer ∧ producing = thread) ∨ (t = consumer ∧ consuming = thread) := by
  by_cases first : t = producer
  · subst first
    exact Or.inl ⟨rfl, placed.produces.symm.trans place⟩
  · by_cases second : t = consumer
    · subst second
      exact Or.inr ⟨rfl, placed.consumes.symm.trans place⟩
    · exact absurd (place.symm.trans (placed.others t first second)) busy

end Places

section Steps

variable {producer consumer : Fin m} {apply : σ → T → Option σ} {initial : σ} {whole : List T} {s s' : Handoff m T σ}
  {queue queue' : Monitor m (ThreadSafeQueue T) (QueuePlace T)} {shared : ThreadSafeQueue T}
  {producing consuming : Thread (QueuePlace T)} {here : QueuePlace T}

theorem Fits.produced (fits : Fits apply initial whole s shared producing consuming) {now : Thread (QueuePlace T)}
    (produces : Produces s.closing shared.closed producing → Produces s.closing shared.closed now)
    (same : pushing now = pushing producing) : Fits apply initial whole s shared now consuming :=
  { fits with
    produces := produces fits.produces
    pushed := by rw [same]; exact fits.pushed }

theorem Fits.consumed (fits : Fits apply initial whole s shared producing consuming) {now : Thread (QueuePlace T)}
    (consumes : Consumes s.popping s.finished consuming → Consumes s.popping s.finished now)
    (same : inHand s.popping now = inHand s.popping consuming)
    (ends : told now = true → told consuming = true ∨ shared.closed = true ∧ shared.q = []) :
    Fits apply initial whole s shared producing now :=
  { fits with
    consumes := consumes fits.consumes
    popped := by rw [same]; exact fits.popped
    ended := fun ended => (ends ended).elim fits.ended id }

/-- Nothing has ended while the queue is open. -/
theorem Fits.untold (fits : Fits apply initial whole s shared producing consuming) (opened : shared.closed = false) :
    told consuming = false := by
  cases ended : told consuming with
  | false => rfl
  | true =>
    have closed := (fits.ended ended).1
    rw [opened] at closed
    cases closed

theorem Fits.producer_acts (fits : Fits apply initial whole s shared (.running here) consuming)
    {act : ThreadSafeQueue T → ThreadSafeQueue T × QueuePlace T} (acts : code here = .act act) :
    Fits apply initial whole s (act shared).1 (.running (act shared).2) consuming := by
  cases here with
  | pushBody value =>
    cases acts
    have untold := fits.untold fits.produces.2
    refine { fits with produces := fits.produces, pushed := ?_, ended := fun ended => ?_ }
    · rw [← fits.pushed]
      simp [pushing]
    · rw [untold] at ended
      cases ended
  | closeBody =>
    cases acts
    have untold := fits.untold fits.produces.2
    refine { fits with produces := ⟨fits.produces.1, rfl⟩, pushed := fits.pushed, ended := fun ended => ?_ }
    rw [untold] at ended
    cases ended
  | popTest | popEmpty | tryPopEmpty | front | take | closedRead | sizeRead | undefined => exact fits.produces.elim
  | _ => cases acts

theorem Fits.consumer_acts (fits : Fits apply initial whole s shared producing (.running here))
    (asserted : asserts here shared) {act : ThreadSafeQueue T → ThreadSafeQueue T × QueuePlace T}
    (acts : code here = .act act) : Fits apply initial whole s (act shared).1 producing (.running (act shared).2) := by
  cases here with
  | popTest =>
    cases acts
    dsimp only
    split <;> exact fits.consumed id rfl nofun
  | popEmpty =>
    cases acts
    dsimp only
    split
    next empty =>
      have none : shared.q = [] := List.isEmpty_iff.mp empty
      exact fits.consumed id rfl (fun _ => Or.inr ⟨asserted.resolve_left (fun some => some none), none⟩)
    next => exact fits.consumed id rfl nofun
  | front pops =>
    cases acts
    cases pops with
    | false => exact fits.consumes.elim
    | true =>
      dsimp only
      split
      next none => exact absurd none asserted
      next => exact fits.consumed id rfl nofun
  | take pops value =>
    cases acts
    cases pops with
    | false => exact fits.consumes.elim
    | true =>
      dsimp only
      split
      next none =>
        rw [asserts, none] at asserted
        cases asserted
      next =>
        refine { fits with consumes := fits.consumes, popped := ?_, ended := nofun }
        change shared.popped ++ [value] = s.applied ++ [value]
        rw [fits.popped]
        exact congrArg (· ++ [value]) (List.append_nil _)
  | pushBody | closeBody | tryPopEmpty | closedRead | sizeRead | undefined => exact fits.consumes.elim
  | _ => cases acts

/-- The instruction uses the mutex or the condition variable and goes on at once. -/
def Leads (here next : QueuePlace T) : Prop :=
  code here = .lock next ∨ code here = .unlock next ∨ code here = .notifyOne next ∨ code here = .notifyAll next

theorem Fits.producer_goes (fits : Fits apply initial whole s shared (.running here) consuming) {next : QueuePlace T}
    (leads : Leads here next) : Fits apply initial whole s shared (.running next) consuming := by
  cases here with
  | pushLock | pushUnlock | pushNotify | closeLock | closeUnlock | closeNotify =>
    rcases leads with leads | leads | leads | leads <;> cases leads
    exact fits.produced id rfl
  | popLock | popWait | tryPopLock | closedLock | sizeLock | leave => exact fits.produces.elim
  | _ => rcases leads with leads | leads | leads | leads <;> cases leads

theorem Fits.consumer_goes (fits : Fits apply initial whole s shared producing (.running here)) {next : QueuePlace T}
    (leads : Leads here next) : Fits apply initial whole s shared producing (.running next) := by
  cases here with
  | popLock =>
    rcases leads with leads | leads | leads | leads <;> cases leads
    exact fits.consumed id rfl nofun
  | leave result =>
    rcases leads with leads | leads | leads | leads <;> cases leads
    cases result with
    | pop value =>
      obtain ⟨pops, going⟩ := fits.consumes
      cases value with
      | some value =>
        refine fits.consumed (fun _ => going) ?_ nofun
        rw [pops]
        rfl
      | none =>
        refine fits.consumed (fun _ => ?_) rfl (fun _ => Or.inl rfl)
        rw [pops, going]
        rfl
    | _ => exact fits.consumes.elim
  | pushLock | pushUnlock | pushNotify | closeLock | closeUnlock | closeNotify | tryPopLock | closedLock | sizeLock =>
    exact fits.consumes.elim
  | _ => rcases leads with leads | leads | leads | leads <;> cases leads

theorem Consumes.asleep {popping finished : Bool} {next : QueuePlace T} {late : Option (QueuePlace T)}
    (consumes : Consumes popping finished (.asleep next late)) : next = .popTest ∧ late = none := by
  cases next with
  | popTest =>
    cases late with
    | none => exact ⟨rfl, rfl⟩
    | some place => exact consumes.elim
  | _ => exact consumes.elim

theorem Consumes.waking {popping finished : Bool} {next : QueuePlace T}
    (consumes : Consumes popping finished (.waking next)) : next = .popTest := by
  cases next with
  | popTest => rfl
  | _ => exact consumes.elim

/-- Only the consumer sleeps, and only in `pop`. -/
theorem Fits.asleep (placed : Placed producer consumer queue producing consuming)
    (fits : Fits apply initial whole s queue.shared producing consuming) {t : Fin m} {next : QueuePlace T}
    {late : Option (QueuePlace T)} (place : queue.threads t = .asleep next late) :
    t = consumer ∧ consuming = .asleep .popTest none ∧ next = .popTest ∧ late = none := by
  rcases placed.busy place nofun with ⟨rfl, rfl⟩ | ⟨rfl, rfl⟩
  · exact fits.produces.elim
  · obtain ⟨rfl, rfl⟩ := fits.consumes.asleep
    exact ⟨rfl, rfl, rfl, rfl⟩

theorem Fits.wakes (fits : Fits apply initial whole s shared producing (.asleep .popTest none)) :
    Fits apply initial whole s shared producing (.waking .popTest) := fits.consumed id rfl nofun

theorem Fits.rouse (fits : Fits apply initial whole s shared producing consuming) :
    Fits apply initial whole s shared producing consuming.rouse := by
  cases consuming with
  | asleep next late =>
    obtain ⟨rfl, rfl⟩ := fits.consumes.asleep
    exact fits.wakes
  | _ => exact fits

theorem Produces.rouse {closing closed : Bool} (produces : Produces closing closed producing) :
    producing.rouse = producing := by
  cases producing with
  | asleep next late => exact produces.elim
  | _ => rfl

theorem Fits.inside (different : producer ≠ consumer) (placed : Placed producer consumer queue producing consuming)
    (annotated : queue.Annotated Inv asserts) (fits : Fits apply initial whole s queue.shared producing consuming)
    (stepped : Stepped { program T with entry := fun _ => false } queue queue') :
    ∃ producing' consuming', Placed producer consumer queue' producing' consuming' ∧
      Fits apply initial whole s queue'.shared producing' consuming' := by
  cases stepped with
  | called place idle allowed => cases allowed
  | @acted t here act place acts =>
    have asserted := annotated.running place
    rcases placed.busy place (by rintro ⟨⟩; cases acts) with ⟨rfl, rfl⟩ | ⟨rfl, rfl⟩
    · exact ⟨_, _, placed.produced different _ _ _, fits.producer_acts acts⟩
    · exact ⟨_, _, placed.consumed different _ _ _, fits.consumer_acts asserted acts⟩
  | failed place fails => cases fails
  | @locked t here next place locks free =>
    rcases placed.busy place (by rintro ⟨⟩; cases locks) with ⟨rfl, rfl⟩ | ⟨rfl, rfl⟩
    · exact ⟨_, _, placed.produced different _ _ _, fits.producer_goes (Or.inl locks)⟩
    · exact ⟨_, _, placed.consumed different _ _ _, fits.consumer_goes (Or.inl locks)⟩
  | @unlocked t here next place unlocks mine =>
    rcases placed.busy place (by rintro ⟨⟩; cases unlocks) with ⟨rfl, rfl⟩ | ⟨rfl, rfl⟩
    · exact ⟨_, _, placed.produced different _ _ _, fits.producer_goes (Or.inr (Or.inl unlocks))⟩
    · exact ⟨_, _, placed.consumed different _ _ _, fits.consumer_goes (Or.inr (Or.inl unlocks))⟩
  | @relocked t next place free =>
    rcases placed.busy place nofun with ⟨rfl, rfl⟩ | ⟨rfl, rfl⟩
    · exact fits.produces.elim
    · obtain rfl := fits.consumes.waking
      exact ⟨_, _, placed.consumed different _ _ _, fits.consumed id rfl nofun⟩
  | @slept t here next late place waits mine =>
    rcases placed.busy place (by rintro ⟨⟩; cases waits) with ⟨rfl, rfl⟩ | ⟨rfl, rfl⟩
    · cases here with
      | popWait => exact fits.produces.elim
      | _ => cases waits
    · cases here with
      | popWait =>
        cases waits
        exact ⟨_, _, placed.consumed different _ _ _, fits.consumed id rfl nofun⟩
      | _ => cases waits
  | @unheard t here next place notifies nobody =>
    rcases placed.busy place (by rintro ⟨⟩; cases notifies) with ⟨rfl, rfl⟩ | ⟨rfl, rfl⟩
    · exact ⟨_, _, placed.produced different _ _ _, fits.producer_goes (Or.inr (Or.inr (Or.inl notifies)))⟩
    · exact ⟨_, _, placed.consumed different _ _ _, fits.consumer_goes (Or.inr (Or.inr (Or.inl notifies)))⟩
  | @signalled t u here next wakes late place notifies sleeper =>
    obtain ⟨rfl, rfl, rfl, rfl⟩ := fits.asleep placed sleeper
    rcases placed.busy place (by rintro ⟨⟩; cases notifies) with ⟨rfl, rfl⟩ | ⟨_, same⟩
    · have woken := placed.consumed different (.waking .popTest) queue.shared queue.owner
      exact ⟨_, _, woken.produced different _ _ _, fits.wakes.producer_goes (Or.inr (Or.inr (Or.inl notifies)))⟩
    · cases same
  | @broadcast t here next place notifies =>
    have leads : Leads here next := Or.inr (Or.inr (Or.inr notifies))
    rcases placed.busy place (by rintro ⟨⟩; cases notifies) with ⟨rfl, rfl⟩ | ⟨rfl, rfl⟩
    · have went := placed.produced different (.running next) queue.shared queue.owner
      exact ⟨_, _, went.roused, (fits.producer_goes leads).rouse⟩
    · have went := placed.consumed different (.running next) queue.shared queue.owner
      have roused := went.roused
      rw [fits.produces.rouse] at roused
      exact ⟨_, _, roused, fits.consumer_goes leads⟩
  | @roused t next late place =>
    obtain ⟨rfl, rfl, rfl, rfl⟩ := fits.asleep placed place
    exact ⟨_, _, placed.consumed different _ _ _, fits.wakes⟩
  | @expired t next late place =>
    obtain ⟨_, _, _, untimed⟩ := fits.asleep placed place
    cases untimed

theorem Consumes.finished {popping : Bool} (consumes : Consumes popping true consuming) :
    consuming = .running (.returned (.pop none)) := by
  unfold Consumes at consumes
  split at consumes <;> first | rfl | cases consumes.2 | cases consumes

theorem Produces.closed {closing : Bool} (produces : Produces closing true producing) :
    closing = true ∧ pushing producing = [] := by
  unfold Produces at produces
  split at produces <;> first | exact ⟨produces.1, rfl⟩ | cases produces.2 | cases produces

/-- Between calls the producer has either begun to close and closed, or neither. -/
theorem Produces.between {closing closed : Bool} (produces : Produces closing closed (.running here))
    (idle : code here = .idle) : closing = closed ∧ pushing (.running here) = [] := by
  cases here with
  | idle => exact ⟨produces.1.trans produces.2.symm, rfl⟩
  | returned result =>
    cases result with
    | push | close => exact ⟨produces.1.trans produces.2.symm, rfl⟩
    | _ => exact produces.elim
  | _ => cases idle

/-- Between calls the consumer has a result to look at, or it can call again. -/
theorem Consumes.between {popping finished : Bool} (consumes : Consumes popping finished (.running here))
    (idle : code here = .idle) : (popping = false ∧ finished = false ∧ inHand popping (.running here) = []) ∨
      (∃ value, popping = true ∧ finished = false ∧ here = .returned (.pop (some value))) ∨
        (popping = !finished ∧ here = .returned (.pop none)) := by
  cases here with
  | idle => exact Or.inl ⟨consumes.1, consumes.2, rfl⟩
  | returned result =>
    cases result with
    | pop value =>
      cases value with
      | none => exact Or.inr (Or.inr ⟨consumes, rfl⟩)
      | some value =>
        cases popping with
        | false => exact Or.inl ⟨rfl, consumes, rfl⟩
        | true => exact Or.inr (Or.inl ⟨value, rfl, consumes, rfl⟩)
    | _ => exact consumes.elim
  | _ => cases idle

end Steps

/-- The queue is as some run of it leaves it, and everything is accounted for. -/
structure Handed (producer consumer : Fin m) (apply : σ → T → Option σ) (initial : σ) (whole : List T)
    (s : Handoff m T σ) : Prop where
  reached : ∃ moves, (ThreadSafeQueue.create T m).run (program T) moves = some s.queue
  fits : ∃ producing consuming, Placed producer consumer s.queue producing consuming ∧
    Fits apply initial whole s s.queue.shared producing consuming

section Runs

variable {producer consumer : Fin m} {apply : σ → T → Option σ} {initial : σ} {whole : List T} {s s' : Handoff m T σ}
  {queue : Monitor m (ThreadSafeQueue T) (QueuePlace T)}

theorem reached_step {move : Move m (QueuePlace T)} (moved : s.queue.step (program T) move = some queue)
    (reached : ∃ moves, (ThreadSafeQueue.create T m).run (program T) moves = some s.queue) :
    ∃ moves, (ThreadSafeQueue.create T m).run (program T) moves = some queue := by
  obtain ⟨moves, ran⟩ := reached
  refine ⟨moves ++ [move], runFrom_two ran ?_⟩
  exact Option.bind_eq_some_iff.mpr ⟨queue, moved, rfl⟩

theorem Handed.produce (different : producer ≠ consumer) (handed : Handed producer consumer apply initial whole s)
    (moved : s.produce producer = some s') : Handed producer consumer apply initial whole s' := by
  obtain ⟨producing, consuming, placed, fits⟩ := handed.fits
  unfold Handoff.produce at moved
  split at moved
  next value rest feed =>
    obtain ⟨queue, called, rfl⟩ := Option.map_eq_some_iff.mp moved
    obtain ⟨here, place, idle, rfl⟩ := called_of_step called
    obtain rfl := placed.produces.symm.trans place
    obtain ⟨same, none⟩ := fits.produces.between idle
    have opened : s.closing = false := by
      cases closing : s.closing with
      | false => rfl
      | true =>
        have spent := fits.spent closing
        rw [feed] at spent
        cases spent
    refine ⟨reached_step called handed.reached, _, _, placed.produced different (.running (.pushLock value)) _ _, ?_⟩
    refine { fits with produces := ⟨opened, same.symm.trans opened⟩, pushed := ?_, spent := ?_ }
    · rw [← fits.pushed, none, feed, List.append_nil]
      exact List.append_assoc _ _ _
    · intro closing
      rw [opened] at closing
      cases closing
  next feed =>
    split at moved
    next => cases moved
    next opened =>
      obtain ⟨queue, called, rfl⟩ := Option.map_eq_some_iff.mp moved
      obtain ⟨here, place, idle, rfl⟩ := called_of_step called
      obtain rfl := placed.produces.symm.trans place
      obtain ⟨same, none⟩ := fits.produces.between idle
      refine ⟨reached_step called handed.reached, _, _, placed.produced different (.running .closeLock) _ _, ?_⟩
      refine { fits with produces := ⟨rfl, ?_⟩, pushed := ?_, spent := fun _ => feed }
      · exact same.symm.trans (Bool.eq_false_of_not_eq_true opened)
      · rw [← fits.pushed, none]
        rfl

theorem Handed.consume (different : producer ≠ consumer) (handed : Handed producer consumer apply initial whole s)
    (moved : s.consume consumer apply = some s') : Handed producer consumer apply initial whole s' := by
  obtain ⟨producing, consuming, placed, fits⟩ := handed.fits
  unfold Handoff.consume at moved
  split at moved
  next => cases moved
  next going =>
    split at moved
    next popping =>
      split at moved
      next value place =>
        obtain ⟨state, applied, rfl⟩ := Option.map_eq_some_iff.mp moved
        obtain rfl := placed.consumes.symm.trans place
        refine ⟨handed.reached, _, _, placed, ?_⟩
        refine { fits with consumes := fits.consumes, popped := ?_, state := ?_ }
        · rw [fits.popped, popping]
          simp [inHand]
        · rw [List.foldlM_append, fits.state]
          change ([value].foldlM apply s.state) = some state
          rw [List.foldlM_cons, applied]
          rfl
      next place =>
        cases moved
        obtain rfl := placed.consumes.symm.trans place
        exact ⟨handed.reached, _, _, placed, { fits with consumes := rfl, popped := fits.popped }⟩
      next => cases moved
    next idle =>
      obtain ⟨queue, called, rfl⟩ := Option.map_eq_some_iff.mp moved
      obtain ⟨here, place, between, rfl⟩ := called_of_step called
      obtain rfl := placed.consumes.symm.trans place
      have idle := Bool.eq_false_of_not_eq_true idle
      have going := Bool.eq_false_of_not_eq_true going
      refine ⟨reached_step called handed.reached, _, _, placed.consumed different (.running .popLock) _ _, ?_⟩
      refine { fits with consumes := ⟨rfl, going⟩, popped := ?_, ended := nofun }
      rcases fits.consumes.between between with ⟨_, _, none⟩ | ⟨_, pops, _⟩ | ⟨ends, _⟩
      · have popped := fits.popped
        rw [none] at popped
        exact popped
      · rw [idle] at pops
        cases pops
      · rw [idle, going] at ends
        cases ends

theorem Handed.inside (different : producer ≠ consumer) (handed : Handed producer consumer apply initial whole s)
    {move : Move m (QueuePlace T)} (moved : s.inside move = some s') : Handed producer consumer apply initial whole s' := by
  obtain ⟨producing, consuming, placed, fits⟩ := handed.fits
  have inner : ∀ t entry, move ≠ .call t entry := by
    rintro t entry rfl
    cases moved
  have shape : s.inside move = (s.queue.step (program T) move).map (fun queue => { s with queue := queue }) := by
    cases move with
    | call t entry => exact absurd rfl (inner t entry)
    | _ => rfl
  obtain ⟨queue, stepped, rfl⟩ := Option.map_eq_some_iff.mp (shape.symm.trans moved)
  obtain ⟨moves, ran⟩ := handed.reached
  obtain ⟨producing', consuming', placed', fits'⟩ :=
    fits.inside different placed (kept ran).annotated (stepped_inside inner stepped)
  exact ⟨reached_step stepped handed.reached, producing', consuming', placed', { fits' with }⟩

theorem Handed.step (different : producer ≠ consumer) (handed : Handed producer consumer apply initial whole s)
    {move : HandoffMove m T} (moved : s.step producer consumer apply move = some s') :
    Handed producer consumer apply initial whole s' := by
  cases move with
  | produce => exact handed.produce different moved
  | consume => exact handed.consume different moved
  | inside move => exact handed.inside different moved

theorem Handed.create (producer consumer : Fin m) (apply : σ → T → Option σ) (initial : σ) (whole : List T) :
    Handed producer consumer apply initial whole (Handoff.create m whole initial) where
  reached := ⟨[], rfl⟩
  fits := by
    refine ⟨_, _, ⟨rfl, rfl, fun _ _ _ => rfl⟩, ?_⟩
    exact ⟨⟨rfl, rfl⟩, ⟨rfl, rfl⟩, rfl, nofun, rfl, nofun, rfl⟩

theorem Handed.run (different : producer ≠ consumer) {moves : List (HandoffMove m T)}
    (ran : (Handoff.create m whole initial).run producer consumer apply moves = some s) :
    Handed producer consumer apply initial whole s :=
  runFrom_keeps (fun _ _ _ _ moved before => before.step different moved) ran
    (Handed.create producer consumer apply initial whole)

/-! What the two have done. -/

theorem Handed.applied (handed : Handed producer consumer apply initial whole s) :
    ∃ consuming, s.queue.threads consumer = consuming ∧ s.applied ++ inHand s.popping consuming <+: whole := by
  obtain ⟨producing, consuming, placed, fits⟩ := handed.fits
  obtain ⟨moves, ran⟩ := handed.reached
  have queued : s.queue.shared.pushed = s.queue.shared.popped ++ s.queue.shared.q := (kept ran).annotated.inv
  refine ⟨consuming, placed.consumes, s.queue.shared.q ++ pushing producing ++ s.feed, ?_⟩
  rw [← fits.pushed, queued, fits.popped]
  simp

theorem Handed.finished (handed : Handed producer consumer apply initial whole s) (ends : s.finished = true) :
    s.applied = whole := by
  obtain ⟨producing, consuming, placed, fits⟩ := handed.fits
  obtain ⟨moves, ran⟩ := handed.reached
  have queued : s.queue.shared.pushed = s.queue.shared.popped ++ s.queue.shared.q := (kept ran).annotated.inv
  have consumes := fits.consumes
  have popped := fits.popped
  rw [ends] at consumes
  obtain rfl := consumes.finished
  obtain ⟨closed, none⟩ := fits.ended rfl
  have produces := fits.produces
  rw [closed] at produces
  obtain ⟨closing, pushed⟩ := produces.closed
  calc s.applied = s.queue.shared.popped := (popped.trans (List.append_nil _)).symm
    _ = s.queue.shared.pushed := by rw [queued, none, List.append_nil]
    _ = whole := by rw [← fits.pushed, pushed, fits.spent closing, List.append_nil, List.append_nil]

/-- Nobody can go on but by waking up without a reason. -/
def Stuck (producer consumer : Fin m) (apply : σ → T → Option σ) (s : Handoff m T σ) : Prop :=
  s.step producer consumer apply .produce = none ∧ s.step producer consumer apply .consume = none ∧ s.queue.Stuck (program T)

theorem Produces.stuck {closing closed : Bool} {here : QueuePlace T} (produces : Produces closing closed (.running here))
    (idle : code here = .idle) (begun : closing = true) : here = .returned .close := by
  cases here with
  | idle =>
    rw [begun] at produces
    cases produces.1
  | returned result =>
    cases result with
    | push =>
      rw [begun] at produces
      cases produces.1
    | close => rfl
    | _ => exact produces.elim
  | _ => cases idle

theorem Handed.producer_stuck (handed : Handed producer consumer apply initial whole s)
    (stuck : s.Stuck producer consumer apply) :
    s.queue.threads producer = .running (.returned .close) ∧ s.queue.shared.closed = true := by
  obtain ⟨producing, consuming, placed, fits⟩ := handed.fits
  obtain ⟨moves, ran⟩ := handed.reached
  have rests := stuck.2.2.rests (disciplined T) (kept ran).exclusive producer
  cases place : s.queue.threads producer with
  | asleep next late | waking next =>
    obtain rfl := placed.produces.symm.trans place
    exact fits.produces.elim
  | running here =>
    obtain rfl := placed.produces.symm.trans place
    rw [place] at rests
    have idle : code here = .idle := rests
    have still := stuck.1
    have begun : s.closing = true := by
      by_contra opened
      change s.produce producer = none at still
      unfold Handoff.produce at still
      split at still
      next value rest feed => rw [call_begins place idle rfl] at still; cases still
      next => rw [if_neg opened, call_begins place idle rfl] at still; cases still
    obtain rfl := fits.produces.stuck idle begun
    exact ⟨rfl, fits.produces.2⟩

theorem Handed.consumer_stuck (handed : Handed producer consumer apply initial whole s)
    (total : ∀ done value rest, whole = done ++ value :: rest → ∀ state, done.foldlM apply initial = some state →
      (apply state value).isSome = true)
    (stuck : s.Stuck producer consumer apply) (closed : s.queue.shared.closed = true) : s.finished = true := by
  obtain ⟨producing, consuming, placed, fits⟩ := handed.fits
  obtain ⟨moves, ran⟩ := handed.reached
  have rests := stuck.2.2.rests (disciplined T) (kept ran).exclusive consumer
  by_contra going
  have still := stuck.2.1
  change s.consume consumer apply = none at still
  rw [Handoff.consume, if_neg going] at still
  cases place : s.queue.threads consumer with
  | asleep next late =>
    have asleep : (s.queue.threads consumer).isAsleep = true := by rw [place]; rfl
    have opened := (ThreadSafeQueue.told ran).stuck (disciplined T) (closing_balanced T) (kept ran).exclusive stuck.2.2 asleep
    change s.queue.shared.closed.toNat = 0 at opened
    rw [closed] at opened
    cases opened
  | waking next =>
    rw [place] at rests
    exact rests.elim
  | running here =>
    obtain rfl := placed.consumes.symm.trans place
    rw [place] at rests
    have idle : code here = .idle := rests
    rcases fits.consumes.between idle with ⟨pops, _, _⟩ | ⟨value, pops, _, rfl⟩ | ⟨pops, rfl⟩
    · rw [pops, if_neg (by decide), call_begins place idle rfl] at still
      cases still
    · have popped := fits.popped
      obtain ⟨consuming', place', rest, split⟩ := handed.applied
      obtain rfl := place'.symm.trans place
      rw [pops] at split
      have some := total s.applied value rest (by rw [← split]; simp [inHand]) s.state fits.state
      obtain ⟨state, applies⟩ := Option.isSome_iff_exists.mp some
      rw [if_pos pops, place] at still
      dsimp only at still
      rw [applies] at still
      cases still
    · rw [Bool.eq_false_of_not_eq_true going, Bool.not_false] at pops
      rw [if_pos pops, place] at still
      cases still

/-! How long it takes. -/

/-- The steps that are left: those inside the queue, those of the producer for each element and for closing, and those of
the consumer for each element and for the end. -/
def steps (whole : List T) (s : Handoff m T σ) : Nat :=
  (tariff T m).price s.queue + (9 * s.feed.length + if s.closing then 0 else 3 * m + 6) +
    if s.finished then 0
    else 9 * (whole.length - s.applied.length) + if s.popping then 1 else 9

/-- A sleep that ends without a reason takes the consumer back to its test. -/
def charge : HandoffMove m T → Nat
  | .inside (.spurious _) => 4
  | _ => 0

theorem Handed.queue_pays (handed : Handed producer consumer apply initial whole s) {move : Move m (QueuePlace T)}
    (moved : s.queue.step (program T) move = some queue) :
    (tariff T m).price queue < (tariff T m).price s.queue + (tariff T m).charge move := by
  obtain ⟨moves, ran⟩ := handed.reached
  exact step_pays (paid T m) (kept ran).annotated moved

theorem Handed.produce_pays (handed : Handed producer consumer apply initial whole s)
    (moved : s.produce producer = some s') : s'.steps whole < s.steps whole := by
  unfold Handoff.produce at moved
  split at moved
  next value rest feed =>
    obtain ⟨queue, called, rfl⟩ := Option.map_eq_some_iff.mp moved
    have pays := handed.queue_pays called
    change _ < _ + (7 + 1) at pays
    unfold steps
    dsimp only
    rw [feed, List.length_cons]
    omega
  next feed =>
    split at moved
    next => cases moved
    next opened =>
      obtain ⟨queue, called, rfl⟩ := Option.map_eq_some_iff.mp moved
      have pays := handed.queue_pays called
      change _ < _ + (3 * m + 4 + 1) at pays
      unfold steps
      dsimp only
      rw [if_neg opened, if_pos rfl]
      omega

theorem Handed.consume_pays (handed : Handed producer consumer apply initial whole s)
    (moved : s.consume consumer apply = some s') : s'.steps whole < s.steps whole := by
  obtain ⟨consuming, place, rest, split⟩ := handed.applied
  unfold Handoff.consume at moved
  split at moved
  next => cases moved
  next going =>
    split at moved
    next popping =>
      split at moved
      next value returned =>
        obtain ⟨state, applied, rfl⟩ := Option.map_eq_some_iff.mp moved
        obtain rfl := place.symm.trans returned
        have some : s.applied.length < whole.length := by
          rw [← split, popping]
          simp [inHand]
        unfold steps
        dsimp only
        rw [if_neg going, if_neg going, if_pos popping, if_neg Bool.false_ne_true, List.length_append,
          List.length_singleton]
        omega
      next =>
        cases moved
        unfold steps
        dsimp only
        rw [if_neg going, if_pos popping, if_pos rfl]
        omega
      next => cases moved
    next idle =>
      obtain ⟨queue, called, rfl⟩ := Option.map_eq_some_iff.mp moved
      have pays := handed.queue_pays called
      change _ < _ + (6 + 1) at pays
      unfold steps
      dsimp only
      rw [if_neg going, if_neg going, if_neg idle, if_pos rfl]
      omega

theorem Handed.inside_pays (handed : Handed producer consumer apply initial whole s) {move : Move m (QueuePlace T)}
    (moved : s.inside move = some s') : s'.steps whole < s.steps whole + charge (.inside move) := by
  have pays : ∀ {queue}, s.queue.step (program T) move = some queue → ({ s with queue := queue } : Handoff m T σ).steps whole <
      s.steps whole + (tariff T m).charge move := by
    intro queue stepped
    have pays := handed.queue_pays stepped
    unfold steps
    dsimp only
    omega
  cases move with
  | call t entry => cases moved
  | fail t =>
    -- no access of the queue can fail
    obtain ⟨queue, stepped, rfl⟩ := Option.map_eq_some_iff.mp moved
    rw [Monitor.step] at stepped
    split at stepped <;> cases stepped
  | _ =>
    obtain ⟨queue, stepped, rfl⟩ := Option.map_eq_some_iff.mp moved
    exact pays stepped

theorem Handed.pays (handed : Handed producer consumer apply initial whole s) {move : HandoffMove m T}
    (moved : s.step producer consumer apply move = some s') : s'.steps whole < s.steps whole + charge move := by
  cases move with
  | produce => exact handed.produce_pays moved
  | consume => exact handed.consume_pays moved
  | inside move => exact handed.inside_pays moved

theorem run_pays (different : producer ≠ consumer) {moves : List (HandoffMove m T)}
    (ran : (Handoff.create m whole initial).run producer consumer apply moves = some s) :
    moves.length + s.steps whole ≤ (Handoff.create m whole initial).steps whole + (moves.map charge).sum := by
  refine runFrom_pays (P := Handed producer consumer apply initial whole) ?_ ?_ (Handed.create _ _ _ _ _) ran
  · exact fun _ _ _ moved before => before.step different moved
  · exact fun _ _ _ moved before => before.pays moved

theorem create_steps (m : Nat) (whole : List T) (initial : σ) :
    (Handoff.create m whole initial).steps whole = 18 * whole.length + 3 * m + 15 := by
  have nothing : (tariff T m).price (ThreadSafeQueue.create T m) = 0 := (tariff T m).price_start m _ rfl
  change (tariff T m).price (ThreadSafeQueue.create T m) + (9 * whole.length + (3 * m + 6)) +
    (9 * (whole.length - 0) + 9) = _
  omega

end Runs

end Handoff

end ChronoBook
