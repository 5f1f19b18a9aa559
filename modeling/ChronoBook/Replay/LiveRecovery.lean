import ChronoBook.Infra.RingSizing
import ChronoBook.Journal.PipelineProgress
import ChronoBook.Journal.PipelineStop
import ChronoBook.Replay.RecoveryReplay

/-! From a live feed to a reconciled recovery: one thread starts a pipeline, publishes
the fills of the feed in order, trying again when the ring is full, and stops it,
while the worker runs in any interleaving with it. -/

namespace ChronoBook
open FillJournal Library

/-- Where the client is in its program. -/
inductive ClientPc where
  | start
  | spawn
  | publish
  | signal
  | join
  | rest
  | done
  deriving DecidableEq, Repr

/-- The client with the fills for which `tryPublish` has not returned true yet. -/
structure LiveSession where
  system : PipelineSystem
  pc : ClientPc
  left : List Fill

inductive Turn where
  | client
  | worker
  deriving DecidableEq, Repr

namespace LiveSession

def create (pipeline : DurabilityPipeline) (fills : List Fill) : LiveSession :=
  ⟨PipelineSystem.create pipeline, .start, fills⟩

/-- A call of `tryPublish` that returns false is made again for the same fill, whether by itself or by the next
`publishBatch`. -/
def publishStep (s : LiveSession) : Option LiveSession :=
  match s.system.publisher with
  | .idle =>
      match s.left with
      | [] => some { s with pc := .signal }
      | fill :: _ => (s.system.step (.publish fill)).map (fun system => { s with system := system })
  | .publishing _ => (s.system.step .push).map (fun system => { s with system := system, left := s.left.tail })
  | _ => (s.system.step .push).map (fun system => { s with system := system })

def clientStep (s : LiveSession) : Option LiveSession :=
  match s.pc with
  | .start => (s.system.step .start).map (fun system => { s with system := system, pc := .spawn })
  | .spawn => (s.system.step .spawn).map (fun system => { s with system := system, pc := .publish })
  | .publish => s.publishStep
  | .signal => (s.system.step .signal).map (fun system => { s with system := system, pc := .join })
  | .join => (s.system.step .join).map (fun system => { s with system := system, pc := .rest })
  | .rest => (s.system.step .rest).map (fun system => { s with system := system, pc := .done })
  | .done => none

def step (s : LiveSession) : Turn → Option LiveSession
  | .client => s.clientStep
  | .worker => (s.system.step (.work .ok)).map (fun system => { s with system := system })

def run (s : LiveSession) : List Turn → Option LiveSession
  | [] => some s
  | turn :: later => (s.step turn).bind (fun s => s.run later)

def Holding (left : List Fill) : PublishPc → Prop
  | .idle => True
  | .pushing fill | .storing fill | .publishing fill => left.head? = some fill
  | .crashed => False

/-- What is so at each point of the client's program. -/
def Phase (s : LiveSession) : Prop :=
  match s.pc with
  | .start => s.system.pipeline.worker = none ∧ s.system.starting = false ∧ s.system.publisher = .idle ∧
      s.system.pipeline.stop = false
  | .spawn => s.system.pipeline.worker = none ∧ s.system.starting = true ∧ s.system.publisher = .idle ∧
      s.system.pipeline.stop = false
  | .publish => s.system.pipeline.worker ≠ none ∧ s.system.pipeline.stop = false ∧ Holding s.left s.system.publisher
  | .signal => s.system.pipeline.worker ≠ none ∧ s.left = [] ∧ s.system.publisher = .idle
  | .join => s.system.pipeline.worker ≠ none ∧ s.left = [] ∧ s.system.pipeline.stop = true ∧ 0 < s.system.signalled
  | .rest => s.system.pipeline.worker = some .finished ∧ s.left = [] ∧ 0 < s.system.joined
  | .done => s.system.pipeline.worker = some .finished ∧ s.left = []

structure Live (config : PipelineConfig) (fills : List Fill) (s : LiveSession) : Prop where
  invariant : s.system.Invariant [] []
  clean : s.system.Clean
  healthy : s.system.pipeline.Healthy
  config_eq : s.system.pipeline.config = config
  sane : config.Sane fills.length
  sized : s.system.pipeline.ring.capacity ≠ 0
  split : fills = s.system.accepted ++ s.left
  phase : s.Phase

variable {config : PipelineConfig} {s s' : LiveSession} {fills : List Fill}

theorem Live.few (live : s.Live config fills) : s.system.accepted.length ≤ fills.length := by
  have total := congrArg List.length live.split
  rw [List.length_append] at total
  omega

/-- What a move of the system keeps, if the client's own part is right after it. -/
theorem Live.moved (live : s.Live config fills) {move : PipelineMove} {system : PipelineSystem} {pc : ClientPc}
    {left : List Fill} (moved : s.system.step move = some system) (own : ∀ io, move ≠ .work io)
    (careful : move = .signal → s.system.publisher = .idle ∧ s.system.pipeline.worker ≠ none)
    (split : fills = system.accepted ++ left) (phase : Phase ⟨system, pc, left⟩) : Live config fills ⟨system, pc, left⟩ := by
  rcases PipelineSystem.step_cases moved with ⟨io, same, _⟩ | ⟨_, aside⟩
  · exact absurd same (own io)
  have healthy := live.healthy.aside aside
  have clean := PipelineSystem.Clean.step live.invariant (fun _ => live.clean) moved (fun io same => absurd same (own io))
    (fun same => ⟨(careful same).1, Or.inl (careful same).2⟩) healthy.1
  refine ⟨live.invariant.step moved, clean, healthy, (PipelineSystem.step_config moved).trans live.config_eq, live.sane, ?_,
    split, phase⟩
  · rw [PipelineSystem.step_capacity moved]
    exact live.sized

/-- The worker, once it is there, moves until it has ended. -/
theorem Live.worker_turn (live : s.Live config fills) {taken queued : List Fill}
    (tracks : s.system.pipeline.Tracks [] [] s.system.accepted taken queued)
    (started : s.system.pipeline.worker ≠ none) (running : s.system.pipeline.worker ≠ some .finished) :
    ∃ pipeline taken', s.step .worker = some { s with system := { s.system with pipeline := pipeline } } ∧
      Live config fills { s with system := { s.system with pipeline := pipeline } } ∧
      pipeline.Tracks [] [] s.system.accepted taken' (s.system.pipeline.remaining queued) ∧
      pipeline.stop = s.system.pipeline.stop ∧
      (s.system.pipeline.stop = true ∨ queued ≠ [] →
        pipeline.rank (s.system.pipeline.remaining queued).length < s.system.pipeline.rank queued.length) := by
  have sane : s.system.pipeline.config.Sane fills.length := live.config_eq ▸ live.sane
  obtain ⟨pipeline, worked, healthy, nearer⟩ := tracks.advances live.healthy sane live.few started running
  obtain ⟨taken', after⟩ := tracks.work worked
  have moved : s.system.step (.work .ok) = some { s.system with pipeline := pipeline } := by
    change (s.system.pipeline.work .ok).map _ = _
    rw [worked]
    rfl
  have seen := DurabilityPipeline.work_worked worked
  have spawned : pipeline.worker ≠ none := by
    intro none
    apply seen.opened
    unfold DurabilityPipeline.Unopened
    rw [none]
    trivial
  have unhalted : s.system.pipeline.worker ≠ some .halt := by
    intro halt
    have never := live.healthy.2
    rw [halt] at never
    exact never
  have flag : pipeline.stop = s.system.pipeline.stop := by
    rcases seen.stop with same | ⟨halt, _⟩
    · exact same
    · exact absurd halt unhalted
  have clean := PipelineSystem.Clean.step live.invariant (fun _ => live.clean) moved
    (by rintro io ⟨⟩; rfl) nofun healthy.1
  have phase : Phase { s with system := { s.system with pipeline := pipeline } } := by
    have before := live.phase
    unfold Phase at before ⊢
    dsimp only
    cases at' : s.pc with
    | start => rw [at'] at before; exact absurd before.1 started
    | spawn => rw [at'] at before; exact absurd before.1 started
    | publish => rw [at'] at before; exact ⟨spawned, flag.trans before.2.1, before.2.2⟩
    | signal => rw [at'] at before; exact ⟨spawned, before.2⟩
    | join => rw [at'] at before; exact ⟨spawned, before.2.1, flag.trans before.2.2.1, before.2.2.2⟩
    | rest => rw [at'] at before; exact absurd before.1 running
    | done => rw [at'] at before; exact absurd before.1 running
  refine ⟨pipeline, taken', ?_, ⟨live.invariant.step moved, clean, healthy,
    (PipelineSystem.step_config moved).trans live.config_eq, live.sane, ?_, live.split, phase⟩, after, flag, nearer⟩
  · change (s.system.step (.work .ok)).map _ = _
    rw [moved]
    rfl
  · rw [PipelineSystem.step_capacity moved]
    exact live.sized

def togo (s : LiveSession) : Nat :=
  match s.pc with
  | .start => 4 * s.left.length + 6
  | .spawn => 4 * s.left.length + 5
  | .publish =>
      match s.system.publisher with
      | .pushing _ => 4 * s.left.length + 3
      | .storing _ => 4 * s.left.length + 2
      | .publishing _ => 4 * s.left.length + 1
      | _ => 4 * s.left.length + 4
  | .signal => 3
  | .join => 2
  | .rest => 1
  | .done => 0

/-- What a step of the client comes to, where it makes the given move of the system. -/
theorem clientStep_moves {move : PipelineMove} {system : PipelineSystem} {next : PipelineSystem → LiveSession}
    (here : s.clientStep = (s.system.step move).map next) (moved : s.system.step move = some system) :
    s.clientStep = some (next system) := by
  rw [here, moved]
  rfl

/-- A call of `tryPublish`, step by step: it gets on unless the ring is full. -/
theorem Live.publish (live : s.Live config fills) (at' : s.pc = .publish) :
    ∃ s', s.clientStep = some s' ∧ s'.Live config fills ∧
      (s.system.pipeline.ring.isFull = false → s'.togo < s.togo) := by
  obtain ⟨system, pc, left⟩ := s
  subst at'
  obtain ⟨started, unset, holding⟩ := live.phase
  cases call : system.publisher with
  | idle =>
    have far : togo ⟨system, .publish, left⟩ = 4 * left.length + 4 := by simp [togo, call]
    cases left with
    | nil =>
      refine ⟨⟨system, .signal, []⟩, by simp [clientStep, publishStep, call], ?_, fun _ => ?_⟩
      · exact ⟨live.invariant, live.clean, live.healthy, live.config_eq, live.sane, live.sized, live.split, started, rfl,
          call⟩
      · rw [far]
        exact Nat.lt_succ_self 3
    | cons fill later =>
      have here : clientStep ⟨system, .publish, fill :: later⟩ =
          (system.step (.publish fill)).map (⟨·, .publish, fill :: later⟩) := by
        simp [clientStep, publishStep, call]
      have moved := (PipelineSystem.Stepped.called fill call unset).step
      refine ⟨_, clientStep_moves here moved, ?_, fun _ => ?_⟩
      · exact live.moved moved nofun nofun live.split ⟨started, unset, rfl⟩
      · rw [far]
        exact Nat.lt_succ_self _
  | pushing fill =>
    rw [call] at holding
    have here : clientStep ⟨system, .publish, left⟩ = (system.step .push).map (⟨·, .publish, left⟩) := by
      simp [clientStep, publishStep, call]
    by_cases full : system.pipeline.ring.isFull = true
    · have moved := (PipelineSystem.Stepped.full call full).step
      refine ⟨_, clientStep_moves here moved, ?_, fun room => absurd (full.symm.trans room) nofun⟩
      exact live.moved moved nofun nofun live.split ⟨started, unset, trivial⟩
    · have moved := (PipelineSystem.Stepped.room call (Bool.eq_false_of_not_eq_true full)).step
      refine ⟨_, clientStep_moves here moved, live.moved moved nofun nofun live.split ⟨started, unset, holding⟩, fun _ => ?_⟩
      have far : togo ⟨system, .publish, left⟩ = 4 * left.length + 3 := by simp [togo, call]
      rw [far]
      exact Nat.lt_succ_self _
  | storing fill =>
    rw [call] at holding
    obtain ⟨⟨taken, queued, tracks⟩, _⟩ := live.invariant
    obtain ⟨ring, stored, _⟩ := (tracks.ring.sized live.sized).store fill
    have here : clientStep ⟨system, .publish, left⟩ = (system.step .push).map (⟨·, .publish, left⟩) := by
      simp [clientStep, publishStep, call]
    have moved := (PipelineSystem.Stepped.stored call stored).step
    refine ⟨_, clientStep_moves here moved, ?_, fun _ => ?_⟩
    · exact live.moved moved nofun nofun live.split ⟨started, unset, holding⟩
    · have far : togo ⟨system, .publish, left⟩ = 4 * left.length + 2 := by simp [togo, call]
      rw [far]
      exact Nat.lt_succ_self _
  | publishing fill =>
    rw [call] at holding
    have far : togo ⟨system, .publish, left⟩ = 4 * left.length + 1 := by simp [togo, call]
    cases left with
    | nil => cases holding
    | cons first later =>
      cases holding
      have here : clientStep ⟨system, .publish, fill :: later⟩ = (system.step .push).map (⟨·, .publish, later⟩) := by
        simp [clientStep, publishStep, call]
      have moved := (PipelineSystem.Stepped.published call).step
      refine ⟨_, clientStep_moves here moved, ?_, fun _ => ?_⟩
      · refine live.moved moved nofun nofun ?_ ⟨started, unset, trivial⟩
        exact live.split.trans (List.append_cons _ _ _)
      · rw [far]
        exact Nat.lt_succ_self _
  | crashed =>
    rw [call] at holding
    cases holding

/-- The client can move until it is done, but for a worker that it waits for, and gets nearer to its end but for a full
ring. -/
theorem Live.client_turn (live : s.Live config fills) (before : s.pc ≠ .done)
    (ready : s.pc = .join → s.system.pipeline.worker = some .finished) :
    ∃ s', s.clientStep = some s' ∧ s'.Live config fills ∧
      (s.pc ≠ .publish ∨ s.system.pipeline.ring.isFull = false → s'.togo < s.togo) := by
  obtain ⟨system, pc, left⟩ := s
  cases pc with
  | done => exact absurd rfl before
  | publish =>
    obtain ⟨s', moved, after, nearer⟩ := live.publish rfl
    refine ⟨s', moved, after, fun room => ?_⟩
    rcases room with elsewhere | room
    · exact absurd rfl elsewhere
    · exact nearer room
  | start =>
    obtain ⟨absent, unstarted, idle, unset⟩ := live.phase
    have moved := (PipelineSystem.Stepped.start unstarted).step
    refine ⟨_, clientStep_moves rfl moved, ?_, fun _ => Nat.lt_succ_self _⟩
    exact live.moved moved nofun nofun live.split ⟨absent, rfl, idle, unset⟩
  | spawn =>
    obtain ⟨absent, begun, idle, unset⟩ := live.phase
    have moved := (PipelineSystem.Stepped.spawn absent begun).step
    refine ⟨_, clientStep_moves rfl moved, ?_, fun _ => ?_⟩
    · refine live.moved moved nofun nofun live.split ⟨nofun, unset, ?_⟩
      change Holding left system.publisher
      rw [idle]
      trivial
    · change system.publisher = .idle at idle
      simp [togo, idle]
  | signal =>
    obtain ⟨started, none, idle⟩ := live.phase
    have moved := (PipelineSystem.Stepped.signal (s := system)).step
    refine ⟨⟨system.signalStep, .join, left⟩, rfl, ?_, fun _ => Nat.lt_succ_self _⟩
    exact live.moved moved nofun (fun _ => ⟨idle, started⟩) live.split ⟨started, none, rfl, Nat.succ_pos _⟩
  | join =>
    obtain ⟨started, none, _, told⟩ := live.phase
    have moved := (PipelineSystem.Stepped.join told (Or.inr (ready rfl))).step
    refine ⟨_, clientStep_moves rfl moved, ?_, fun _ => Nat.lt_succ_self _⟩
    exact live.moved moved nofun nofun live.split ⟨ready rfl, none, Nat.succ_pos _⟩
  | rest =>
    obtain ⟨finished, none, joined⟩ := live.phase
    have moved := (PipelineSystem.Stepped.rest joined).step
    refine ⟨_, clientStep_moves rfl moved, ?_, fun _ => Nat.lt_succ_self _⟩
    exact live.moved moved nofun nofun live.split ⟨finished, none⟩

theorem Live.client (live : s.Live config fills) (moved : s.clientStep = some s') : s'.Live config fills := by
  have before : s.pc ≠ .done := by
    intro done
    unfold clientStep at moved
    rw [done] at moved
    cases moved
  have ready : s.pc = .join → s.system.pipeline.worker = some .finished := by
    intro at'
    have phase := live.phase
    unfold Phase at phase
    unfold clientStep at moved
    rw [at'] at moved phase
    obtain ⟨system, stepped, _⟩ := Option.map_eq_some_iff.mp moved
    cases PipelineSystem.stepped_of_step stepped with
    | join told ended => exact ended.resolve_left phase.1
  obtain ⟨_, same, after, _⟩ := live.client_turn before ready
  rw [moved] at same
  cases same
  exact after

theorem Live.step (live : s.Live config fills) {turn : Turn} (moved : s.step turn = some s') : s'.Live config fills := by
  cases turn with
  | client => exact live.client moved
  | worker =>
    obtain ⟨⟨taken, queued, tracks⟩, _⟩ := live.invariant
    obtain ⟨system, stepped, _⟩ := Option.map_eq_some_iff.mp moved
    obtain ⟨pipeline, worked, _⟩ := Option.map_eq_some_iff.mp stepped
    have started : s.system.pipeline.worker ≠ none := by
      intro none
      unfold DurabilityPipeline.work at worked
      rw [none] at worked
      cases worked
    have running : s.system.pipeline.worker ≠ some .finished := by
      intro finished
      unfold DurabilityPipeline.work at worked
      rw [finished] at worked
      cases worked
    obtain ⟨_, _, same, after, _⟩ := live.worker_turn tracks started running
    rw [moved] at same
    cases same
    exact after

theorem run_eq (s : LiveSession) (turns : List Turn) : s.run turns = runFrom step s turns :=
  eq_runFrom (fun _ => rfl) (fun _ _ _ => rfl) s turns

theorem Live.run {turns : List Turn} (live : s.Live config fills) (ran : s.run turns = some s') : s'.Live config fills := by
  rw [run_eq] at ran
  exact runFrom_keeps (fun _ _ _ _ moved before => before.step moved) ran live

theorem Live.create {journalPath storePath : String} {ringCapacity journalCapacity batchSize : UInt64}
    {pipeline : DurabilityPipeline}
    (made : DurabilityPipeline.create journalPath storePath ringCapacity journalCapacity batchSize none none = .ok pipeline)
    (unwrapped : SPSCRingBuffer.nextPowerOfTwo (ringCapacity + 1) ≠ 0) (fits : 24 + 40 * journalCapacity.toNat < 2 ^ 63)
    (room : max 1 fills.length ≤ journalCapacity.toNat) (batch : batchSize.toNat ≤ maxSize) :
    Live ⟨journalPath, storePath, journalCapacity, if batchSize = 0 then 1 else batchSize⟩ fills
      (LiveSession.create pipeline fills) := by
  have shown : ∀ store, TradeStore.load storePath none = .ok store → store.trades = [] := by
    rintro _ ⟨⟩
    rfl
  have invariant := PipelineSystem.Invariant.create made shown
  rw [create_blank_records (Or.inl rfl)] at invariant
  obtain ⟨ring, built, rfl⟩ := DurabilityPipeline.create_made made
  obtain ⟨_, rfl⟩ := SPSCRingBuffer.create_made built
  refine ⟨invariant, ⟨nofun, nofun, nofun, fun never => absurd never (Nat.lt_irrefl 0),
    fun never => absurd never (Nat.lt_irrefl 0)⟩, ⟨rfl, rfl, rfl⟩, rfl, ?_, unwrapped, rfl, rfl, rfl, rfl, rfl⟩
  · refine ⟨(Nat.le_max_left _ _).trans room, fits, (Nat.le_max_right _ _).trans room, ?_⟩
    change (if batchSize = 0 then 1 else batchSize : UInt64).toNat ≤ maxSize
    split
    · decide
    · exact batch

theorem run_append {first second : List Turn} {s t u : LiveSession} (ran : s.run first = some t)
    (then' : t.run second = some u) : s.run (first ++ second) = some u := by
  rw [run_eq] at ran then' ⊢
  exact runFrom_two ran then'

theorem run_turn {turn : Turn} (moved : s.step turn = some s') : s.run [turn] = some s' := by
  unfold run
  rw [moved]
  rfl

/-- The client has not moved. -/
structure Beside (s t : LiveSession) : Prop where
  pc : t.pc = s.pc
  left : t.left = s.left
  publisher : t.system.publisher = s.system.publisher

theorem Beside.togo {t : LiveSession} (beside : Beside s t) : t.togo = s.togo := by
  unfold LiveSession.togo
  rw [beside.pc, beside.left, beside.publisher]

/-- The worker alone gets to a goal if it has something to do as long as it is not there. -/
theorem Live.worker_reaches (goal : DurabilityPipeline → Prop)
    (busy : ∀ t, t.Live config fills → Beside s t → ¬goal t.system.pipeline →
      t.system.pipeline.worker ≠ none ∧ t.system.pipeline.worker ≠ some .finished ∧
        (t.system.pipeline.stop = true ∨ t.system.pipeline.ring.empty ≠ true)) (bound : Nat) :
    ∀ {t : LiveSession} {taken queued : List Fill}, t.Live config fills → Beside s t →
      t.system.pipeline.Tracks [] [] t.system.accepted taken queued → t.system.pipeline.rank queued.length < bound →
      ∃ turns t', t.run turns = some t' ∧ t'.Live config fills ∧ Beside s t' ∧ goal t'.system.pipeline := by
  induction bound with
  | zero =>
    intro t taken queued _ _ _ below
    exact absurd below (Nat.not_lt_zero _)
  | succ bound ih =>
    intro t taken queued live beside tracks below
    by_cases there : goal t.system.pipeline
    · exact ⟨[], t, rfl, live, beside, there⟩
    · obtain ⟨started, running, work⟩ := busy t live beside there
      obtain ⟨pipeline, taken', moved, live', tracks', _, nearer⟩ := live.worker_turn tracks started running
      have closer := nearer (work.imp id (fun some none => some (tracks.ring.empty_iff.mpr none)))
      have beside' : Beside s { t with system := { t.system with pipeline := pipeline } } :=
        ⟨beside.pc, beside.left, beside.publisher⟩
      obtain ⟨turns, t', ran, result⟩ := ih live' beside' tracks' (Nat.lt_of_lt_of_le closer (Nat.le_of_lt_succ below))
      exact ⟨.worker :: turns, t', Option.bind_eq_some_iff.mpr ⟨_, moved, ran⟩, result⟩

theorem Live.frees (live : s.Live config fills) (at' : s.pc = .publish) :
    ∃ turns t, s.run turns = some t ∧ t.Live config fills ∧ Beside s t ∧ t.system.pipeline.ring.isFull = false := by
  obtain ⟨⟨taken, queued, tracks⟩, _⟩ := live.invariant
  refine Live.worker_reaches (fun pipeline => pipeline.ring.isFull = false) ?_ _ live ⟨rfl, rfl, rfl⟩ tracks
    (Nat.lt_succ_self _)
  intro t live' beside full
  have phase := live'.phase
  unfold Phase at phase
  rw [show t.pc = .publish from beside.pc.trans at'] at phase
  obtain ⟨started, unset, _⟩ := phase
  refine ⟨started, ?_, Or.inr ?_⟩
  · intro finished
    have closing : t.system.pipeline.Closing := by
      unfold DurabilityPipeline.Closing
      rw [finished]
      trivial
    rw [(live'.clean.closes closing).1] at unset
    cases unset
  · intro empty
    obtain ⟨⟨taken', queued', tracks'⟩, _⟩ := live'.invariant
    have ring := tracks'.ring.sized live'.sized
    obtain ⟨exponent, low, _, power⟩ := ring.sized
    have two : 2 ^ 1 ≤ 2 ^ exponent := Nat.pow_le_pow_right (by omega) low
    have count := ring.isFull_iff.mp (Bool.eq_true_of_not_eq_false full)
    rw [ring.empty_iff.mp empty, List.length_nil] at count
    omega

theorem Live.ends (live : s.Live config fills) (at' : s.pc = .join) :
    ∃ turns t, s.run turns = some t ∧ t.Live config fills ∧ Beside s t ∧ t.system.pipeline.worker = some .finished := by
  obtain ⟨⟨taken, queued, tracks⟩, _⟩ := live.invariant
  refine Live.worker_reaches (fun pipeline => pipeline.worker = some .finished) ?_ _ live ⟨rfl, rfl, rfl⟩ tracks
    (Nat.lt_succ_self _)
  intro t live' beside running
  have phase := live'.phase
  unfold Phase at phase
  rw [show t.pc = .join from beside.pc.trans at'] at phase
  exact ⟨phase.1, running, Or.inl phase.2.2.1⟩

/-- From wherever it is, the session can be brought nearer to its end: the worker moves until the client can. -/
theorem Live.nearer (live : s.Live config fills) (before : s.pc ≠ .done) :
    ∃ turns t, s.run turns = some t ∧ t.Live config fills ∧ t.togo < s.togo := by
  obtain ⟨turns, t, ran, live', beside, ready, room⟩ : ∃ turns t, s.run turns = some t ∧ t.Live config fills ∧
      Beside s t ∧ (t.pc = .join → t.system.pipeline.worker = some .finished) ∧
      (t.pc ≠ .publish ∨ t.system.pipeline.ring.isFull = false) := by
    by_cases publishes : s.pc = .publish
    · obtain ⟨turns, t, ran, live', beside, room⟩ := live.frees publishes
      refine ⟨turns, t, ran, live', beside, fun joins => ?_, Or.inr room⟩
      rw [beside.pc, publishes] at joins
      cases joins
    by_cases joins : s.pc = .join
    · obtain ⟨turns, t, ran, live', beside, finished⟩ := live.ends joins
      exact ⟨turns, t, ran, live', beside, fun _ => finished, Or.inl (beside.pc ▸ publishes)⟩
    · exact ⟨[], s, rfl, live, ⟨rfl, rfl, rfl⟩, fun at' => absurd at' joins, Or.inl publishes⟩
  obtain ⟨u, moved, after, nearer⟩ := live'.client_turn (beside.pc ▸ before) ready
  have stepped : t.step .client = some u := moved
  exact ⟨turns ++ [.client], u, run_append ran (run_turn stepped), after, beside.togo ▸ nearer room⟩

theorem Live.completes (bound : Nat) : ∀ {s : LiveSession}, s.Live config fills → s.togo < bound →
    ∃ turns t, s.run turns = some t ∧ t.pc = .done := by
  induction bound with
  | zero =>
    intro s _ below
    exact absurd below (Nat.not_lt_zero _)
  | succ bound ih =>
    intro s live below
    by_cases ended : s.pc = .done
    · exact ⟨[], s, rfl, ended⟩
    · obtain ⟨turns, t, ran, live', nearer⟩ := live.nearer ended
      obtain ⟨more, u, ran', last⟩ := ih live' (Nat.lt_of_lt_of_le nearer (Nat.le_of_lt_succ below))
      exact ⟨turns ++ more, u, run_append ran ran', last⟩

theorem Live.result (live : s.Live config fills) (ended : s.pc = .done) :
    s.system.pipeline.persisted = fills.length ∧
      FillJournal.replay config.journalPath s.system.pipeline.journalFile = .ok (fills.map Fill.record) ∧
      TradeStore.load config.storePath s.system.pipeline.storeFile =
        .ok (TradeStore.rebuildIndex config.storePath fills) := by
  have phase := live.phase
  unfold Phase at phase
  rw [ended] at phase
  obtain ⟨finished, none⟩ := phase
  have all : s.system.accepted = fills := by rw [live.split, none, List.append_nil]
  obtain ⟨listed, loads, counted⟩ := live.clean.settled live.invariant live.healthy.1 finished
  have healthy := live.healthy.2
  rw [finished] at healthy
  obtain ⟨journal, held, holds, file⟩ := healthy
  unfold PipelineSystem.journaled at listed
  rw [all, List.nil_append] at listed loads
  rw [live.config_eq] at loads
  rw [file, holds.records] at listed
  rw [all] at counted
  refine ⟨counted, ?_, loads⟩
  rw [file, holds.replay, listed]

end LiveSession

/-- The sizes that the pipeline computes from its arguments: the ring's and the journal's do not wrap, and the ring and a
batch fit into a vector. -/
def Serviceable (ringCapacity journalCapacity batchSize : UInt64) : Prop :=
  (ringCapacity.toNat < 2 ^ 57 ∨ ringCapacity.toNat = 2 ^ 64 - 1) ∧ 24 + 40 * journalCapacity.toNat < 2 ^ 63 ∧
    batchSize.toNat ≤ maxSize

/-- For every feed of valid messages and every serviceable pipeline with room for its fills: the pipeline can be made, and
however the client and the worker take turns, the session can be brought to its end, and at its end there is no error,
everything is counted, the journal and the store have exactly the fills in order, and the reconciliation is positive. -/
theorem live_feed_reconciles (feed : List FeedMessage) (valid : ∀ m ∈ feed, isValidFeedMessage m = true)
    (vector : feed.length ≤ maxSize) :
    ∃ fills, RecoveryReconciler.replayFills feed 0 = .ok fills ∧
      ∀ journalPath storePath ringCapacity journalCapacity batchSize,
        Serviceable ringCapacity journalCapacity batchSize → max 1 fills.length ≤ journalCapacity.toNat →
        ∃ pipeline, DurabilityPipeline.create journalPath storePath ringCapacity journalCapacity batchSize none none =
          .ok pipeline ∧
        ∀ turns s, (LiveSession.create pipeline fills).run turns = some s →
        (∃ more last, s.run more = some last ∧ last.pc = .done) ∧
        (s.pc = .done → s.system.pipeline.error = "" ∧ s.system.pipeline.persisted = fills.length ∧
          FillJournal.replay journalPath s.system.pipeline.journalFile = .ok (fills.map Fill.record) ∧
          TradeStore.load storePath s.system.pipeline.storeFile = .ok (TradeStore.rebuildIndex storePath fills) ∧
          ∃ report, RecoveryReconciler.reconcile feed journalPath s.system.pipeline.journalFile storePath
            s.system.pipeline.storeFile 0 = .ok report ∧ report.ok = true) := by
  have replays := RecoveryReconciler.replayFills_run valid vector ⟨by decide, Or.inl rfl⟩
  refine ⟨_, replays, ?_⟩
  intro journalPath storePath ringCapacity journalCapacity batchSize sizes room
  have ring := (SPSCRingBuffer.sizable_iff ringCapacity).mpr sizes.1
  obtain ⟨pipeline, made⟩ := DurabilityPipeline.create_fits journalPath storePath journalCapacity batchSize none none ring.2
  refine ⟨pipeline, made, fun turns s ran => ?_⟩
  have live := (LiveSession.Live.create made ring.1 sizes.2.1 room sizes.2.2).run ran
  refine ⟨live.completes _ (Nat.lt_succ_self _), fun ended => ?_⟩
  obtain ⟨counted, reads, loads⟩ := live.result ended
  exact ⟨live.healthy.1, counted, reads, loads, RecoveryReconciler.reconcile_same replays reads loads⟩

/-- A resting order and one that trades with it. -/
def crossingFeed : List FeedMessage := [makeAdd 1 1 .SELL .LIMIT 100 5 7, makeAdd 2 2 .BUY .LIMIT 100 5 7]

theorem crossingFeed_replay : RecoveryReconciler.replayFills crossingFeed 0 = .ok [⟨2, 1, 100, 5, 2, 7⟩] := by
  rw [RecoveryReconciler.replayFills_run (by decide) (by decide) ⟨by decide, Or.inl rfl⟩]
  decide

theorem live_feed_reconciles_sample :
    ∃ pipeline turns s, DurabilityPipeline.create "fills.journal" "trades.dat" 4 2 1 none none = .ok pipeline ∧
      (LiveSession.create pipeline [⟨2, 1, 100, 5, 2, 7⟩]).run turns = some s ∧ s.pc = .done ∧
      s.system.pipeline.persisted = 1 ∧
      ∃ report, RecoveryReconciler.reconcile crossingFeed "fills.journal" s.system.pipeline.journalFile "trades.dat"
        s.system.pipeline.storeFile 0 = .ok report ∧ report.ok = true := by
  obtain ⟨fills, replays, session⟩ := live_feed_reconciles crossingFeed (by decide) (by decide)
  have one : fills = [⟨2, 1, 100, 5, 2, 7⟩] := by
    rw [crossingFeed_replay] at replays
    cases replays
    rfl
  subst one
  obtain ⟨pipeline, made, runs⟩ := session "fills.journal" "trades.dat" 4 2 1 ⟨by decide, by decide, by decide⟩ (by decide)
  obtain ⟨turns, s, ran, ended⟩ := (runs [] _ rfl).1
  obtain ⟨_, counted, _, _, reconciled⟩ := (runs turns s ran).2 ended
  exact ⟨pipeline, turns, s, made, ran, ended, counted, reconciled⟩

/-- The client publishes one fill and stops; the worker starts after the flag was set and moves so many times. -/
def lateWorker (moves : Nat) : List Turn := List.replicate 8 .client ++ List.replicate moves .worker ++ [.client, .client]

/-- A session over empty files that publishes one fill, if the pipeline can be made. -/
def LiveSession.single (ringCapacity journalCapacity batchSize : UInt64) : Except Failure LiveSession := do
  let pipeline ← DurabilityPipeline.create "fills.journal" "trades.dat" ringCapacity journalCapacity batchSize none none
  return LiveSession.create pipeline [⟨2, 1, 100, 5, 2, 7⟩]

/-- A ring of capacity 2^63 has no slots, and the first push leaves its memory; one of capacity 2^57 is longer than a vector
can be, and there is no pipeline. A journal of (2^63 - 3) / 5 records has a size that wraps to zero, and a batch of
2^64 - 1 fills is longer than a vector can be: both sessions end with an error. -/
theorem live_session_overflows :
    (LiveSession.single 9223372036854775808 1 1).toOption.any (fun session =>
        (session.run (List.replicate 5 .client)).any (fun s => s.system.publisher = .crashed)) = true ∧
      (∀ session, LiveSession.single 144115188075855872 1 1 ≠ .ok session) ∧
      (LiveSession.single 4 1844674407370955161 1).toOption.any (fun session => (session.run (lateWorker 3)).any
        (fun s => s.pc = .done ∧ s.system.pipeline.error ≠ "" ∧ s.system.pipeline.persisted = 0)) = true ∧
      (LiveSession.single 4 1 18446744073709551615).toOption.any (fun session => (session.run (lateWorker 5)).any
        (fun s => s.pc = .done ∧ s.system.pipeline.error ≠ "" ∧ s.system.pipeline.persisted = 0)) = true := by
  refine ⟨by decide +kernel, ?_, by decide +kernel, by decide +kernel⟩
  intro session made
  unfold LiveSession.single at made
  rw [DurabilityPipeline.create_refused _ _ _ _ _ _ (by decide)] at made
  cases made

end ChronoBook
