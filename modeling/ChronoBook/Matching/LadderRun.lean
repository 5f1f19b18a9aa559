import ChronoBook.Matching.NonInterference
import ChronoBook.Matching.Refinement
import ChronoBook.Matching.SymbolTrace

/-! Runs of the priority lists of one symbol. An id that no ADD brings in stays out
of the lists and out of the fills, and messages that name only such ids may be
left out of a run. -/

namespace ChronoBook
open Library Priority

namespace Ladder

/-- The fills of a feed and the lists after it; invalid messages are passed over. -/
def run (ladder : Ladder) : List FeedMessage → List Fill × Ladder
  | [] => ([], ladder)
  | m :: later =>
      if isValidFeedMessage m then
        let (fills, ladder) := ladder.apply m
        let (rest, ladder) := ladder.run later
        (fills ++ rest, ladder)
      else ladder.run later

variable {ladder : Ladder} {m : FeedMessage} {id : UInt64}

theorem run_valid (valid : isValidFeedMessage m = true) (later : List FeedMessage) : ladder.run (m :: later) =
    ((ladder.apply m).1 ++ ((ladder.apply m).2.run later).1, ((ladder.apply m).2.run later).2) := if_pos valid

theorem run_invalid (invalid : isValidFeedMessage m = false) (later : List FeedMessage) :
    ladder.run (m :: later) = ladder.run later := if_neg (by simp [invalid])

theorem run_append (earlier later : List FeedMessage) : ∀ ladder : Ladder, ladder.run (earlier ++ later) =
    ((ladder.run earlier).1 ++ ((ladder.run earlier).2.run later).1, ((ladder.run earlier).2.run later).2) := by
  induction earlier with
  | nil =>
    intro ladder
    rfl
  | cons m rest ih =>
    intro ladder
    by_cases valid : isValidFeedMessage m = true
    · rw [List.cons_append, run_valid valid, run_valid valid, ih, List.append_assoc]
    · have invalid := Bool.eq_false_of_not_eq_true valid
      rw [List.cons_append, run_invalid invalid, run_invalid invalid, ih]

theorem incoming_absent (valid : isValidFeedMessage m = true) (kind : m.msgType ≠ MsgType.ADD.byte)
    (absent : ladder.find? m.orderId = none) : ladder.incoming m = none := by
  cases accepted_of_valid valid with
  | add same _ _ => exact absurd same kind
  | cancel same => exact incoming_cancel same
  | modify same _ _ => rw [incoming_modify same, absent, Option.map_none]

theorem apply_absent (valid : isValidFeedMessage m = true) (kind : m.msgType ≠ MsgType.ADD.byte)
    (absent : ladder.find? m.orderId = none) : ladder.apply m = ([], ladder) := by
  rw [apply_none (incoming_absent valid kind absent), cleared_of_ne kind, remove_absent absent]

theorem run_absent (kind : m.msgType ≠ MsgType.ADD.byte) (absent : ladder.find? m.orderId = none)
    (later : List FeedMessage) : ladder.run (m :: later) = ladder.run later := by
  by_cases valid : isValidFeedMessage m = true
  · rw [run_valid valid, apply_absent valid kind absent]
    rfl
  · exact run_invalid (Bool.eq_false_of_not_eq_true valid) later

theorem find?_remove (ladder : Ladder) (id : UInt64) : (ladder.remove id).find? id = none :=
  find?_eq_none.mpr (fun _ _ inside => (mem_remove.mp inside).2)

theorem apply_keeps_out (valid : isValidFeedMessage m = true) (absent : ladder.find? id = none)
    (other : m.msgType = MsgType.ADD.byte → m.orderId ≠ id) :
    (ladder.apply m).2.find? id = none ∧ ∀ fill ∈ (ladder.apply m).1, fill.names id = false := by
  have out := find?_eq_none.mp absent
  have cleared : ∀ side, ∀ order ∈ ladder.cleared m side, order.orderId ≠ id :=
    fun side order inside => out side order (mem_of_cleared inside)
  cases brings : ladder.incoming m with
  | none =>
    rw [apply_none brings]
    refine ⟨find?_eq_none.mpr cleared, ?_⟩
    intro fill inside
    cases inside
  | some order =>
    obtain ⟨taker, type⟩ := order
    have names : m.orderId ≠ id := by
      by_cases kind : m.msgType = MsgType.ADD.byte
      · exact other kind
      · intro same
        rw [incoming_absent valid kind (same ▸ absent)] at brings
        cases brings
    have party : taker.orderId ≠ id := by
      rw [(incoming_spec valid brings).1]
      exact names
    rw [apply_some brings]
    constructor
    · exact find?_enter_none _ _ party (fun order inside => sweep_rest_ids (cleared _) order inside) (cleared _)
    · intro fill inside
      have none := List.filter_eq_nil_iff.mp (sweep_names_none party (cleared taker.side.opposite)) fill inside
      simpa using none

theorem run_keeps_out (feed : List FeedMessage) : ∀ {ladder : Ladder}, ladder.find? id = none →
    (∀ m ∈ feed, isValidFeedMessage m = true → m.msgType = MsgType.ADD.byte → m.orderId ≠ id) →
    (ladder.run feed).2.find? id = none ∧ ∀ fill ∈ (ladder.run feed).1, fill.names id = false := by
  induction feed with
  | nil =>
    intro ladder absent _
    exact ⟨absent, fun fill inside => absurd inside List.not_mem_nil⟩
  | cons m later ih =>
    intro ladder absent others
    have rest := fun other there => others other (List.mem_cons_of_mem m there)
    by_cases valid : isValidFeedMessage m = true
    · obtain ⟨absent', quiet⟩ := apply_keeps_out valid absent (others m List.mem_cons_self valid)
      obtain ⟨last, silent⟩ := ih absent' rest
      rw [run_valid valid]
      refine ⟨last, fun fill inside => ?_⟩
      rcases List.mem_append.mp inside with here | there
      · exact quiet fill here
      · exact silent fill there
    · rw [run_invalid (Bool.eq_false_of_not_eq_true valid)]
      exact ih absent rest

theorem run_stamped (feed : List FeedMessage) : ∀ {ladder : Ladder}, ∀ fill ∈ (ladder.run feed).1,
    ∃ m ∈ feed, fill.timestamp = m.sequence := by
  induction feed with
  | nil =>
    intro ladder fill inside
    cases inside
  | cons m later ih =>
    intro ladder fill inside
    have there : ∀ {next : Ladder}, fill ∈ (next.run later).1 → ∃ m' ∈ m :: later, fill.timestamp = m'.sequence := by
      intro next emits
      obtain ⟨m', member, same⟩ := ih fill emits
      exact ⟨m', List.mem_cons_of_mem m member, same⟩
    by_cases valid : isValidFeedMessage m = true
    · rw [run_valid valid] at inside
      rcases List.mem_append.mp inside with here | later
      · obtain ⟨taker, type, maker, qty, _, _, same⟩ := mem_apply_fills here
        exact ⟨m, List.mem_cons_self, by rw [same]; rfl⟩
      · exact there later
    · rw [run_invalid (Bool.eq_false_of_not_eq_true valid)] at inside
      exact there inside

end Ladder

/-- When all messages are of one symbol there is only one set of lists to run. -/
theorem emitted_run {symbol : UInt64} (feed : List FeedMessage) : ∀ {ladders : UInt64 → Ladder},
    (∀ m ∈ feed, m.symbolPacked = symbol) → emitted ladders feed = ((ladders symbol).run feed).1 := by
  unfold emitted
  induction feed with
  | nil =>
    intro ladders _
    rfl
  | cons m later ih =>
    intro ladders own
    have rest := fun other there => own other (List.mem_cons_of_mem m there)
    by_cases valid : isValidFeedMessage m = true
    · rw [trace_valid valid, Ladder.run_valid valid, List.flatMap_cons, ih rest, own m List.mem_cons_self,
        Function.update_self]
    · have invalid := Bool.eq_false_of_not_eq_true valid
      rw [trace_invalid invalid, Ladder.run_invalid invalid, List.flatMap_cons, ih rest, List.nil_append]

def UniqueIds (feed : List FeedMessage) : Prop :=
  feed.Pairwise (fun first second => first.msgType = MsgType.ADD.byte → second.msgType = MsgType.ADD.byte →
    first.orderId ≠ second.orderId)

open ReferenceMatcher in
theorem reference_run (feed : List FeedMessage)
    (sequenced : feed.Pairwise (fun first second => first.sequence ≤ second.sequence)) (unique : UniqueIds feed) :
    ∃ matcher, ReferenceMatcher.run feed = some matcher ∧ matcher.fills = (Ladder.empty.run feed).1 ∧
      ∀ latest, (∀ m ∈ feed, m.sequence ≤ latest) → matcher.Tracks (Ladder.empty.run feed).2 latest := by
  induction feed using List.reverseRecOn with
  | nil => exact ⟨{}, rfl, rfl, fun latest _ => Tracks.empty.later UInt64.zero_le⟩
  | append_singleton earlier m ih =>
    unfold UniqueIds at unique ih
    rw [List.pairwise_append] at sequenced unique
    obtain ⟨matcher, ran, fills, tracks⟩ := ih sequenced.1 unique.1
    have current := tracks m.sequence (fun n inside => sequenced.2.2 n inside m List.mem_cons_self)
    rw [Ladder.run_append, run_append earlier m ran]
    by_cases valid : isValidFeedMessage m = true
    · have fresh : m.msgType = MsgType.ADD.byte → (Ladder.empty.run earlier).2.find? m.orderId = none := by
        intro kind
        exact (Ladder.run_keeps_out earlier rfl (fun n inside _ added =>
          unique.2.2 n inside m List.mem_cons_self added kind)).1
      obtain ⟨matcher', applied, fills', tracks'⟩ := current.apply (UInt64.le_refl _) valid fresh
      refine ⟨matcher', ?_, ?_, ?_⟩
      · rw [valid]
        exact applied
      · rw [fills', fills, Ladder.run_valid valid]
        exact congrArg _ (List.append_nil _).symm
      · intro latest bound
        rw [Ladder.run_valid valid]
        exact tracks'.later (bound m (by simp))
    · have invalid := Bool.eq_false_of_not_eq_true valid
      refine ⟨matcher, ?_, ?_, ?_⟩
      · rw [invalid]
        rfl
      · rw [fills, Ladder.run_invalid invalid]
        exact (List.append_nil _).symm
      · intro latest bound
        rw [Ladder.run_invalid invalid]
        exact tracks latest (fun n inside => bound n (List.mem_append_left _ inside))

namespace MatchingEngine

theorem Idle.deliver_run {engine : MatchingEngine} {queues : Queues} {free : List Slot} {m : FeedMessage}
    {later : List FeedMessage} (idle : engine.Idle queues free []) (room : engine.PoolSuffices (m :: later)) :
    ∃ engine' queues' free', engine.deliver m = some (((engine.ladder queues).run [m]).1, engine') ∧
      engine'.Idle queues' free' [] ∧ engine'.ladder queues' = ((engine.ladder queues).run [m]).2 ∧
      engine'.pool.capacity = engine.pool.capacity := by
  rcases idle.deliver m with ⟨ignored, result⟩ | ⟨_, valid, engine', queues', free', result, delivered⟩
  · have invalid : isValidFeedMessage m = false := by
      by_contra accepted
      have valid : isValidFeedMessage m = true := by simpa using accepted
      exact idle.taken valid (room.head valid) ignored
    rw [Ladder.run_invalid invalid]
    exact ⟨engine, queues, free, result, idle, rfl, rfl⟩
  · rw [Ladder.run_valid valid]
    refine ⟨engine', queues', free', ?_, delivered.idle, delivered.ladder, delivered.capacity⟩
    rw [result, Ladder.run, List.append_nil]

theorem Idle.feed_run (messages : List FeedMessage) : ∀ {engine : MatchingEngine} {queues : Queues}
    {free : List Slot}, engine.Idle queues free [] → engine.PoolSuffices messages →
      ∃ engine' queues' free', engine.feed messages = some (((engine.ladder queues).run messages).1, engine') ∧
        engine'.Idle queues' free' [] ∧ engine'.ladder queues' = ((engine.ladder queues).run messages).2 ∧
        engine'.pool.capacity = engine.pool.capacity := by
  induction messages with
  | nil =>
    intro engine queues free idle _
    exact ⟨engine, queues, free, rfl, idle, rfl, rfl⟩
  | cons m later ih =>
    intro engine queues free idle room
    obtain ⟨engine₁, queues₁, free₁, result, idle₁, ladder, capacity⟩ := idle.deliver_run room
    obtain ⟨engine', queues', free', ran, idle', same, capacity'⟩ := ih idle₁ (room.tail result)
    have whole := Ladder.run_append [m] later (engine.ladder queues)
    rw [List.singleton_append] at whole
    rw [whole, ← ladder]
    refine ⟨engine', queues', free', ?_, idle', same, capacity'.trans capacity⟩
    rw [feed_cons engine m later result, ran]
    rfl

end MatchingEngine

end ChronoBook
