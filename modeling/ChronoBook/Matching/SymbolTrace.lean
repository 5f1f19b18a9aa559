import ChronoBook.Library.StableSort
import ChronoBook.Matching.Quantities
import ChronoBook.Matching.Shard

/-! One book for each symbol. What a message emits depends on the earlier messages
of its own symbol and on nothing else, so a feed may be split by symbol in any
way without changing what its messages emit. -/

namespace ChronoBook
open Library Priority

/-- Each message of a feed with the fills it emits, when every symbol has its own priority lists. -/
def trace (ladders : UInt64 → Ladder) : List FeedMessage → List (FeedMessage × List Fill)
  | [] => []
  | m :: later =>
      if isValidFeedMessage m then
        (m, ((ladders m.symbolPacked).apply m).1) ::
          trace (Function.update ladders m.symbolPacked ((ladders m.symbolPacked).apply m).2) later
      else (m, []) :: trace ladders later

def emitted (ladders : UInt64 → Ladder) (feed : List FeedMessage) : List Fill := (trace ladders feed).flatMap Prod.snd

theorem trace_valid {ladders : UInt64 → Ladder} {m : FeedMessage} (valid : isValidFeedMessage m = true)
    (later : List FeedMessage) : trace ladders (m :: later) =
      (m, ((ladders m.symbolPacked).apply m).1) ::
        trace (Function.update ladders m.symbolPacked ((ladders m.symbolPacked).apply m).2) later := if_pos valid

theorem trace_invalid {ladders : UInt64 → Ladder} {m : FeedMessage} (invalid : isValidFeedMessage m = false)
    (later : List FeedMessage) : trace ladders (m :: later) = (m, []) :: trace ladders later :=
  if_neg (by simp [invalid])

theorem trace_messages (feed : List FeedMessage) :
    ∀ ladders : UInt64 → Ladder, (trace ladders feed).map Prod.fst = feed := by
  induction feed with
  | nil =>
    intro ladders
    rfl
  | cons m later ih =>
    intro ladders
    by_cases valid : isValidFeedMessage m = true
    · rw [trace_valid valid, List.map_cons, ih]
    · rw [trace_invalid (Bool.eq_false_of_not_eq_true valid), List.map_cons, ih]

theorem trace_filter (keep : UInt64 → Bool) (feed : List FeedMessage) :
    ∀ {ladders ladders' : UInt64 → Ladder}, (∀ symbol, keep symbol = true → ladders' symbol = ladders symbol) →
      trace ladders' (feed.filter (fun m => keep m.symbolPacked)) =
        (trace ladders feed).filter (fun entry => keep entry.1.symbolPacked) := by
  induction feed with
  | nil =>
    intro ladders ladders' _
    rfl
  | cons m later ih =>
    intro ladders ladders' same
    by_cases kept : keep m.symbolPacked = true
    · rw [List.filter_cons_of_pos (by simp [kept])]
      by_cases valid : isValidFeedMessage m = true
      · rw [trace_valid valid, trace_valid valid, List.filter_cons_of_pos (by simp [kept]), same _ kept]
        congr 1
        apply ih
        intro symbol symbolKept
        by_cases here : symbol = m.symbolPacked
        · rw [here, Function.update_self, Function.update_self]
        · rw [Function.update_of_ne here, Function.update_of_ne here]
          exact same symbol symbolKept
      · have invalid := Bool.eq_false_of_not_eq_true valid
        rw [trace_invalid invalid, trace_invalid invalid, List.filter_cons_of_pos (by simp [kept]), ih same]
    · rw [List.filter_cons_of_neg (by simp [kept])]
      by_cases valid : isValidFeedMessage m = true
      · rw [trace_valid valid, List.filter_cons_of_neg (by simp [kept])]
        apply ih
        intro symbol symbolKept
        have other : symbol ≠ m.symbolPacked := fun here => kept (here ▸ symbolKept)
        rw [Function.update_of_ne other]
        exact same symbol symbolKept
      · rw [trace_invalid (Bool.eq_false_of_not_eq_true valid), List.filter_cons_of_neg (by simp [kept]), ih same]

def Labelled (ladders : UInt64 → Ladder) : Prop :=
  ∀ symbol side, ∀ order ∈ ladders symbol side, order.symbolPacked = symbol

namespace Ladder

variable {ladder : Ladder}

theorem incoming_symbol {m : FeedMessage} {taker : Resting} {type : OrderType}
    (labelled : ∀ side, ∀ order ∈ ladder side, order.symbolPacked = m.symbolPacked)
    (brings : ladder.incoming m = some (taker, type)) : taker.symbolPacked = m.symbolPacked := by
  unfold incoming at brings
  split at brings
  · split at brings
    · cases brings
    · cases brings
      rfl
  split at brings
  · cases brings
  · obtain ⟨old, found, same⟩ := Option.map_eq_some_iff.mp brings
    cases same
    obtain ⟨⟨side, inside⟩, _⟩ := mem_of_find? found
    exact labelled side old inside

/-- Up to its matched units, an order in the lists after a taker is the taker or was there before. -/
theorem mem_enter_terms {taker : Resting} {type : OrderType} {seq : UInt64} {side : Side} {order : Resting}
    (inside : order ∈ ladder.enter taker type seq side) :
    order.terms = taker.terms ∨ ∃ side, ∃ old ∈ ladder side, old.terms = order.terms := by
  rcases mem_enter inside with hit | old | joined
  · have terms := (swept_rest_sublist ladder taker type seq).subset (List.mem_map_of_mem hit)
    exact Or.inr ⟨_, List.mem_map.mp terms⟩
  · exact Or.inr ⟨_, order, old, rfl⟩
  · rw [joined]
    exact Or.inl rfl

theorem mem_apply_terms {m : FeedMessage} {side : Side} {order : Resting} (inside : order ∈ (ladder.apply m).2 side) :
    (∃ taker type, ladder.incoming m = some (taker, type) ∧ order.terms = taker.terms) ∨
      ∃ side, ∃ old ∈ ladder side, old.terms = order.terms := by
  cases brings : ladder.incoming m with
  | none =>
    rw [apply_none brings] at inside
    exact Or.inr ⟨side, order, mem_of_cleared inside, rfl⟩
  | some found =>
    rw [apply_some brings] at inside
    rcases mem_enter_terms inside with new | ⟨place, old, there, same⟩
    · exact Or.inl ⟨found.1, found.2, rfl, new⟩
    · exact Or.inr ⟨place, old, mem_of_cleared there, same⟩

theorem mem_apply_fills {m : FeedMessage} {fill : Fill} (inside : fill ∈ (ladder.apply m).1) :
    ∃ taker type maker qty, ladder.incoming m = some (taker, type) ∧ maker ∈ ladder taker.side.opposite ∧
      fill = maker.fillBy taker m.sequence qty := by
  cases brings : ladder.incoming m with
  | none =>
    rw [apply_none brings] at inside
    cases inside
  | some found =>
    rw [apply_some brings] at inside
    obtain ⟨maker, there, qty, same⟩ := sweep_fill_of fill inside
    exact ⟨found.1, found.2, maker, qty, rfl, mem_of_cleared there, same⟩

theorem apply_stamped {m : FeedMessage} (labelled : ∀ side, ∀ order ∈ ladder side, order.symbolPacked = m.symbolPacked) :
    ∀ fill ∈ (ladder.apply m).1, fill.timestamp = m.sequence ∧ fill.symbolPacked = m.symbolPacked := by
  intro fill inside
  obtain ⟨taker, type, maker, qty, brings, _, same⟩ := mem_apply_fills inside
  rw [same]
  exact ⟨rfl, incoming_symbol labelled brings⟩

theorem apply_symbol {m : FeedMessage} (labelled : ∀ side, ∀ order ∈ ladder side, order.symbolPacked = m.symbolPacked) :
    ∀ side, ∀ order ∈ (ladder.apply m).2 side, order.symbolPacked = m.symbolPacked := by
  intro side order inside
  rcases mem_apply_terms inside with ⟨taker, type, brings, same⟩ | ⟨place, old, there, same⟩
  · have own := incoming_symbol labelled brings
    exact (congrArg Resting.symbolPacked same).trans own
  · exact (congrArg Resting.symbolPacked same).symm.trans (labelled place old there)

end Ladder

theorem Labelled.empty : Labelled (fun _ => Ladder.empty) := by
  intro symbol side order inside
  cases inside

theorem Labelled.apply {ladders : UInt64 → Ladder} (labelled : Labelled ladders) (m : FeedMessage) :
    Labelled (Function.update ladders m.symbolPacked ((ladders m.symbolPacked).apply m).2) := by
  intro symbol
  by_cases here : symbol = m.symbolPacked
  · rw [here, Function.update_self]
    exact Ladder.apply_symbol (labelled m.symbolPacked)
  · rw [Function.update_of_ne here]
    exact labelled symbol

theorem trace_stamped (feed : List FeedMessage) :
    ∀ {ladders : UInt64 → Ladder}, Labelled ladders → ∀ entry ∈ trace ladders feed, ∀ fill ∈ entry.2,
      fill.timestamp = entry.1.sequence ∧ fill.symbolPacked = entry.1.symbolPacked := by
  induction feed with
  | nil =>
    intro ladders _ entry inside
    cases inside
  | cons m later ih =>
    intro ladders labelled entry inside
    by_cases valid : isValidFeedMessage m = true
    · rw [trace_valid valid] at inside
      rcases List.mem_cons.mp inside with here | there
      · rw [here]
        exact Ladder.apply_stamped (labelled m.symbolPacked)
      · exact ih (labelled.apply m) entry there
    · rw [trace_invalid (Bool.eq_false_of_not_eq_true valid)] at inside
      rcases List.mem_cons.mp inside with here | there
      · rw [here]
        intro fill none
        cases none
      · exact ih labelled entry there

/-- How many orders a feed may leave in the books at most. -/
def validAdds (feed : List FeedMessage) : Nat :=
  (feed.filter (fun m => isValidFeedMessage m && m.msgType = MsgType.ADD.byte)).length

theorem validAdds_cons (m : FeedMessage) (later : List FeedMessage) : validAdds (m :: later) =
    (if isValidFeedMessage m = true ∧ m.msgType = MsgType.ADD.byte then 1 else 0) + validAdds later := by
  unfold validAdds
  by_cases counts : isValidFeedMessage m = true ∧ m.msgType = MsgType.ADD.byte
  · rw [List.filter_cons_of_pos (by simpa using counts), if_pos counts, List.length_cons, Nat.add_comm]
  · rw [List.filter_cons_of_neg (by simpa using counts), if_neg counts, Nat.zero_add]

/-- With a free slot for every ADD to come, only invalid messages are ignored. -/
theorem MatchingEngine.Ignored.invalid {m : FeedMessage} {free : List Slot} {later : List FeedMessage}
    (ignored : MatchingEngine.Ignored m free) (room : validAdds (m :: later) ≤ free.length) :
    isValidFeedMessage m = false := by
  rcases ignored with invalid | ⟨kind, empty⟩
  · exact invalid
  by_contra notInvalid
  rw [validAdds_cons, if_pos ⟨by simpa using notInvalid, kind⟩, empty, List.length_nil] at room
  omega

theorem room_after {m : FeedMessage} {free free' : List Slot} {later : List FeedMessage}
    (valid : isValidFeedMessage m = true) (room : validAdds (m :: later) ≤ free.length)
    (slots : free.length ≤ free'.length + (if m.msgType = MsgType.ADD.byte then 1 else 0)) :
    validAdds later ≤ free'.length := by
  rw [validAdds_cons] at room
  by_cases kind : m.msgType = MsgType.ADD.byte
  · rw [if_pos ⟨valid, kind⟩] at room
    rw [if_pos kind] at slots
    omega
  · rw [if_neg kind] at slots
    omega

theorem validAdds_later (m : FeedMessage) (later : List FeedMessage) : validAdds later ≤ validAdds (m :: later) := by
  rw [validAdds_cons]
  omega

/-- A shard whose pool has a slot for every ADD emits what each symbol's own lists say. -/
theorem Shard.Holds.applyAll_emitted (messages : List FeedMessage) :
    ∀ {shard : Shard} {queues : UInt64 → Queues} {free : List Slot} {ladders : UInt64 → Ladder},
      shard.Holds queues free ladders → validAdds messages ≤ free.length →
      ∃ shard', shard.applyAll messages = some shard' ∧ shard'.fills = shard.fills ++ emitted ladders messages := by
  induction messages with
  | nil =>
    intro shard queues free ladders _ _
    exact ⟨shard, rfl, (List.append_nil _).symm⟩
  | cons m later ih =>
    intro shard queues free ladders holds room
    rw [Shard.applyAll]
    unfold emitted at ih ⊢
    rcases holds.applyMessage m with ⟨ignored, shard₁, queues₁, applied, holds₁, same⟩ |
      ⟨_, valid, shard₁, queues₁, free₁, applied, holds₁, fills₁, _, slots₁⟩
    · have invalid := ignored.invalid room
      obtain ⟨shard', rest, fills'⟩ := ih holds₁ ((validAdds_later m later).trans room)
      refine ⟨shard', ?_, ?_⟩
      · rw [applied, Option.bind_some, rest]
      · rw [fills', same.fills, trace_invalid invalid, List.flatMap_cons, List.nil_append]
    · obtain ⟨shard', rest, fills'⟩ := ih holds₁ (room_after valid room slots₁)
      refine ⟨shard', ?_, ?_⟩
      · rw [applied, Option.bind_some, rest]
      · rw [fills', fills₁, trace_valid valid, List.flatMap_cons, List.append_assoc]

/-- A feed handled by independent engines, one for each symbol. -/
def handleEach (engines : UInt64 → MatchingEngine) : List FeedMessage → Option (List Fill)
  | [] => some []
  | m :: later => do
      let (fills, engine) ← (engines m.symbolPacked).deliver m
      let rest ← handleEach (Function.update engines m.symbolPacked engine) later
      some (fills ++ rest)

open MatchingEngine in
theorem handleEach_emitted (feed : List FeedMessage) :
    ∀ {engines : UInt64 → MatchingEngine} {queues : UInt64 → Queues} {free : UInt64 → List Slot},
      (∀ symbol, (engines symbol).Idle (queues symbol) (free symbol) []) →
      (∀ symbol, validAdds feed ≤ (free symbol).length) →
      handleEach engines feed = some (emitted (fun symbol => (engines symbol).ladder (queues symbol)) feed) := by
  induction feed with
  | nil =>
    intro engines queues free _ _
    rfl
  | cons m later ih =>
    intro engines queues free idle room
    have next : ∀ {fills : List Fill} {engine : MatchingEngine},
        (engines m.symbolPacked).deliver m = some (fills, engine) → handleEach engines (m :: later) =
          (handleEach (Function.update engines m.symbolPacked engine) later).map (fun rest => fills ++ rest) := by
      intro fills engine result
      rw [handleEach, result]
      change (handleEach _ later).bind (fun rest => some (fills ++ rest)) = _
      cases handleEach (Function.update engines m.symbolPacked engine) later <;> rfl
    rcases (idle m.symbolPacked).deliver m with ⟨ignored, result⟩ |
      ⟨_, valid, engine', queues', free', result, delivered⟩
    · have invalid := ignored.invalid (room m.symbolPacked)
      rw [next result, Function.update_eq_self, ih idle (fun symbol => (validAdds_later m later).trans (room symbol))]
      unfold emitted
      rw [trace_invalid invalid]
      rfl
    · have idle' : ∀ symbol, (Function.update engines m.symbolPacked engine' symbol).Idle
          (Function.update queues m.symbolPacked queues' symbol) (Function.update free m.symbolPacked free' symbol) [] := by
        intro symbol
        by_cases here : symbol = m.symbolPacked
        · subst here
          rw [Function.update_self, Function.update_self, Function.update_self]
          exact delivered.idle
        · rw [Function.update_of_ne here, Function.update_of_ne here, Function.update_of_ne here]
          exact idle symbol
      have room' : ∀ symbol, validAdds later ≤ (Function.update free m.symbolPacked free' symbol).length := by
        intro symbol
        by_cases here : symbol = m.symbolPacked
        · subst here
          rw [Function.update_self]
          exact room_after valid (room _) (delivered.free_length (idle _))
        · rw [Function.update_of_ne here]
          exact (validAdds_later m later).trans (room symbol)
      have ladders : (fun symbol => (Function.update engines m.symbolPacked engine' symbol).ladder
          (Function.update queues m.symbolPacked queues' symbol)) =
          Function.update (fun symbol => (engines symbol).ladder (queues symbol)) m.symbolPacked
            (((engines m.symbolPacked).ladder (queues m.symbolPacked)).apply m).2 := by
        funext symbol
        by_cases here : symbol = m.symbolPacked
        · subst here
          rw [Function.update_self, Function.update_self, Function.update_self]
          exact delivered.ladder
        · rw [Function.update_of_ne here, Function.update_of_ne here, Function.update_of_ne here]
      rw [next result, ih idle' room', ladders]
      unfold emitted
      rw [trace_valid valid]
      rfl

end ChronoBook
