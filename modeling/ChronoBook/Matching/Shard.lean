import ChronoBook.Library.Keyed
import ChronoBook.Matching.FeedRun

/-! One shard: the per-symbol engines that share a pool. A call on one engine
moves slots between its book and the free list and touches no other engine. -/

namespace ChronoBook
open Library

/-- What an engine stores besides the pool it borrows. -/
structure EngineState where
  book : OrderBook := OrderBook.empty
  fills : List Fill := []
  currentSeq : UInt64 := 0

def EngineState.on (state : EngineState) (pool : OrderPool) : MatchingEngine :=
  ⟨pool, state.book, state.fills, state.currentSeq⟩

def MatchingEngine.state (engine : MatchingEngine) : EngineState := ⟨engine.book, engine.fills, engine.currentSeq⟩

structure Shard where
  pool : OrderPool
  engines : List (UInt64 × EngineState)
  fills : List Fill

namespace Shard

def onPool (pool : OrderPool) : Shard := ⟨pool, [], []⟩

def fresh (poolCap : Nat) : Shard := onPool (SlabPool.create (fun _ => {}) poolCap)

/-- The constructor, where that of the pool succeeds. -/
def create (poolCap : UInt64) : Option Shard :=
  (SlabPool.construct SlabPool.orderSize (fun _ => {}) poolCap).map onPool

theorem create_eq (poolCap : UInt64) :
    create poolCap = if poolCap.toNat * 48 < 2 ^ 64 then some (fresh poolCap.toNat) else none := by
  unfold create
  rw [SlabPool.construct_orders]
  split <;> rfl

def getEngine (symbol : UInt64) (shard : Shard) : EngineState × Shard :=
  match shard.engines.find? (fun entry => entry.1 = symbol) with
  | some entry => (entry.2, shard)
  | none => ({}, { shard with engines := shard.engines ++ [(symbol, {})] })

def putEngine (shard : Shard) (symbol : UInt64) (engine : MatchingEngine) : Shard :=
  { shard with
    pool := engine.pool
    engines := shard.engines.map (fun entry => if entry.1 = symbol then (symbol, engine.state) else entry) }

def applyMessage (shard : Shard) (msg : FeedMessage) : Option Shard :=
  if !isValidFeedMessage msg then some shard
  else
    let (state, shard) := shard.getEngine msg.symbolPacked
    match (state.on shard.pool).dispatch msg with
    | none => none
    | some (.dropped, _) => some shard
    | some (_, engine) =>
        let (fillScratch, engine) := engine.drainFills
        some { shard.putEngine msg.symbolPacked engine with fills := shard.fills ++ fillScratch }

def applyAll (shard : Shard) : List FeedMessage → Option Shard
  | [] => some shard
  | msg :: later => (shard.applyMessage msg).bind (fun shard => shard.applyAll later)

theorem applyAll_append (shard : Shard) (earlier later : List FeedMessage) :
    shard.applyAll (earlier ++ later) = (shard.applyAll earlier).bind (fun shard => shard.applyAll later) := by
  induction earlier generalizing shard with
  | nil => rfl
  | cons m rest ih =>
    rw [List.cons_append, Shard.applyAll, Shard.applyAll]
    cases shard.applyMessage m with
    | none => rfl
    | some next => exact ih next

/-- The same pool, fills and books; a symbol may have got its empty engine. -/
structure Unchanged (shard shard' : Shard) : Prop where
  pool : shard'.pool = shard.pool
  fills : shard'.fills = shard.fills
  engines : ∀ symbol, (shard'.getEngine symbol).1 = (shard.getEngine symbol).1

def slotsOf (engines : List (UInt64 × EngineState)) (queues : UInt64 → Queues) : List Slot :=
  engines.flatMap (fun entry => entry.2.book.slots (queues entry.1))

def others (shard : Shard) (queues : UInt64 → Queues) (symbol : UInt64) : List Slot :=
  slotsOf (shard.engines.filter (fun entry => entry.1 ≠ symbol)) queues

structure Holds (shard : Shard) (queues : UInt64 → Queues) (free : List Slot) (ladders : UInt64 → Ladder) : Prop where
  names : (shard.engines.map Prod.fst).Nodup
  pool : shard.pool.Valid free (slotsOf shard.engines queues)
  idle : ∀ entry ∈ shard.engines, (entry.2.on shard.pool).Idle (queues entry.1) free (shard.others queues entry.1)
  ladder : ∀ entry ∈ shard.engines, (entry.2.on shard.pool).ladder (queues entry.1) = ladders entry.1
  absent : ∀ symbol, symbol ∉ shard.engines.map Prod.fst → ladders symbol = Ladder.empty

variable {shard : Shard} {queues : UInt64 → Queues} {free : List Slot} {ladders : UInt64 → Ladder}

theorem Holds.fresh (poolCap : Nat) :
    (Shard.fresh poolCap).Holds (fun _ => Queues.empty) (List.range poolCap).reverse (fun _ => Ladder.empty) where
  names := List.nodup_nil
  pool := SlabPool.Valid.create _ poolCap
  idle := by
    intro entry inside
    cases inside
  ladder := by
    intro entry inside
    cases inside
  absent := fun _ _ => rfl

theorem slotsOf_perm {engines engines' : List (UInt64 × EngineState)} (same : engines.Perm engines')
    (queues : UInt64 → Queues) : (slotsOf engines queues).Perm (slotsOf engines' queues) :=
  same.flatMap_right _

theorem slotsOf_split {engines : List (UInt64 × EngineState)} (names : (engines.map Prod.fst).Nodup)
    (queues : UInt64 → Queues) {entry : UInt64 × EngineState} (inside : entry ∈ engines) :
    (entry.2.book.slots (queues entry.1) ++
      slotsOf (engines.filter (fun other => other.1 ≠ entry.1)) queues).Perm (slotsOf engines queues) :=
  (slotsOf_perm (Keyed.perm_cons_filter names inside) queues).symm

theorem slotsOf_congr {engines : List (UInt64 × EngineState)} {queues queues' : UInt64 → Queues}
    (same : ∀ entry ∈ engines, queues' entry.1 = queues entry.1) : slotsOf engines queues' = slotsOf engines queues := by
  apply List.flatMap_congr
  intro entry inside
  rw [same entry inside]

theorem mem_others {symbol : UInt64} {entry : UInt64 × EngineState} (inside : entry ∈ shard.engines)
    (different : entry.1 ≠ symbol) {slot : Slot} (member : slot ∈ entry.2.book.slots (queues entry.1)) :
    slot ∈ shard.others queues symbol := by
  unfold others slotsOf
  rw [List.mem_flatMap]
  exact ⟨entry, List.mem_filter.mpr ⟨inside, by simp [different]⟩, member⟩

theorem fresh_idle {pool : OrderPool} {others : List Slot} (valid : pool.Valid free others) :
    (({} : EngineState).on pool).Idle Queues.empty free others ∧
      (({} : EngineState).on pool).ladder Queues.empty = Ladder.empty := by
  have nothing : (({} : EngineState).on pool).ladder Queues.empty = Ladder.empty := by
    funext side
    cases side <;> rfl
  refine ⟨⟨⟨⟨valid, OrderBook.Laid.empty _, ?_, ?_, ?_, ?_⟩, ?_⟩, rfl⟩, nothing⟩
  · intro slot inside
    cases inside
  · intro slot inside
    cases inside
  · intro slot inside
    cases inside
  · intro _ side price level found
    cases side <;> cases found
  · rw [nothing]
    exact Ladder.WellFormed.empty

theorem filter_names {engines : List (UInt64 × EngineState)} {symbol : UInt64}
    (fresh : symbol ∉ engines.map Prod.fst) : ∀ entry ∈ engines, entry.1 ≠ symbol := by
  intro entry inside same
  exact fresh (same ▸ List.mem_map_of_mem inside)

theorem slotsOf_opened {engines : List (UInt64 × EngineState)} {symbol : UInt64}
    (fresh : symbol ∉ engines.map Prod.fst) (queues : UInt64 → Queues) (keep : UInt64 × EngineState → Bool) :
    slotsOf ((engines ++ [(symbol, ({} : EngineState))]).filter keep) (Function.update queues symbol Queues.empty) =
      slotsOf (engines.filter keep) queues := by
  have old : slotsOf (engines.filter keep) (Function.update queues symbol Queues.empty) =
      slotsOf (engines.filter keep) queues := by
    apply slotsOf_congr
    intro entry inside
    exact Function.update_of_ne (filter_names fresh entry (List.mem_of_mem_filter inside)) _ _
  have new : slotsOf ([(symbol, ({} : EngineState))].filter keep) (Function.update queues symbol Queues.empty) = [] := by
    cases kept : keep (symbol, {}) with
    | true =>
      rw [List.filter_cons_of_pos kept]
      rfl
    | false =>
      rw [List.filter_cons_of_neg (by simp [kept])]
      rfl
  rw [List.filter_append]
  unfold slotsOf at old new ⊢
  rw [List.flatMap_append, old, new, List.append_nil]

theorem Holds.opened (holds : shard.Holds queues free ladders) {symbol : UInt64}
    (fresh : symbol ∉ shard.engines.map Prod.fst) :
    ({ shard with engines := shard.engines ++ [(symbol, {})] } : Shard).Holds
      (Function.update queues symbol Queues.empty) free ladders := by
  have named := filter_names fresh
  have last := slotsOf_opened fresh queues
  have all := last (fun _ => true)
  rw [List.filter_true, List.filter_true] at all
  refine ⟨?_, ?_, ?_, ?_, ?_⟩
  · rw [List.map_append, List.nodup_append]
    refine ⟨holds.names, List.nodup_singleton _, ?_⟩
    intro name inside other last same
    rw [List.map_singleton, List.mem_singleton] at last
    rw [same, last] at inside
    exact fresh inside
  · rw [all]
    exact holds.pool
  · intro entry inside
    unfold others
    rw [last]
    rcases List.mem_append.mp inside with old | new
    · rw [Function.update_of_ne (named entry old)]
      exact holds.idle entry old
    · rw [List.mem_singleton.mp new, Function.update_self, List.filter_eq_self.mpr (by
        intro other there
        simp [named other there])]
      exact (fresh_idle holds.pool).1
  · intro entry inside
    rcases List.mem_append.mp inside with old | new
    · rw [Function.update_of_ne (named entry old)]
      exact holds.ladder entry old
    · rw [List.mem_singleton.mp new, Function.update_self, holds.absent symbol fresh]
      exact (fresh_idle holds.pool).2
  · intro name missing
    apply holds.absent
    intro inside
    apply missing
    rw [List.map_append]
    exact List.mem_append_left _ inside

/-- `getEngine` finds the symbol's engine or opens it; either way the shard has it afterwards. -/
theorem Holds.getEngine (holds : shard.Holds queues free ladders) (symbol : UInt64) :
    ∃ queues', (shard.getEngine symbol).2.Holds queues' free ladders ∧
      (symbol, (shard.getEngine symbol).1) ∈ (shard.getEngine symbol).2.engines := by
  unfold Shard.getEngine
  split
  next entry found =>
    have name : entry.1 = symbol := by simpa using List.find?_some found
    refine ⟨queues, holds, ?_⟩
    rw [← name]
    exact List.mem_of_find?_eq_some found
  next missing =>
    have fresh : symbol ∉ shard.engines.map Prod.fst := by
      intro inside
      obtain ⟨entry, there, same⟩ := List.mem_map.mp inside
      have never := List.find?_eq_none.mp missing entry there
      simp [same] at never
    exact ⟨_, holds.opened fresh, by simp⟩

theorem getEngine_unchanged (shard : Shard) (symbol : UInt64) : shard.Unchanged (shard.getEngine symbol).2 := by
  unfold Shard.getEngine
  split
  · exact ⟨rfl, rfl, fun _ => rfl⟩
  next missing =>
    refine ⟨rfl, rfl, ?_⟩
    intro other
    unfold Shard.getEngine
    rw [List.find?_append]
    cases found : shard.engines.find? (fun entry => entry.1 = other) with
    | some entry => rfl
    | none =>
      by_cases same : symbol = other <;> simp [same]

theorem mem_putEngine {symbol : UInt64} {engine' : MatchingEngine} {entry : UInt64 × EngineState}
    (inside : entry ∈ (shard.putEngine symbol engine').engines) :
    entry = (symbol, engine'.state) ∨ (entry ∈ shard.engines ∧ entry.1 ≠ symbol) := by
  obtain ⟨old, there, same⟩ := List.mem_map.mp inside
  by_cases named : old.1 = symbol
  · rw [if_pos named] at same
    exact Or.inl same.symm
  · rw [if_neg named] at same
    exact Or.inr (same ▸ ⟨there, named⟩)

theorem putEngine_names (shard : Shard) (symbol : UInt64) (engine' : MatchingEngine) :
    (shard.putEngine symbol engine').engines.map Prod.fst = shard.engines.map Prod.fst := by
  unfold putEngine
  rw [List.map_map]
  apply List.map_congr_left
  intro entry _
  by_cases named : entry.1 = symbol <;> simp [named]

theorem putEngine_others (shard : Shard) (symbol : UInt64) (engine' : MatchingEngine) :
    (shard.putEngine symbol engine').engines.filter (fun entry => entry.1 ≠ symbol) =
      shard.engines.filter (fun entry => entry.1 ≠ symbol) := by
  unfold putEngine
  induction shard.engines with
  | nil => rfl
  | cons entry rest ih =>
    rw [List.map_cons]
    by_cases named : entry.1 = symbol
    · rw [if_pos named, List.filter_cons_of_neg (by simp), List.filter_cons_of_neg (by simp [named]), ih]
    · rw [if_neg named, List.filter_cons_of_pos (by simp [named]), List.filter_cons_of_pos (by simp [named]), ih]

/-- A call on one engine keeps the invariant of the shard, and the other engines do not notice it. -/
theorem Holds.putEngine (holds : shard.Holds queues free ladders) {symbol : UInt64} {state : EngineState}
    (inside : (symbol, state) ∈ shard.engines) {m : FeedMessage} {engine' : MatchingEngine} {queues' : Queues}
    {free' : List Slot} (delivered : MatchingEngine.Delivered (state.on shard.pool) (queues symbol)
      (shard.others queues symbol) m engine' queues' free') :
    (shard.putEngine symbol engine').Holds (Function.update queues symbol queues') free'
      (Function.update ladders symbol ((ladders symbol).apply m).2) := by
  have names : ((shard.putEngine symbol engine').engines.map Prod.fst).Nodup := by
    rw [putEngine_names]
    exact holds.names
  have present : (symbol, engine'.state) ∈ (shard.putEngine symbol engine').engines :=
    List.mem_map.mpr ⟨(symbol, state), inside, if_pos rfl⟩
  have sameOthers : (shard.putEngine symbol engine').others (Function.update queues symbol queues') symbol =
      shard.others queues symbol := by
    unfold others
    rw [putEngine_others]
    apply slotsOf_congr
    intro entry member
    exact Function.update_of_ne (by simpa using (List.mem_filter.mp member).2) _ _
  have sound' := delivered.idle.steady.sound
  have pool : engine'.pool.Valid free'
      (slotsOf (shard.putEngine symbol engine').engines (Function.update queues symbol queues')) := by
    have split := slotsOf_split names (Function.update queues symbol queues') present
    rw [Function.update_self] at split
    change (engine'.book.slots queues' ++
      (shard.putEngine symbol engine').others (Function.update queues symbol queues') symbol).Perm _ at split
    rw [sameOthers] at split
    exact sound'.pool.perm split
  -- every other engine keeps its book, and the bytes of its orders were not written
  have moved : ∀ entry ∈ shard.engines, entry.1 ≠ symbol →
      (entry.2.on engine'.pool).Sound (queues entry.1) free'
        ((shard.putEngine symbol engine').others (Function.update queues symbol queues') entry.1) ∧
      (entry.2.on engine'.pool).ladder (queues entry.1) = (entry.2.on shard.pool).ladder (queues entry.1) := by
    intro entry there different
    have still : entry ∈ (shard.putEngine symbol engine').engines :=
      List.mem_map.mpr ⟨entry, there, if_neg different⟩
    have split := slotsOf_split names (Function.update queues symbol queues') still
    rw [Function.update_of_ne different] at split
    apply (holds.idle entry there).steady.sound.transfer (entry.2.on engine'.pool) rfl delivered.capacity
      (pool.perm split.symm)
    intro slot member
    exact delivered.untouched slot (mem_others there different member)
  refine ⟨names, pool, ?_, ?_, ?_⟩
  · intro entry member
    rcases mem_putEngine member with same | ⟨there, different⟩
    · rw [same, Function.update_self, sameOthers]
      exact delivered.idle
    · obtain ⟨sound, ladder⟩ := moved entry there different
      have idle := holds.idle entry there
      rw [Function.update_of_ne different]
      exact ⟨⟨sound, ladder ▸ idle.steady.wellFormed⟩, idle.drained⟩
  · intro entry member
    rcases mem_putEngine member with same | ⟨there, different⟩
    · rw [same, Function.update_self, Function.update_self, ← holds.ladder (symbol, state) inside]
      exact delivered.ladder
    · rw [Function.update_of_ne different, Function.update_of_ne different, ← holds.ladder entry there]
      exact (moved entry there different).2
  · intro name missing
    rw [putEngine_names] at missing
    have different : name ≠ symbol := by
      intro same
      exact missing (same ▸ List.mem_map_of_mem inside)
    rw [Function.update_of_ne different]
    exact holds.absent name missing

/-- One message at a shard. An invalid message changes nothing; an ADD for which no slot is free at most opens its
engine; any other message does to its symbol's priority lists what the lists say. -/
theorem Holds.applyMessage (holds : shard.Holds queues free ladders) (m : FeedMessage) :
    (MatchingEngine.Ignored m free ∧ ∃ shard' queues', shard.applyMessage m = some shard' ∧
      shard'.Holds queues' free ladders ∧ shard.Unchanged shard') ∨
    (¬MatchingEngine.Ignored m free ∧ isValidFeedMessage m = true ∧ ∃ shard' queues' free',
      shard.applyMessage m = some shard' ∧
      shard'.Holds queues' free' (Function.update ladders m.symbolPacked ((ladders m.symbolPacked).apply m).2) ∧
      shard'.fills = shard.fills ++ ((ladders m.symbolPacked).apply m).1 ∧
      shard'.pool.capacity = shard.pool.capacity ∧
      free.length ≤ free'.length + (if m.msgType = MsgType.ADD.byte then 1 else 0)) := by
  by_cases valid : isValidFeedMessage m = true
  · obtain ⟨queues₁, holds₁, inside⟩ := holds.getEngine m.symbolPacked
    have idle := holds₁.idle _ inside
    have unfolded : shard.applyMessage m =
        match ((shard.getEngine m.symbolPacked).1.on (shard.getEngine m.symbolPacked).2.pool).dispatch m with
        | none => none
        | some (.dropped, _) => some (shard.getEngine m.symbolPacked).2
        | some (_, engine) => some { (shard.getEngine m.symbolPacked).2.putEngine m.symbolPacked engine.drainFills.2 with
            fills := (shard.getEngine m.symbolPacked).2.fills ++ engine.drainFills.1 } := by
      unfold Shard.applyMessage
      rw [if_neg (by simp [valid])]
    rcases idle.steady.dispatch valid with ⟨kind, empty, result⟩ | ⟨room, engine', queues', free', result, stepped⟩
    · refine Or.inl ⟨Or.inr ⟨kind, empty⟩, _, queues₁, ?_, holds₁, shard.getEngine_unchanged m.symbolPacked⟩
      rw [unfolded, result]
    · obtain ⟨drained, delivered⟩ := stepped.drain idle valid
      have same : (EngineState.on (shard.getEngine m.symbolPacked).1 (shard.getEngine m.symbolPacked).2.pool).ladder
          (queues₁ m.symbolPacked) = ladders m.symbolPacked := holds₁.ladder _ inside
      have kept := holds₁.putEngine inside delivered
      rw [same] at drained
      let final : Shard := { (shard.getEngine m.symbolPacked).2.putEngine m.symbolPacked { engine' with fills := [] } with
        fills := (shard.getEngine m.symbolPacked).2.fills ++ ((ladders m.symbolPacked).apply m).1 }
      refine Or.inr ⟨?_, valid, final, _, free', ?_, ⟨kept.names, kept.pool, kept.idle, kept.ladder, kept.absent⟩,
        ?_, ?_, delivered.free_length idle⟩
      · intro ignored
        rcases ignored with invalid | ⟨kind, none⟩
        · rw [valid] at invalid
          cases invalid
        · exact room kind none
      · rw [unfolded, result]
        cases told : MatchingEngine.answer _ m with
        | dropped => exact absurd told (MatchingEngine.answer_ne_dropped _ m)
        | missed => simp only [drained, final]
        | applied => simp only [drained, final]
      · change (shard.getEngine m.symbolPacked).2.fills ++ _ = _
        rw [(shard.getEngine_unchanged m.symbolPacked).fills]
      · rw [← (shard.getEngine_unchanged m.symbolPacked).pool]
        exact delivered.capacity
  · refine Or.inl ⟨Or.inl (Bool.eq_false_of_not_eq_true valid), shard, queues, ?_, holds, rfl, rfl, fun _ => rfl⟩
    unfold Shard.applyMessage
    rw [if_pos (by simp [valid])]

theorem Holds.applyAll (messages : List FeedMessage) :
    ∀ {shard : Shard} {queues : UInt64 → Queues} {free : List Slot} {ladders : UInt64 → Ladder},
      shard.Holds queues free ladders → ∃ shard' queues' free' ladders', shard.applyAll messages = some shard' ∧
        shard'.Holds queues' free' ladders' ∧ shard'.pool.capacity = shard.pool.capacity := by
  induction messages with
  | nil =>
    intro shard queues free ladders holds
    exact ⟨shard, queues, free, ladders, rfl, holds, rfl⟩
  | cons m later ih =>
    intro shard queues free ladders holds
    rw [Shard.applyAll]
    rcases holds.applyMessage m with ⟨_, shard₁, queues₁, applied, holds₁, same⟩ |
      ⟨_, _, shard₁, queues₁, free₁, applied, holds₁, _, capacity₁, _⟩
    · obtain ⟨shard', queues', free', ladders', rest, holds', capacity'⟩ := ih holds₁
      refine ⟨shard', queues', free', ladders', ?_, holds', ?_⟩
      · rw [applied, Option.bind_some, rest]
      · rw [capacity', same.pool]
    · obtain ⟨shard', queues', free', ladders', rest, holds', capacity'⟩ := ih holds₁
      refine ⟨shard', queues', free', ladders', ?_, holds', capacity'.trans capacity₁⟩
      rw [applied, Option.bind_some, rest]

end Shard

end ChronoBook
