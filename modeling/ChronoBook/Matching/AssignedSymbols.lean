import ChronoBook.Feed.FeedGenerator
import ChronoBook.Matching.SymbolRouting

/-! A feed whose symbols are filled in before it is routed, as the benchmark of the
sharded engine does: an ADD gets a symbol by lot, and a CANCEL or MODIFY that of the
ADD it follows. Then every order is reached, in the sharded engine and in the loop
without threads that it is compared with. -/

namespace ChronoBook

/-- The loop of `assignSymbols`, with the symbols of the orders it has seen. -/
def assignSymbols {σ : Type} (source : RandomSource σ) (numSymbols : UInt64) (rng : σ)
    (orderToSymbol : UInt64 → Option UInt64) : List FeedMessage → List FeedMessage
  | [] => []
  | msg :: later =>
      if msg.msgType = MsgType.ADD.byte then
        let (sym, rng) := source.uniformSize 1 numSymbols rng
        { msg with symbolPacked := sym } ::
          assignSymbols source numSymbols rng (Function.update orderToSymbol msg.orderId (some sym)) later
      else
        { msg with symbolPacked := (orderToSymbol msg.orderId).getD msg.symbolPacked } ::
          assignSymbols source numSymbols rng orderToSymbol later

/-- The single-threaded loop of the benchmark does what a shard does: one table of engines over one pool. Its result is
what it drains, message by message. -/
def runBaseline (feed : List FeedMessage) (poolCap : UInt64) : Option (List Fill) := do
  let shard ← Shard.create poolCap
  let shard ← shard.applyAll feed
  return shard.fills

/-- A CANCEL or MODIFY carries the symbol of every earlier ADD of the id it names. -/
def SymbolsFollow (feed : List FeedMessage) : Prop :=
  feed.Pairwise (fun add m => add.msgType = MsgType.ADD.byte → m.msgType ≠ MsgType.ADD.byte →
    add.orderId = m.orderId → m.symbolPacked = add.symbolPacked)

def FeedMessage.unlabelled (m : FeedMessage) : FeedMessage := { m with symbolPacked := 0 }

section Assignment

variable {σ : Type} {source : RandomSource σ} {numSymbols : UInt64} {rng : σ} {orderToSymbol : UInt64 → Option UInt64}
  {m : FeedMessage} {later feed : List FeedMessage}

theorem assignSymbols_add (kind : m.msgType = MsgType.ADD.byte) :
    assignSymbols source numSymbols rng orderToSymbol (m :: later) =
      { m with symbolPacked := (source.uniformSize 1 numSymbols rng).1 } ::
        assignSymbols source numSymbols (source.uniformSize 1 numSymbols rng).2
          (Function.update orderToSymbol m.orderId (some (source.uniformSize 1 numSymbols rng).1)) later := if_pos kind

theorem assignSymbols_other (kind : m.msgType ≠ MsgType.ADD.byte) :
    assignSymbols source numSymbols rng orderToSymbol (m :: later) =
      { m with symbolPacked := (orderToSymbol m.orderId).getD m.symbolPacked } ::
        assignSymbols source numSymbols rng orderToSymbol later := if_neg kind

theorem assignSymbols_unlabelled (feed : List FeedMessage) : ∀ (rng : σ) (orderToSymbol : UInt64 → Option UInt64),
    (assignSymbols source numSymbols rng orderToSymbol feed).map FeedMessage.unlabelled =
      feed.map FeedMessage.unlabelled := by
  induction feed with
  | nil =>
    intro rng orderToSymbol
    rfl
  | cons m later ih =>
    intro rng orderToSymbol
    by_cases kind : m.msgType = MsgType.ADD.byte
    · rw [assignSymbols_add kind, List.map_cons, List.map_cons, ih]
      rfl
    · rw [assignSymbols_other kind, List.map_cons, List.map_cons, ih]
      rfl

/-- What is said of two messages without regard to their symbols is said of the feed as it was. -/
theorem assignSymbols_pairwise {rel : FeedMessage → FeedMessage → Prop}
    (blind : ∀ first second, rel first.unlabelled second.unlabelled ↔ rel first second) :
    (assignSymbols source numSymbols rng orderToSymbol feed).Pairwise rel ↔ feed.Pairwise rel := by
  have same : ∀ msgs : List FeedMessage, (msgs.map FeedMessage.unlabelled).Pairwise rel ↔ msgs.Pairwise rel := by
    intro msgs
    rw [List.pairwise_map]
    exact List.Pairwise.iff (fun {first second} => blind first second)
  rw [← same, assignSymbols_unlabelled, same]

theorem assignSymbols_unique (unique : UniqueIds feed) :
    UniqueIds (assignSymbols source numSymbols rng orderToSymbol feed) :=
  (assignSymbols_pairwise (fun _ _ => Iff.rfl)).mpr unique

theorem assignSymbols_sequenced (sequenced : feed.Pairwise (fun first second => first.sequence < second.sequence)) :
    (assignSymbols source numSymbols rng orderToSymbol feed).Pairwise
      (fun first second => first.sequence < second.sequence) :=
  (assignSymbols_pairwise (fun _ _ => Iff.rfl)).mpr sequenced

theorem validAdds_unlabelled (feed : List FeedMessage) : validAdds (feed.map FeedMessage.unlabelled) = validAdds feed := by
  unfold validAdds
  rw [List.filter_map, List.length_map]
  rfl

theorem assignSymbols_validAdds :
    validAdds (assignSymbols source numSymbols rng orderToSymbol feed) = validAdds feed := by
  rw [← validAdds_unlabelled, assignSymbols_unlabelled, validAdds_unlabelled]

theorem assignSymbols_symbol {id sym : UInt64} (feed : List FeedMessage) :
    ∀ {rng : σ} {orderToSymbol : UInt64 → Option UInt64}, orderToSymbol id = some sym →
      (∀ m ∈ feed, m.msgType = MsgType.ADD.byte → m.orderId ≠ id) →
      ∀ m ∈ assignSymbols source numSymbols rng orderToSymbol feed, m.orderId = id → m.symbolPacked = sym := by
  induction feed with
  | nil =>
    intro rng orderToSymbol _ _ m inside
    cases inside
  | cons n later ih =>
    intro rng orderToSymbol known others m inside names
    have others' := fun m there => others m (List.mem_cons_of_mem n there)
    by_cases kind : n.msgType = MsgType.ADD.byte
    · have apart := others n List.mem_cons_self kind
      rw [assignSymbols_add kind] at inside
      rcases List.mem_cons.mp inside with rfl | there
      · exact absurd names apart
      · refine ih ?_ others' m there names
        rw [Function.update_of_ne (Ne.symm apart)]
        exact known
    · rw [assignSymbols_other kind] at inside
      rcases List.mem_cons.mp inside with rfl | there
      · have same : n.orderId = id := names
        change (orderToSymbol n.orderId).getD n.symbolPacked = sym
        rw [same, known]
        rfl
      · exact ih known others' m there names

theorem assignSymbols_follow (feed : List FeedMessage) : ∀ {rng : σ} {orderToSymbol : UInt64 → Option UInt64},
    UniqueIds feed → SymbolsFollow (assignSymbols source numSymbols rng orderToSymbol feed) := by
  induction feed with
  | nil =>
    intro rng orderToSymbol _
    exact List.Pairwise.nil
  | cons m later ih =>
    intro rng orderToSymbol unique
    obtain ⟨first, rest⟩ := List.pairwise_cons.mp unique
    by_cases kind : m.msgType = MsgType.ADD.byte
    · rw [assignSymbols_add kind]
      refine List.pairwise_cons.mpr ⟨fun n inside _ _ same => ?_, ih rest⟩
      refine assignSymbols_symbol later (Function.update_self ..) (fun other there adds => ?_) n inside same.symm
      exact (first other there kind adds).symm
    · rw [assignSymbols_other kind]
      exact List.pairwise_cons.mpr ⟨fun n _ adds => absurd adds kind, ih rest⟩

end Assignment

/-- The engine of a symbol and the matcher on the symbol's own feed go through the same lists, if the symbols follow the
orders. Either of them passes over messages that only the other gets: those name no order of the symbol's book. -/
theorem Ladder.run_followed {symbol : UInt64} {added : UInt64 → Bool} (feed : List FeedMessage) :
    ∀ {ladder : Ladder}, SymbolsFollow feed →
      (∀ m ∈ feed, m.msgType = MsgType.ADD.byte → m.symbolPacked = symbol → added m.orderId = true) →
      (∀ id, added id = false → ladder.find? id = none) →
      (∀ m ∈ feed, m.msgType ≠ MsgType.ADD.byte → m.symbolPacked ≠ symbol → ladder.find? m.orderId = none) →
      ladder.run (feed.filter (fun m => m.symbolPacked = symbol)) =
        ladder.run (feed.filter (fun m =>
          if m.msgType = MsgType.ADD.byte then m.symbolPacked = symbol else added m.orderId)) := by
  induction feed with
  | nil =>
    intro ladder _ _ _ _
    rfl
  | cons m later ih =>
    intro ladder follow adds known apart
    have adds' := fun other there => adds other (List.mem_cons_of_mem m there)
    have apart' := fun other there => apart other (List.mem_cons_of_mem m there)
    obtain ⟨first, follow'⟩ := List.pairwise_cons.mp follow
    -- a message that both get: what was absent stays so, but for an ADD's own id
    have both : (m.msgType = MsgType.ADD.byte → m.symbolPacked = symbol) →
        ladder.run (m :: later.filter (fun m => m.symbolPacked = symbol)) =
          ladder.run (m :: later.filter (fun m =>
            if m.msgType = MsgType.ADD.byte then m.symbolPacked = symbol else added m.orderId)) := by
      intro own
      by_cases valid : isValidFeedMessage m = true
      · rw [run_valid valid, run_valid valid, ih follow' adds']
        · intro id absent
          refine (apply_keeps_out valid (known id absent) (fun kind same => ?_)).1
          rw [← same, adds m List.mem_cons_self kind (own kind)] at absent
          cases absent
        · intro other there names away
          refine (apply_keeps_out valid (apart' other there names away) (fun kind same => away ?_)).1
          exact (first other there kind names same).trans (own kind)
      · have invalid := Bool.eq_false_of_not_eq_true valid
        rw [run_invalid invalid, run_invalid invalid, ih follow' adds' known apart']
    by_cases kind : m.msgType = MsgType.ADD.byte
    · by_cases own : m.symbolPacked = symbol
      · rw [List.filter_cons_of_pos (by simp [own]), List.filter_cons_of_pos (by simp [kind, own])]
        exact both (fun _ => own)
      · rw [List.filter_cons_of_neg (by simp [own]), List.filter_cons_of_neg (by simp [kind, own])]
        exact ih follow' adds' known apart'
    · have rest := ih follow' adds' known apart'
      by_cases own : m.symbolPacked = symbol
      · rw [List.filter_cons_of_pos (by simp [own])]
        by_cases target : added m.orderId = true
        · rw [List.filter_cons_of_pos (by simp [kind, target])]
          exact both (fun adds => absurd adds kind)
        · rw [List.filter_cons_of_neg (by simp [kind, target]),
            run_absent kind (known m.orderId (Bool.eq_false_of_not_eq_true target)), rest]
      · rw [List.filter_cons_of_neg (by simp [own])]
        by_cases target : added m.orderId = true
        · rw [List.filter_cons_of_pos (by simp [kind, target]), run_absent kind (apart m List.mem_cons_self kind own), rest]
        · rw [List.filter_cons_of_neg (by simp [kind, target]), rest]

theorem emitted_followed {feed : List FeedMessage} (unique : UniqueIds feed)
    (sequenced : feed.Pairwise (fun first second => first.sequence < second.sequence)) (follow : SymbolsFollow feed)
    (symbol : UInt64) :
    ∃ matcher, ReferenceMatcher.run (symbolFeed feed symbol) = some matcher ∧
      emitted (fun _ => Ladder.empty) (feed.filter (fun m => m.symbolPacked = symbol)) = matcher.fills := by
  have ordered : (symbolFeed feed symbol).Pairwise (fun first second => first.sequence ≤ second.sequence) :=
    (sequenced.imp UInt64.le_of_lt).filter _
  obtain ⟨matcher, ran, fills, _⟩ := reference_run (symbolFeed feed symbol) ordered (unique.filter _)
  refine ⟨matcher, ran, ?_⟩
  rw [emitted_run _ (fun m inside => by simpa using (List.mem_filter.mp inside).2), fills]
  congr 1
  apply Ladder.run_followed feed follow
  · intro m inside kind own
    unfold addedUnder
    rw [List.any_eq_true]
    exact ⟨m, inside, by simp [kind, own]⟩
  · exact fun _ _ => rfl
  · exact fun _ _ _ _ => rfl

theorem runBaseline_emitted {feed : List FeedMessage} {poolCap : UInt64} (fits : poolCap.toNat * 48 < 2 ^ 64)
    (room : validAdds feed ≤ poolCap.toNat) : runBaseline feed poolCap = some (emitted (fun _ => Ladder.empty) feed) := by
  obtain ⟨shard, ran, fills⟩ := Shard.Holds.applyAll_emitted feed (Shard.Holds.fresh poolCap.toNat)
    (by rw [List.length_reverse, List.length_range]; exact room)
  have same : shard.fills = emitted (fun _ => Ladder.empty) feed := fills
  unfold runBaseline
  rw [Shard.create_eq, if_pos fits, ← same]
  simp [ran]

/-- With the symbols filled in, every order is reached under every schedule: after the last `stop` the fills are those of
the loop without threads, whatever the number of shards, and those of a symbol are what the reference matcher makes of
the symbol's ADDs with every CANCEL and MODIFY of an order that got this symbol. -/
theorem sharded_assigned {σ : Type} (source : RandomSource σ) (numSymbols : UInt64) (rng : σ) (n : Nat) [NeZero n]
    (poolCap ringCap : UInt64) (feed : List FeedMessage) (unique : UniqueIds feed)
    (sequenced : feed.Pairwise (fun first second => first.sequence < second.sequence))
    (buildable : ShardedEngine.Buildable n poolCap ringCap) (room : validAdds feed ≤ poolCap.toNat) :
    ∃ start : System n,
      System.create n poolCap ringCap (assignSymbols source numSymbols rng (fun _ => none) feed) = .ok start ∧
      ∀ before s called, start.run before = some s → s.Routed → s.engine.running = true → s.step .stop = some called →
        (∃ after last, called.run after = some last ∧ last.Stopped) ∧
        ∀ after last, called.run after = some last → last.Stopped →
          (∀ capacity : UInt64, validAdds feed ≤ capacity.toNat → capacity.toNat * 48 < 2 ^ 64 →
            runBaseline (assignSymbols source numSymbols rng (fun _ => none) feed) capacity =
              some last.engine.collectAllFills) ∧
          ∀ symbol, ∃ matcher,
            ReferenceMatcher.run (symbolFeed (assignSymbols source numSymbols rng (fun _ => none) feed) symbol) =
              some matcher ∧
            last.engine.collectAllFills.filter (fun fill => fill.symbolPacked = symbol) = matcher.fills := by
  have same : validAdds (assignSymbols source numSymbols rng (fun _ => none) feed) = validAdds feed :=
    assignSymbols_validAdds
  have follow : SymbolsFollow (assignSymbols source numSymbols rng (fun _ => none) feed) :=
    assignSymbols_follow feed unique
  have unique' : UniqueIds (assignSymbols source numSymbols rng (fun _ => none) feed) := assignSymbols_unique unique
  have sequenced' : (assignSymbols source numSymbols rng (fun _ => none) feed).Pairwise
      (fun first second => first.sequence < second.sequence) := assignSymbols_sequenced sequenced
  generalize assignSymbols source numSymbols rng (fun _ => none) feed = assigned at *
  obtain ⟨start, built⟩ := System.create_ok (n := n) buildable assigned
  refine ⟨start, built, fun before s called reached routed runs stops => ?_⟩
  have invariant := (System.Invariant.create built buildable.sizable.1).run before reached
  refine ⟨invariant.stops stops, fun after last ran stopped => ?_⟩
  have result := (invariant.result routed runs stops ran stopped sequenced' (by omega)).1
  rw [result]
  refine ⟨fun capacity enough fits => runBaseline_emitted fits (by omega), fun symbol => ?_⟩
  rw [← emitted_filter symbol assigned Labelled.empty]
  exact emitted_followed unique' sequenced' follow symbol

/-- An order that gets symbol 1 and is cancelled there, before another one would meet it. -/
theorem sharded_assigned_cancelled :
    let feed := [makeAdd 1 1 .SELL .LIMIT 100 5 0, makeCancel 2 1, makeAdd 3 2 .BUY .LIMIT 100 5 0]
    let assigned := assignSymbols FeedGenerator.lowest 64 () (fun _ => none) feed
    ∃ start s called last : System 1, System.create 1 2 4 assigned = .ok start ∧ start.run handleThree = some s ∧
      s.Routed ∧ s.engine.running = true ∧ s.step .stop = some called ∧ called.run finishOne = some last ∧ last.Stopped ∧
      runBaseline assigned 2 = some last.engine.collectAllFills ∧
      ∃ matcher, ReferenceMatcher.run (symbolFeed assigned 1) = some matcher ∧ symbolFeed assigned 1 = assigned ∧
        last.engine.collectAllFills.filter (fun fill => fill.symbolPacked = 1) = matcher.fills := by
  intro feed assigned
  have whole : (System.create 1 2 4 assigned).toOption.bind (fun start => (start.run handleThree).bind (fun s =>
      (s.step .stop).bind (fun called => (called.run finishOne).map (fun last =>
        (s.remaining, s.route, s.engine.running, last.control, last.engine.running))))) =
      some ([], .idle, true, .idle, false) := by decide +kernel
  obtain ⟨start, built, rest⟩ := Option.bind_eq_some_iff.mp whole
  obtain ⟨s, reached, rest⟩ := Option.bind_eq_some_iff.mp rest
  obtain ⟨called, stops, rest⟩ := Option.bind_eq_some_iff.mp rest
  obtain ⟨last, ran, facts⟩ := Option.map_eq_some_iff.mp rest
  simp only [Prod.mk.injEq] at facts
  obtain ⟨left, route, runs, control, rests⟩ := facts
  have unique : UniqueIds feed := by
    unfold UniqueIds
    decide
  obtain ⟨start', built', holds⟩ := sharded_assigned FeedGenerator.lowest 64 () 1 2 4 feed unique (by decide)
    ⟨by decide, by decide, by decide⟩ (by decide)
  rw [ok_of_toOption built] at built'
  cases built'
  have result := holds handleThree s called reached ⟨left, route⟩ runs stops
  obtain ⟨baseline, symbols⟩ := result.2 finishOne last ran ⟨control, rests⟩
  obtain ⟨matcher, matched, fills⟩ := symbols 1
  exact ⟨start, s, called, last, ok_of_toOption built, reached, ⟨left, route⟩, runs, stops, ran, ⟨control, rests⟩,
    baseline 2 (by decide) (by decide), matcher, matched, by decide, fills⟩

end ChronoBook
