import ChronoBook.Feed.FeedGenerator
import ChronoBook.Feed.FeedParser
import ChronoBook.Matching.LadderRun
import ChronoBook.Replay.ReplayCounters

/-! The synthetic feed from the generator through a file into the replay: what the
tool writes is read back, all of it is accepted by an engine with as many slots as
messages, and the engine trades as the reference matcher does. A CANCEL then misses
exactly if its order has been filled to its last unit. -/

namespace ChronoBook
open Library Priority

theorem FeedParser.readFile_written (msgs : List FeedMessage) (file : Option (List UInt8)) :
    readFile (writeFile msgs .done file).1 true = some msgs := by
  have decoded := (parseBuffer_encoded msgs none_left).1
  rw [List.append_nil] at decoded
  change readFile (some (encodeAll msgs)) true = _
  rw [readFile_whole (by rw [encodeAll_length, Nat.mul_mod_right]), decoded]

namespace Ladder

variable {ladder : Ladder} {m : FeedMessage} {id : UInt64}

def units (ladder : Ladder) (id : UInt64) : Nat := openUnits (fun other => other = id) ladder.orders

theorem units_eq_zero (wellFormed : ladder.WellFormed) : ladder.units id = 0 ↔ ladder.find? id = none := by
  constructor
  · intro nothing
    refine find?_eq_none.mpr (fun side order inside same => ?_)
    have opened := wellFormed.opened side order inside
    have units : order.remainingQty.toNat ≤ ladder.units id := by
      unfold units openUnits
      refine List.single_le_sum (fun _ _ => Nat.zero_le _) _ (List.mem_map_of_mem ?_)
      exact List.mem_filter.mpr ⟨mem_orders.mpr ⟨side, inside⟩, decide_eq_true same⟩
    rw [nothing, Resting.remainingQty_toNat] at units
    rw [UInt32.lt_iff_toNat_lt] at opened
    omega
  · intro absent
    refine openUnits_none (fun order inside => ?_)
    obtain ⟨side, there⟩ := mem_orders.mp inside
    exact decide_eq_false (find?_eq_none.mp absent side order there)

/-- A message about another order moves units of this one only into fills. -/
theorem units_apply_other (wellFormed : ladder.WellFormed) (valid : isValidFeedMessage m = true)
    (other : m.orderId ≠ id) :
    ladder.units id = volume (fun fill => fill.names id) (ladder.apply m).1 + (ladder.apply m).2.units id := by
  have share := ladder.cleared_units (fun named => named = id) m
  rw [if_neg (by simpa using other)] at share
  cases brings : ladder.incoming m with
  | none =>
    rw [apply_none brings, volume_nil]
    exact share.symm.trans (Nat.add_comm _ _)
  | some order =>
    obtain ⟨taker, type⟩ := order
    have named := (incoming_spec valid brings).1
    have opened := (wellFormed.cleared m).opened taker.side.opposite
    rw [apply_some brings]
    exact share.symm.trans (enter_other_units type m.sequence opened (named.symm ▸ other.symm))

theorem WellFormed.run (feed : List FeedMessage) : ∀ {ladder : Ladder}, ladder.WellFormed →
    (ladder.run feed).2.WellFormed := by
  induction feed with
  | nil => exact fun wellFormed => wellFormed
  | cons m later ih =>
    intro ladder wellFormed
    by_cases valid : isValidFeedMessage m = true
    · rw [run_valid valid]
      exact ih (wellFormed.apply valid)
    · rw [run_invalid (Bool.eq_false_of_not_eq_true valid)]
      exact ih wellFormed

theorem units_run_other (feed : List FeedMessage) : ∀ {ladder : Ladder}, ladder.WellFormed →
    (∀ m ∈ feed, m.orderId ≠ id) →
    ladder.units id = volume (fun fill => fill.names id) (ladder.run feed).1 + (ladder.run feed).2.units id := by
  induction feed with
  | nil => exact fun _ _ => (Nat.zero_add _).symm
  | cons m later ih =>
    intro ladder wellFormed others
    have rest := fun other there => others other (List.mem_cons_of_mem m there)
    by_cases valid : isValidFeedMessage m = true
    · have now := units_apply_other wellFormed valid (others m List.mem_cons_self)
      have then' := ih (wellFormed.apply valid) rest
      rw [run_valid valid, volume_append]
      dsimp only
      omega
    · rw [run_invalid (Bool.eq_false_of_not_eq_true valid)]
      exact ih wellFormed rest

theorem units_apply_limit (wellFormed : ladder.WellFormed) (valid : isValidFeedMessage m = true)
    (limit : m.isLimitAdd = true) (fresh : ladder.find? m.orderId = none) :
    m.qty.toNat = volume (fun fill => fill.names m.orderId) (ladder.apply m).1 + (ladder.apply m).2.units m.orderId := by
  obtain ⟨kind, type⟩ : m.msgType = MsgType.ADD.byte ∧ m.orderType = OrderType.LIMIT.byte := by
    simpa [FeedMessage.isLimitAdd, FeedMessage.isAdd] using limit
  have brings := incoming_add kind fresh
  obtain ⟨named, qty, whole, _, _, _, absent⟩ := incoming_spec valid brings
  have opened := (wellFormed.cleared m).opened m.taker.side.opposite
  have share := enter_taker_units (OrderType.ofByte m.orderType) m.sequence whole opened absent
  have rests : OrderType.ofByte m.orderType = .LIMIT := by rw [type]; rfl
  rw [apply_some brings, ← named, ← qty]
  rw [rests] at share ⊢
  by_cases left : ((ladder.cleared m).swept m.taker .LIMIT m.sequence).left = 0
  · rw [if_neg (fun stays => stays.1 left), left] at share
    exact share
  · rw [if_pos ⟨left, rfl⟩] at share
    exact share

theorem volume_unnamed {fills : List Fill} (silent : ∀ fill ∈ fills, fill.names id = false) :
    volume (fun fill => fill.names id) fills = 0 := by
  rw [volume_congr silent]
  unfold volume
  rw [List.filter_false]
  rfl

end Ladder

/-- A feed as the generator sends it: ADDs under new ids in sequence order, and at most one CANCEL for each LIMIT ADD
before it. -/
structure Orderly (feed : List FeedMessage) : Prop where
  valid : ∀ m ∈ feed, isValidFeedMessage m = true
  kinds : ∀ m ∈ feed, m.isAdd = true ∨ m.isCancel = true
  sequenced : feed.Pairwise (fun first second => first.sequence ≤ second.sequence)
  unique : UniqueIds feed
  cancels : CancelsOnce feed

/-- The CANCEL names an order that trades its whole quantity. -/
def filledOrder (feed : List FeedMessage) (fills : List Fill) (m : FeedMessage) : Bool :=
  m.isCancel && feed.any (fun a => a.isAdd && a.orderId = m.orderId &&
    a.qty.toNat = volume (fun fill => fill.names m.orderId) fills)

namespace Orderly

variable {feed earlier later : List FeedMessage} {m : FeedMessage}

theorem not_add_of_cancel (cancel : m.isCancel = true) : m.msgType ≠ MsgType.ADD.byte := by
  rw [FeedMessage.isCancel, decide_eq_true_eq] at cancel
  rw [cancel]
  decide

theorem accepted (orderly : Orderly feed) {m : FeedMessage} (inside : m ∈ feed) (kind : MsgType) :
    m.accepted kind = decide (m.msgType = kind.byte) := by
  unfold FeedMessage.accepted
  rw [orderly.valid m inside, Bool.true_and]

theorem never_modifies (orderly : Orderly feed) {m : FeedMessage} (inside : m ∈ feed) :
    m.accepted .MODIFY = false := by
  rw [orderly.accepted inside, decide_eq_false_iff_not]
  rcases orderly.kinds m inside with kind | kind
  · rw [of_decide_eq_true kind]
    decide
  · rw [of_decide_eq_true kind]
    decide

theorem count_kinds (orderly : Orderly feed) :
    feed.length = feed.countP FeedMessage.isCancel + feed.countP FeedMessage.isAdd := by
  rw [List.length_eq_countP_add_countP FeedMessage.isAdd, Nat.add_comm]
  congr 1
  refine List.countP_congr (fun m inside => ?_)
  rw [decide_eq_true_eq]
  constructor
  · exact (orderly.kinds m inside).resolve_left
  · exact fun cancel add => not_add_of_cancel cancel (of_decide_eq_true add)

theorem add_unique (orderly : Orderly feed) {before after : List FeedMessage} {a b : FeedMessage}
    (split : feed = before ++ a :: after) (add : a.isAdd = true) (inside : b ∈ feed) (add' : b.isAdd = true)
    (same : b.orderId = a.orderId) : b = a := by
  have unique := orderly.unique
  unfold UniqueIds at unique
  rw [split, List.pairwise_append, List.pairwise_cons] at unique
  rw [FeedMessage.isAdd, decide_eq_true_eq] at add add'
  rw [split] at inside
  rcases List.mem_append.mp inside with old | here
  · exact absurd same (unique.2.2 b old a List.mem_cons_self add' add)
  · rcases List.mem_cons.mp here with rfl | new
    · rfl
    · exact absurd same.symm (unique.2.1.1 b new add add')

/-- The order of a CANCEL has traded some of its units before, and the others rest. -/
theorem account (orderly : Orderly feed) (split : feed = earlier ++ m :: later) (cancel : m.isCancel = true) :
    ∃ a ∈ feed, a.isAdd = true ∧ a.orderId = m.orderId ∧
      a.qty.toNat = volume (fun fill => fill.names m.orderId) (Ladder.empty.run earlier).1 +
        (Ladder.empty.run earlier).2.units m.orderId := by
  obtain ⟨⟨a, added, limit, named⟩, uncancelled⟩ := orderly.cancels earlier m later split cancel
  obtain ⟨before, between, rfl⟩ := List.append_of_mem added
  have whole : feed = before ++ a :: (between ++ m :: later) := by rw [split]; simp
  have add : a.isAdd = true := by
    rw [FeedMessage.isLimitAdd, Bool.and_eq_true] at limit
    exact limit.1
  have inside : ∀ other ∈ before ++ a :: between, other ∈ feed :=
    fun other there => by rw [split]; exact List.mem_append_left _ there
  have valid := orderly.valid a (inside a added)
  have unique := orderly.unique
  unfold UniqueIds at unique
  rw [whole, List.pairwise_append, List.pairwise_cons] at unique
  have isAdd := of_decide_eq_true add
  -- before its ADD the id is unknown, and between it and the CANCEL no message names it
  obtain ⟨unknown, silent⟩ := Ladder.run_keeps_out before (show Ladder.empty.find? a.orderId = none from rfl)
    (fun other there _ kind => unique.2.2 other there a List.mem_cons_self kind isAdd)
  have others : ∀ other ∈ between, other.orderId ≠ a.orderId := by
    intro other there same
    have sent : other ∈ before ++ a :: between := List.mem_append_right _ (List.mem_cons_of_mem a there)
    rcases orderly.kinds other (inside other sent) with adds | cancels
    · exact unique.2.1.1 other (List.mem_append_left _ there) isAdd (of_decide_eq_true adds) same.symm
    · exact uncancelled other sent cancels (same.trans named)
  have formed := Ladder.WellFormed.run before Ladder.WellFormed.empty
  have entered := Ladder.units_apply_limit formed valid limit unknown
  have kept := Ladder.units_run_other between (formed.apply valid) others
  refine ⟨a, inside a added, add, named, ?_⟩
  rw [← named, Ladder.run_append, Ladder.run_valid valid, volume_append, volume_append,
    Ladder.volume_unnamed silent, Nat.zero_add]
  dsimp only
  omega

/-- From its CANCEL on the order does not trade. -/
theorem volume_before (orderly : Orderly feed) (split : feed = earlier ++ m :: later) (cancel : m.isCancel = true) :
    volume (fun fill => fill.names m.orderId) (Ladder.empty.run feed).1 =
      volume (fun fill => fill.names m.orderId) (Ladder.empty.run earlier).1 := by
  obtain ⟨⟨a, added, limit, named⟩, _⟩ := orderly.cancels earlier m later split cancel
  have add : a.msgType = MsgType.ADD.byte := by
    rw [FeedMessage.isLimitAdd, Bool.and_eq_true] at limit
    exact of_decide_eq_true limit.1
  have valid := orderly.valid m (by rw [split]; simp)
  have unique := orderly.unique
  unfold UniqueIds at unique
  rw [split, List.pairwise_append] at unique
  have applied : ∀ ladder : Ladder, ladder.apply m = ([], ladder.remove m.orderId) := by
    intro ladder
    rw [Ladder.apply_none (Ladder.incoming_cancel (of_decide_eq_true cancel)),
      Ladder.cleared_of_ne (not_add_of_cancel cancel)]
  have silent := (Ladder.run_keeps_out later (Ladder.find?_remove (Ladder.empty.run earlier).2 m.orderId)
    (fun other there _ kind => named ▸ (unique.2.2 a added other (List.mem_cons_of_mem m there) add kind).symm)).2
  rw [split, Ladder.run_append, Ladder.run_valid valid, applied, List.nil_append, volume_append,
    Ladder.volume_unnamed silent, Nat.add_zero]

/-- A CANCEL finds nothing exactly if its order has traded its whole quantity. -/
theorem missed_iff (orderly : Orderly feed) (split : feed = earlier ++ m :: later) (cancel : m.isCancel = true) :
    (Ladder.empty.run earlier).2.find? m.orderId = none ↔ filledOrder feed (Ladder.empty.run feed).1 m = true := by
  obtain ⟨a, inside, add, named, account⟩ := orderly.account split cancel
  rw [← Ladder.units_eq_zero (Ladder.WellFormed.run earlier Ladder.WellFormed.empty)]
  unfold filledOrder
  rw [cancel, Bool.true_and, List.any_eq_true, orderly.volume_before split cancel]
  constructor
  · intro nothing
    refine ⟨a, inside, ?_⟩
    rw [add, decide_eq_true named, decide_eq_true (by rw [account, nothing, Nat.add_zero])]
    rfl
  · rintro ⟨b, there, holds⟩
    rw [Bool.and_eq_true, Bool.and_eq_true, decide_eq_true_eq, decide_eq_true_eq] at holds
    obtain ⟨⟨adds, same⟩, full⟩ := holds
    obtain ⟨before, after, whole⟩ := List.append_of_mem inside
    rw [orderly.add_unique whole add there adds (same.trans named.symm)] at full
    omega

/-- An ask that is taken whole, and its CANCEL. -/
example : filledOrder [makeAdd 1 1 .SELL .LIMIT 100 5 0, makeAdd 2 2 .BUY .LIMIT 100 5 0, makeCancel 3 1]
    (Ladder.empty.run [makeAdd 1 1 .SELL .LIMIT 100 5 0, makeAdd 2 2 .BUY .LIMIT 100 5 0, makeCancel 3 1]).1
    (makeCancel 3 1) = true := by decide

end Orderly

namespace ReplayEngine
open MatchingEngine ReplayStats

/-- What is counted of the encounters can be counted of the messages, if the lists that a message meets decide it. -/
theorem encounters_countP {counts : MatchingEngine → FeedMessage → Bool} {kind : FeedMessage → Bool}
    (messages : List FeedMessage) : ∀ {engine : MatchingEngine} {queues : Queues} {free : List Slot},
    engine.Idle queues free [] → engine.PoolSuffices messages →
    (∀ earlier m later (met : MatchingEngine) (queues' : Queues) (free' : List Slot),
      messages = earlier ++ m :: later → met.Idle queues' free' [] → met.PoolSuffices (m :: later) →
        met.ladder queues' = ((engine.ladder queues).run earlier).2 → counts met m = kind m) →
    (engine.encounters messages).countP (fun encounter => counts encounter.1 encounter.2) = messages.countP kind := by
  induction messages with
  | nil =>
    intro engine queues free _ _ _
    rfl
  | cons m later ih =>
    intro engine queues free idle room decided
    have now := decided [] m later engine queues free rfl idle room rfl
    obtain ⟨engine₁, queues₁, free₁, result, idle₁, ladder, _⟩ := idle.deliver_run room
    have rest := ih idle₁ (room.tail result) (by
      intro earlier n behind met queues' free' split idle' room' same
      apply decided (m :: earlier) n behind met queues' free' (by rw [split, List.cons_append]) idle' room'
      rw [same, ladder]
      change _ = ((engine.ladder queues).run ([m] ++ earlier)).2
      rw [Ladder.run_append])
    rw [encounters_cons m later result, List.countP_cons, List.countP_cons, rest]
    dsimp only
    rw [now]

variable {feed : List FeedMessage}

/-- The counters of a replay of such a feed by an engine that has a slot for every ADD. -/
def orderlyStats (feed : List FeedMessage) (fills : List Fill) : ReplayStats where
  messages := UInt64.ofNat feed.length
  adds := UInt64.ofNat (feed.countP FeedMessage.isAdd)
  cancels := UInt64.ofNat (feed.countP FeedMessage.isCancel)
  cancelMisses := UInt64.ofNat (feed.countP (filledOrder feed fills))
  fills := UInt64.ofNat fills.length
  matchedVolume := UInt64.ofNat (Fill.volume fills)

theorem encounters_messages {engine : MatchingEngine} {queues : Queues} {free : List Slot}
    (idle : engine.Idle queues free []) (kind : FeedMessage → Bool) (feed : List FeedMessage) :
    (engine.encounters feed).countP (fun encounter => kind encounter.2) = feed.countP kind := by
  obtain ⟨_, _, _, _, _, _, met, _⟩ := applyAll_counts feed idle
  conv_rhs => rw [← met, List.countP_map]
  rfl

/-- What the engine's id map says of a CANCEL can be read off the fills. -/
theorem missed_orderly (orderly : Orderly feed) {earlier later : List FeedMessage} {m : FeedMessage}
    (split : feed = earlier ++ m :: later) {engine : MatchingEngine} {queues : Queues} {free : List Slot}
    (idle : engine.Idle queues free []) (same : engine.ladder queues = (Ladder.empty.run earlier).2) :
    namesNoOrder engine m = filledOrder feed (Ladder.empty.run feed).1 m := by
  have inside : m ∈ feed := by rw [split]; simp
  have absent : engine.book.orderMap m.orderId = none ↔ (engine.ladder queues).find? m.orderId = none :=
    idle.steady.sound.orderMap_eq_none
  unfold namesNoOrder
  rw [orderly.never_modifies inside, orderly.accepted inside, Bool.or_false]
  change (m.isCancel && _) = _
  cases cancel : m.isCancel with
  | false =>
    unfold filledOrder
    rw [cancel]
    rfl
  | true =>
    rw [Bool.true_and, Bool.eq_iff_iff, ← orderly.missed_iff split cancel, ← same, ← absent]
    unfold OrderBook.containsOrder
    rw [Bool.not_eq_true', Option.isSome_eq_false_iff, Option.isNone_iff_eq_none]

theorem served_room {engine : MatchingEngine} {queues : Queues} {free : List Slot} {m : FeedMessage}
    {later : List FeedMessage} (idle : engine.Idle queues free []) (room : engine.PoolSuffices (m :: later)) :
    meetsFullPool engine m = false := by
  unfold meetsFullPool FeedMessage.accepted
  rw [← Bool.not_eq_true, Bool.and_eq_true, Bool.and_eq_true, decide_eq_true_eq, decide_eq_true_eq]
  rintro ⟨⟨valid, kind⟩, full⟩
  rw [idle.steady.sound.pool.freeCount_eq, List.length_eq_zero_iff] at full
  exact idle.taken valid (room.head valid) (Or.inr ⟨kind, full⟩)

theorem tally_orderly (orderly : Orderly feed) {capacity : Nat}
    (room : (MatchingEngine.create capacity).PoolSuffices feed) :
    tally ((MatchingEngine.create capacity).encounters feed) (Ladder.empty.run feed).1 =
      orderlyStats feed (Ladder.empty.run feed).1 := by
  have idle := Idle.create capacity
  have valid : ∀ m ∈ feed, isValidFeedMessage m = true := orderly.valid
  apply ReplayStats.ext <;> refine congrArg UInt64.ofNat ?_
  case messages => rw [encounters_messages idle, List.countP_eq_length.mpr valid]
  case adds =>
    rw [encounters_messages idle (fun m => m.accepted .ADD)]
    exact List.countP_congr (fun m inside => by rw [orderly.accepted inside]; rfl)
  case cancels =>
    rw [encounters_messages idle (fun m => m.accepted .CANCEL)]
    exact List.countP_congr (fun m inside => by rw [orderly.accepted inside]; rfl)
  case modifies =>
    rw [encounters_messages idle (fun m => m.accepted .MODIFY)]
    exact List.countP_eq_zero.mpr (fun m inside => by rw [orderly.never_modifies inside]; exact Bool.false_ne_true)
  case cancelMisses =>
    refine encounters_countP feed idle room (fun earlier m later met queues free split idle' _ same => ?_)
    rw [create_ladder] at same
    exact missed_orderly orderly split idle' same
  case invalidMessages =>
    rw [encounters_messages idle (fun m => !isValidFeedMessage m)]
    exact List.countP_eq_zero.mpr (fun m inside => by rw [valid m inside]; exact Bool.false_ne_true)
  case droppedAdds =>
    have served : ((MatchingEngine.create capacity).encounters feed).countP
        (fun encounter => meetsFullPool encounter.1 encounter.2) = feed.countP (fun _ => false) :=
      encounters_countP feed idle room (fun _ m _ met _ _ _ idle' room' _ => served_room idle' room')
    rw [served, List.countP_false]
    rfl
  case fills => rfl
  case matchedVolume => rfl

/-- Such a feed is replayed as the reference matcher trades it. -/
theorem run_orderly (orderly : Orderly feed) {capacity : Nat}
    (room : feed.countP (fun m => m.msgType = MsgType.ADD.byte) ≤ capacity) (mode : ReplayMode) (warmup : Nat) :
    ∃ engine matcher, (⟨MatchingEngine.create capacity, {}⟩ : ReplayEngine).run feed mode warmup =
        some ⟨engine, orderlyStats feed matcher.fills⟩ ∧
      ReferenceMatcher.run feed = some matcher ∧ drainedBy ⟨MatchingEngine.create capacity, {}⟩ feed = matcher.fills ∧
      ∀ side, engine.listing side = matcher.listing side := by
  have idle := Idle.create capacity
  have suffice : (MatchingEngine.create capacity).PoolSuffices feed := idle.room (by simpa using room)
  obtain ⟨fills, engine, _, _, ran, _, _, applied⟩ := applyAll_counts feed idle
  obtain ⟨engine', queues, free, ran', idle', ladder, _⟩ := idle.feed_run feed suffice
  rw [create_ladder] at ran' ladder
  cases ran.symm.trans ran'
  obtain ⟨matcher, scanned, same, tracks⟩ := reference_run feed orderly.sequenced orderly.unique
  have all := tracks 18446744073709551615 (fun m _ => UInt64.le_iff_toNat_le.mpr (Nat.le_of_lt_succ m.sequence.toNat_lt))
  refine ⟨engine, matcher, ?_, scanned, ?_, fun side => ?_⟩
  · rw [run_eq, same, ← tally_orderly orderly suffice]
    exact (applied 0).trans (by rw [ReplayStats.zero_add])
  · rw [drainedBy_eq feed idle ran, same]
  · rw [idle'.steady.sound.listing_eq, all.tidy.listing_eq, all.lists, ladder]

end ReplayEngine

namespace FeedGenerator

variable {σ : Type} {source : RandomSource σ} {cfg : FeedConfig}

theorem loop_kinds (left : Nat) : ∀ {g : Generation σ}, (∀ m ∈ g.msgs, m.isAdd = true ∨ m.isCancel = true) →
    ∀ m ∈ (loop source cfg left g).msgs, m.isAdd = true ∨ m.isCancel = true := by
  induction left with
  | zero => exact fun old => old
  | succ left ih =>
    intro g old
    apply ih
    unfold step
    split
    · exact List.forall_mem_append.mpr ⟨old, List.forall_mem_singleton.mpr (Or.inr rfl)⟩
    · exact List.forall_mem_append.mpr ⟨old, List.forall_mem_singleton.mpr (Or.inl rfl)⟩

theorem sorted_upTo {count : Nat} (small : count < 2 ^ 64) : (upTo count).Pairwise (fun a b => a ≤ b) := by
  unfold upTo
  rw [List.pairwise_map]
  refine List.pairwise_lt_range.imp_of_mem ?_
  intro i j first second below
  rw [List.mem_range] at first second
  rw [UInt64.le_iff_toNat_le, UInt64.toNat_ofNat_of_lt' (show i + 1 < 2 ^ 64 by omega),
    UInt64.toNat_ofNat_of_lt' (show j + 1 < 2 ^ 64 by omega)]
  omega

theorem Sent.orderly {msgs : List FeedMessage} (sent : Sent cfg msgs) (small : msgs.length < 2 ^ 64)
    (kinds : ∀ m ∈ msgs, m.isAdd = true ∨ m.isCancel = true) : Orderly msgs where
  valid := sent.valid
  kinds := kinds
  sequenced := by
    have sorted := sorted_upTo small
    rw [← sent.sequences, List.pairwise_map] at sorted
    exact sorted
  unique := by
    have few := addIds_length_le msgs
    have distinct := nodup_upTo (show (addIds msgs).length < 2 ^ 64 by omega)
    rw [← sent.ids, addIds, List.Nodup, List.pairwise_map, List.pairwise_filter] at distinct
    refine distinct.imp ?_
    intro first second apart add add'
    exact apart (decide_eq_true add) (decide_eq_true add')
  cancels := sent.cancels

/-- A generated feed survives its file, and any replay of it with as many slots as messages takes all of it, drains the
fills of the reference matcher, and ends with its book. The counters say what the feed and the fills say; a CANCEL that is
counted as a miss is one whose order trades its whole quantity. -/
theorem generated_replay (source : RandomSource σ) (cfg : FeedConfig) (rng : σ) (qty : 1 ≤ cfg.maxQty)
    (band : cfg.priceBand < cfg.midPrice) (small : cfg.midPrice.toNat + cfg.priceBand.toNat < 2 ^ 31)
    (vector : cfg.numMessages.toNat ≤ maxSize) (file : Option (List UInt8)) (capacity : Nat)
    (room : cfg.numMessages.toNat ≤ capacity) (mode : ReplayMode) (warmup : Nat) :
    ∃ msgs after, generate source ⟨cfg, rng⟩ = .ok (msgs, after) ∧
      FeedParser.readFile (FeedParser.writeFile msgs .done file).1 true = some msgs ∧
      ∃ engine matcher, (⟨MatchingEngine.create capacity, {}⟩ : ReplayEngine).run msgs mode warmup =
          some ⟨engine, {
            messages := cfg.numMessages
            adds := UInt64.ofNat (addIds msgs).length
            cancels := cfg.numMessages - UInt64.ofNat (addIds msgs).length
            cancelMisses := UInt64.ofNat (msgs.countP (filledOrder msgs matcher.fills))
            fills := UInt64.ofNat matcher.fills.length
            matchedVolume := UInt64.ofNat (Fill.volume matcher.fills) }⟩ ∧
        ReferenceMatcher.run msgs = some matcher ∧
        ReplayEngine.drainedBy ⟨MatchingEngine.create capacity, {}⟩ msgs = matcher.fills ∧
        ∀ side, engine.listing side = matcher.listing side := by
  have sound : cfg.Sound := ⟨UInt32.le_iff_toNat_le.mp qty, UInt32.lt_iff_toNat_lt.mp band, small⟩
  have bound := cfg.numMessages.toNat_lt
  obtain ⟨made, count⟩ := (Made.start cfg rng).loop sound source cfg.numMessages.toNat (by simpa using bound)
  refine ⟨_, _, generate_fits source vector, FeedParser.readFile_written _ file, ?_⟩
  let msgs := (loop source cfg cfg.numMessages.toNat { rng := rng }).msgs
  have length : msgs.length = cfg.numMessages.toNat := count.trans (Nat.zero_add _)
  have kinds : ∀ m ∈ msgs, m.isAdd = true ∨ m.isCancel = true := loop_kinds _ (by simp)
  have orderly : Orderly msgs := Sent.orderly made.sent (by rw [length]; exact bound) kinds
  have total : UInt64.ofNat msgs.length = cfg.numMessages := by rw [length, UInt64.ofNat_toNat]
  have adds : msgs.countP FeedMessage.isAdd = (addIds msgs).length := by
    rw [addIds, List.length_map, List.countP_eq_length_filter]
  have cancels : UInt64.ofNat (msgs.countP FeedMessage.isCancel) =
      cfg.numMessages - UInt64.ofNat (msgs.countP FeedMessage.isAdd) := by
    rw [← total, orderly.count_kinds, UInt64.ofNat_add, UInt64.add_sub_cancel]
  obtain ⟨engine, matcher, replayed, scanned, drained, books⟩ := ReplayEngine.run_orderly orderly
    (Nat.le_trans List.countP_le_length (length.trans_le room)) mode warmup
  refine ⟨engine, matcher, ?_, scanned, drained, books⟩
  change (⟨MatchingEngine.create capacity, {}⟩ : ReplayEngine).run msgs mode warmup = _
  rw [replayed, ReplayEngine.orderlyStats, total, cancels, adds]

/-- The default configuration and a pool as the demo makes it. -/
theorem generated_replay_default :
    ∃ msgs after engine matcher stats, generate lowest (create lowest {}) = .ok (msgs, after) ∧
      (⟨MatchingEngine.create 1000016, {}⟩ : ReplayEngine).run msgs .MAX 50000 = some ⟨engine, stats⟩ ∧
      ReferenceMatcher.run msgs = some matcher ∧ stats.messages = 1000000 ∧ stats.droppedAdds = 0 ∧
      ReplayEngine.drainedBy ⟨MatchingEngine.create 1000016, {}⟩ msgs = matcher.fills := by
  obtain ⟨msgs, after, generated, _, engine, matcher, replayed, scanned, drained, _⟩ :=
    generated_replay lowest {} () (by decide) (by decide) (by decide) (by decide) none 1000016 (by decide) .MAX 50000
  exact ⟨msgs, after, engine, matcher, _, generated, replayed, scanned, rfl, rfl, drained⟩

end FeedGenerator

end ChronoBook
