import ChronoBook.Feed.FeedGenerator
import ChronoBook.Matching.Conservation
import ChronoBook.Matching.LadderRun

/-! LIMIT orders and CANCELs are enough. An IOC order is a LIMIT order that is cancelled
at once, a MARKET order one at a price that nobody can be worse than, and a MODIFY is
a CANCEL followed by a LIMIT order on the same side: every feed can be written with
these two, with the same fills and the same book. -/

namespace ChronoBook
open Library Priority

def Side.anyPrice : Side → UInt32
  | .BUY => 4294967295
  | .SELL => 1

theorem Side.anyPrice_ne (side : Side) : side.anyPrice ≠ 0 := by cases side <;> decide

theorem OrderType.byte_of_limit {byte : UInt8} (limit : OrderType.ofByte byte = .LIMIT) : byte = OrderType.LIMIT.byte := by
  unfold OrderType.ofByte at limit
  split at limit
  · assumption
  · split at limit <;> cases limit

namespace FeedMessage

/-- An order for all that is offered up to this limit, and nothing that rests. -/
def atOnce (m : FeedMessage) (price : UInt32) : List FeedMessage :=
  [{ m with orderType := OrderType.LIMIT.byte, price := price }, makeCancel m.sequence m.orderId]

/-- What the message comes to, given the order that rests under its id. -/
def core (m : FeedMessage) (resting : Option Resting) : List FeedMessage :=
  if isValidFeedMessage m = false then []
  else if m.msgType = MsgType.ADD.byte then
    if resting.isSome then []
    else
      match OrderType.ofByte m.orderType with
      | .LIMIT => [m]
      | .IOC => m.atOnce m.price
      | .MARKET => m.atOnce (Side.ofByte m.side).anyPrice
  else if m.msgType = MsgType.CANCEL.byte then [m]
  else
    match resting with
    | none => []
    | some old =>
        [makeCancel m.sequence m.orderId, makeAdd m.sequence m.orderId old.side .LIMIT m.price m.qty old.symbolPacked]

theorem valid_limit (m : FeedMessage) (valid : isValidFeedMessage m = true) (kind : m.msgType = MsgType.ADD.byte)
    {price : UInt32} (priced : price ≠ 0) :
    isValidFeedMessage { m with orderType := OrderType.LIMIT.byte, price := price } = true := by
  unfold isValidFeedMessage at valid ⊢
  rw [kind] at valid
  simp_all [isValidOrderType]

theorem id_ne (m : FeedMessage) (valid : isValidFeedMessage m = true) : m.orderId ≠ 0 := by
  rintro zero
  simp [isValidFeedMessage, zero] at valid

theorem valid_replacement (m : FeedMessage) (valid : isValidFeedMessage m = true) (old : Resting) (priced : m.price ≠ 0)
    (units : m.qty ≠ 0) :
    isValidFeedMessage (makeAdd m.sequence m.orderId old.side .LIMIT m.price m.qty old.symbolPacked) = true :=
  FeedGenerator.valid_add (m.id_ne valid) units priced

end FeedMessage

/-- The feed in LIMIT orders and CANCELs, written while it runs. -/
def MatchingEngine.coreFeed (engine : MatchingEngine) : List FeedMessage → List FeedMessage
  | [] => []
  | m :: later => m.core (Ladder.find? engine.listing m.orderId) ++
      (engine.deliver m).elim [] (fun result => result.2.coreFeed later)

section Sweep
variable {accepts accepts' : UInt32 → Bool} {fillOf : Resting → UInt32 → Fill}

theorem sweep_congr {makers : List Resting} (same : ∀ maker ∈ makers, accepts maker.price = accepts' maker.price)
    (left : UInt32) : sweep accepts fillOf left makers = sweep accepts' fillOf left makers := by
  induction makers generalizing left with
  | nil => rfl
  | cons maker makers ih =>
    have later := ih (fun other inside => same other (List.mem_cons_of_mem maker inside))
    unfold sweep
    rw [same maker List.mem_cons_self, later]

end Sweep

namespace Ladder

variable {ladder : Ladder} {taker : Resting} {m : FeedMessage}

/-- Withdrawing what rests of a LIMIT order leaves what an IOC order leaves. -/
theorem enter_withdrawn (wellFormed : ladder.WellFormed) (seq : UInt64)
    (fresh : ∀ side, ∀ other ∈ ladder side, other.orderId ≠ taker.orderId) :
    (ladder.enter taker .LIMIT seq).remove taker.orderId = ladder.enter taker .IOC seq := by
  have kept : ∀ side, (ladder side).filter (fun order => order.orderId ≠ taker.orderId) = ladder side := by
    intro side
    rw [List.filter_eq_self]
    exact fun order inside => decide_eq_true (fresh side order inside)
  funext side
  unfold remove
  rcases Side.eq_or_opposite taker.side side with rfl | rfl
  · rw [enter_own, enter_own, if_neg (show ¬(_ ∧ OrderType.IOC = .LIMIT) from fun stays => by cases stays.2)]
    by_cases rests : (ladder.swept taker .LIMIT seq).left ≠ 0 ∧ OrderType.LIMIT = .LIMIT
    · rw [if_pos rests, filter_enqueue (wellFormed.ordered _), if_neg (by simp [residual]), kept]
    · rw [if_neg rests, kept]
  · rw [enter_opposite, enter_opposite, List.filter_eq_self.mpr]
    · rfl
    · exact fun order inside => decide_eq_true (sweep_rest_ids (fresh _) order inside)

theorem enter_passing {type : OrderType} (passing : type ≠ .LIMIT) (ladder : Ladder) (taker : Resting) (seq : UInt64) :
    ladder.enter taker type seq =
      Function.update ladder taker.side.opposite (ladder.swept taker type seq).rest :=
  if_neg (fun stays => passing stays.2)

theorem crosses_anyPrice (side : Side) {price : UInt32} (positive : price ≠ 0) :
    side.crosses price side.anyPrice = true := by
  cases side with
  | BUY => exact decide_eq_true (UInt32.le_iff_toNat_le.mpr (Nat.le_of_lt_succ price.toNat_lt))
  | SELL =>
    refine decide_eq_true (UInt32.le_iff_toNat_le.mpr ?_)
    exact Nat.one_le_iff_ne_zero.mpr (fun zero => positive (UInt32.toNat_inj.mp zero))

theorem swept_anyPrice (wellFormed : ladder.WellFormed) (taker : Resting) (seq : UInt64) :
    ladder.swept { taker with price := taker.side.anyPrice } .IOC seq = ladder.swept taker .MARKET seq :=
  sweep_congr (fun maker inside => crosses_anyPrice taker.side (wellFormed.priced _ maker inside)) _

theorem enter_anyPrice (wellFormed : ladder.WellFormed) (taker : Resting) (seq : UInt64) :
    ladder.enter { taker with price := taker.side.anyPrice } .IOC seq = ladder.enter taker .MARKET seq := by
  rw [enter_passing (by decide), enter_passing (by decide), swept_anyPrice wellFormed]

theorem valid_makeCancel (valid : isValidFeedMessage m = true) (seq : UInt64) :
    isValidFeedMessage (makeCancel seq m.orderId) = true := FeedGenerator.valid_cancel (m.id_ne valid)

theorem run_cancel (valid : isValidFeedMessage m = true) (seq : UInt64) (ladder : Ladder) (later : List FeedMessage) :
    ladder.run (makeCancel seq m.orderId :: later) = (ladder.remove m.orderId).run later := by
  rw [run_valid (valid_makeCancel valid seq), apply_none (incoming_cancel rfl)]
  rfl

theorem run_atOnce (wellFormed : ladder.WellFormed) (valid : isValidFeedMessage m = true)
    (kind : m.msgType = MsgType.ADD.byte) (fresh : ladder.find? m.orderId = none) {price : UInt32} (priced : price ≠ 0) :
    ladder.run (m.atOnce price) =
      ((ladder.swept { m.taker with price := price } .IOC m.sequence).fills,
        ladder.enter { m.taker with price := price } .IOC m.sequence) := by
  let limit : FeedMessage := { m with orderType := OrderType.LIMIT.byte, price := price }
  have valid' : isValidFeedMessage limit = true := m.valid_limit valid kind priced
  have brings : ladder.incoming limit = some (limit.taker, .LIMIT) := incoming_add kind fresh
  have withdrawn : (ladder.enter limit.taker .LIMIT m.sequence).remove limit.taker.orderId = _ :=
    enter_withdrawn wellFormed m.sequence (find?_eq_none.mp fresh)
  change ladder.run (limit :: [makeCancel m.sequence limit.orderId]) = _
  rw [run_valid valid', apply_some brings, run_cancel valid', cleared_add (show limit.msgType = _ from kind), run]
  change (_ ++ [], (ladder.enter limit.taker .LIMIT m.sequence).remove limit.taker.orderId) = _
  rw [withdrawn, List.append_nil]
  rfl

theorem run_single (valid : isValidFeedMessage m = true) (ladder : Ladder) : ladder.run [m] = ladder.apply m := by
  rw [run_valid valid, run, List.append_nil]

theorem run_replaced (valid : isValidFeedMessage m = true) (kind : m.msgType = MsgType.MODIFY.byte) (priced : m.price ≠ 0)
    (units : m.qty ≠ 0) {old : Resting} (found : ladder.find? m.orderId = some old) :
    ladder.run [makeCancel m.sequence m.orderId,
      makeAdd m.sequence m.orderId old.side .LIMIT m.price m.qty old.symbolPacked] = ladder.apply m := by
  let add := makeAdd m.sequence m.orderId old.side .LIMIT m.price m.qty old.symbolPacked
  have valid' : isValidFeedMessage add = true := m.valid_replacement valid old priced units
  have taker : add.taker = m.replacing old := by
    have named : old.orderId = m.orderId := (mem_of_find? found).2
    have side := old.side.ofByte_byte
    unfold FeedMessage.taker FeedMessage.replacing
    rw [named]
    exact congrArg (Resting.mk _ _ _ _ _) side
  have entered : (ladder.remove m.orderId).incoming add = some (add.taker, .LIMIT) :=
    incoming_add rfl (find?_remove ladder m.orderId)
  have replaces : ladder.incoming m = some (m.replacing old, .LIMIT) := by
    rw [incoming_modify kind, found]
    rfl
  rw [taker] at entered
  rw [run_cancel valid, run_single valid', apply_some entered, apply_some replaces, cleared_add rfl,
    cleared_of_ne (by rw [kind]; decide)]
  rfl

theorem run_core (wellFormed : ladder.WellFormed) (valid : isValidFeedMessage m = true) :
    ladder.run (m.core (ladder.find? m.orderId)) = ladder.apply m := by
  unfold FeedMessage.core
  rw [if_neg (by simp [valid])]
  cases accepted_of_valid valid with
  | add kind qty price =>
    rw [if_pos kind]
    cases found : ladder.find? m.orderId with
    | some old =>
      have taken := incoming_taken kind (by rw [found]; exact Option.some_ne_none old)
      rw [apply_none taken, cleared_add kind]
      rfl
    | none =>
      have brings := incoming_add kind found
      rw [if_neg (by decide), apply_some brings, cleared_add kind]
      cases type : OrderType.ofByte m.orderType with
      | LIMIT =>
        dsimp only
        rw [run_single valid, apply_some brings, cleared_add kind, type]
      | MARKET =>
        have taker : m.taker.side = Side.ofByte m.side := rfl
        dsimp only
        rw [run_atOnce wellFormed valid kind found (Side.anyPrice_ne _), ← taker, swept_anyPrice wellFormed,
          enter_anyPrice wellFormed]
      | IOC =>
        dsimp only
        rw [run_atOnce wellFormed valid kind found (price (by rw [type]; decide))]
        rfl
  | cancel kind =>
    rw [if_neg (by rw [kind]; decide), if_pos kind, run_single valid]
  | modify kind priced units =>
    rw [if_neg (by rw [kind]; decide), if_neg (by rw [kind]; decide)]
    cases found : ladder.find? m.orderId with
    | none =>
      rw [apply_absent valid (by rw [kind]; decide) found]
      rfl
    | some old =>
      rw [run_replaced valid kind priced units found]

end Ladder

namespace MatchingEngine

variable {engine other : MatchingEngine} {queues queues' : Queues} {free free' : List Slot} {m : FeedMessage}

theorem PoolSuffices.cons {batch : List Fill} {engine' : MatchingEngine} {later : List FeedMessage}
    (first : engine.deliver m = some (batch, engine'))
    (room : m.msgType = MsgType.ADD.byte → engine.pool.allocate m.order ≠ none)
    (rest : engine'.PoolSuffices later) : engine.PoolSuffices (m :: later) := by
  intro earlier n behind split valid kind fills last ran
  cases earlier with
  | nil =>
    cases split
    cases ran
    exact room kind
  | cons same earlier =>
    cases split
    rw [feed_cons engine m earlier first] at ran
    obtain ⟨⟨fills', last'⟩, ran', same⟩ := Option.map_eq_some_iff.mp ran
    cases same
    exact rest earlier n behind rfl valid kind fills' last' ran'

theorem cancel_adds (seq id : UInt64) :
    [makeCancel seq id].countP (fun n => n.msgType = MsgType.ADD.byte) = 0 := rfl

theorem atOnce_adds (m : FeedMessage) (price : UInt32) :
    (m.atOnce price).countP (fun n => n.msgType = MsgType.ADD.byte) ≤ 1 := by
  rw [FeedMessage.atOnce, List.countP_cons, cancel_adds, Nat.zero_add]
  split <;> decide

/-- A MODIFY gives the slot back that its order then takes. -/
theorem replaced_room (idle : engine.Idle queues free []) (valid : isValidFeedMessage m = true) {old : Resting}
    (found : (engine.ladder queues).find? m.orderId = some old) (add : FeedMessage) :
    engine.PoolSuffices [makeCancel m.sequence m.orderId, add] := by
  have valid' := Ladder.valid_makeCancel valid m.sequence
  rcases idle.deliver (makeCancel m.sequence m.orderId) with
    ⟨invalid | ⟨never, _⟩, _⟩ | ⟨_, _, engine₁, queues₁, free₁, result, delivered⟩
  · rw [valid'] at invalid
    cases invalid
  · cases never
  · have before := idle.steady.sound.free_length
    have after := delivered.idle.steady.sound.free_length
    have gone := (engine.ladder queues).remove_length m.orderId
    have removed : engine₁.ladder queues₁ = (engine.ladder queues).remove m.orderId := by
      rw [delivered.ladder, Ladder.apply_none (Ladder.incoming_cancel rfl)]
      rfl
    rw [if_neg (by rw [found]; exact Option.some_ne_none old)] at gone
    rw [removed, delivered.capacity] at after
    refine PoolSuffices.cons result nofun (delivered.idle.room ?_)
    refine Nat.le_trans List.countP_le_length ?_
    rw [List.length_singleton]
    omega

/-- Whatever the message becomes, the pool has room for it if it has room for the message. -/
theorem core_room (idle : engine.Idle queues free []) (taken : ¬Ignored m free) :
    engine.PoolSuffices (m.core ((engine.ladder queues).find? m.orderId)) := by
  have valid : isValidFeedMessage m = true := by
    by_contra invalid
    exact taken (Or.inl (Bool.eq_false_of_not_eq_true invalid))
  unfold FeedMessage.core
  rw [if_neg (by simp [valid])]
  cases accepted_of_valid valid with
  | add kind _ _ =>
    have slot : 1 ≤ free.length := by
      refine List.length_pos_iff.mpr (fun full => taken (Or.inr ⟨kind, full⟩))
    rw [if_pos kind]
    split
    · exact idle.room (Nat.zero_le _)
    · split
      · exact idle.room (Nat.le_trans List.countP_le_length slot)
      · exact idle.room (Nat.le_trans (atOnce_adds m _) slot)
      · exact idle.room (Nat.le_trans (atOnce_adds m _) slot)
  | cancel kind =>
    rw [if_neg (by rw [kind]; decide), if_pos kind]
    exact idle.room (by rw [List.countP_singleton, kind, if_neg (by decide)]; exact Nat.zero_le _)
  | modify kind _ _ =>
    rw [if_neg (by rw [kind]; decide), if_neg (by rw [kind]; decide)]
    cases found : (engine.ladder queues).find? m.orderId with
    | none => exact idle.room (Nat.zero_le _)
    | some old => exact replaced_room idle valid found _

theorem feed_full (idle : engine.Idle queues [] []) (kind : m.msgType = MsgType.ADD.byte) (later : List FeedMessage) :
    engine.feed (m :: later) = engine.feed later := by
  rcases idle.deliver m with ⟨_, result⟩ | ⟨taken, _⟩
  · rw [feed_cons engine m later result]
    rcases engine.feed later with _ | ⟨fills, last⟩ <;> rfl
  · exact absurd (Or.inr ⟨kind, rfl⟩) taken

theorem core_full (idle : engine.Idle queues [] []) (valid : isValidFeedMessage m = true)
    (kind : m.msgType = MsgType.ADD.byte) :
    ∃ engine' queues' free', engine.feed (m.core ((engine.ladder queues).find? m.orderId)) = some ([], engine') ∧
      engine'.Idle queues' free' [] ∧ engine'.ladder queues' = engine.ladder queues ∧
      engine'.pool.capacity = engine.pool.capacity := by
  have still : ∃ engine' queues' free', engine.feed [] = some ([], engine') ∧ engine'.Idle queues' free' [] ∧
      engine'.ladder queues' = engine.ladder queues ∧ engine'.pool.capacity = engine.pool.capacity :=
    ⟨engine, queues, [], rfl, idle, rfl, rfl⟩
  unfold FeedMessage.core
  rw [if_neg (by simp [valid]), if_pos kind]
  split
  · exact still
  next absent =>
    -- the CANCEL behind a dropped order finds nothing
    have missing : (engine.ladder queues).find? m.orderId = none := by simpa using absent
    have misses := idle.feed_run [makeCancel m.sequence m.orderId] (idle.room (cancel_adds _ _).le)
    have dropped : ∀ price, engine.feed (m.atOnce price) = engine.feed [makeCancel m.sequence m.orderId] :=
      fun price => feed_full (m := { m with orderType := OrderType.LIMIT.byte, price := price }) idle kind _
    rw [Ladder.run_cancel valid, Ladder.remove_absent missing] at misses
    split
    · rw [feed_full idle kind]
      exact still
    · rw [dropped]
      exact misses
    · rw [dropped]
      exact misses

theorem deliver_core (idle : engine.Idle queues free []) (idle' : other.Idle queues' free' [])
    (same : other.ladder queues' = engine.ladder queues) (capacity : other.pool.capacity = engine.pool.capacity)
    (m : FeedMessage) :
    ∃ batch engine₁ other₁ queues₁ queues₂ free₁ free₂, engine.deliver m = some (batch, engine₁) ∧
      other.feed (m.core (Ladder.find? engine.listing m.orderId)) = some (batch, other₁) ∧
      engine₁.Idle queues₁ free₁ [] ∧ other₁.Idle queues₂ free₂ [] ∧ other₁.ladder queues₂ = engine₁.ladder queues₁ ∧
      other₁.pool.capacity = engine₁.pool.capacity := by
  have count := idle.steady.sound.free_length
  have count' := idle'.steady.sound.free_length
  rw [same, capacity] at count'
  have full : free' = [] ↔ free = [] := by
    rw [← List.length_eq_zero_iff, ← List.length_eq_zero_iff]
    omega
  rw [idle.steady.sound.listing_ladder, ← same]
  rcases idle.deliver m with ⟨ignored, result⟩ | ⟨taken, valid, engine₁, queues₁, free₁, result, delivered⟩
  · by_cases valid : isValidFeedMessage m = true
    · obtain ⟨kind, nothing⟩ := ignored.resolve_left (by simp [valid])
      cases full.mpr nothing
      obtain ⟨other₁, queues₂, free₂, ran, idle₂, same₂, capacity₂⟩ := core_full idle' valid kind
      exact ⟨[], engine, other₁, queues, queues₂, free, free₂, result, ran, idle, idle₂, same₂.trans same,
        capacity₂.trans capacity⟩
    · refine ⟨[], engine, other, queues, queues', free, free', result, ?_, idle, idle', same, capacity⟩
      unfold FeedMessage.core
      rw [if_pos (Bool.eq_false_of_not_eq_true valid)]
      rfl
  · have room := core_room idle' (fun ignored => taken (by rwa [Ignored, full] at ignored))
    obtain ⟨other₁, queues₂, free₂, ran, idle₂, same₂, capacity₂⟩ := idle'.feed_run _ room
    rw [Ladder.run_core idle'.steady.wellFormed valid, same] at ran same₂
    refine ⟨((engine.ladder queues).apply m).1, engine₁, other₁, queues₁, queues₂, free₁, free₂, result, ?_,
      delivered.idle, idle₂, same₂.trans delivered.ladder.symm, ?_⟩
    · rw [same]
      exact ran
    · rw [capacity₂, delivered.capacity, capacity]

theorem feed_coreFeed (feed : List FeedMessage) : ∀ {engine other : MatchingEngine} {queues queues' : Queues}
    {free free' : List Slot}, engine.Idle queues free [] → other.Idle queues' free' [] →
    other.ladder queues' = engine.ladder queues → other.pool.capacity = engine.pool.capacity →
    ∃ fills last last' queues₁ queues₂ free₁ free₂, engine.feed feed = some (fills, last) ∧
      other.feed (engine.coreFeed feed) = some (fills, last') ∧ last.Idle queues₁ free₁ [] ∧
      last'.Idle queues₂ free₂ [] ∧ last'.ladder queues₂ = last.ladder queues₁ := by
  induction feed with
  | nil =>
    intro engine other queues queues' free free' idle idle' same _
    exact ⟨[], engine, other, queues, queues', free, free', rfl, rfl, idle, idle', same⟩
  | cons m later ih =>
    intro engine other queues queues' free free' idle idle' same capacity
    obtain ⟨batch, engine₁, other₁, queues₁, queues₂, free₁, free₂, result, result', idle₁, idle₂, same₁, capacity₁⟩ :=
      deliver_core idle idle' same capacity m
    obtain ⟨fills, last, last', q, q', f, f', ran, ran', rest⟩ := ih idle₁ idle₂ same₁ capacity₁
    refine ⟨batch ++ fills, last, last', q, q', f, f', ?_, ?_, rest⟩
    · rw [feed_cons engine m later result, ran]
      rfl
    · rw [coreFeed, result, feed_append other _ _ result']
      change (other₁.feed (engine₁.coreFeed later)).map _ = _
      rw [ran']
      rfl

theorem core_plain (m : FeedMessage) (resting : Option Resting) :
    ∀ n ∈ m.core resting, isValidFeedMessage n = true ∧ (n.isLimitAdd = true ∨ n.isCancel = true) := by
  unfold FeedMessage.core
  by_cases valid : isValidFeedMessage m = true
  · have atOnce : ∀ {price : UInt32}, m.msgType = MsgType.ADD.byte → price ≠ 0 → ∀ n ∈ m.atOnce price,
        isValidFeedMessage n = true ∧ (n.isLimitAdd = true ∨ n.isCancel = true) := by
      intro price kind priced
      refine List.forall_mem_cons.mpr ⟨⟨m.valid_limit valid kind priced, Or.inl ?_⟩, List.forall_mem_singleton.mpr ?_⟩
      · simp [FeedMessage.isLimitAdd, FeedMessage.isAdd, kind]
      · exact ⟨Ladder.valid_makeCancel valid _, Or.inr rfl⟩
    rw [if_neg (by simp [valid])]
    cases accepted_of_valid valid with
    | add kind _ priced =>
      rw [if_pos kind]
      split
      · exact List.forall_mem_nil _
      · split
        next type =>
          refine List.forall_mem_singleton.mpr ⟨valid, Or.inl ?_⟩
          simp [FeedMessage.isLimitAdd, FeedMessage.isAdd, kind, OrderType.byte_of_limit type]
        next type => exact atOnce kind (priced (by rw [type]; decide))
        next type => exact atOnce kind (Side.anyPrice_ne _)
    | cancel kind =>
      rw [if_neg (by rw [kind]; decide), if_pos kind]
      exact List.forall_mem_singleton.mpr ⟨valid, Or.inr (decide_eq_true kind)⟩
    | modify kind priced units =>
      rw [if_neg (by rw [kind]; decide), if_neg (by rw [kind]; decide)]
      cases resting with
      | none => exact List.forall_mem_nil _
      | some old =>
        refine List.forall_mem_cons.mpr ⟨⟨Ladder.valid_makeCancel valid _, Or.inr rfl⟩, List.forall_mem_singleton.mpr ?_⟩
        exact ⟨m.valid_replacement valid old priced units, Or.inl rfl⟩
  · rw [if_pos (Bool.eq_false_of_not_eq_true valid)]
    exact List.forall_mem_nil _

theorem coreFeed_plain (feed : List FeedMessage) : ∀ (engine : MatchingEngine), ∀ n ∈ engine.coreFeed feed,
    isValidFeedMessage n = true ∧ (n.isLimitAdd = true ∨ n.isCancel = true) := by
  induction feed with
  | nil => exact fun _ => List.forall_mem_nil _
  | cons m later ih =>
    intro engine
    refine List.forall_mem_append.mpr ⟨core_plain m _, ?_⟩
    cases engine.deliver m with
    | none => exact List.forall_mem_nil _
    | some result => exact ih result.2

/-- Every feed, whatever it holds and whatever the capacity of the pool, can be written in LIMIT orders and CANCELs:
the fills are the same, and so is the book that it leaves. -/
theorem feed_core (capacity : Nat) (feed : List FeedMessage) :
    ∃ fills engine engine', (MatchingEngine.create capacity).feed feed = some (fills, engine) ∧
      (MatchingEngine.create capacity).feed ((MatchingEngine.create capacity).coreFeed feed) = some (fills, engine') ∧
      (∀ side, engine'.listing side = engine.listing side) ∧
      ∀ m ∈ (MatchingEngine.create capacity).coreFeed feed,
        isValidFeedMessage m = true ∧ (m.isLimitAdd = true ∨ m.isCancel = true) := by
  have idle := Idle.create capacity
  obtain ⟨fills, engine, engine', _, _, _, _, ran, ran', idle₁, idle₂, same⟩ := feed_coreFeed feed idle idle rfl rfl
  refine ⟨fills, engine, engine', ran, ran', fun side => ?_, coreFeed_plain feed _⟩
  rw [idle₁.steady.sound.listing_eq, idle₂.steady.sound.listing_eq, same]

/-- A MARKET order for a part of an ask, and a MODIFY of what is left of it. -/
example : (MatchingEngine.create 2).coreFeed
    [makeAdd 1 1 .SELL .LIMIT 100 5 7, makeAdd 2 2 .BUY .MARKET 0 3 7, makeModify 3 1 101 4] =
    [makeAdd 1 1 .SELL .LIMIT 100 5 7, makeAdd 2 2 .BUY .LIMIT 4294967295 3 7, makeCancel 2 2, makeCancel 3 1,
      makeAdd 3 1 .SELL .LIMIT 101 4 7] := by decide +kernel

end MatchingEngine

end ChronoBook
