import ChronoBook.Matching.Quantities
import ChronoBook.Matching.Refinement

/-! Conservation of quantity. A run is cut into its messages; each message's
books before and after it, its fills and what it gave back to the pool are put
into accounts, one for every time an order entered. -/

namespace ChronoBook
open Library Priority

structure Delivery where
  message : FeedMessage
  before : MatchingEngine
  fills : List Fill
  after : MatchingEngine

namespace MatchingEngine

def deliveries (engine : MatchingEngine) : List FeedMessage → Option (List Delivery)
  | [] => some []
  | m :: later => do
      let (fills, engine') ← engine.deliver m
      let rest ← engine'.deliveries later
      some (⟨m, engine, fills, engine'⟩ :: rest)

def holds (engine : MatchingEngine) (id : UInt64) : Bool := (Ladder.find? engine.listing id).isSome

/-- The open units of what rests in the book under the ids that count. -/
def unfilled (engine : MatchingEngine) (counts : UInt64 → Bool) : Nat := openUnits counts (Ladder.orders engine.listing)

end MatchingEngine

namespace Delivery

/-- An order enters: an ADD that is accepted, or a MODIFY that finds its order. -/
def enters (delivery : Delivery) : Bool :=
  isValidFeedMessage delivery.message &&
    if delivery.message.msgType = MsgType.ADD.byte then
      !delivery.before.holds delivery.message.orderId && delivery.before.pool.freeHead.isSome
    else if delivery.message.msgType = MsgType.CANCEL.byte then false
    else delivery.before.holds delivery.message.orderId

def takesOut (delivery : Delivery) (id : UInt64) : Bool :=
  isValidFeedMessage delivery.message && delivery.message.msgType ≠ MsgType.ADD.byte && delivery.message.orderId = id

def submitted (delivery : Delivery) : Nat := if delivery.enters then delivery.message.qty.toNat else 0

def withdrawn (delivery : Delivery) : Nat :=
  if delivery.takesOut delivery.message.orderId then delivery.before.unfilled (fun id => id = delivery.message.orderId) else 0

/-- The open units of the order that entered when it was given back to the pool and not left in the book. -/
def residual (delivery : Delivery) : Nat :=
  if delivery.enters && !delivery.after.holds delivery.message.orderId then
    match delivery.after.pool.calls.getLast? with
    | some (.deallocate _ object) => object.remainingQty.toNat
    | _ => 0
  else 0

def discarded (delivery : Delivery) : Nat := delivery.withdrawn + delivery.residual

/-- The message is an ADD of an order that never rests. -/
def immediate (delivery : Delivery) : Bool :=
  delivery.message.msgType = MsgType.ADD.byte &&
    (delivery.message.orderType = OrderType.MARKET.byte || delivery.message.orderType = OrderType.IOC.byte)

end Delivery

structure Account where
  traded : Nat
  resting : Nat
  discarded : Nat

/-- The account of the order that rests under an id, over the later messages of the run. -/
def follow (id : UInt64) : MatchingEngine → List Delivery → Account
  | engine, [] => ⟨0, engine.unfilled (fun other => other = id), 0⟩
  | _, delivery :: later =>
      if delivery.takesOut id then ⟨0, 0, delivery.withdrawn⟩
      else if delivery.after.holds id then
        let account := follow id delivery.after later
        { account with traded := volume (fun fill => fill.names id) delivery.fills + account.traded }
      else ⟨volume (fun fill => fill.names id) delivery.fills, 0, 0⟩

def Delivery.account (delivery : Delivery) (later : List Delivery) : Account :=
  let id := delivery.message.orderId
  if delivery.after.holds id then
    let account := follow id delivery.after later
    { account with traded := volume (fun fill => fill.names id) delivery.fills + account.traded }
  else ⟨volume (fun fill => fill.names id) delivery.fills, 0, delivery.residual⟩

/-- A fill is a trade of the order that enters with an order that rested before. -/
def Delivery.Trades (delivery : Delivery) (fill : Fill) : Prop :=
  delivery.enters = true ∧ 1 ≤ fill.qty.toNat ∧
    ∃ maker ∈ Ladder.orders delivery.before.listing, maker.orderId ≠ delivery.message.orderId ∧
      ((fill.buyOrderId = delivery.message.orderId ∧ fill.sellOrderId = maker.orderId) ∨
        (fill.sellOrderId = delivery.message.orderId ∧ fill.buyOrderId = maker.orderId))

def Delivery.counterparty (delivery : Delivery) (fill : Fill) : UInt64 :=
  if fill.buyOrderId = delivery.message.orderId then fill.sellOrderId else fill.buyOrderId

/-- The books of one message are balanced, and its fills are trades of orders that were there. -/
structure Delivery.Balanced (delivery : Delivery) : Prop where
  entering : delivery.enters = true → delivery.message.qty.toNat =
    volume (fun fill => fill.names delivery.message.orderId) delivery.fills +
      delivery.after.unfilled (fun id => id = delivery.message.orderId) + delivery.residual
  unrested : delivery.residual ≠ 0 → delivery.immediate = true
  staying : ∀ id, delivery.before.holds id = true → delivery.takesOut id = false →
    delivery.before.unfilled (fun other => other = id) =
      volume (fun fill => fill.names id) delivery.fills + delivery.after.unfilled (fun other => other = id)
  total : delivery.before.unfilled (fun _ => true) + delivery.submitted =
    2 * volume (fun _ => true) delivery.fills + delivery.after.unfilled (fun _ => true) + delivery.discarded
  trades : ∀ fill ∈ delivery.fills, delivery.Trades fill
  once : (delivery.fills.map delivery.counterparty).Nodup

/-- The deliveries lead from one state to another, and each is balanced. -/
def Kept : MatchingEngine → List Delivery → MatchingEngine → Prop
  | engine, [], last => last = engine
  | engine, delivery :: later, last => delivery.before = engine ∧ delivery.Balanced ∧ Kept delivery.after later last

namespace MatchingEngine

variable {engine : MatchingEngine} {queues : Queues} {free others : List Slot}

theorem Sound.listing_ladder (sound : engine.Sound queues free others) : engine.listing = engine.ladder queues := by
  funext side
  exact sound.listing_eq side

theorem unfilled_absent {id : UInt64} (absent : engine.holds id = false) :
    engine.unfilled (fun other => other = id) = 0 := by
  have missing : Ladder.find? engine.listing id = none := Option.not_isSome_iff_eq_none.mp (by simpa [holds] using absent)
  apply openUnits_none
  intro order inside
  obtain ⟨side, there⟩ := Ladder.mem_orders.mp inside
  exact decide_eq_false (Ladder.find?_eq_none.mp missing side order there)

end MatchingEngine

theorem follow_sum {id : UInt64} :
    ∀ {later : List Delivery} {engine last : MatchingEngine}, Kept engine later last → engine.holds id = true →
      engine.unfilled (fun other => other = id) =
        (follow id engine later).traded + (follow id engine later).resting + (follow id engine later).discarded := by
  intro later
  induction later with
  | nil =>
    intro engine last _ _
    simp [follow]
  | cons delivery later ih =>
    intro engine last kept held
    obtain ⟨start, balanced, rest⟩ := kept
    rw [← start] at held ⊢
    unfold follow
    by_cases out : delivery.takesOut id = true
    · have named : delivery.message.orderId = id := by
        simp only [Delivery.takesOut, Bool.and_eq_true, decide_eq_true_eq] at out
        exact out.2
      rw [if_pos out, Delivery.withdrawn, named, if_pos out]
      dsimp only
      omega
    · have share := balanced.staying id held (Bool.eq_false_of_not_eq_true out)
      rw [if_neg out]
      by_cases stays : delivery.after.holds id = true
      · rw [if_pos stays, share, ih rest stays]
        dsimp only
        omega
      · rw [if_neg stays, share, MatchingEngine.unfilled_absent (Bool.eq_false_of_not_eq_true stays)]
        rfl

theorem Delivery.Balanced.account_sum {delivery : Delivery} (balanced : delivery.Balanced) {later : List Delivery}
    {last : MatchingEngine} (kept : Kept delivery.after later last) (enters : delivery.enters = true) :
    delivery.message.qty.toNat =
      (delivery.account later).traded + (delivery.account later).resting + (delivery.account later).discarded := by
  have share := balanced.entering enters
  unfold account
  dsimp only
  by_cases stays : delivery.after.holds delivery.message.orderId = true
  · have nothing : delivery.residual = 0 := by
      unfold residual
      rw [stays, Bool.not_true, Bool.and_false]
      rfl
    rw [if_pos stays, share, nothing, follow_sum kept stays]
    dsimp only
    omega
  · rw [if_neg stays, share, MatchingEngine.unfilled_absent (Bool.eq_false_of_not_eq_true stays)]

theorem Kept.total {deliveries : List Delivery} :
    ∀ {engine last : MatchingEngine}, Kept engine deliveries last →
      engine.unfilled (fun _ => true) + (deliveries.map Delivery.submitted).sum =
        2 * volume (fun _ => true) (deliveries.flatMap Delivery.fills) + last.unfilled (fun _ => true) +
          (deliveries.map Delivery.discarded).sum := by
  induction deliveries with
  | nil =>
    intro engine last same
    rw [show last = engine from same]
    simp [volume_nil]
  | cons delivery later ih =>
    intro engine last kept
    obtain ⟨start, balanced, rest⟩ := kept
    have sums := ih rest
    have share := balanced.total
    rw [start] at share
    rw [List.map_cons, List.sum_cons, List.map_cons, List.sum_cons, List.flatMap_cons, volume_append]
    omega

theorem Delivery.residual_quiet {delivery : Delivery} (quiet : delivery.enters = false) : delivery.residual = 0 := by
  unfold residual
  rw [quiet]
  rfl

/-- Only a MARKET or an IOC order is brought in without the right to rest. -/
theorem Ladder.incoming_immediate {ladder : Ladder} {m : FeedMessage} (valid : isValidFeedMessage m = true)
    {taker : Resting} {type : OrderType} (brings : ladder.incoming m = some (taker, type)) (leaves : type ≠ .LIMIT) :
    m.msgType = MsgType.ADD.byte ∧ (m.orderType = OrderType.MARKET.byte ∨ m.orderType = OrderType.IOC.byte) := by
  unfold Ladder.incoming at brings
  split at brings
  next kind =>
    split at brings
    · cases brings
    · cases brings
      exact ⟨kind, orderType_of_valid valid kind leaves⟩
  · split at brings
    · cases brings
    · obtain ⟨old, _, same⟩ := Option.map_eq_some_iff.mp brings
      cases same
      exact absurd rfl leaves

namespace MatchingEngine

variable {engine : MatchingEngine} {queues : Queues} {free others : List Slot} {m : FeedMessage}

theorem Idle.balanced_ignored (idle : engine.Idle queues free others) (ignored : Ignored m free) :
    (⟨m, engine, [], engine⟩ : Delivery).Balanced := by
  have head := idle.steady.sound.pool.freeHead_eq
  have quiet : (⟨m, engine, [], engine⟩ : Delivery).enters = false := by
    unfold Delivery.enters
    rcases ignored with invalid | ⟨kind, empty⟩
    · rw [invalid, Bool.false_and]
    · rw [empty] at head
      rw [if_pos kind, head]
      simp
  have stays : ∀ id, (⟨m, engine, [], engine⟩ : Delivery).takesOut id = false := by
    intro id
    unfold Delivery.takesOut
    rcases ignored with invalid | ⟨kind, _⟩
    · rw [invalid, Bool.false_and, Bool.false_and]
    · simp [kind]
  have nothingLeft := Delivery.residual_quiet quiet
  refine ⟨?_, fun left => absurd nothingLeft left, ?_, ?_, ?_, List.nodup_nil⟩
  · intro enters
    rw [quiet] at enters
    cases enters
  · intro id _ _
    exact (Nat.zero_add _).symm
  · simp [Delivery.submitted, Delivery.discarded, Delivery.withdrawn, nothingLeft, quiet, stays, volume_nil]
  · intro fill inside
    cases inside

section Applied
variable {engine' : MatchingEngine} {queues' : Queues} {free' : List Slot} {fills : List Fill}

theorem Idle.enters_eq (idle : engine.Idle queues free others) (valid : isValidFeedMessage m = true)
    (taken : ¬Ignored m free) :
    (⟨m, engine, fills, engine'⟩ : Delivery).enters = ((engine.ladder queues).incoming m).isSome := by
  have head := idle.steady.sound.pool.freeHead_eq
  unfold Delivery.enters Ladder.incoming holds
  rw [valid, Bool.true_and, idle.steady.sound.listing_ladder]
  dsimp only
  by_cases kind : m.msgType = MsgType.ADD.byte
  · have room : engine.pool.freeHead.isSome = true := by
      cases free with
      | nil => exact absurd (Or.inr ⟨kind, rfl⟩) taken
      | cons slot rest => simp [head]
    rw [if_pos kind, if_pos kind, room, Bool.and_true]
    cases (engine.ladder queues).find? m.orderId <;> rfl
  · rw [if_neg kind, if_neg kind]
    split
    · rfl
    · rw [Option.isSome_map]

theorem takesOut_eq (valid : isValidFeedMessage m = true) (id : UInt64) :
    (⟨m, engine, fills, engine'⟩ : Delivery).takesOut id =
      (decide (m.msgType ≠ MsgType.ADD.byte) && decide (m.orderId = id)) := by
  unfold Delivery.takesOut
  rw [valid, Bool.true_and]

theorem Idle.withdrawn_eq (idle : engine.Idle queues free others) (valid : isValidFeedMessage m = true) :
    (⟨m, engine, fills, engine'⟩ : Delivery).withdrawn =
      if m.msgType = MsgType.ADD.byte then 0
      else openUnits (fun other => other = m.orderId) (engine.ladder queues).orders := by
  unfold Delivery.withdrawn unfilled
  rw [takesOut_eq valid, idle.steady.sound.listing_ladder]
  by_cases kind : m.msgType = MsgType.ADD.byte <;> simp [kind]

theorem Idle.balanced_none (idle : engine.Idle queues free others) (valid : isValidFeedMessage m = true)
    (taken : ¬Ignored m free) (delivered : Delivered engine queues others m engine' queues' free')
    (nothing : (engine.ladder queues).incoming m = none) : (⟨m, engine, [], engine'⟩ : Delivery).Balanced := by
  have quiet : (⟨m, engine, [], engine'⟩ : Delivery).enters = false := by
    rw [idle.enters_eq valid taken, nothing]
    rfl
  have before := idle.steady.sound.listing_ladder
  have after := delivered.idle.steady.sound.listing_ladder.trans delivered.ladder
  rw [Ladder.apply_none nothing] at after
  have shares := fun counts => Ladder.cleared_units (engine.ladder queues) counts m
  have nothingLeft := Delivery.residual_quiet quiet
  refine ⟨?_, fun left => absurd nothingLeft left, ?_, ?_, ?_, List.nodup_nil⟩
  · intro enters
    rw [quiet] at enters
    cases enters
  · intro id _ stays
    have share := shares (fun other => other = id)
    rw [takesOut_eq valid] at stays
    unfold unfilled
    rw [before, after, volume_nil, Nat.zero_add]
    by_cases kind : m.msgType = MsgType.ADD.byte
    · rw [if_pos kind, ite_self] at share
      exact share.symm
    · have other : m.orderId ≠ id := by simpa [kind] using stays
      rw [if_neg (by simpa using other)] at share
      exact share.symm
  · have share := shares (fun _ => true)
    have gone : (⟨m, engine, [], engine'⟩ : Delivery).withdrawn = _ := idle.withdrawn_eq valid
    rw [if_pos rfl, ← gone] at share
    unfold Delivery.submitted Delivery.discarded unfilled
    rw [quiet, nothingLeft, before, after, volume_nil, if_neg Bool.false_ne_true]
    dsimp only
    omega
  · intro fill inside
    cases inside

/-- What a delivery discards of the order that it brings in is what the matching left of it, unless that rests. -/
theorem Idle.residual_eq (idle : engine.Idle queues free others) (valid : isValidFeedMessage m = true)
    (taken : ¬Ignored m free) (delivered : Delivered engine queues others m engine' queues' free') {taker : Resting}
    {type : OrderType} (brings : (engine.ladder queues).incoming m = some (taker, type)) :
    let swept := ((engine.ladder queues).cleared m).swept taker type m.sequence
    (⟨m, engine, fills, engine'⟩ : Delivery).residual =
      if swept.left ≠ 0 ∧ type = .LIMIT then 0 else swept.left.toNat := by
  intro swept
  obtain ⟨named, _, _, _, _, _, absent⟩ := Ladder.incoming_spec valid brings
  have after := delivered.idle.steady.sound.listing_ladder.trans delivered.ladder
  rw [Ladder.apply_some brings] at after
  have rests : engine'.holds m.orderId = false ↔ ¬(swept.left ≠ 0 ∧ type = .LIMIT) := by
    rw [← Ladder.find?_enter _ taker type m.sequence absent, named]
    change (Ladder.find? engine'.listing m.orderId).isSome = false ↔ _
    rw [after]
    exact Option.isSome_eq_false_iff.trans Option.isNone_iff_eq_none
  unfold Delivery.residual
  rw [idle.enters_eq valid taken, brings, Option.isSome_some, Bool.true_and]
  by_cases stays : swept.left ≠ 0 ∧ type = .LIMIT
  · rw [if_pos stays, if_neg (by simpa using fun gone => rests.mp gone stays)]
  · obtain ⟨slot, calls, object, last, left⟩ := delivered.residual taker type brings stays
    rw [if_neg stays, if_pos (by rw [rests.mpr stays]; rfl), last, List.getLast?_append, List.getLast?_singleton]
    exact congrArg UInt32.toNat left

/-- What is left of an order that may rest does rest. -/
theorem Idle.residual_immediate (idle : engine.Idle queues free others) (valid : isValidFeedMessage m = true)
    (taken : ¬Ignored m free) (delivered : Delivered engine queues others m engine' queues' free') {taker : Resting}
    {type : OrderType} (brings : (engine.ladder queues).incoming m = some (taker, type))
    (left : (⟨m, engine, fills, engine'⟩ : Delivery).residual ≠ 0) :
    (⟨m, engine, fills, engine'⟩ : Delivery).immediate = true := by
  rw [idle.residual_eq valid taken delivered brings] at left
  split at left
  · exact absurd rfl left
  next leaves =>
    have some : (((engine.ladder queues).cleared m).swept taker type m.sequence).left ≠ 0 :=
      fun zero => left (by rw [zero]; rfl)
    obtain ⟨kind, type⟩ := Ladder.incoming_immediate valid brings (fun limit => leaves ⟨some, limit⟩)
    rw [Delivery.immediate, kind, decide_eq_true rfl, Bool.true_and, Bool.or_eq_true, decide_eq_true_eq,
      decide_eq_true_eq]
    exact type

theorem Idle.staying_ne (idle : engine.Idle queues free others) (valid : isValidFeedMessage m = true) {taker : Resting}
    {type : OrderType} (brings : (engine.ladder queues).incoming m = some (taker, type)) {id : UInt64}
    (held : engine.holds id = true) (stays : (⟨m, engine, fills, engine'⟩ : Delivery).takesOut id = false) :
    id ≠ m.orderId := by
  intro same
  obtain ⟨named, _, _, _, _, _, absent⟩ := Ladder.incoming_spec valid brings
  rw [takesOut_eq valid, same, decide_eq_true rfl, Bool.and_true, decide_eq_false_iff_not, not_not] at stays
  have whole : (engine.ladder queues).cleared m = engine.ladder queues := Ladder.cleared_add stays
  have there : (Ladder.find? engine.listing id).isSome = true := held
  rw [whole, named] at absent
  rw [idle.steady.sound.listing_ladder, same, Ladder.find?_eq_none.mpr absent] at there
  cases there

theorem Idle.balanced_some (idle : engine.Idle queues free others) (valid : isValidFeedMessage m = true)
    (taken : ¬Ignored m free) (delivered : Delivered engine queues others m engine' queues' free') {taker : Resting}
    {type : OrderType} (brings : (engine.ladder queues).incoming m = some (taker, type)) :
    (⟨m, engine, (((engine.ladder queues).cleared m).swept taker type m.sequence).fills, engine'⟩ :
      Delivery).Balanced := by
  obtain ⟨named, qty, fresh, _, _, _, absent⟩ := Ladder.incoming_spec valid brings
  let cleared := (engine.ladder queues).cleared m
  let swept := cleared.swept taker type m.sequence
  let delivery : Delivery := ⟨m, engine, swept.fills, engine'⟩
  have opened := (idle.steady.wellFormed.cleared m).opened taker.side.opposite
  have trade := Ladder.swept_fills type m.sequence opened
  have met := Ladder.swept_parties type m.sequence opened
  have enters : delivery.enters = true := by
    rw [idle.enters_eq valid taken, brings]
    rfl
  have residual : delivery.residual = if swept.left ≠ 0 ∧ type = .LIMIT then 0 else swept.left.toNat :=
    idle.residual_eq valid taken delivered brings
  have before := idle.steady.sound.listing_ladder
  have after := delivered.idle.steady.sound.listing_ladder.trans delivered.ladder
  rw [Ladder.apply_some brings] at after
  have shares := fun counts => Ladder.cleared_units (engine.ladder queues) counts m
  refine ⟨?_, ?_, ?_, ?_, ?_, ?_⟩
  · intro _
    have share := Ladder.enter_taker_units type m.sequence fresh opened absent
    rw [qty, named] at share
    change _ = _ + openUnits _ (Ladder.orders engine'.listing) + delivery.residual
    rw [residual, after]
    exact share
  · exact idle.residual_immediate valid taken delivered brings
  · intro id held stays
    have other : id ≠ m.orderId := idle.staying_ne valid brings held stays
    have share := shares (fun other => other = id)
    rw [if_neg (by simpa using Ne.symm other)] at share
    unfold unfilled
    rw [before, after, ← share]
    exact Ladder.enter_other_units type m.sequence opened (named.symm ▸ other)
  · have share := shares (fun _ => true)
    have gone : delivery.withdrawn = _ := idle.withdrawn_eq valid
    rw [if_pos rfl, ← gone] at share
    have all : openUnits _ cleared.orders + taker.qty.toNat = 2 * volume _ swept.fills +
        openUnits _ (cleared.enter taker type m.sequence).orders +
          (if swept.left ≠ 0 ∧ type = .LIMIT then 0 else swept.left.toNat) :=
      Ladder.enter_total_units type m.sequence fresh
    change openUnits _ (Ladder.orders engine.listing) + delivery.submitted =
      2 * volume _ swept.fills + openUnits _ (Ladder.orders engine'.listing) + (delivery.withdrawn + delivery.residual)
    rw [residual, before, after, ← share, Delivery.submitted, if_pos enters]
    change openUnits _ cleared.orders + _ + m.qty.toNat =
      2 * volume _ swept.fills + openUnits _ (cleared.enter taker type m.sequence).orders + _
    rw [← qty]
    omega
  · intro fill inside
    obtain ⟨maker, there, _, parties⟩ := met fill inside
    refine ⟨enters, (trade.1 fill inside).1, maker, ?_, named ▸ absent _ maker there, ?_⟩
    · rw [before]
      exact Ladder.mem_orders.mpr ⟨_, Ladder.mem_of_cleared there⟩
    · rw [named] at parties
      exact parties
  · have same : swept.fills.map delivery.counterparty = swept.fills.map (fun fill => fill.makerOf taker.side) := by
      apply List.map_congr_left
      intro fill inside
      obtain ⟨maker, there, other, parties⟩ := met fill inside
      have apart := absent _ maker there
      change (if fill.buyOrderId = m.orderId then fill.sellOrderId else fill.buyOrderId) = _
      rw [other, ← named]
      rcases parties with ⟨buys, sold⟩ | ⟨_, bought⟩
      · rw [if_pos buys, sold]
      · rw [bought, if_neg apart]
    change (swept.fills.map delivery.counterparty).Nodup
    rw [same]
    exact trade.2.nodup ((idle.steady.wellFormed.cleared m).distinct taker.side.opposite)

end Applied

theorem Idle.balanced (idle : engine.Idle queues free others) (m : FeedMessage) :
    ∃ fills engine' queues' free', engine.deliver m = some (fills, engine') ∧ engine'.Idle queues' free' others ∧
      (⟨m, engine, fills, engine'⟩ : Delivery).Balanced := by
  rcases idle.deliver m with ⟨ignored, result⟩ | ⟨taken, valid, engine', queues', free', result, delivered⟩
  · exact ⟨[], engine, queues, free, result, idle, idle.balanced_ignored ignored⟩
  · refine ⟨_, engine', queues', free', result, delivered.idle, ?_⟩
    cases brings : (engine.ladder queues).incoming m with
    | none =>
      rw [Ladder.apply_none brings]
      exact idle.balanced_none valid taken delivered brings
    | some order =>
      rw [Ladder.apply_some brings]
      exact idle.balanced_some valid taken delivered brings

theorem deliveries_cons {engine engine' : MatchingEngine} {m : FeedMessage} {later : List FeedMessage}
    {fills : List Fill} {rest : List Delivery} (first : engine.deliver m = some (fills, engine'))
    (next : engine'.deliveries later = some rest) :
    engine.deliveries (m :: later) = some (⟨m, engine, fills, engine'⟩ :: rest) := by
  rw [deliveries, first]
  change (engine'.deliveries later).bind _ = _
  rw [next]
  rfl

theorem Idle.kept (messages : List FeedMessage) :
    ∀ {engine : MatchingEngine} {queues : Queues} {free : List Slot}, engine.Idle queues free others →
      ∃ deliveries last, engine.deliveries messages = some deliveries ∧
        deliveries.map Delivery.message = messages ∧
        engine.feed messages = some (deliveries.flatMap Delivery.fills, last) ∧ Kept engine deliveries last := by
  induction messages with
  | nil =>
    intro engine queues free _
    exact ⟨[], engine, rfl, rfl, rfl, rfl⟩
  | cons m later ih =>
    intro engine queues free idle
    obtain ⟨fills, engine', queues', free', result, idle', balanced⟩ := idle.balanced m
    obtain ⟨deliveries, last, cut, sent, ran, kept⟩ := ih idle'
    refine ⟨⟨m, engine, fills, engine'⟩ :: deliveries, last, deliveries_cons result cut, ?_, ?_, rfl, balanced, kept⟩
    · rw [List.map_cons, sent]
    · rw [feed_cons engine m later result, ran]
      rfl

end MatchingEngine

theorem Kept.suffix {delivery : Delivery} {later : List Delivery} {last : MatchingEngine} (earlier : List Delivery) :
    ∀ {engine : MatchingEngine}, Kept engine (earlier ++ delivery :: later) last →
      delivery.Balanced ∧ Kept delivery.after later last := by
  induction earlier with
  | nil =>
    intro engine kept
    exact kept.2
  | cons first rest ih =>
    intro engine kept
    exact ih kept.2.2

/-- In every run, for every order that entered and for the run as a whole, the units submitted were traded, still rest or
were discarded, and only MARKET and IOC orders are discarded as they enter. -/
theorem quantity_conserved (capacity : Nat) (messages : List FeedMessage) :
    ∃ deliveries last, (MatchingEngine.create capacity).deliveries messages = some deliveries ∧
      deliveries.map Delivery.message = messages ∧
      (MatchingEngine.create capacity).feed messages = some (deliveries.flatMap Delivery.fills, last) ∧
      (∀ earlier delivery later, deliveries = earlier ++ delivery :: later → delivery.enters = true →
        delivery.message.qty.toNat = (delivery.account later).traded + (delivery.account later).resting +
          (delivery.account later).discarded) ∧
      (∀ delivery ∈ deliveries, (∀ fill ∈ delivery.fills, delivery.Trades fill) ∧
        (delivery.fills.map delivery.counterparty).Nodup ∧ (delivery.residual ≠ 0 → delivery.immediate = true)) ∧
      (deliveries.map Delivery.submitted).sum =
        2 * volume (fun _ => true) (deliveries.flatMap Delivery.fills) + last.unfilled (fun _ => true) +
          (deliveries.map Delivery.discarded).sum := by
  obtain ⟨deliveries, last, cut, sent, ran, kept⟩ :=
    MatchingEngine.Idle.kept messages (MatchingEngine.Idle.create capacity)
  refine ⟨deliveries, last, cut, sent, ran, ?_, ?_, ?_⟩
  · intro earlier delivery later split enters
    rw [split] at kept
    obtain ⟨balanced, rest⟩ := kept.suffix earlier
    exact balanced.account_sum rest enters
  · intro delivery inside
    obtain ⟨earlier, later, split⟩ := List.append_of_mem inside
    rw [split] at kept
    obtain ⟨balanced, _⟩ := kept.suffix earlier
    exact ⟨balanced.trades, balanced.once, balanced.unrested⟩
  · have sums := kept.total
    have nothing : (MatchingEngine.create capacity).unfilled (fun _ => true) = 0 := by
      unfold MatchingEngine.unfilled
      rw [(MatchingEngine.Sound.create capacity).listing_ladder, MatchingEngine.create_ladder]
      rfl
    omega

end ChronoBook
