import ChronoBook.Core.Failure
import ChronoBook.Feed.BinaryProtocol
import ChronoBook.Library.Linked
import ChronoBook.Library.SignedWords
import Mathlib.Data.List.Range
import Mathlib.Data.List.Nodup

/-! The synthetic feed. What the generator draws is left open: a source of random
numbers is any state with draws from it, of which only the ranges of the integer
distributions are known. Everything below holds for every such source, so for every
outcome of the draws. -/

namespace ChronoBook
open Library.Linked Library.SignedWords

structure FeedConfig where
  numMessages : UInt64 := 1000000
  seed : UInt64 := 0xC0FFEE
  midPrice : UInt32 := 10000
  priceBand : UInt32 := 50
  maxQty : UInt32 := 500
  cancelProb : Float := 0.20
  marketProb : Float := 0.05
  iocProb : Float := 0.05
  symbolPacked : UInt64 := 0

/-- A random engine with the distributions that are drawn from it. A bounded
distribution has a range only if its bounds are in order. -/
structure RandomSource (σ : Type) where
  seeded : UInt64 → σ
  unit : σ → Float × σ
  uniformUInt32 (low high : UInt32) : σ → UInt32 × σ
  uniformInt32 (low high : Int32) : σ → Int32 × σ
  uniformSize (low high : UInt64) : σ → UInt64 × σ
  uInt32_between (low high : UInt32) (rng : σ) : low ≤ high →
    low ≤ (uniformUInt32 low high rng).1 ∧ (uniformUInt32 low high rng).1 ≤ high
  int32_between (low high : Int32) (rng : σ) : low ≤ high →
    low ≤ (uniformInt32 low high rng).1 ∧ (uniformInt32 low high rng).1 ≤ high
  size_between (low high : UInt64) (rng : σ) : low ≤ high →
    low ≤ (uniformSize low high rng).1 ∧ (uniformSize low high rng).1 ≤ high

structure FeedGenerator (σ : Type) where
  cfg : FeedConfig
  rng : σ

/-- The locals of `generate` at the head of its loop. -/
structure Generation (σ : Type) where
  msgs : List FeedMessage := []
  nextId : UInt64 := 1
  seq : UInt64 := 0
  live : List UInt64 := []
  rng : σ

namespace FeedGenerator

variable {σ : Type}

def create (source : RandomSource σ) (cfg : FeedConfig) : FeedGenerator σ := ⟨cfg, source.seeded cfg.seed⟩

/-- The unit draw is made only if there is something to cancel. -/
def doCancel (source : RandomSource σ) (cfg : FeedConfig) (live : List UInt64) (rng : σ) : Bool × σ :=
  if live.isEmpty then (false, rng)
  else
    let (roll, rng) := source.unit rng
    (decide (roll < cfg.cancelProb), rng)

def cancel (source : RandomSource σ) (g : Generation σ) (seq : UInt64) (rng : σ) : Generation σ :=
  let (idx, rng) := source.uniformSize 0 (UInt64.ofNat g.live.length - 1) rng
  { g with
    msgs := g.msgs ++ [makeCancel seq (g.live.getD idx.toNat 0)]
    seq := seq
    -- the last candidate takes the place of the one that is used up
    live := (g.live.set idx.toNat (g.live.getLastD 0)).dropLast
    rng := rng }

def orderType (cfg : FeedConfig) (roll : Float) : OrderType :=
  if roll < cfg.marketProb then .MARKET
  else if roll < cfg.marketProb + cfg.iocProb then .IOC
  else .LIMIT

def add (source : RandomSource σ) (cfg : FeedConfig) (g : Generation σ) (seq : UInt64) (rng : σ) : Generation σ :=
  let (sideRoll, rng) := source.unit rng
  let side := if sideRoll < 0.5 then Side.BUY else Side.SELL
  let (offset, rng) := source.uniformInt32 (-cfg.priceBand.toInt32) cfg.priceBand.toInt32 rng
  let price := (cfg.midPrice.toInt32 + offset).toUInt32
  let (qty, rng) := source.uniformUInt32 1 cfg.maxQty rng
  let (roll, rng) := source.unit rng
  let type := orderType cfg roll
  let id := g.nextId
  { msgs := g.msgs ++ [makeAdd seq id side type (if type = .MARKET then 0 else price) qty cfg.symbolPacked]
    nextId := g.nextId + 1
    seq := seq
    live := if type = .LIMIT then g.live ++ [id] else g.live
    rng := rng }

def step (source : RandomSource σ) (cfg : FeedConfig) (g : Generation σ) : Generation σ :=
  let seq := g.seq + 1
  match doCancel source cfg g.live g.rng with
  | (true, rng) => cancel source g seq rng
  | (false, rng) => add source cfg g seq rng

def loop (source : RandomSource σ) (cfg : FeedConfig) : Nat → Generation σ → Generation σ
  | 0, g => g
  | left + 1, g => loop source cfg left (step source cfg g)

/-- Both vectors are reserved before the loop. -/
def generate (source : RandomSource σ) (generator : FeedGenerator σ) :
    Except Failure (List FeedMessage × FeedGenerator σ) := do
  checkLength maxSize generator.cfg.numMessages.toNat
  checkLength (maxSizeOf 8) (generator.cfg.numMessages.toNat / 2)
  let g := loop source generator.cfg generator.cfg.numMessages.toNat { rng := generator.rng }
  return (g.msgs, { generator with rng := g.rng })

end FeedGenerator

def FeedMessage.isAdd (m : FeedMessage) : Bool := m.msgType = MsgType.ADD.byte

def FeedMessage.isCancel (m : FeedMessage) : Bool := m.msgType = MsgType.CANCEL.byte

/-- An ADD that can come to rest. -/
def FeedMessage.isLimitAdd (m : FeedMessage) : Bool := m.isAdd && m.orderType = OrderType.LIMIT.byte

def addIds (msgs : List FeedMessage) : List UInt64 := (msgs.filter FeedMessage.isAdd).map FeedMessage.orderId

/-- The first `count` words behind zero. -/
def upTo (count : Nat) : List UInt64 := (List.range count).map (fun i => UInt64.ofNat (i + 1))

/-- Every CANCEL names an earlier LIMIT ADD, and no two name the same one. -/
def CancelsOnce (msgs : List FeedMessage) : Prop :=
  ∀ earlier m later, msgs = earlier ++ m :: later → m.isCancel = true →
    (∃ a ∈ earlier, a.isLimitAdd = true ∧ a.orderId = m.orderId) ∧
      ∀ c ∈ earlier, c.isCancel = true → c.orderId ≠ m.orderId

/-- The price of an ADD that has one lies in the band. -/
def PricedWithin (cfg : FeedConfig) (m : FeedMessage) : Prop :=
  m.isAdd = true → m.orderType ≠ OrderType.MARKET.byte →
    cfg.midPrice.toNat ≤ m.price.toNat + cfg.priceBand.toNat ∧
      m.price.toNat ≤ cfg.midPrice.toNat + cfg.priceBand.toNat

/-- The configurations whose draws are defined and whose prices are positive numbers of `int32_t`. -/
structure FeedConfig.Sound (cfg : FeedConfig) : Prop where
  qty : 1 ≤ cfg.maxQty.toNat
  band : cfg.priceBand.toNat < cfg.midPrice.toNat
  small : cfg.midPrice.toNat + cfg.priceBand.toNat < 2 ^ 31

theorem upTo_succ (count : Nat) : upTo (count + 1) = upTo count ++ [UInt64.ofNat (count + 1)] := by
  simp only [upTo, List.range_succ, List.map_append, List.map_cons, List.map_nil]

theorem length_upTo (count : Nat) : (upTo count).length = count := by simp only [upTo, List.length_map, List.length_range]

theorem toNat_of_mem_upTo {count : Nat} {id : UInt64} (small : count < 2 ^ 64) (listed : id ∈ upTo count) :
    1 ≤ id.toNat ∧ id.toNat ≤ count := by
  obtain ⟨i, below, rfl⟩ := List.mem_map.mp listed
  rw [List.mem_range] at below
  rw [UInt64.toNat_ofNat_of_lt' (show i + 1 < 2 ^ 64 by omega)]
  omega

theorem not_mem_upTo {count : Nat} (small : count + 1 < 2 ^ 64) : UInt64.ofNat (count + 1) ∉ upTo count := by
  intro listed
  have bound := (toNat_of_mem_upTo (by omega) listed).2
  rw [UInt64.toNat_ofNat_of_lt' small] at bound
  omega

theorem nodup_upTo {count : Nat} (small : count < 2 ^ 64) : (upTo count).Nodup := by
  induction count with
  | zero => exact List.nodup_nil
  | succ count ih =>
    rw [upTo_succ, List.nodup_append]
    refine ⟨ih (by omega), List.nodup_singleton _, ?_⟩
    intro id listed other last same
    rw [List.mem_singleton.mp last] at same
    rw [same] at listed
    exact not_mem_upTo small listed

theorem addIds_append (msgs : List FeedMessage) (m : FeedMessage) :
    addIds (msgs ++ [m]) = addIds msgs ++ if m.isAdd then [m.orderId] else [] := by
  cases kind : m.isAdd <;> simp [addIds, kind]

theorem mem_addIds {msgs : List FeedMessage} {a : FeedMessage} (sent : a ∈ msgs) (limit : a.isLimitAdd = true) :
    a.orderId ∈ addIds msgs := by
  have kind : a.isAdd = true := by
    rw [FeedMessage.isLimitAdd, Bool.and_eq_true] at limit
    exact limit.1
  exact List.mem_map_of_mem (List.mem_filter.mpr ⟨sent, kind⟩)

theorem addIds_length_le (msgs : List FeedMessage) : (addIds msgs).length ≤ msgs.length := by
  rw [addIds, List.length_map]
  exact List.length_filter_le _ _

/-- The last message decides alone whether the list stays in order. -/
theorem CancelsOnce.append {msgs : List FeedMessage} (cancels : CancelsOnce msgs) (m : FeedMessage)
    (last : m.isCancel = true → (∃ a ∈ msgs, a.isLimitAdd = true ∧ a.orderId = m.orderId) ∧
      ∀ c ∈ msgs, c.isCancel = true → c.orderId ≠ m.orderId) : CancelsOnce (msgs ++ [m]) := by
  intro earlier other later split kind
  rcases split_concat split with ⟨rfl, rfl, _⟩ | ⟨rest, _, inside⟩
  · exact last kind
  · exact cancels earlier other rest inside kind

/-- What a CANCEL names was added before. -/
theorem CancelsOnce.named {msgs : List FeedMessage} (cancels : CancelsOnce msgs) {c : FeedMessage} (sent : c ∈ msgs)
    (kind : c.isCancel = true) : c.orderId ∈ addIds msgs := by
  obtain ⟨earlier, later, split⟩ := List.append_of_mem sent
  obtain ⟨⟨a, before, limit, same⟩, _⟩ := cancels earlier c later split kind
  rw [← same]
  apply mem_addIds _ limit
  rw [split]
  exact List.mem_append_left _ before

/-- Overwriting a place with the last entry and dropping that takes one entry out. -/
theorem perm_swapRemove {items : List UInt64} {idx : Nat} (inside : idx < items.length) :
    items.Perm (items.getD idx 0 :: (items.set idx (items.getLastD 0)).dropLast) := by
  obtain ⟨before, item, after, rfl, rfl⟩ : ∃ before item after, items = before ++ item :: after ∧ before.length = idx :=
    ⟨items.take idx, items[idx], items.drop (idx + 1), by simp, by simp; omega⟩
  rw [List.set_append_right _ _ (Nat.le_refl _), Nat.sub_self, List.set_cons_zero]
  cases after using List.reverseRecOn with
  | nil => simp
  | append_singleton after last =>
    have rest : (before ++ last :: (after ++ [last])).dropLast = before ++ last :: after := by
      rw [← List.cons_append, ← List.append_assoc, List.dropLast_concat]
    have final : (before ++ item :: (after ++ [last])).getLast? = some last := by
      rw [← List.cons_append, ← List.append_assoc, List.getLast?_concat]
    rw [List.getLastD_eq_getLast?, final, Option.getD_some, rest]
    simp only [List.getD_eq_getElem?_getD, List.getElem?_append_right (Nat.le_refl _), Nat.sub_self,
      List.getElem?_cons_zero, Option.getD_some]
    refine List.perm_middle.trans (List.Perm.cons item ?_)
    exact List.Perm.append_left before (List.perm_append_singleton last after)

/-- The messages so far are numbered through and acceptable, and cancel only what was added. -/
structure Sent (cfg : FeedConfig) (msgs : List FeedMessage) : Prop where
  sequences : msgs.map FeedMessage.sequence = upTo msgs.length
  ids : addIds msgs = upTo (addIds msgs).length
  valid : ∀ m ∈ msgs, isValidFeedMessage m = true
  priced : ∀ m ∈ msgs, PricedWithin cfg m
  cancels : CancelsOnce msgs

/-- The candidates for a CANCEL are LIMIT ADDs that none has named. -/
structure Candidates (msgs : List FeedMessage) (live : List UInt64) : Prop where
  few : live.length ≤ msgs.length
  distinct : live.Nodup
  added : ∀ id ∈ live, ∃ a ∈ msgs, a.isLimitAdd = true ∧ a.orderId = id
  unnamed : ∀ id ∈ live, ∀ c ∈ msgs, c.isCancel = true → c.orderId ≠ id

namespace Sent

variable {cfg : FeedConfig} {msgs : List FeedMessage} {m : FeedMessage}

theorem append (sent : Sent cfg msgs) (number : m.sequence = UInt64.ofNat (msgs.length + 1))
    (id : m.isAdd = true → m.orderId = UInt64.ofNat ((addIds msgs).length + 1)) (valid : isValidFeedMessage m = true)
    (priced : PricedWithin cfg m)
    (named : m.isCancel = true → (∃ a ∈ msgs, a.isLimitAdd = true ∧ a.orderId = m.orderId) ∧
      ∀ c ∈ msgs, c.isCancel = true → c.orderId ≠ m.orderId) : Sent cfg (msgs ++ [m]) where
  sequences := by
    rw [List.map_append, List.map_cons, List.map_nil, sent.sequences, number, List.length_append, List.length_cons,
      List.length_nil, upTo_succ]
  ids := by
    rw [addIds_append]
    split
    next kind => rw [List.length_append, List.length_cons, List.length_nil, upTo_succ, ← sent.ids, id kind]
    next => rw [List.append_nil, ← sent.ids]
  valid := List.forall_mem_append.mpr ⟨sent.valid, List.forall_mem_singleton.mpr valid⟩
  priced := List.forall_mem_append.mpr ⟨sent.priced, List.forall_mem_singleton.mpr priced⟩
  cancels := sent.cancels.append m named

theorem id_pos (sent : Sent cfg msgs) (small : msgs.length + 1 < 2 ^ 64) {id : UInt64} (given : id ∈ addIds msgs) :
    id ≠ 0 := by
  have bound := addIds_length_le msgs
  rw [sent.ids] at given
  have positive := (toNat_of_mem_upTo (by omega) given).1
  rintro rfl
  cases positive

theorem fresh (sent : Sent cfg msgs) (small : msgs.length + 1 < 2 ^ 64) :
    UInt64.ofNat ((addIds msgs).length + 1) ∉ addIds msgs := by
  have bound := addIds_length_le msgs
  have bounded : (addIds msgs).length + 1 < 2 ^ 64 := by omega
  intro given
  rw [sent.ids, length_upTo] at given
  exact not_mem_upTo bounded given

end Sent

theorem nextId_ne {msgs : List FeedMessage} (small : msgs.length + 1 < 2 ^ 64) :
    UInt64.ofNat ((addIds msgs).length + 1) ≠ 0 := by
  have bound := addIds_length_le msgs
  rw [← UInt64.toNat_inj.ne, UInt64.toNat_ofNat_of_lt' (show _ < 2 ^ 64 by omega)]
  exact Nat.succ_ne_zero _

namespace Candidates

variable {msgs : List FeedMessage} {live left : List UInt64} {m : FeedMessage}

theorem given (candidates : Candidates msgs live) {id : UInt64} (candidate : id ∈ live) : id ∈ addIds msgs := by
  obtain ⟨a, sent, limit, rfl⟩ := candidates.added id candidate
  exact mem_addIds sent limit

theorem fewer (candidates : Candidates msgs live) (distinct : left.Nodup) (less : left ⊆ live)
    (few : left.length ≤ msgs.length) : Candidates msgs left :=
  ⟨few, distinct, fun id kept => candidates.added id (less kept), fun id kept => candidates.unnamed id (less kept)⟩

/-- A message that names no candidate leaves them what they are. -/
theorem sent (candidates : Candidates msgs live) (other : m.isCancel = true → m.orderId ∉ live) :
    Candidates (msgs ++ [m]) live where
  few := by
    have few := candidates.few
    rw [List.length_append]
    omega
  distinct := candidates.distinct
  added := by
    intro id candidate
    obtain ⟨a, before, limit, same⟩ := candidates.added id candidate
    exact ⟨a, List.mem_append_left _ before, limit, same⟩
  unnamed := by
    intro id candidate
    refine List.forall_mem_append.mpr ⟨candidates.unnamed id candidate, List.forall_mem_singleton.mpr ?_⟩
    rintro cancel rfl
    exact other cancel candidate

/-- A LIMIT ADD with a new id becomes a candidate. -/
theorem push (candidates : Candidates msgs live) {id : UInt64} (new : id ∉ live) (few : live.length + 1 ≤ msgs.length)
    (added : ∃ a ∈ msgs, a.isLimitAdd = true ∧ a.orderId = id)
    (unnamed : ∀ c ∈ msgs, c.isCancel = true → c.orderId ≠ id) : Candidates msgs (live ++ [id]) where
  few := by
    rw [List.length_append]
    exact few
  distinct := by
    rw [List.nodup_append]
    refine ⟨candidates.distinct, List.nodup_singleton _, ?_⟩
    intro other candidate last single same
    rw [same, List.mem_singleton.mp single] at candidate
    exact new candidate
  added := List.forall_mem_append.mpr ⟨candidates.added, List.forall_mem_singleton.mpr added⟩
  unnamed := List.forall_mem_append.mpr ⟨candidates.unnamed, List.forall_mem_singleton.mpr unnamed⟩

end Candidates

namespace FeedGenerator

variable {σ : Type}

structure Made (cfg : FeedConfig) (g : Generation σ) : Prop where
  sent : Sent cfg g.msgs
  seq : g.seq = UInt64.ofNat g.msgs.length
  nextId : g.nextId = UInt64.ofNat ((addIds g.msgs).length + 1)
  live : Candidates g.msgs g.live

variable {source : RandomSource σ} {cfg : FeedConfig} {g : Generation σ}

theorem Made.start (cfg : FeedConfig) (rng : σ) : Made cfg ({ rng := rng } : Generation σ) where
  sent := {
    sequences := rfl
    ids := rfl
    valid := by simp
    priced := by simp
    cancels := by
      intro earlier m later split
      cases earlier <;> cases split }
  seq := rfl
  nextId := rfl
  live := ⟨Nat.le_refl 0, List.nodup_nil, by simp, by simp⟩

theorem Made.next_seq (made : Made cfg g) : g.seq + 1 = UInt64.ofNat (g.msgs.length + 1) := by
  rw [made.seq, UInt64.ofNat_add]
  rfl

theorem pick_lt (source : RandomSource σ) {live : List UInt64} (some : live ≠ []) (small : live.length < 2 ^ 64) (rng : σ) :
    (source.uniformSize 0 (UInt64.ofNat live.length - 1) rng).1.toNat < live.length := by
  have nonempty : 0 < live.length := List.length_pos_iff.mpr some
  have count : (UInt64.ofNat live.length).toNat = live.length := UInt64.toNat_ofNat_of_lt' small
  have high : (UInt64.ofNat live.length - 1).toNat = live.length - 1 := by
    rw [UInt64.toNat_sub_of_le _ _ (by rw [UInt64.le_iff_toNat_le, count]; exact nonempty), count]
    rfl
  have range := (source.size_between 0 (UInt64.ofNat live.length - 1) rng (by simp [UInt64.le_iff_toNat_le])).2
  rw [UInt64.le_iff_toNat_le, high] at range
  omega

theorem valid_cancel {seq id : UInt64} (named : id ≠ 0) : isValidFeedMessage (makeCancel seq id) = true := by
  simp [isValidFeedMessage, makeCancel, isValidMsgType, MsgType.byte, named]

theorem Made.cancel (made : Made cfg g) (small : g.msgs.length + 1 < 2 ^ 64) (candidates : g.live ≠ []) (rng : σ) :
    Made cfg (FeedGenerator.cancel source g (g.seq + 1) rng) := by
  have bound := made.live.few
  have inside := pick_lt source candidates (by omega) rng
  unfold FeedGenerator.cancel
  generalize (source.uniformSize 0 (UInt64.ofNat g.live.length - 1) rng) = drawn at inside ⊢
  obtain ⟨idx, rng'⟩ := drawn
  have removed := perm_swapRemove inside
  dsimp only at inside removed ⊢
  generalize g.live.getD idx.toNat 0 = id at removed ⊢
  generalize (g.live.set idx.toNat (g.live.getLastD 0)).dropLast = left at removed ⊢
  have candidate : id ∈ g.live := removed.mem_iff.mpr List.mem_cons_self
  have stays : left ⊆ g.live := fun other kept => removed.mem_iff.mpr (List.mem_cons_of_mem _ kept)
  have distinct := List.nodup_cons.mp (removed.nodup_iff.mp made.live.distinct)
  have size := removed.length_eq
  have ids : addIds (g.msgs ++ [makeCancel (g.seq + 1) id]) = addIds g.msgs := by
    rw [addIds_append]
    exact List.append_nil _
  refine ⟨?_, ?_, ?_, ?_⟩
  · refine made.sent.append made.next_seq nofun (valid_cancel (made.sent.id_pos small (made.live.given candidate))) nofun ?_
    exact fun _ => ⟨made.live.added id candidate, made.live.unnamed id candidate⟩
  · rw [List.length_append]
    exact made.next_seq
  · rw [ids]
    exact made.nextId
  · rw [List.length_cons] at size
    exact (made.live.fewer distinct.2 stays (by omega)).sent (fun _ => distinct.1)

theorem valid_add {seq id symbolPacked : UInt64} {side : Side} {type : OrderType} {price qty : UInt32} (named : id ≠ 0)
    (some : qty ≠ 0) (priced : price ≠ 0) :
    isValidFeedMessage (makeAdd seq id side type (if type = .MARKET then 0 else price) qty symbolPacked) = true := by
  cases side <;> cases type <;>
    simp [isValidFeedMessage, makeAdd, isValidMsgType, isValidSide, isValidOrderType, MsgType.byte, Side.byte,
      OrderType.byte, named, some, priced]

/-- What the two bounded draws of an ADD give. -/
theorem drawn_qty (source : RandomSource σ) (sound : cfg.Sound) (rng : σ) :
    (source.uniformUInt32 1 cfg.maxQty rng).1 ≠ 0 := by
  have range := (source.uInt32_between 1 cfg.maxQty rng (UInt32.le_iff_toNat_le.mpr sound.qty)).1
  rintro zero
  rw [zero] at range
  cases range

theorem drawn_price (source : RandomSource σ) (sound : cfg.Sound) (rng : σ) :
    let drawn := (source.uniformInt32 (-cfg.priceBand.toInt32) cfg.priceBand.toInt32 rng).1
    let price := (cfg.midPrice.toInt32 + drawn).toUInt32
    cfg.midPrice.toNat ≤ price.toNat + cfg.priceBand.toNat ∧ price.toNat ≤ cfg.midPrice.toNat + cfg.priceBand.toNat := by
  have inside := sound.band
  have small := sound.small
  obtain ⟨low, high⟩ := source.int32_between _ _ rng (neg_le_toInt32 (show cfg.priceBand.toNat < 2 ^ 31 by omega))
  exact toNat_offset inside small low high

/-- An ADD with the next id, whatever its side, type and quantity. -/
theorem Made.added_next (made : Made cfg g) (small : g.msgs.length + 1 < 2 ^ 64) (side : Side) (type : OrderType)
    {price qty : UInt32} (some : qty ≠ 0) (low : cfg.midPrice.toNat ≤ price.toNat + cfg.priceBand.toNat)
    (high : price.toNat ≤ cfg.midPrice.toNat + cfg.priceBand.toNat) (positive : price ≠ 0) (rng : σ) :
    Made cfg (
      { msgs := g.msgs ++
          [makeAdd (g.seq + 1) g.nextId side type (if type = .MARKET then 0 else price) qty cfg.symbolPacked]
        nextId := g.nextId + 1
        seq := g.seq + 1
        live := if type = .LIMIT then g.live ++ [g.nextId] else g.live
        rng := rng } : Generation σ) := by
  generalize shape : makeAdd (g.seq + 1) g.nextId side type (if type = .MARKET then 0 else price) qty cfg.symbolPacked = m
  have kind : m.isAdd = true := by rw [← shape]; rfl
  have notCancel : m.isCancel ≠ true := by rw [← shape]; nofun
  have named : m.orderId = g.nextId := by rw [← shape]; rfl
  have number : m.sequence = UInt64.ofNat (g.msgs.length + 1) := by
    rw [← shape]
    exact made.next_seq
  have valid : isValidFeedMessage m = true := by
    rw [← shape]
    exact valid_add (made.nextId ▸ nextId_ne small) some positive
  have priced : PricedWithin cfg m := by
    rw [← shape]
    intro _ notMarket
    have priced : type ≠ .MARKET := by
      rintro rfl
      exact notMarket rfl
    show _ ≤ (if type = .MARKET then 0 else price).toNat + _ ∧ (if type = .MARKET then 0 else price).toNat ≤ _
    rw [if_neg priced]
    exact ⟨low, high⟩
  have fresh : g.nextId ∉ addIds g.msgs := made.nextId ▸ made.sent.fresh small
  have candidates : Candidates (g.msgs ++ [m]) g.live := made.live.sent (fun cancel => absurd cancel notCancel)
  refine ⟨?_, ?_, ?_, ?_⟩
  · exact made.sent.append number (fun _ => named.trans made.nextId) valid priced (fun cancel => absurd cancel notCancel)
  · rw [List.length_append]
    exact made.next_seq
  · rw [addIds_append, kind, if_pos rfl, List.length_append, List.length_cons, List.length_nil, UInt64.ofNat_add _ 1,
      ← made.nextId]
    rfl
  · dsimp only
    split
    next limit =>
      have few := made.live.few
      apply candidates.push (fun candidate => fresh (made.live.given candidate))
      · rw [List.length_append]
        exact Nat.succ_le_succ few
      · refine ⟨m, by simp, ?_, named⟩
        rw [← shape, limit]
        rfl
      · refine List.forall_mem_append.mpr ⟨?_, List.forall_mem_singleton.mpr (fun cancel => absurd cancel notCancel)⟩
        intro c earlier cancel same
        -- a CANCEL names an id that was given out, and this one was not
        exact fresh (same ▸ made.sent.cancels.named earlier cancel)
    next => exact candidates

theorem Made.add (made : Made cfg g) (sound : cfg.Sound) (small : g.msgs.length + 1 < 2 ^ 64) (rng : σ) :
    Made cfg (FeedGenerator.add source cfg g (g.seq + 1) rng) := by
  have inside := sound.band
  obtain ⟨low, high⟩ := drawn_price source sound (source.unit rng).2
  apply made.added_next small _ _ (drawn_qty source sound _) low high
  intro zero
  rw [zero] at low
  change cfg.midPrice.toNat ≤ 0 + cfg.priceBand.toNat at low
  omega

theorem doCancel_candidates {live : List UInt64} {rng rng' : σ} (cancels : doCancel source cfg live rng = (true, rng')) :
    live ≠ [] := by
  rintro rfl
  cases cancels

theorem Made.step (made : Made cfg g) (sound : cfg.Sound) (small : g.msgs.length + 1 < 2 ^ 64) :
    Made cfg (FeedGenerator.step source cfg g) := by
  unfold FeedGenerator.step
  split
  next cancels => exact made.cancel small (doCancel_candidates cancels) _
  next => exact made.add sound small _

theorem length_step (source : RandomSource σ) (cfg : FeedConfig) (g : Generation σ) :
    (step source cfg g).msgs.length = g.msgs.length + 1 := by
  unfold step
  split
  · exact List.length_append
  · exact List.length_append

/-- The loop makes one message in every pass, and keeps what holds at its head. -/
theorem Made.loop (made : Made cfg g) (sound : cfg.Sound) (source : RandomSource σ) (left : Nat)
    (small : g.msgs.length + left < 2 ^ 64) :
    Made cfg (FeedGenerator.loop source cfg left g) ∧
      (FeedGenerator.loop source cfg left g).msgs.length = g.msgs.length + left := by
  induction left generalizing g with
  | zero => exact ⟨made, rfl⟩
  | succ left ih =>
    have grown := length_step source cfg g
    have rest := ih (made.step sound (by omega)) (by rw [grown]; omega)
    rw [grown] at rest
    exact ⟨rest.1, by rw [FeedGenerator.loop, rest.2]; omega⟩

theorem generate_fits (source : RandomSource σ) {generator : FeedGenerator σ}
    (vector : generator.cfg.numMessages.toNat ≤ maxSize) :
    let g := loop source generator.cfg generator.cfg.numMessages.toNat { rng := generator.rng }
    generate source generator = .ok (g.msgs, { generator with rng := g.rng }) := by
  have half : generator.cfg.numMessages.toNat / 2 ≤ maxSizeOf 8 := by
    unfold maxSize maxSizeOf at vector
    unfold maxSizeOf
    omega
  unfold generate
  rw [checkLength_ok vector, checkLength_ok half]
  rfl

theorem generate_long (source : RandomSource σ) {generator : FeedGenerator σ}
    (long : maxSize < generator.cfg.numMessages.toNat) :
    generate source generator = .error (.thrown lengthError) := by
  unfold generate
  rw [checkLength_error long]
  rfl

/-- Whatever is drawn, the generated messages are valid and numbered through, every ADD has a new id
and a price in the band, and every CANCEL names a LIMIT ADD before it that no other CANCEL before it names. -/
theorem generated_feed (source : RandomSource σ) (cfg : FeedConfig) (rng : σ) (qty : 1 ≤ cfg.maxQty)
    (band : cfg.priceBand < cfg.midPrice) (small : cfg.midPrice.toNat + cfg.priceBand.toNat < 2 ^ 31)
    (vector : cfg.numMessages.toNat ≤ maxSize) :
    ∃ msgs after, generate source ⟨cfg, rng⟩ = .ok (msgs, after) ∧
      msgs.length = cfg.numMessages.toNat ∧
      (∀ m ∈ msgs, isValidFeedMessage m = true) ∧
      msgs.map FeedMessage.sequence = upTo cfg.numMessages.toNat ∧
      addIds msgs = upTo (addIds msgs).length ∧ (addIds msgs).Nodup ∧
      (∀ m ∈ msgs, PricedWithin cfg m) ∧
      CancelsOnce msgs := by
  have sound : cfg.Sound := ⟨UInt32.le_iff_toNat_le.mp qty, UInt32.lt_iff_toNat_lt.mp band, small⟩
  have bound := cfg.numMessages.toNat_lt
  obtain ⟨made, count⟩ := (Made.start cfg rng).loop sound source cfg.numMessages.toNat (by simpa using bound)
  refine ⟨_, _, generate_fits source vector, ?_⟩
  let msgs := (loop source cfg cfg.numMessages.toNat { rng := rng }).msgs
  have length : msgs.length = cfg.numMessages.toNat := count.trans (Nat.zero_add _)
  have few := addIds_length_le msgs
  have ids : addIds msgs = upTo (addIds msgs).length := made.sent.ids
  have sequences : msgs.map FeedMessage.sequence = upTo msgs.length := made.sent.sequences
  refine ⟨length, made.sent.valid, ?_, ids, ?_, made.sent.priced, made.sent.cancels⟩
  · exact sequences.trans (by rw [length])
  · change (addIds msgs).Nodup
    rw [ids]
    exact nodup_upTo (by omega)

/-- A source that always draws the lower bound. -/
def lowest : RandomSource Unit where
  seeded _ := ()
  unit rng := (0.5, rng)
  uniformUInt32 low _ rng := (low, rng)
  uniformInt32 low _ rng := (low, rng)
  uniformSize low _ rng := (low, rng)
  uInt32_between low _ _ ordered := ⟨UInt32.le_refl low, ordered⟩
  int32_between low _ _ ordered := ⟨Int32.le_refl low, ordered⟩
  size_between low _ _ ordered := ⟨UInt64.le_refl low, ordered⟩

/-- The default configuration is one of those. -/
theorem generated_feed_default :
    ∃ msgs after, generate lowest (create lowest {}) = .ok (msgs, after) ∧
      msgs.length = 1000000 ∧ (∀ m ∈ msgs, isValidFeedMessage m = true) ∧ CancelsOnce msgs := by
  obtain ⟨msgs, after, generated, length, valid, _, _, _, _, cancels⟩ :=
    generated_feed lowest {} () (by decide) (by decide) (by decide) (by decide)
  exact ⟨msgs, after, generated, length, valid, cancels⟩

/-- One message more than a vector can hold. -/
def overlong : FeedConfig := { numMessages := 230584300921369396 }

theorem generated_feed_refused :
    1 ≤ overlong.maxQty ∧ overlong.priceBand < overlong.midPrice ∧
      overlong.midPrice.toNat + overlong.priceBand.toNat < 2 ^ 31 ∧
      generate lowest (create lowest overlong) = .error (.thrown lengthError) :=
  ⟨by decide, by decide, by decide, generate_long lowest (by decide)⟩

end FeedGenerator

end ChronoBook
