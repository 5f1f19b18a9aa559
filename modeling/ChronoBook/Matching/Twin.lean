import ChronoBook.Core.Renaming
import ChronoBook.Matching.FeedRun

/-! Two engines in step. The second is the first in slots of other names, and its
free list may go on where that of the first ends. What an engine does depends on
neither, as long as the first does not run out of slots before the second. -/

namespace ChronoBook
open Library Library.Linked

theorem PriceLevel.rename_decreaseTotalQty (name : Slot → Slot) (level : PriceLevel) (qty : UInt32) :
    (level.rename name).decreaseTotalQty qty = (level.decreaseTotalQty qty).rename name := by
  unfold PriceLevel.decreaseTotalQty
  change (if qty.toUInt64 > level.totalQty then _ else _) = _
  split <;> rfl

/-- A trade takes the same quantity off the level in either book. -/
theorem OrderBook.rename_decreased (book : OrderBook) (name : Slot → Slot) (side : Side) (price qty : UInt32) :
    (book.rename name).withSide side
        (((book.rename name).levels side).modify price (fun level => level.decreaseTotalQty qty))
        (book.rename name).orderMap =
      (book.withSide side ((book.levels side).modify price (fun level => level.decreaseTotalQty qty))
        book.orderMap).rename name := by
  have values := SortedMap.mapValues_modify (book.levels side) (PriceLevel.rename name) price
    (fun level => level.decreaseTotalQty qty) (fun level => level.decreaseTotalQty qty)
    (fun level => level.rename_decreaseTotalQty name qty)
  rw [rename_withSide, rename_levels, values]
  rfl

namespace MatchingEngine

/-- Different slots have different names, and the extra slots have no name. -/
structure Naming (name : Slot → Slot) (extra : List Slot) : Prop where
  distinct : Function.Injective name
  apart : ∀ slot, name slot ∉ extra

structure Twin (name : Slot → Slot) (extra free : List Slot) (engine engine' : MatchingEngine) : Prop where
  book : engine'.book = engine.book.rename name
  fills : engine'.fills = engine.fills
  currentSeq : engine'.currentSeq = engine.currentSeq
  chain : Chained (fun slot => (engine.order slot).next) engine.pool.freeHead free
  chain' : Chained (fun slot => (engine'.order slot).next) engine'.pool.freeHead (free.map name ++ extra)
  copies : Copies name (fun slot => slot ∉ free) engine.pool.slab engine'.pool.slab

def Turn.rename (name : Slot → Slot) : Turn → Turn
  | .leave => .leave
  | .trade level restPrice => .trade (level.rename name) restPrice

/-- The same book in other slots: the levels and the map of ids, and the order behind every id. -/
structure SameBook (name : Slot → Slot) (engine engine' : MatchingEngine) : Prop where
  book : engine'.book = engine.book.rename name
  orders : ∀ id slot, engine.book.orderMap id = some slot → engine'.order (name slot) = (engine.order slot).rename name

variable {name : Slot → Slot} {extra free others : List Slot} {engine engine' : MatchingEngine} {queues : Queues}
  {slot incoming resting : Slot}

theorem Naming.outside (naming : Naming name extra) (held : slot ∉ free) : name slot ∉ free.map name ++ extra := by
  rw [List.mem_append, List.mem_map]
  rintro (⟨other, isFree, same⟩ | inExtra)
  · exact held (naming.distinct same ▸ isFree)
  · exact naming.apart slot inExtra

/-- A link to a slot in use does not lead into the free list. -/
theorem Naming.avoids (naming : Naming name extra) {link : Option Slot} (held : ∀ target, link = some target → target ∉ free)
    {other : Slot} (isFree : other ∈ free.map name ++ extra) : link.map name ≠ some other := by
  intro leads
  obtain ⟨target, isTarget, same⟩ := Option.map_eq_some_iff.mp leads
  exact naming.outside (held target isTarget) (same ▸ isFree)

namespace Sound

theorem held (sound : engine.Sound queues free others) (member : slot ∈ engine.book.slots queues) : slot ∉ free :=
  fun isFree => (sound.free_outside isFree).1 member

theorem held_other (sound : engine.Sound queues free others) (member : slot ∈ others) : slot ∉ free :=
  fun isFree => (sound.free_outside isFree).2 member

theorem level_held (sound : engine.Sound queues free others) {side : Side} {price : UInt32} {level : PriceLevel}
    (found : (engine.book.levels side).find? price = some level) :
    (∀ target, level.head = some target → target ∉ free) ∧ ∀ target, level.tail = some target → target ∉ free := by
  have holds := (sound.laid.level side price level found).1
  constructor
  · intro target isHead
    rw [holds.head_eq] at isHead
    exact sound.held (sound.laid.mem_slots_of_mem (List.mem_of_mem_head? isHead))
  · intro target isTail
    rw [holds.tail_eq] at isTail
    exact sound.held (sound.laid.mem_slots_of_mem (List.mem_of_mem_getLast? isTail))

theorem neighbours_held (sound : engine.Sound queues free others) (member : slot ∈ engine.book.slots queues) :
    (∀ target, (engine.order slot).prev = some target → target ∉ free) ∧
      ∀ target, (engine.order slot).next = some target → target ∉ free := by
  have queued := sound.laid.mem_slots.mp member
  cases found : (engine.book.levels (engine.pool.slab slot).side).find? (engine.pool.slab slot).price with
  | none =>
    rw [sound.laid.absent _ _ found] at queued
    cases queued
  | some level =>
    have holds := (sound.laid.level _ _ level found).1
    constructor
    · intro target link
      exact sound.held (sound.laid.mem_slots_of_mem (holds.prev_mem queued link))
    · intro target link
      exact sound.held (sound.laid.mem_slots_of_mem (holds.next_mem queued link))

end Sound

namespace Twin

theorem sound_free (twin : Twin name extra free engine engine') {free' : List Slot}
    (sound : engine.Sound queues free' others) : Twin name extra free' engine engine' := by
  have same : free = free' := twin.chain.unique sound.pool.chain
  rw [← same]
  exact twin

theorem sameBook (twin : Twin name extra free engine engine') (sound : engine.Sound queues free others) :
    SameBook name engine engine' := by
  refine ⟨twin.book, ?_⟩
  intro id slot mapped
  exact twin.copies slot (sound.held (sound.laid.orderMap_eq_some.mp mapped).2)

theorem field (twin : Twin name extra free engine engine') (held : slot ∉ free) {β : Type} (read : Order → β)
    (linkFree : ∀ order, read (order.rename name) = read order) :
    read (engine'.order (name slot)) = read (engine.order slot) :=
  twin.copies.field held read linkFree

/-- Writes to slots in use, and the same writes to their namesakes: the free lists stay. -/
theorem carry (twin : Twin name extra free engine engine') {next next' : MatchingEngine}
    (book : next'.book = next.book.rename name) (fills : next'.fills = next.fills)
    (currentSeq : next'.currentSeq = next.currentSeq)
    (head : next.pool.freeHead = engine.pool.freeHead) (head' : next'.pool.freeHead = engine'.pool.freeHead)
    (copies : Copies name (fun slot => slot ∉ free) next.pool.slab next'.pool.slab)
    (same : ∀ slot ∈ free, next.order slot = engine.order slot)
    (same' : ∀ slot ∈ free.map name ++ extra, next'.order slot = engine'.order slot) :
    Twin name extra free next next' where
  book := book
  fills := fills
  currentSeq := currentSeq
  chain := by
    rw [head]
    exact twin.chain.congr (fun other isFree => congrArg Order.next (same other isFree))
  chain' := by
    rw [head']
    exact twin.chain'.congr (fun other isFree => congrArg Order.next (same' other isFree))
  copies := copies

theorem acquire (naming : Naming name extra) (twin : Twin name extra (slot :: free) engine engine') (fresh : slot ∉ free)
    {object : Order} (linkFree : object.rename name = object) :
    ∃ pool pool', engine.pool.allocate object = some (slot, pool) ∧
      engine'.pool.allocate object = some (name slot, pool') ∧
      Twin name extra free { engine with pool := pool } { engine' with pool := pool' } := by
  obtain ⟨pool, granted, chain, slab, _⟩ := SlabPool.allocate_chain twin.chain fresh object
  obtain ⟨pool', granted', chain', slab', _⟩ := SlabPool.allocate_chain twin.chain' (naming.outside fresh) object
  refine ⟨pool, pool', granted, granted', ⟨twin.book, twin.fills, twin.currentSeq, chain, chain', ?_⟩⟩
  change Copies name _ pool.slab pool'.slab
  rw [slab, slab']
  intro other held
  by_cases same : other = slot
  · rw [same, Function.update_self, Function.update_self, linkFree]
  · rw [Function.update_of_ne same, Function.update_of_ne (fun named => same (naming.distinct named))]
    exact twin.copies other (by simp [same, held])

theorem release (naming : Naming name extra) (twin : Twin name extra free engine engine') (held : slot ∉ free) :
    Twin name extra (slot :: free) (engine.free slot) (engine'.free (name slot)) := by
  refine ⟨twin.book, twin.fills, twin.currentSeq, SlabPool.deallocate_chain twin.chain held,
    SlabPool.deallocate_chain twin.chain' (naming.outside held), ?_⟩
  intro other outside
  rw [List.mem_cons, not_or] at outside
  change (engine'.pool.deallocate (some (name slot))).slab (name other) =
    ((engine.pool.deallocate (some slot)).slab other).rename name
  rw [SlabPool.Valid.deallocate_slab _ outside.1,
    SlabPool.Valid.deallocate_slab _ (fun named => outside.1 (naming.distinct named))]
  exact twin.copies other outside.2

theorem addOrder (naming : Naming name extra) (twin : Twin name extra free engine engine')
    (sound : engine.Sound queues free others) (held : slot ∉ free) {added : Bool} {book : OrderBook} {memory : Memory}
    (result : engine.book.addOrder engine.pool.slab (some slot) = (added, book, memory)) :
    ∃ memory', engine'.book.addOrder engine'.pool.slab (some (name slot)) = (added, book.rename name, memory') ∧
      Twin name extra free { engine.setMemory memory with book := book }
        { engine'.setMemory memory' with book := book.rename name } := by
  have copy := twin.copies slot held
  obtain ⟨same, renamed, copies⟩ := engine.book.addOrder_rename twin.copies naming.distinct held
  rw [result] at same renamed copies
  refine ⟨(engine'.book.addOrder engine'.pool.slab (some (name slot))).2.2, ?_, ?_⟩
  · rw [twin.book]
    exact Prod.ext same (Prod.ext renamed rfl)
  · rw [twin.book]
    refine twin.carry rfl twin.fills twin.currentSeq rfl rfl copies ?_ ?_
    · intro other isFree
      have frame : (engine.book.addOrder engine.pool.slab (some slot)).2.2 other = engine.pool.slab other :=
        engine.book.addOrder_frame engine.pool.slab (fun same => held (same ▸ isFree))
          (fun level found isTail => (sound.level_held found).2 other isTail isFree)
      rw [result] at frame
      exact frame
    · intro other isFree
      refine OrderBook.addOrder_frame _ _ (fun same => naming.outside held (same ▸ isFree)) ?_
      intro level found isTail
      rw [copy, OrderBook.rename_levels, SortedMap.find?_mapValues] at found
      obtain ⟨original, foundOriginal, rfl⟩ := Option.map_eq_some_iff.mp found
      exact naming.avoids (sound.level_held foundOriginal).2 isFree isTail

theorem removeOrder (naming : Naming name extra) (twin : Twin name extra free engine engine')
    (sound : engine.Sound queues free others) (member : slot ∈ engine.book.slots queues) {book : OrderBook}
    {memory : Memory} (result : engine.book.removeOrder engine.pool.slab (some slot) = (book, memory)) :
    ∃ memory', engine'.book.removeOrder engine'.pool.slab (some (name slot)) = (book.rename name, memory') ∧
      Twin name extra free { engine.setMemory memory with book := book }
        { engine'.setMemory memory' with book := book.rename name } := by
  have held := sound.held member
  have copy := twin.copies slot held
  have near := sound.neighbours_held member
  obtain ⟨renamed, copies⟩ := engine.book.removeOrder_rename twin.copies naming.distinct held
  rw [result] at renamed copies
  refine ⟨(engine'.book.removeOrder engine'.pool.slab (some (name slot))).2, ?_, ?_⟩
  · rw [twin.book]
    exact Prod.ext renamed rfl
  · rw [twin.book]
    refine twin.carry rfl twin.fills twin.currentSeq rfl rfl copies ?_ ?_
    · intro other isFree
      have frame : (engine.book.removeOrder engine.pool.slab (some slot)).2 other = engine.pool.slab other :=
        engine.book.removeOrder_frame engine.pool.slab (fun same => held (same ▸ isFree))
          (fun link => near.1 other link isFree) (fun link => near.2 other link isFree)
      rw [result] at frame
      exact frame
    · intro other isFree
      refine OrderBook.removeOrder_frame _ _ (fun same => naming.outside held (same ▸ isFree)) ?_ ?_
      · rw [copy]
        exact naming.avoids near.1 isFree
      · rw [copy]
        exact naming.avoids near.2 isFree

theorem traded (naming : Naming name extra) (twin : Twin name extra free engine engine')
    (incomingHeld : incoming ∉ free) (restingHeld : resting ∉ free) (apart : resting ≠ incoming) (qty : UInt32) :
    Twin name extra free (engine.traded resting incoming qty) (engine'.traded (name resting) (name incoming) qty) := by
  have apart' : name resting ≠ name incoming := fun named => apart (naming.distinct named)
  have maker := twin.field restingHeld Order.resting (fun _ => rfl)
  have taker := twin.field incomingHeld Order.resting (fun _ => rfl)
  refine twin.carry ?_ ?_ twin.currentSeq rfl rfl ?_ ?_ ?_
  · have side : (engine'.order (name incoming)).side = (engine.order incoming).side := congrArg Resting.side taker
    have price : (engine'.order (name resting)).price = (engine.order resting).price := congrArg Resting.price maker
    unfold MatchingEngine.traded
    dsimp only
    rw [side, price, twin.book]
    exact engine.book.rename_decreased name _ _ qty
  · have fills := executeTrade_fills engine apart qty
    have fills' := executeTrade_fills engine' apart' qty
    rw [maker, taker, twin.currentSeq, twin.fills] at fills'
    exact fills'.trans fills.symm
  · have first := twin.copies.modify naming.distinct resting (fun object => object.fill qty)
      (fun object => object.fill qty) (fun _ => rfl)
    exact first.modify naming.distinct incoming (fun object => object.fill qty)
      (fun object => object.fill qty) (fun _ => rfl)
  · intro other isFree
    exact traded_untouched engine apart qty (fun same => incomingHeld (same ▸ isFree))
      (fun same => restingHeld (same ▸ isFree))
  · intro other isFree
    exact traded_untouched engine' apart' qty (fun same => naming.outside incomingHeld (same ▸ isFree))
      (fun same => naming.outside restingHeld (same ▸ isFree))

theorem nextTurn (twin : Twin name extra free engine engine') (held : incoming ∉ free) (respectPrice : Bool) :
    engine'.nextTurn (name incoming) respectPrice = (engine.nextTurn incoming respectPrice).rename name := by
  have copy : engine'.order (name incoming) = (engine.order incoming).rename name := twin.copies incoming held
  have best : ∀ side, engine'.book.bestPrice side = engine.book.bestPrice side := by
    intro side
    unfold OrderBook.bestPrice
    rw [twin.book, OrderBook.rename_levels, SortedMap.keys_mapValues]
  have level : ∀ side price, (engine'.book.levels side).find? price =
      ((engine.book.levels side).find? price).map (PriceLevel.rename name) := by
    intro side price
    rw [twin.book, OrderBook.rename_levels, SortedMap.find?_mapValues]
  unfold MatchingEngine.nextTurn
  simp only [bestPrice_eq, level_eq, best, copy, level]
  change (if (engine.order incoming).isFilled then _ else _) = _
  split
  · rfl
  change (if engine.book.bestPrice (engine.order incoming).side.opposite = 0 then _ else _) = _
  split
  · rfl
  cases found : (engine.book.levels (engine.order incoming).side.opposite).find?
      (engine.book.bestPrice (engine.order incoming).side.opposite) with
  | none =>
    simp only [Order.rename, found]
    rfl
  | some level =>
    simp only [Order.rename, found, Option.map_some]
    symm
    apply apply_ite (Turn.rename name)

theorem tradeTurn (naming : Naming name extra) (twin : Twin name extra free engine engine')
    (matching : engine.Matching queues free incoming others) {rest : List Slot} {level : PriceLevel}
    (slots : engine.book.sideSlots queues (engine.order incoming).side.opposite = resting :: rest)
    (front : level.front = some resting) {last : MatchingEngine}
    (result : engine.tradeTurn incoming level (engine.order resting).price = some last) :
    ∃ last' free', engine'.tradeTurn (name incoming) (level.rename name) (engine.order resting).price = some last' ∧
      Twin name extra free' last last' := by
  have member : resting ∈ engine.book.sideSlots queues (engine.order incoming).side.opposite := by simp [slots]
  have inBook := OrderBook.Laid.mem_slots_of_mem_side member
  have incomingHeld := matching.sound.held_other (show incoming ∈ incoming :: others by simp)
  have restingHeld := matching.sound.held inBook
  have apart : resting ≠ incoming := fun same => matching.sound.others_outside (by simp) (same ▸ inBook)
  have apart' : name resting ≠ name incoming := fun named => apart (naming.distinct named)
  have front' : (level.rename name).front = some (name resting) := by
    change level.head.map name = some (name resting)
    change level.head = some resting at front
    rw [front, Option.map_some]
  have price : (engine'.order (name resting)).price = (engine.order resting).price :=
    twin.field restingHeld Order.price (fun _ => rfl)
  have taker : (engine'.order (name incoming)).remainingQty = (engine.order incoming).remainingQty :=
    twin.field incomingHeld Order.remainingQty (fun _ => rfl)
  have maker : (engine'.order (name resting)).remainingQty = (engine.order resting).remainingQty :=
    twin.field restingHeld Order.remainingQty (fun _ => rfl)
  have turn' := tradeTurn_eq engine' apart' front'
  rw [price, taker, maker] at turn'
  rw [turn']
  rw [tradeTurn_eq engine apart front] at result
  have available := least_le_right (engine.order incoming).remainingQty (engine.order resting).remainingQty
  generalize min (engine.order incoming).remainingQty (engine.order resting).remainingQty = qty at *
  have sound := matching.sound.traded member available
  have after := twin.traded naming incomingHeld restingHeld apart qty
  have filled := after.field restingHeld Order.isFilled (fun _ => rfl)
  rcases removed : (engine.traded resting incoming qty).book.removeOrder (engine.traded resting incoming qty).pool.slab
    (some resting) with ⟨book, memory⟩
  obtain ⟨memory', removed', out⟩ := after.removeOrder naming sound (by rw [traded_slots]; exact inBook) removed
  simp only [removed] at result
  simp only [removed', filled]
  split at result
  next isFilled =>
    cases result
    rw [if_pos isFilled]
    exact ⟨_, resting :: free, rfl, out.release naming restingHeld⟩
  next isOpen =>
    cases result
    rw [if_neg isOpen]
    exact ⟨_, free, rfl, after⟩

theorem matchLoop (naming : Naming name extra) (respectPrice : Bool) (turns : Nat) :
    ∀ {engine engine' last : MatchingEngine} {queues : Queues} {free : List Slot},
      engine.Matching queues free incoming others → Twin name extra free engine engine' →
      engine.matchLoop incoming respectPrice turns = some last →
      ∃ last' free', engine'.matchLoop (name incoming) respectPrice turns = some last' ∧
        Twin name extra free' last last' := by
  induction turns with
  | zero =>
    intro _ _ _ _ _ _ _ result
    cases result
  | succ turns ih =>
    intro engine engine' last queues free matching twin result
    have held := matching.sound.held_other (show incoming ∈ incoming :: others by simp)
    have same := twin.nextTurn held respectPrice
    rw [MatchingEngine.matchLoop] at result ⊢
    rw [same]
    cases decides : engine.nextTurn incoming respectPrice with
    | leave =>
      rw [decides] at result
      cases result
      exact ⟨engine', free, rfl, twin⟩
    | trade level restPrice =>
      obtain ⟨resting, rest, units, slots, accepted, front, rfl⟩ := matching.trading decides
      obtain ⟨level₁, engine₁, queues₁, free₁, decides₁, turn, matching₁, _⟩ := matching.turn units slots accepted
      rw [decides] at decides₁ result
      cases decides₁
      obtain ⟨engine₁', free₂, turn', twin₁⟩ := twin.tradeTurn naming matching slots front turn
      simp only [turn, Option.bind_some] at result
      simp only [Turn.rename, turn', Option.bind_some]
      exact ih matching₁ (twin₁.sound_free matching₁.sound) result

theorem matchOneSide (naming : Naming name extra) (twin : Twin name extra free engine engine')
    (matching : engine.Matching queues free incoming others) {respectPrice : Bool} {last : MatchingEngine}
    (result : engine.matchOneSide incoming respectPrice = some last) :
    ∃ last' free', engine'.matchOneSide (name incoming) respectPrice = some last' ∧
      Twin name extra free' last last' := by
  have held := matching.sound.held_other (show incoming ∈ incoming :: others by simp)
  have units : (engine'.order (name incoming)).remainingQty = (engine.order incoming).remainingQty :=
    twin.field held Order.remainingQty (fun _ => rfl)
  unfold MatchingEngine.matchOneSide at result ⊢
  rw [units]
  exact matchLoop naming respectPrice _ matching twin result

/-- What the order may be when it is handed to the engine. -/
structure Ready (engine : MatchingEngine) (queues : Queues) (free others : List Slot) (slot : Slot) : Prop where
  sound : engine.Sound queues free (slot :: others)
  bounded : (engine.order slot).filledQty ≤ (engine.order slot).qty
  opened : ∀ side, ∀ maker ∈ engine.ladder queues side, maker.filledQty < maker.qty

theorem matchLimit (naming : Naming name extra) (twin : Twin name extra free engine engine')
    (ready : Ready engine queues free others slot) (limit : (engine.order slot).type = .LIMIT) {last : MatchingEngine}
    (result : engine.matchLimit slot = some last) :
    ∃ last' free', engine'.matchLimit (name slot) = some last' ∧ Twin name extra free' last last' := by
  obtain ⟨engine₁, queues₁, free₁, loop, swept⟩ :=
    ready.sound.matchOneSide ready.bounded ready.opened true (by simp [limit])
  obtain ⟨engine₁', free₂, loop', twin₂⟩ :=
    twin.matchOneSide naming (ready.sound.matching ready.bounded ready.opened) loop
  have twin₁ := twin₂.sound_free swept.sound
  have held := swept.sound.held_other (show slot ∈ slot :: others by simp)
  have filled : (engine₁'.order (name slot)).isFilled = (engine₁.order slot).isFilled :=
    twin₁.field held Order.isFilled (fun _ => rfl)
  unfold MatchingEngine.matchLimit at result ⊢
  simp only [loop, loop', Option.bind_eq_bind, Option.bind_some, filled] at result ⊢
  rcases placed : engine₁.book.addOrder engine₁.pool.slab (some slot) with ⟨added, book, memory⟩
  obtain ⟨memory', placed', after⟩ := twin₁.addOrder naming swept.sound held placed
  simp only [placed] at result
  simp only [placed']
  split at result
  next isOpen =>
    rw [if_pos isOpen]
    split at result
    next refused =>
      cases result
      rw [if_pos refused]
      exact ⟨_, slot :: free₁, rfl, after.release naming held⟩
    next accepted =>
      cases result
      rw [if_neg accepted]
      exact ⟨_, free₁, rfl, after⟩
  next isFilled =>
    cases result
    rw [if_neg isFilled]
    exact ⟨_, slot :: free₁, rfl, twin₁.release naming held⟩

/-- A MARKET or IOC order is given back after the loop, whatever is left of it. -/
theorem matchAndFree (naming : Naming name extra) (twin : Twin name extra free engine engine')
    (ready : Ready engine queues free others slot) {respectPrice : Bool}
    (kind : respectPrice = true ↔ (engine.order slot).type ≠ .MARKET) {last : MatchingEngine}
    (result : (engine.matchOneSide slot respectPrice).map (fun engine => engine.free slot) = some last) :
    ∃ last' free', (engine'.matchOneSide (name slot) respectPrice).map (fun engine => engine.free (name slot)) = some last' ∧
      Twin name extra free' last last' := by
  obtain ⟨engine₁, queues₁, free₁, loop, swept⟩ :=
    ready.sound.matchOneSide ready.bounded ready.opened respectPrice kind
  obtain ⟨engine₁', free₂, loop', twin₂⟩ :=
    twin.matchOneSide naming (ready.sound.matching ready.bounded ready.opened) loop
  have held := swept.sound.held_other (show slot ∈ slot :: others by simp)
  rw [loop, Option.map_some] at result
  cases result
  rw [loop', Option.map_some]
  exact ⟨_, slot :: free₁, rfl, (twin₂.sound_free swept.sound).release naming held⟩

theorem processOrder (naming : Naming name extra) (twin : Twin name extra free engine engine')
    (ready : Ready engine queues free others slot) (seq : UInt64) {last : MatchingEngine}
    (result : engine.processOrder (some slot) seq = some last) :
    ∃ last' free', engine'.processOrder (some (name slot)) seq = some last' ∧ Twin name extra free' last last' := by
  have held := ready.sound.held_other (show slot ∈ slot :: others by simp)
  have id : (engine'.order (name slot)).orderId = (engine.order slot).orderId :=
    twin.field held Order.orderId (fun _ => rfl)
  have type : (engine'.order (name slot)).type = (engine.order slot).type := twin.field held Order.type (fun _ => rfl)
  have contains : engine'.book.containsOrder (engine'.order (name slot)).orderId =
      engine.book.containsOrder (engine.order slot).orderId := by
    rw [id, twin.book]
    exact Option.isSome_map
  have stamped : Twin name extra free { engine with currentSeq := seq } { engine' with currentSeq := seq } :=
    ⟨twin.book, twin.fills, rfl, twin.chain, twin.chain', twin.copies⟩
  have readied : Ready { engine with currentSeq := seq } queues free others slot :=
    ⟨ready.sound.withSeq seq, ready.bounded, ready.opened⟩
  by_cases present : engine.book.containsOrder (engine.order slot).orderId = true
  · rw [processOrder_present present] at result
    cases result
    rw [processOrder_present (contains.trans present)]
    exact ⟨_, slot :: free, rfl, twin.release naming held⟩
  rw [processOrder_absent present] at result
  rw [processOrder_absent (fun found => present (contains.symm.trans found)), type]
  cases kind : (engine.order slot).type with
  | LIMIT =>
    rw [kind] at result
    exact stamped.matchLimit naming readied kind result
  | MARKET =>
    rw [kind] at result
    have market : (({ engine with currentSeq := seq } : MatchingEngine).order slot).type = .MARKET := kind
    exact stamped.matchAndFree naming readied (by simp [market]) result
  | IOC =>
    rw [kind] at result
    have ioc : (({ engine with currentSeq := seq } : MatchingEngine).order slot).type = .IOC := kind
    exact stamped.matchAndFree naming readied (by simp [ioc]) result

theorem unlink (naming : Naming name extra) (twin : Twin name extra free engine engine')
    (sound : engine.Sound queues free others) {id : UInt64} {found : Option Slot} {book : OrderBook} {memory : Memory}
    (result : engine.book.cancelOrder engine.pool.slab id = (found, book, memory)) :
    ∃ memory', engine'.book.cancelOrder engine'.pool.slab id = (found.map name, book.rename name, memory') ∧
      Twin name extra free { engine.setMemory memory with book := book }
        { engine'.setMemory memory' with book := book.rename name } ∧
      ∀ slot, found = some slot → slot ∉ free := by
  have mapped : engine'.book.orderMap id = (engine.book.orderMap id).map name := by
    rw [twin.book]
    rfl
  unfold OrderBook.cancelOrder at result ⊢
  rw [mapped]
  cases entry : engine.book.orderMap id with
  | none =>
    rw [entry] at result
    cases result
    refine ⟨engine'.pool.slab, ?_, ?_, by simp⟩
    · simp [twin.book]
    · rw [← twin.book]
      exact twin
  | some slot =>
    rw [entry] at result
    have member := (sound.laid.orderMap_eq_some.mp entry).2
    rcases removed : engine.book.removeOrder engine.pool.slab (some slot) with ⟨book₁, memory₁⟩
    simp only [removed] at result
    cases result
    obtain ⟨memory', removed', out⟩ := twin.removeOrder naming sound member removed
    refine ⟨memory', ?_, out, ?_⟩
    · simp [removed']
    · intro other same
      cases same
      exact sound.held member

theorem cancelOrder (naming : Naming name extra) (twin : Twin name extra free engine engine')
    (sound : engine.Sound queues free others) {id : UInt64} {found : Bool} {last : MatchingEngine}
    (result : engine.cancelOrder id = (found, last)) :
    ∃ last' free', engine'.cancelOrder id = (found, last') ∧ Twin name extra free' last last' := by
  rcases unlinked : engine.book.cancelOrder engine.pool.slab id with ⟨entry, book, memory⟩
  obtain ⟨memory', unlinked', out, held⟩ := twin.unlink naming sound unlinked
  unfold MatchingEngine.cancelOrder at result ⊢
  simp only [unlinked] at result
  simp only [unlinked']
  cases entry with
  | none =>
    cases result
    exact ⟨_, free, rfl, out⟩
  | some slot =>
    cases result
    exact ⟨_, slot :: free, rfl, out.release naming (held slot rfl)⟩

theorem rewritten (naming : Naming name extra) (twin : Twin name extra free engine engine') (held : slot ∉ free)
    (newPrice newQty : UInt32) :
    Twin name extra free (engine.rewritten slot newPrice newQty) (engine'.rewritten (name slot) newPrice newQty) := by
  refine twin.carry twin.book twin.fills twin.currentSeq rfl rfl ?_ ?_ ?_
  · let change (object : Order) : Order :=
      { object with price := newPrice, qty := newQty, filledQty := 0, type := .LIMIT }
    exact twin.copies.modify naming.distinct slot change change (fun _ => rfl)
  · intro other isFree
    have different : other ≠ slot := fun same => held (same ▸ isFree)
    exact rewritten_other engine newPrice newQty different
  · intro other isFree
    have different : other ≠ name slot := fun same => naming.outside held (same ▸ isFree)
    exact rewritten_other engine' newPrice newQty different

theorem presented (naming : Naming name extra) (twin : Twin name extra free engine engine')
    (sound : engine.Sound queues free others) {m : FeedMessage} {engine₁ : MatchingEngine}
    (given : engine.presented m = some (engine₁, slot)) :
    ∃ engine₁' free₁, engine'.presented m = some (engine₁', name slot) ∧ Twin name extra free₁ engine₁ engine₁' := by
  by_cases add : m.msgType = MsgType.ADD.byte
  · cases free with
    | nil =>
      have empty : engine.pool.freeHead = none := twin.chain
      simp [MatchingEngine.presented, add, SlabPool.allocate, empty] at given
    | cons first rest =>
      have fresh : first ∉ rest := (List.nodup_cons.mp (List.nodup_append.mp sound.pool.nodup).1).1
      obtain ⟨pool, pool', granted, granted', after⟩ := twin.acquire naming fresh (show m.order.rename name = m.order from rfl)
      rw [presented_add add granted] at given
      cases given
      exact ⟨_, rest, presented_add add granted', after⟩
  unfold MatchingEngine.presented at given ⊢
  rw [if_neg add] at given ⊢
  by_cases cancel : m.msgType = MsgType.CANCEL.byte
  · rw [if_pos cancel] at given
    cases given
  rw [if_neg cancel] at given ⊢
  rcases result : engine.book.cancelOrder engine.pool.slab m.orderId with ⟨found, book, memory⟩
  obtain ⟨memory', result', out, held⟩ := twin.unlink naming sound result
  simp only [result] at given
  obtain ⟨target, isFound, same⟩ := Option.map_eq_some_iff.mp given
  cases same
  simp only [result', isFound, Option.map_some]
  exact ⟨_, free, rfl, out.rewritten naming (held slot isFound) m.price m.qty⟩

/-- A message without an order to match: a CANCEL, a MODIFY of an unknown id, or an ADD on an exhausted pool. -/
theorem unpresented (naming : Naming name extra) (twin : Twin name extra free engine engine')
    (steady : engine.Steady queues free others) {m : FeedMessage} (valid : isValidFeedMessage m = true)
    (room : m.msgType = MsgType.ADD.byte → free = [] → extra = []) (given : engine.presented m = none)
    {handling : Handling} {last : MatchingEngine} (result : engine.dispatch m = some (handling, last)) :
    ∃ last' free', engine'.dispatch m = some (handling, last') ∧ Twin name extra free' last last' := by
  unfold MatchingEngine.presented at given
  unfold MatchingEngine.dispatch at result ⊢
  cases accepted_of_valid valid with
  | add kind _ _ =>
    rw [if_pos kind] at given result ⊢
    have refused := Option.map_eq_none_iff.mp given
    have empty : free = [] := by
      cases free with
      | nil => rfl
      | cons first rest =>
        obtain ⟨_, granted, _⟩ := steady.sound.acquire m.order
        rw [granted] at refused
        cases refused
    have empty' : engine'.pool.freeHead = none := by
      rw [twin.chain'.start_eq, empty, room kind empty]
      rfl
    have refused' : engine'.pool.allocate m.order = none := by simp only [SlabPool.allocate, empty']
    rw [refused] at result
    cases result
    rw [refused']
    exact ⟨engine', free, rfl, twin⟩
  | cancel kind =>
    have notAdd : m.msgType ≠ MsgType.ADD.byte := by rw [kind]; decide
    rw [if_neg notAdd, if_pos kind] at result ⊢
    rcases cancelled : engine.cancelOrder m.orderId with ⟨found, after⟩
    obtain ⟨after', free', cancelled', twin'⟩ := twin.cancelOrder naming steady.sound cancelled
    rw [cancelled] at result
    cases result
    rw [cancelled']
    exact ⟨after', free', rfl, twin'⟩
  | modify kind _ _ =>
    have notAdd : m.msgType ≠ MsgType.ADD.byte := by rw [kind]; decide
    have notCancel : m.msgType ≠ MsgType.CANCEL.byte := by rw [kind]; decide
    rw [if_neg notAdd, if_neg notCancel] at given result ⊢
    rcases found : engine.book.cancelOrder engine.pool.slab m.orderId with ⟨entry, book, memory⟩
    obtain ⟨memory', found', out, _⟩ := twin.unlink naming steady.sound found
    simp only [found] at given
    have missing := Option.map_eq_none_iff.mp given
    subst missing
    unfold modifyOrder at result ⊢
    simp only [found] at result
    simp only [found', Option.map_none]
    cases result
    exact ⟨_, free, rfl, out⟩

/-- One message, as long as the first engine does not run out of slots before the second. -/
theorem dispatch (naming : Naming name extra) (twin : Twin name extra free engine engine')
    (steady : engine.Steady queues free others) {m : FeedMessage} (valid : isValidFeedMessage m = true)
    (room : m.msgType = MsgType.ADD.byte → free = [] → extra = []) {handling : Handling} {last : MatchingEngine}
    (result : engine.dispatch m = some (handling, last)) :
    ∃ last' free', engine'.dispatch m = some (handling, last') ∧ Twin name extra free' last last' := by
  cases given : engine.presented m with
  | some handed =>
    obtain ⟨engine₁, slot⟩ := handed
    obtain ⟨engine₁', free₁, given', after⟩ := twin.presented naming steady.sound given
    obtain ⟨queues₂, free₂, known⟩ := steady.presented valid given
    have ready : Ready engine₁ queues₂ free₂ others slot := by
      refine ⟨known.sound, ?_, ?_⟩
      · rw [known.unfilled]
        exact UInt32.zero_le
      · rw [known.ladder]
        exact (steady.wellFormed.cleared m).opened
    rw [dispatch_presented given] at result
    obtain ⟨last₁, processed, same⟩ := Option.map_eq_some_iff.mp result
    cases same
    obtain ⟨last', free', processed', twin'⟩ :=
      (after.sound_free known.sound).processOrder naming ready m.sequence processed
    refine ⟨last', free', ?_, twin'⟩
    rw [dispatch_presented given', processed', Option.map_some]
  | none => exact twin.unpresented naming steady valid room given result

theorem deliver (naming : Naming name extra) (twin : Twin name extra free engine engine')
    (idle : engine.Idle queues free others) {m : FeedMessage}
    (room : isValidFeedMessage m = true → m.msgType = MsgType.ADD.byte → free = [] → extra = []) {batch : List Fill}
    {last : MatchingEngine} (result : engine.deliver m = some (batch, last)) :
    ∃ last' free', engine'.deliver m = some (batch, last') ∧ Twin name extra free' last last' := by
  unfold MatchingEngine.deliver at result ⊢
  by_cases valid : isValidFeedMessage m = true
  · rw [if_pos valid] at result ⊢
    obtain ⟨⟨handling, after⟩, dispatched, same⟩ := Option.map_eq_some_iff.mp result
    cases same
    obtain ⟨after', free', dispatched', twin'⟩ := twin.dispatch naming idle.steady valid (room valid) dispatched
    refine ⟨{ after' with fills := [] }, free', ?_, ?_⟩
    · rw [dispatched', Option.map_some]
      simp [drainFills, twin'.fills]
    · exact ⟨twin'.book, rfl, twin'.currentSeq, twin'.chain, twin'.chain', twin'.copies⟩
  · rw [if_neg valid] at result ⊢
    cases result
    exact ⟨engine', free, rfl, twin⟩

theorem feed (naming : Naming name extra) (messages : List FeedMessage) :
    ∀ {engine engine' : MatchingEngine} {queues : Queues} {free : List Slot}, engine.Idle queues free others →
      Twin name extra free engine engine' → extra = [] ∨ engine.PoolSuffices messages →
      ∃ fills last last' queues' free', engine.feed messages = some (fills, last) ∧
        engine'.feed messages = some (fills, last') ∧ last.Idle queues' free' others ∧
        Twin name extra free' last last' := by
  induction messages with
  | nil =>
    intro engine engine' queues free idle twin _
    exact ⟨[], engine, engine', queues, free, rfl, rfl, idle, twin⟩
  | cons m later ih =>
    intro engine engine' queues free idle twin enough
    have room : isValidFeedMessage m = true → m.msgType = MsgType.ADD.byte → free = [] → extra = [] := by
      intro valid kind empty
      rcases enough with same | served
      · exact same
      · exact absurd (Or.inr ⟨kind, empty⟩) (idle.taken valid (fun _ => served.head valid kind))
    obtain ⟨batch, engine₁, queues₁, free₁, first, idle₁⟩ : ∃ batch engine₁ queues₁ free₁,
        engine.deliver m = some (batch, engine₁) ∧ engine₁.Idle queues₁ free₁ others := by
      rcases idle.deliver m with ⟨_, result⟩ | ⟨_, _, engine₁, queues₁, free₁, result, delivered⟩
      · exact ⟨_, engine, queues, free, result, idle⟩
      · exact ⟨_, engine₁, queues₁, free₁, result, delivered.idle⟩
    obtain ⟨engine₁', free₂, first', twin₁⟩ := twin.deliver naming idle room first
    obtain ⟨fills, last, last', queues', free', rest, rest', idle', twin'⟩ :=
      ih idle₁ (twin₁.sound_free idle₁.steady.sound) (enough.imp_right (fun served => served.tail first))
    refine ⟨batch ++ fills, last, last', queues', free', ?_, ?_, idle', twin'⟩
    · rw [feed_cons engine m later first, rest]
      rfl
    · rw [feed_cons engine' m later first', rest']
      rfl

end Twin

end MatchingEngine

end ChronoBook
