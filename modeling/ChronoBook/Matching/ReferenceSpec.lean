import ChronoBook.Library.Keyed
import ChronoBook.Matching.PriceTimeLaws
import ChronoBook.Matching.ReferenceMatcher

/-! The reference matcher refines the priority lists, as long as its vector is in
arrival order: the first of the best orders is then the oldest of them. -/

namespace ChronoBook
open Library Priority

def RestingOrder.resting (order : RestingOrder) : Resting :=
  ⟨order.orderId, order.symbolPacked, order.price, order.qty, order.filledQty, order.side⟩

/-- The same quantities as an order object, to use its arithmetic. -/
def RestingOrder.object (order : RestingOrder) : Order :=
  { orderId := order.orderId, symbolPacked := order.symbolPacked, price := order.price, qty := order.qty,
    filledQty := order.filledQty, side := order.side }

namespace ReferenceMatcher

/-- The orders of one side of the vector, in matching order. -/
def makers (book : List RestingOrder) (side : Side) : List Resting :=
  arrange side.Ahead Resting.price ((book.map RestingOrder.resting).filter (fun order => order.side = side))

def InArrivalOrder (book : List RestingOrder) : Prop :=
  book.Pairwise (fun first second => first.sequence ≤ second.sequence)

theorem betterPriceTime_later (side : Side) {first second : RestingOrder} (later : first.sequence ≤ second.sequence) :
    betterPriceTime side second first = decide (side.opposite.Ahead second.price first.price) := by
  unfold betterPriceTime
  by_cases same : second.price = first.price
  · have never : ¬second.sequence < first.sequence := UInt64.not_lt.mpr later
    have equal : ¬side.opposite.Ahead second.price first.price := by
      rw [same]
      exact irrefl_of side.opposite.Ahead first.price
    rw [if_neg (by simp [same]), decide_eq_false never, decide_eq_false equal]
  · rw [if_pos same]
    cases side <;> rfl

/-- The scan keeps the first of the best orders it does not skip. -/
theorem bestOpposite_eq {book : List RestingOrder} (arrivals : InArrivalOrder book) (side : Side) (price : UInt32)
    (type : OrderType) :
    bestOpposite book side price type =
      (arrange side.opposite.Ahead (fun it => it.1.price)
        (book.zipIdx.filter (fun it => !skips side price type it.1))).head? := by
  induction book using List.reverseRecOn with
  | nil => rfl
  | append_singleton book last ih =>
    unfold InArrivalOrder at arrivals
    rw [List.pairwise_append] at arrivals
    have step := ih arrivals.1
    unfold bestOpposite at step ⊢
    rw [List.zipIdx_append, List.foldl_append, step, List.filter_append]
    simp only [List.zipIdx_singleton, List.foldl_cons, List.foldl_nil]
    by_cases skipped : skips side price type last = true
    · rw [if_pos skipped, List.filter_cons_of_neg (by simp [skipped]), List.filter_nil, List.append_nil]
    · rw [if_neg skipped, List.filter_cons_of_pos (by simp [skipped]), List.filter_nil, arrange_append, head?_enqueue]
      cases head : (arrange side.opposite.Ahead (fun it : RestingOrder × Nat => it.1.price)
          (book.zipIdx.filter (fun it => !skips side price type it.1))).head? with
      | none => rfl
      | some chosen =>
        have member : chosen ∈ book.zipIdx :=
          List.mem_of_mem_filter (mem_arrange.mp (List.mem_of_head? head))
        have inBook : chosen.1 ∈ book := List.fst_mem_of_mem_zipIdx member
        have later := arrivals.2.2 chosen.1 inBook last List.mem_cons_self
        simp only [betterPriceTime_later side later, decide_eq_true_eq]

theorem bestOpposite_place {book : List RestingOrder} (arrivals : InArrivalOrder book) {side : Side} {price : UInt32}
    {type : OrderType} {best : RestingOrder} {place : Nat}
    (found : bestOpposite book side price type = some (best, place)) :
    book[place]? = some best ∧ skips side price type best = false := by
  rw [bestOpposite_eq arrivals] at found
  have member := mem_arrange.mp (List.mem_of_head? found)
  rw [List.mem_filter] at member
  exact ⟨List.mem_zipIdx_iff_getElem?.mp member.1, by simpa using member.2⟩

theorem map_filter_zipIdx {β : Type} (book : List RestingOrder) (keep : RestingOrder → Bool) (view : RestingOrder → β) :
    (book.zipIdx.filter (fun it => keep it.1)).map (fun it => view it.1) = (book.filter keep).map view := by
  calc (book.zipIdx.filter (fun it => keep it.1)).map (fun it => view it.1)
      = ((book.zipIdx.filter (keep ∘ Prod.fst)).map Prod.fst).map view := by
        rw [List.map_map]
        rfl
    _ = ((book.zipIdx.map Prod.fst).filter keep).map view := by rw [List.filter_map]
    _ = (book.filter keep).map view := by rw [List.zipIdx_map_fst]

/-- What the scan does not skip is the acceptable part of the opposite side. -/
theorem filter_skips {book : List RestingOrder} (opened : ∀ order ∈ book, order.filledQty < order.qty) (taker : Resting)
    (type : OrderType) :
    (book.filter (fun order => !skips taker.side taker.price type order)).map RestingOrder.resting =
      ((book.map RestingOrder.resting).filter (fun order => order.side = taker.side.opposite)).filter
        (fun maker => Ladder.accepts taker type maker.price) := by
  rw [List.filter_filter, List.filter_map]
  congr 1
  apply List.filter_congr
  intro order inside
  have units : order.remainingQty ≠ 0 := by
    have remaining := order.resting.remainingQty_toNat
    have less := UInt32.lt_iff_toNat_lt.mp (opened order inside)
    intro zero
    change order.remainingQty.toNat = order.qty.toNat - order.filledQty.toNat at remaining
    rw [zero, UInt32.toNat_zero] at remaining
    omega
  have otherSide : order.side = taker.side.opposite ↔ order.side ≠ taker.side := by
    cases order.side <;> cases taker.side <;> decide
  simp only [skips, Ladder.accepts, Function.comp, RestingOrder.resting, units, otherSide]
  by_cases market : type = .MARKET
  · simp [market]
  · simp [market, Bool.and_comm]

structure Tidy (book : List RestingOrder) : Prop where
  names : (book.map RestingOrder.orderId).Nodup
  arrivals : InArrivalOrder book
  opened : ∀ order ∈ book, order.filledQty < order.qty

theorem bestOpposite_resting {book : List RestingOrder} (tidy : Tidy book) (taker : Resting) (type : OrderType) :
    (bestOpposite book taker.side taker.price type).map (fun it => it.1.resting) =
      ((makers book taker.side.opposite).filter (fun maker => Ladder.accepts taker type maker.price)).head? := by
  have sameKey : ∀ it : RestingOrder × Nat, Resting.price it.1.resting = it.1.price := fun _ => rfl
  unfold makers
  rw [bestOpposite_eq tidy.arrivals, ← List.head?_map, map_arrange (fun it : RestingOrder × Nat => it.1.resting) sameKey,
    map_filter_zipIdx book (fun order => !skips taker.side taker.price type order) RestingOrder.resting,
    filter_skips tidy.opened, filter_arrange]

def terms (order : RestingOrder) : RestingOrder := { order with filledQty := 0 }

/-- Dropping orders, or filling some of them further, keeps the vector tidy. -/
theorem Tidy.shrink {book book' : List RestingOrder} (tidy : Tidy book)
    (sub : (book'.map terms).Sublist (book.map terms)) (opened : ∀ order ∈ book', order.filledQty < order.qty) :
    Tidy book' := by
  refine ⟨?_, ?_, opened⟩
  · have names : ∀ items : List RestingOrder,
        items.map RestingOrder.orderId = (items.map terms).map RestingOrder.orderId := by
      intro items
      rw [List.map_map]
      rfl
    have old := tidy.names
    rw [names] at old ⊢
    exact old.sublist (sub.map _)
  · have pairs : ∀ items : List RestingOrder, InArrivalOrder items ↔ InArrivalOrder (items.map terms) := by
      intro items
      unfold InArrivalOrder
      rw [List.pairwise_map]
      exact Iff.rfl
    have old := tidy.arrivals
    rw [pairs] at old ⊢
    unfold InArrivalOrder at old ⊢
    exact old.sublist sub

theorem Tidy.append {book : List RestingOrder} (tidy : Tidy book) {last : RestingOrder}
    (fresh : ∀ order ∈ book, order.orderId ≠ last.orderId) (past : ∀ order ∈ book, order.sequence ≤ last.sequence)
    (opened : last.filledQty < last.qty) : Tidy (book ++ [last]) := by
  refine ⟨?_, ?_, ?_⟩
  · rw [List.map_append, List.nodup_append]
    refine ⟨tidy.names, List.nodup_singleton _, ?_⟩
    intro id inside other same
    obtain ⟨order, member, rfl⟩ := List.mem_map.mp inside
    rw [List.map_singleton, List.mem_singleton] at same
    rw [same]
    exact fresh order member
  · unfold InArrivalOrder
    rw [List.pairwise_append]
    refine ⟨tidy.arrivals, List.pairwise_singleton _ _, ?_⟩
    intro order inside other same
    rw [List.mem_singleton.mp same]
    exact past order inside
  · intro order inside
    rcases List.mem_append.mp inside with old | new
    · exact tidy.opened order old
    · rw [List.mem_singleton.mp new]
      exact opened

theorem makers_filter (book : List RestingOrder) (keep : Resting → Bool) (side : Side) :
    makers (book.filter (fun order => keep order.resting)) side = (makers book side).filter keep := by
  unfold makers
  rw [filter_arrange, List.filter_filter]
  have commute : (book.filter (fun order => keep order.resting)).map RestingOrder.resting =
      (book.map RestingOrder.resting).filter keep := by
    rw [List.filter_map]
    rfl
  rw [commute, List.filter_filter]
  congr 2
  funext order
  exact Bool.and_comm _ _

theorem makers_map (book : List RestingOrder) {change : RestingOrder → RestingOrder} {change' : Resting → Resting}
    (same : ∀ order, (change order).resting = change' order.resting)
    (price : ∀ order, (change' order).price = order.price) (onSide : ∀ order, (change' order).side = order.side)
    (side : Side) : makers (book.map change) side = (makers book side).map change' := by
  unfold makers
  rw [map_arrange change' price]
  congr 1
  have commute : (book.map change).map RestingOrder.resting = (book.map RestingOrder.resting).map change' := by
    rw [List.map_map, List.map_map]
    apply List.map_congr_left
    intro order _
    exact same order
  rw [commute, List.filter_map]
  congr 1
  apply List.filter_congr
  intro order _
  simp only [Function.comp, onSide]

theorem makers_append (book : List RestingOrder) (order : RestingOrder) (side : Side) :
    makers (book ++ [order]) side =
      if order.side = side then enqueue side.Ahead Resting.price order.resting (makers book side)
      else makers book side := by
  unfold makers
  rw [List.map_append, List.filter_append]
  by_cases same : order.side = side
  · rw [if_pos same, ← arrange_append]
    simp [RestingOrder.resting, same]
  · rw [if_neg same]
    simp [RestingOrder.resting, same]

theorem mem_makers {book : List RestingOrder} {side : Side} {maker : Resting} :
    maker ∈ makers book side ↔ ∃ order ∈ book, order.resting = maker ∧ order.side = side := by
  unfold makers
  rw [mem_arrange, List.mem_filter, List.mem_map, decide_eq_true_eq]
  constructor
  · intro both
    obtain ⟨⟨order, inside, same⟩, onSide⟩ := both
    exact ⟨order, inside, same, by rw [← onSide, ← same]; rfl⟩
  · intro both
    obtain ⟨order, inside, same, onSide⟩ := both
    exact ⟨⟨order, inside, same⟩, by rw [← same]; exact onSide⟩

theorem makers_ordered (book : List RestingOrder) (side : Side) : Ordered side.Ahead Resting.price (makers book side) :=
  arrange_ordered _

theorem Tidy.makers_nodup {book : List RestingOrder} (tidy : Tidy book) (side : Side) :
    ((makers book side).map Resting.orderId).Nodup := by
  unfold makers
  rw [((arrange_perm _).map Resting.orderId).nodup_iff]
  have names : ((book.map RestingOrder.resting).map Resting.orderId).Nodup := by
    rw [List.map_map]
    exact tidy.names
  exact names.sublist (List.filter_sublist.map _)

/-- The vector after a trade with the order at a position, which is erased once it is used up. -/
def traded (book : List RestingOrder) (best : RestingOrder) (place : Nat) (qty : UInt32) : List RestingOrder :=
  let filled := book.modify place (fun order => order.fill qty)
  if (best.fill qty).remainingQty = 0 then filled.eraseIdx place else filled

structure Traded (book : List RestingOrder) (best : RestingOrder) (qty : UInt32) (book' : List RestingOrder) : Prop where
  tidy : Tidy book'
  sub : (book'.map terms).Sublist (book.map terms)
  hit : ∀ rest, makers book best.side = best.resting :: rest →
    makers book' best.side = if (best.fill qty).remainingQty = 0 then rest else (best.fill qty).resting :: rest
  own : makers book' best.side.opposite = makers book best.side.opposite

theorem Tidy.eq_of_id {book : List RestingOrder} (tidy : Tidy book) {first second : RestingOrder} (here : first ∈ book)
    (there : second ∈ book) (same : first.orderId = second.orderId) : first = second :=
  List.inj_on_of_nodup_map tidy.names here there same

theorem Tidy.erased {book : List RestingOrder} (tidy : Tidy book) {best : RestingOrder} {place : Nat}
    (found : book[place]? = some best) {qty : UInt32} (used : (best.fill qty).remainingQty = 0) :
    Traded book best qty (book.eraseIdx place) := by
  have inside : best ∈ book := List.mem_of_getElem? found
  rw [Keyed.eraseIdx_eq_filter tidy.names found]
  have lists := makers_filter book (fun order => order.orderId ≠ best.orderId)
  have sub := (List.filter_sublist (p := fun order => decide (order.orderId ≠ best.orderId)) (l := book)).map terms
  refine ⟨tidy.shrink sub ?_, sub, ?_, ?_⟩
  · intro order member
    exact tidy.opened order (List.mem_of_mem_filter member)
  · intro rest first
    rw [if_pos used]
    have names := tidy.makers_nodup best.side
    rw [first, List.map_cons, List.nodup_cons] at names
    have gone := lists best.side
    rw [first, List.filter_cons_of_neg (by simp [RestingOrder.resting])] at gone
    exact gone.trans (Keyed.filter_other names.1)
  · refine (lists best.side.opposite).trans (List.filter_eq_self.mpr ?_)
    intro maker member
    obtain ⟨order, there, view, onSide⟩ := mem_makers.mp member
    rw [decide_eq_true_eq, ← view]
    intro same
    rw [tidy.eq_of_id there inside same] at onSide
    exact Side.opposite_ne best.side onSide.symm

theorem Tidy.filled {book : List RestingOrder} (tidy : Tidy book) {best : RestingOrder} {place : Nat}
    (found : book[place]? = some best) {qty : UInt32} (kept : (best.fill qty).remainingQty ≠ 0) :
    Traded book best qty (book.modify place (fun order => order.fill qty)) := by
  have inside : best ∈ book := List.mem_of_getElem? found
  let change' : Resting → Resting :=
    fun order => if order.orderId = best.orderId then { order with filledQty := order.filledQty + qty } else order
  rw [Keyed.modify_eq_map tidy.names found]
  have lists : ∀ side, makers (book.map (fun order =>
      if order.orderId = best.orderId then order.fill qty else order)) side = (makers book side).map change' := by
    apply makers_map
    · intro order
      by_cases same : order.orderId = best.orderId
      · simp only [change', RestingOrder.resting, if_pos same]
        rfl
      · simp only [change', RestingOrder.resting, if_neg same]
    · intro order
      by_cases same : order.orderId = best.orderId <;> simp [change', same]
    · intro order
      by_cases same : order.orderId = best.orderId <;> simp [change', same]
  have sub : ((book.map (fun order => if order.orderId = best.orderId then order.fill qty else order)).map terms).Sublist
      (book.map terms) := by
    rw [List.map_map, List.map_congr_left]
    intro order _
    by_cases same : order.orderId = best.orderId <;> simp [same, terms, RestingOrder.fill]
  refine ⟨tidy.shrink sub ?_, sub, ?_, ?_⟩
  · intro order member
    obtain ⟨old, there, rfl⟩ := List.mem_map.mp member
    by_cases same : old.orderId = best.orderId
    · rw [if_pos same, tidy.eq_of_id there inside same]
      by_contra past
      apply kept
      unfold RestingOrder.remainingQty
      exact if_pos (UInt32.not_lt.mp past)
    · rw [if_neg same]
      exact tidy.opened old there
  · intro rest first
    rw [if_neg kept, lists, first, List.map_cons]
    have names := tidy.makers_nodup best.side
    rw [first, List.map_cons, List.nodup_cons] at names
    have others : rest.map change' = rest := by
      have unchanged : ∀ maker ∈ rest, change' maker = id maker := by
        intro maker member
        simp only [change']
        rw [if_neg, id]
        intro same
        exact names.1 (List.mem_map.mpr ⟨maker, member, same⟩)
      rw [List.map_congr_left unchanged, List.map_id]
    rw [others]
    congr 1
    exact if_pos rfl
  · rw [lists]
    have unchanged : ∀ maker ∈ makers book best.side.opposite, change' maker = id maker := by
      intro maker member
      obtain ⟨order, there, view, onSide⟩ := mem_makers.mp member
      simp only [change']
      rw [if_neg, id]
      intro same
      rw [← view] at same
      rw [tidy.eq_of_id there inside same] at onSide
      exact Side.opposite_ne best.side onSide.symm
    rw [List.map_congr_left unchanged, List.map_id]

/-- Where the loop goes next: it stops, or trades with the first order of the opposite side. -/
theorem Tidy.choice {book : List RestingOrder} (tidy : Tidy book) (incoming : RestingOrder) (type : OrderType)
    {first : Resting} {rest : List Resting} (list : makers book incoming.side.opposite = first :: rest) :
    (Ladder.accepts incoming.resting type first.price = false ∧
      bestOpposite book incoming.side incoming.price type = none) ∨
    (Ladder.accepts incoming.resting type first.price = true ∧ ∃ best place,
      bestOpposite book incoming.side incoming.price type = some (best, place) ∧ best.resting = first ∧
      book[place]? = some best ∧ best.side = incoming.side.opposite) := by
  have best := bestOpposite_resting tidy incoming.resting type
  change (bestOpposite book incoming.side incoming.price type).map _ =
    ((makers book incoming.side.opposite).filter _).head? at best
  rw [list] at best
  by_cases accepted : Ladder.accepts incoming.resting type first.price = true
  · rw [List.filter_cons, if_pos accepted, List.head?_cons] at best
    obtain ⟨⟨found, place⟩, result, view⟩ := Option.map_eq_some_iff.mp best
    have located := bestOpposite_place tidy.arrivals result
    refine Or.inr ⟨accepted, found, place, result, view, located.1, ?_⟩
    have member : first ∈ makers book incoming.side.opposite := by simp [list]
    obtain ⟨order, _, same, onSide⟩ := mem_makers.mp member
    have sides := congrArg Resting.side (view.trans same.symm)
    exact Eq.trans sides onSide
  · have refused := Bool.eq_false_of_not_eq_true accepted
    have ordered := makers_ordered book incoming.side.opposite
    rw [list] at ordered
    have none : (first :: rest).filter (fun maker => Ladder.accepts incoming.resting type maker.price) = [] := by
      rw [List.filter_eq_nil_iff]
      intro maker member
      rw [Bool.not_eq_true]
      rcases List.mem_cons.mp member with same | later
      · rw [same]
        exact refused
      · exact Ladder.accepts_worse refused ((List.pairwise_cons.mp ordered).1 maker later)
    rw [none, List.head?_nil, Option.map_eq_none_iff] at best
    exact Or.inl ⟨refused, best⟩

structure Scanned (book : List RestingOrder) (side : Side) (rest : List Resting) (book' : List RestingOrder) : Prop where
  tidy : Tidy book'
  sub : (book'.map terms).Sublist (book.map terms)
  hit : makers book' side.opposite = rest
  own : makers book' side = makers book side

/-- The sweep that the rest of the loop amounts to. -/
def outlook (book : List RestingOrder) (type : OrderType) (ts : UInt64) (incoming : RestingOrder) : Sweep :=
  sweep (Ladder.accepts incoming.resting type) (fun maker => maker.fillBy incoming.resting ts) incoming.remainingQty
    (makers book incoming.side.opposite)

theorem remainingQty_ne_zero {order : RestingOrder} (opened : order.filledQty < order.qty) : order.remainingQty ≠ 0 := by
  intro zero
  have remaining := order.object.remainingQty_toNat
  change order.remainingQty.toNat = order.qty.toNat - order.filledQty.toNat at remaining
  rw [zero, UInt32.toNat_zero] at remaining
  rw [UInt32.lt_iff_toNat_lt] at opened
  omega

theorem matchLoop_filled {type : OrderType} {ts : UInt64} (turns : Nat) (matcher : ReferenceMatcher)
    {incoming : RestingOrder} (filled : incoming.remainingQty = 0) :
    matchLoop type ts (turns + 1) matcher incoming = some (matcher, incoming) := by
  rw [matchLoop, if_neg]
  rw [filled]
  decide

theorem matchLoop_none {type : OrderType} {ts : UInt64} (turns : Nat) (matcher : ReferenceMatcher)
    {incoming : RestingOrder} (nothing : bestOpposite matcher.book incoming.side incoming.price type = none) :
    matchLoop type ts (turns + 1) matcher incoming = some (matcher, incoming) := by
  rw [matchLoop, nothing, ite_self]

theorem matchLoop_some (type : OrderType) (ts : UInt64) (turns : Nat) (matcher : ReferenceMatcher)
    {incoming best : RestingOrder} {place : Nat} (units : incoming.remainingQty ≠ 0)
    (found : bestOpposite matcher.book incoming.side incoming.price type = some (best, place)) :
    matchLoop type ts (turns + 1) matcher incoming =
      let qty := min incoming.remainingQty best.remainingQty
      matchLoop type ts turns
        ⟨if (best.fill qty).remainingQty = 0 then matcher.book.eraseIdx place
          else matcher.book.modify place (fun order => order.fill qty),
        matcher.fills ++ [best.resting.fillBy incoming.resting ts qty]⟩ (incoming.fill qty) := by
  rw [matchLoop, if_pos (units_pos.mpr units), found]
  simp only [List.eraseIdx_modify_of_eq]
  rfl

theorem fill_less {order : RestingOrder} {qty : UInt32} (units : order.remainingQty ≠ 0) (positive : qty ≠ 0)
    (within : qty ≤ order.remainingQty) :
    (order.fill qty).remainingQty.toNat < order.remainingQty.toNat := by
  have remaining : order.remainingQty.toNat = order.object.qty.toNat - order.object.filledQty.toNat :=
    order.object.remainingQty_toNat
  have some : order.remainingQty.toNat ≠ 0 := fun zero => units (UInt32.toNat_inj.mp zero)
  have nonzero : qty.toNat ≠ 0 := fun zero => positive (UInt32.toNat_inj.mp zero)
  have bounded : order.object.filledQty ≤ order.object.qty := by
    rw [UInt32.le_iff_toNat_le]
    omega
  have less : (order.fill qty).remainingQty.toNat = order.remainingQty.toNat - qty.toNat :=
    Order.fill_remainingQty_toNat bounded within
  omega

theorem Tidy.turn {matcher : ReferenceMatcher} (tidy : Tidy matcher.book) {type : OrderType} (ts : UInt64)
    {incoming best : RestingOrder} {place : Nat} {rest : List Resting}
    (bounded : incoming.filledQty ≤ incoming.qty) (units : incoming.remainingQty ≠ 0)
    (list : makers matcher.book incoming.side.opposite = best.resting :: rest)
    (accepted : Ladder.accepts incoming.resting type best.resting.price = true)
    (found : bestOpposite matcher.book incoming.side incoming.price type = some (best, place))
    (located : matcher.book[place]? = some best) (onSide : best.side = incoming.side.opposite) :
    ∃ book₁ qty,
      (∀ turns, matchLoop type ts (turns + 1) matcher incoming = matchLoop type ts turns
        ⟨book₁, matcher.fills ++ [best.resting.fillBy incoming.resting ts qty]⟩ (incoming.fill qty)) ∧
      Tidy book₁ ∧ (incoming.fill qty).filledQty ≤ incoming.qty ∧
      (incoming.fill qty).remainingQty.toNat < incoming.remainingQty.toNat ∧
      outlook matcher.book type ts incoming =
        ⟨best.resting.fillBy incoming.resting ts qty :: (outlook book₁ type ts (incoming.fill qty)).fills,
          (outlook book₁ type ts (incoming.fill qty)).left, (outlook book₁ type ts (incoming.fill qty)).rest⟩ ∧
      ∀ outcome book', Scanned book₁ incoming.side outcome book' → Scanned matcher.book incoming.side outcome book' := by
  have bestOpen := tidy.opened best (List.mem_of_getElem? located)
  have bestUnits := remainingQty_ne_zero bestOpen
  have loop := fun turns => matchLoop_some type ts turns matcher units found
  have step := sweep_turn (Ladder.accepts incoming.resting type) (fun maker => maker.fillBy incoming.resting ts) rest
    units accepted
  have positive := least_ne_zero units bestUnits
  have fromTaker := least_le_left incoming.remainingQty best.remainingQty
  have fromMaker := least_le_right incoming.remainingQty best.remainingQty
  have used := sub_least_eq_zero incoming.remainingQty best.remainingQty
  rw [show best.resting.remainingQty = best.remainingQty from rfl] at step
  generalize min incoming.remainingQty best.remainingQty = qty at *
  have left : (incoming.fill qty).remainingQty = incoming.remainingQty - qty :=
    Order.fill_remainingQty (show incoming.object.filledQty ≤ incoming.object.qty from bounded) fromTaker
  have makerLeft : (best.fill qty).remainingQty = best.remainingQty - qty :=
    Order.fill_remainingQty (show best.object.filledQty ≤ best.object.qty from UInt32.le_of_lt bestOpen) fromMaker
  have traded : Traded matcher.book best qty (if (best.fill qty).remainingQty = 0 then matcher.book.eraseIdx place
      else matcher.book.modify place (fun order => order.fill qty)) := by
    split
    next gone => exact tidy.erased located gone
    next kept => exact tidy.filled located kept
  have hit := traded.hit
  have own := traded.own
  rw [onSide] at hit own
  rw [Side.opposite_opposite] at own
  have filled : (incoming.fill qty).filledQty ≤ incoming.qty :=
    Order.fill_bounded (show incoming.object.filledQty ≤ incoming.object.qty from bounded) fromTaker
  refine ⟨_, qty, loop, traded.tidy, filled, fill_less units positive fromTaker, ?_, ?_⟩
  · have list₁ : makers (if (best.fill qty).remainingQty = 0 then matcher.book.eraseIdx place
        else matcher.book.modify place (fun order => order.fill qty)) incoming.side.opposite =
        if best.remainingQty ≤ incoming.remainingQty then rest
        else { best.resting with filledQty := best.resting.filledQty + qty } :: rest := by
      rw [hit rest list]
      by_cases covered : best.remainingQty ≤ incoming.remainingQty
      · rw [if_pos (makerLeft.trans (used.mpr covered))]
        exact (if_pos covered).symm
      · rw [if_neg (fun gone => covered (used.mp (makerLeft.symm.trans gone)))]
        exact (if_neg covered).symm
    have later : outlook (if (best.fill qty).remainingQty = 0 then matcher.book.eraseIdx place
        else matcher.book.modify place (fun order => order.fill qty)) type ts (incoming.fill qty) =
        sweep (Ladder.accepts incoming.resting type) (fun maker => maker.fillBy incoming.resting ts)
          (incoming.remainingQty - qty)
          (if best.remainingQty ≤ incoming.remainingQty then rest
            else { best.resting with filledQty := best.resting.filledQty + qty } :: rest) := by
      unfold outlook
      rw [left, show (incoming.fill qty).side = incoming.side from rfl, list₁]
      rfl
    rw [later]
    unfold outlook
    rw [list]
    exact step
  · intro outcome book' scanned
    exact ⟨scanned.tidy, scanned.sub.trans traded.sub, scanned.hit, scanned.own.trans own⟩

/-- The loop comes back within its turns and leaves the outcome of the sweep. -/
theorem matchLoop_eq (type : OrderType) (ts : UInt64) (turns : Nat) :
    ∀ (matcher : ReferenceMatcher) (incoming : RestingOrder), Tidy matcher.book →
      incoming.filledQty ≤ incoming.qty → incoming.remainingQty.toNat < turns →
      ∃ book', matchLoop type ts turns matcher incoming =
          some (⟨book', matcher.fills ++ (outlook matcher.book type ts incoming).fills⟩,
            { incoming with filledQty := incoming.qty - (outlook matcher.book type ts incoming).left }) ∧
        Scanned matcher.book incoming.side (outlook matcher.book type ts incoming).rest book' := by
  induction turns with
  | zero =>
    intro _ _ _ _ enough
    omega
  | succ turns ih =>
    intro matcher incoming tidy bounded enough
    have within : incoming.object.filledQty ≤ incoming.object.qty := bounded
    have same : incoming.qty - incoming.remainingQty = incoming.filledQty := @Order.filledQty_eq incoming.object within
    have stays : outlook matcher.book type ts incoming =
          ⟨[], incoming.remainingQty, makers matcher.book incoming.side.opposite⟩ →
        matchLoop type ts (turns + 1) matcher incoming = some (matcher, incoming) →
        ∃ book', matchLoop type ts (turns + 1) matcher incoming =
          some (⟨book', matcher.fills ++ (outlook matcher.book type ts incoming).fills⟩,
            { incoming with filledQty := incoming.qty - (outlook matcher.book type ts incoming).left }) ∧
        Scanned matcher.book incoming.side (outlook matcher.book type ts incoming).rest book' := by
      intro nothing result
      refine ⟨matcher.book, ?_, ?_⟩
      · rw [result, nothing, List.append_nil, same]
      · rw [nothing]
        exact ⟨tidy, List.Sublist.refl _, rfl, rfl⟩
    by_cases units : incoming.remainingQty = 0
    · apply stays _ (matchLoop_filled turns matcher units)
      unfold outlook
      rw [units]
      exact sweep_zero _ _ _
    cases list : makers matcher.book incoming.side.opposite with
    | nil =>
      apply stays
      · unfold outlook
        rw [list]
        rfl
      · apply matchLoop_none
        have nothing := bestOpposite_resting tidy incoming.resting type
        change _ = ((makers matcher.book incoming.side.opposite).filter _).head? at nothing
        rw [list, List.filter_nil, List.head?_nil, Option.map_eq_none_iff] at nothing
        exact nothing
    | cons first rest =>
      rcases tidy.choice incoming type list with ⟨refused, nothing⟩ | ⟨accepted, best, place, found, view, located, onSide⟩
      · apply stays _ (matchLoop_none turns matcher nothing)
        unfold outlook
        rw [list]
        exact sweep_stop _ refused
      · subst view
        obtain ⟨book₁, qty, loop, tidy₁, bounded₁, fewer, next, back⟩ :=
          tidy.turn ts bounded units list accepted found located onSide
        obtain ⟨book', result, scanned⟩ := ih ⟨book₁, _⟩ (incoming.fill qty) tidy₁ bounded₁ (by omega)
        refine ⟨book', ?_, ?_⟩
        · rw [loop turns, result, next, List.append_assoc]
          rfl
        · rw [next]
          exact back _ book' scanned

/-- The order that `add` makes of a message. -/
def arriving (m : FeedMessage) : RestingOrder :=
  { orderId := m.orderId, symbolPacked := m.symbolPacked, price := m.price, qty := m.qty, side := Side.ofByte m.side,
    sequence := m.sequence }

theorem add_eq (matcher : ReferenceMatcher) (m : FeedMessage) :
    matcher.add m = (matchLoop (OrderType.ofByte m.orderType) m.sequence ((arriving m).remainingQty.toNat + 1) matcher
      (arriving m)).bind (fun outcome =>
        if outcome.2.remainingQty > 0 ∧ OrderType.ofByte m.orderType = .LIMIT then
          some { outcome.1 with book := outcome.1.book ++ [outcome.2] }
        else some outcome.1) := rfl

/-- The vector holds the orders of the priority lists, the latest of which came with `latest`. -/
structure Tracks (matcher : ReferenceMatcher) (ladder : Ladder) (latest : UInt64) : Prop where
  lists : ∀ side, makers matcher.book side = ladder side
  tidy : Tidy matcher.book
  past : ∀ order ∈ matcher.book, order.sequence ≤ latest

variable {matcher : ReferenceMatcher} {ladder : Ladder} {latest : UInt64} {m : FeedMessage}

theorem Tracks.empty : Tracks {} Ladder.empty 0 := by
  refine ⟨fun _ => rfl, ⟨List.nodup_nil, List.Pairwise.nil, ?_⟩, ?_⟩
  · intro order inside
    cases inside
  · intro order inside
    cases inside

theorem mem_of_sublist {book book' : List RestingOrder} (sub : (book'.map terms).Sublist (book.map terms))
    {order : RestingOrder} (inside : order ∈ book') :
    ∃ old ∈ book, old.orderId = order.orderId ∧ old.sequence = order.sequence := by
  obtain ⟨old, there, same⟩ := List.mem_map.mp (sub.subset (List.mem_map_of_mem inside))
  have id := congrArg RestingOrder.orderId same
  have sequence := congrArg RestingOrder.sequence same
  exact ⟨old, there, id, sequence⟩

theorem Tracks.fresh (tracks : Tracks matcher ladder latest) {id : UInt64} (absent : ladder.find? id = none) :
    ∀ order ∈ matcher.book, order.orderId ≠ id := by
  intro order inside
  have member : order.resting ∈ makers matcher.book order.side := mem_makers.mpr ⟨order, inside, rfl, rfl⟩
  rw [tracks.lists] at member
  exact Ladder.find?_eq_none.mp absent order.side order.resting member

/-- An order that enters is swept through the vector as through the priority lists. -/
theorem Tracks.add (tracks : Tracks matcher ladder latest) (current : latest ≤ m.sequence)
    (fresh : ladder.find? m.orderId = none) :
    ∃ matcher', matcher.add m = some matcher' ∧
      matcher'.fills = matcher.fills ++ (ladder.swept m.taker (OrderType.ofByte m.orderType) m.sequence).fills ∧
      Tracks matcher' (ladder.enter m.taker (OrderType.ofByte m.orderType) m.sequence) m.sequence := by
  obtain ⟨book', result, scanned⟩ := matchLoop_eq (OrderType.ofByte m.orderType) m.sequence
    ((arriving m).remainingQty.toNat + 1) matcher (arriving m) tracks.tidy UInt32.zero_le (Nat.lt_succ_self _)
  have outcome : outlook matcher.book (OrderType.ofByte m.orderType) m.sequence (arriving m) =
      ladder.swept m.taker (OrderType.ofByte m.orderType) m.sequence := by
    unfold outlook Ladder.swept
    rw [tracks.lists]
    rfl
  rw [outcome] at result scanned
  have hit : ∀ side, makers book' side = Function.update ladder m.taker.side.opposite
      (ladder.swept m.taker (OrderType.ofByte m.orderType) m.sequence).rest side := by
    intro side
    rcases Side.eq_or_opposite m.taker.side side with same | opposite
    · rw [same, Function.update_of_ne (Ne.symm (Side.opposite_ne _)), ← tracks.lists]
      exact scanned.own
    · rw [opposite, Function.update_self]
      exact scanned.hit
  have past : ∀ order ∈ book', order.sequence ≤ m.sequence := by
    intro order inside
    obtain ⟨old, there, _, same⟩ := mem_of_sublist scanned.sub inside
    rw [← same]
    exact UInt64.le_trans (tracks.past old there) current
  have within := Ladder.swept_left_le ladder m.taker (OrderType.ofByte m.orderType) m.sequence
  let residual : RestingOrder := { arriving m with
    filledQty := m.qty - (ladder.swept m.taker (OrderType.ofByte m.orderType) m.sequence).left }
  have left : residual.remainingQty = (ladder.swept m.taker (OrderType.ofByte m.orderType) m.sequence).left :=
    (Order.remainingQty_of_left (show _ ≤ (arriving m).object.qty from within)).1
  have rests : residual.remainingQty > 0 ↔
      (ladder.swept m.taker (OrderType.ofByte m.orderType) m.sequence).left ≠ 0 := by
    rw [left, units_pos]
  have call : matcher.add m =
      if residual.remainingQty > 0 ∧ OrderType.ofByte m.orderType = .LIMIT then
        some ⟨book' ++ [residual], matcher.fills ++
          (ladder.swept m.taker (OrderType.ofByte m.orderType) m.sequence).fills⟩
      else some ⟨book', matcher.fills ++ (ladder.swept m.taker (OrderType.ofByte m.orderType) m.sequence).fills⟩ := by
    rw [add_eq, result]
    rfl
  by_cases stays : (ladder.swept m.taker (OrderType.ofByte m.orderType) m.sequence).left ≠ 0 ∧
      OrderType.ofByte m.orderType = .LIMIT
  · rw [call, if_pos ⟨rests.mpr stays.1, stays.2⟩]
    refine ⟨_, rfl, rfl, ⟨?_, scanned.tidy.append ?_ past (Ladder.residual_open stays.1), ?_⟩⟩
    · intro side
      unfold Ladder.enter
      rw [if_pos stays, makers_append]
      by_cases own : side = m.taker.side
      · subst own
        have own : makers book' m.taker.side = makers matcher.book m.taker.side := scanned.own
        rw [Function.update_self, if_pos (show residual.side = m.taker.side from rfl), own, tracks.lists]
        rfl
      · rw [Function.update_of_ne own, if_neg (fun same => own same.symm), hit]
    · intro order inside
      obtain ⟨old, there, name, _⟩ := mem_of_sublist scanned.sub inside
      rw [← name]
      exact tracks.fresh fresh old there
    · intro order inside
      rcases List.mem_append.mp inside with old | new
      · exact past order old
      · rw [List.mem_singleton.mp new]
        exact UInt64.le_refl _
  · have leaves : ¬(residual.remainingQty > 0 ∧ OrderType.ofByte m.orderType = .LIMIT) :=
      fun both => stays ⟨rests.mp both.1, both.2⟩
    rw [call, if_neg leaves]
    refine ⟨_, rfl, rfl, ⟨?_, scanned.tidy, past⟩⟩
    intro side
    unfold Ladder.enter
    rw [if_neg stays]
    exact hit side

theorem Tracks.find? (tracks : Tracks matcher ladder latest) (id : UInt64) :
    (matcher.book.find? (fun order => order.orderId = id)).map RestingOrder.resting = ladder.find? id := by
  cases found : ladder.find? id with
  | none =>
    rw [Option.map_eq_none_iff, List.find?_eq_none]
    intro order inside
    rw [decide_eq_true_eq]
    exact tracks.fresh found order inside
  | some old =>
    obtain ⟨⟨side, member⟩, name⟩ := Ladder.mem_of_find? found
    rw [← tracks.lists] at member
    obtain ⟨order, inside, view, _⟩ := mem_makers.mp member
    have sameId : order.orderId = id := by rw [← name, ← view]; rfl
    cases first : matcher.book.find? (fun order => order.orderId = id) with
    | none =>
      have never := List.find?_eq_none.mp first order inside
      rw [decide_eq_true_eq] at never
      exact absurd sameId never
    | some other =>
      have otherId : other.orderId = id := by simpa using List.find?_some first
      have unique := tracks.tidy.eq_of_id (List.mem_of_find?_eq_some first) inside (otherId.trans sameId.symm)
      rw [Option.map_some, unique, view]

theorem Tracks.eraseOrder (tracks : Tracks matcher ladder latest) (id : UInt64) :
    ((matcher.eraseOrder id).1).map RestingOrder.resting = ladder.find? id ∧
      (matcher.eraseOrder id).2.fills = matcher.fills ∧
      Tracks (matcher.eraseOrder id).2 (ladder.remove id) latest := by
  have record := tracks.find? id
  unfold ReferenceMatcher.eraseOrder
  split
  next missing =>
    rw [missing] at record
    rw [Ladder.remove_absent record.symm]
    exact ⟨record, rfl, tracks⟩
  next erased found =>
    rw [found] at record
    refine ⟨record, rfl, ⟨?_, ?_, ?_⟩⟩
    · intro side
      change makers (matcher.book.eraseP (fun order => order.orderId = id)) side = _
      rw [Keyed.eraseP_eq_filter tracks.tidy.names]
      refine (makers_filter matcher.book (fun order => order.orderId ≠ id) side).trans ?_
      rw [tracks.lists]
      rfl
    · apply tracks.tidy.shrink ((List.eraseP_sublist).map terms)
      intro order inside
      exact tracks.tidy.opened order (List.mem_of_mem_eraseP inside)
    · intro order inside
      exact tracks.past order (List.mem_of_mem_eraseP inside)

theorem Tracks.later (tracks : Tracks matcher ladder latest) {now : UInt64} (current : latest ≤ now) :
    Tracks matcher ladder now :=
  ⟨tracks.lists, tracks.tidy, fun order inside => UInt64.le_trans (tracks.past order inside) current⟩

theorem Tracks.apply (tracks : Tracks matcher ladder latest) (current : latest ≤ m.sequence)
    (valid : isValidFeedMessage m = true)
    (fresh : m.msgType = MsgType.ADD.byte → ladder.find? m.orderId = none) :
    ∃ matcher', matcher.apply m = some matcher' ∧ matcher'.fills = matcher.fills ++ (ladder.apply m).1 ∧
      Tracks matcher' (ladder.apply m).2 m.sequence := by
  cases accepted_of_valid valid with
  | add kind _ _ =>
    have applied := Ladder.apply_some (Ladder.incoming_add kind (fresh kind))
    rw [Ladder.cleared_add kind] at applied
    obtain ⟨matcher', result, fills, tracks'⟩ := tracks.add current (fresh kind)
    refine ⟨matcher', ?_, ?_, ?_⟩
    · unfold ReferenceMatcher.apply
      rw [if_pos kind, result]
    · rw [fills, applied]
    · rw [applied]
      exact tracks'
  | cancel kind =>
    have notAdd : m.msgType ≠ MsgType.ADD.byte := by rw [kind]; decide
    have nothing : ladder.incoming m = none := Ladder.incoming_cancel kind
    have applied := Ladder.apply_none nothing
    rw [Ladder.cleared_of_ne notAdd] at applied
    obtain ⟨_, fills, tracks'⟩ := tracks.eraseOrder m.orderId
    refine ⟨(matcher.eraseOrder m.orderId).2, ?_, ?_, ?_⟩
    · unfold ReferenceMatcher.apply
      rw [if_neg notAdd, if_pos kind]
    · rw [fills, applied, List.append_nil]
    · rw [applied]
      exact tracks'.later current
  | modify kind price qty =>
    have notAdd : m.msgType ≠ MsgType.ADD.byte := by rw [kind]; decide
    have notCancel : m.msgType ≠ MsgType.CANCEL.byte := by rw [kind]; decide
    have brings : ladder.incoming m = _ := Ladder.incoming_modify kind
    obtain ⟨record, fills, tracks'⟩ := tracks.eraseOrder m.orderId
    unfold ReferenceMatcher.apply
    rw [if_neg notAdd, if_neg notCancel, if_pos kind]
    split
    next matcher₁ erased =>
      rw [erased] at record fills tracks'
      rw [← record] at brings
      have applied := Ladder.apply_none brings
      rw [Ladder.cleared_of_ne notAdd] at applied
      refine ⟨matcher₁, rfl, ?_, ?_⟩
      · rw [applied, List.append_nil]
        exact fills
      · rw [applied]
        exact tracks'.later current
    next old matcher₁ erased =>
      rw [erased] at record fills tracks'
      rw [← record] at brings
      have applied := Ladder.apply_some brings
      rw [Ladder.cleared_of_ne notAdd] at applied
      have name : old.orderId = m.orderId := (Ladder.mem_of_find? record.symm).2
      let replacement : FeedMessage := { m with
        msgType := MsgType.ADD.byte
        symbolPacked := old.symbolPacked
        side := old.side.byte
        orderType := OrderType.LIMIT.byte }
      have taker : replacement.taker = m.replacing old.resting := by
        unfold FeedMessage.taker FeedMessage.replacing RestingOrder.resting
        simp only [replacement, Side.ofByte_byte, name]
      have type : OrderType.ofByte replacement.orderType = .LIMIT := OrderType.ofByte_byte .LIMIT
      have gone : (ladder.remove m.orderId).find? replacement.orderId = none := by
        rw [Ladder.find?_eq_none]
        intro side order inside
        exact (Ladder.mem_remove.mp inside).2
      obtain ⟨matcher', result, fills', tracks''⟩ := tracks'.add (m := replacement) current gone
      rw [taker, type] at fills' tracks''
      refine ⟨matcher', result, ?_, ?_⟩
      · rw [applied, fills']
        change matcher₁.fills ++ _ = _
        rw [show matcher₁.fills = matcher.fills from fills]
      · rw [applied]
        exact tracks''

theorem bestOpposite_open (book : List RestingOrder) (side : Side) (price : UInt32) (type : OrderType) :
    ∀ chosen, bestOpposite book side price type = some chosen → skips side price type chosen.1 = false := by
  induction book using List.reverseRecOn with
  | nil =>
    intro chosen found
    cases found
  | append_singleton book last ih =>
    intro chosen found
    unfold bestOpposite at ih found
    rw [List.zipIdx_append, List.foldl_append] at found
    simp only [List.zipIdx_singleton, List.foldl_cons, List.foldl_nil] at found
    by_cases skipped : skips side price type last = true
    · rw [if_pos skipped] at found
      exact ih chosen found
    · rw [if_neg skipped] at found
      split at found
      · cases found
        exact Bool.eq_false_of_not_eq_true skipped
      · split at found
        · cases found
          exact Bool.eq_false_of_not_eq_true skipped
        · exact ih chosen found

/-- Every turn uses up units of the incoming order, so the loop ends. -/
theorem matchLoop_returns (type : OrderType) (ts : UInt64) (turns : Nat) :
    ∀ (matcher : ReferenceMatcher) (incoming : RestingOrder), incoming.remainingQty.toNat < turns →
      ∃ outcome, matchLoop type ts turns matcher incoming = some outcome := by
  induction turns with
  | zero =>
    intro _ _ enough
    omega
  | succ turns ih =>
    intro matcher incoming enough
    by_cases filled : incoming.remainingQty = 0
    · exact ⟨_, matchLoop_filled turns matcher filled⟩
    cases found : bestOpposite matcher.book incoming.side incoming.price type with
    | none => exact ⟨_, matchLoop_none turns matcher found⟩
    | some choice =>
      have makerUnits : choice.1.remainingQty ≠ 0 := by
        have chosen := bestOpposite_open _ _ _ _ choice found
        unfold skips at chosen
        simp only [Bool.or_eq_false_iff, decide_eq_false_iff_not] at chosen
        exact chosen.1.2
      have positive := least_ne_zero filled makerUnits
      have within := least_le_left incoming.remainingQty choice.1.remainingQty
      rw [matchLoop_some type ts turns matcher filled found]
      apply ih
      have less := fill_less filled positive within
      omega

theorem matchLoop_fills (type : OrderType) (ts : UInt64) (turns : Nat) :
    ∀ {matcher matcher' : ReferenceMatcher} {incoming incoming' : RestingOrder},
      matchLoop type ts turns matcher incoming = some (matcher', incoming') → matcher.fills <+: matcher'.fills := by
  induction turns with
  | zero =>
    intro _ _ _ _ result
    cases result
  | succ turns ih =>
    intro matcher matcher' incoming incoming' result
    by_cases filled : incoming.remainingQty = 0
    · rw [matchLoop_filled turns matcher filled] at result
      cases result
      exact List.prefix_rfl
    cases found : bestOpposite matcher.book incoming.side incoming.price type with
    | none =>
      rw [matchLoop_none turns matcher found] at result
      cases result
      exact List.prefix_rfl
    | some choice =>
      rw [matchLoop_some type ts turns matcher filled found] at result
      exact (List.prefix_append _ _).trans (ih result)

/-- The scan finds nothing for the ADD, and it is not of the type that rests. -/
def Unmoved (matcher : ReferenceMatcher) (m : FeedMessage) : Prop :=
  OrderType.ofByte m.orderType ≠ .LIMIT ∧
    bestOpposite matcher.book (Side.ofByte m.side) m.price (OrderType.ofByte m.orderType) = none

instance (matcher : ReferenceMatcher) (m : FeedMessage) : Decidable (matcher.Unmoved m) :=
  inferInstanceAs (Decidable (_ ∧ _))

/-- These are the only valid ADDs that leave the matcher as it is. -/
theorem apply_eq_self_iff (valid : isValidFeedMessage m = true) (kind : m.msgType = MsgType.ADD.byte) :
    matcher.apply m = some matcher ↔ matcher.Unmoved m := by
  have units : (arriving m).remainingQty ≠ 0 := by
    apply remainingQty_ne_zero
    cases accepted_of_valid valid with
    | add _ qty _ => exact UInt32.pos_iff_ne_zero.mpr qty
    | cancel other => rw [kind] at other; exact absurd other (by decide)
    | modify other => rw [kind] at other; exact absurd other (by decide)
  unfold ReferenceMatcher.apply Unmoved
  rw [if_pos kind, add_eq]
  cases found : bestOpposite matcher.book (Side.ofByte m.side) m.price (OrderType.ofByte m.orderType) with
  | none =>
    have loop : matchLoop (OrderType.ofByte m.orderType) m.sequence ((arriving m).remainingQty.toNat + 1) matcher
        (arriving m) = some (matcher, arriving m) := matchLoop_none _ matcher found
    rw [loop, Option.bind_some]
    by_cases limit : OrderType.ofByte m.orderType = .LIMIT
    · rw [if_pos ⟨units_pos.mpr units, limit⟩]
      constructor
      · intro same
        have books := congrArg ReferenceMatcher.book (Option.some.inj same)
        simp at books
      · intro unmoved
        exact absurd limit unmoved.1
    · rw [if_neg (fun rests => limit rests.2)]
      exact iff_of_true rfl ⟨limit, rfl⟩
  | some choice =>
    refine iff_of_false ?_ (fun unmoved => by cases unmoved.2)
    intro same
    obtain ⟨outcome, loop, rest⟩ := Option.bind_eq_some_iff.mp same
    have turn := matchLoop_some (OrderType.ofByte m.orderType) m.sequence (arriving m).remainingQty.toNat matcher units found
    rw [turn] at loop
    have grown := (matchLoop_fills _ _ _ loop).length_le
    have kept : outcome.1.fills = matcher.fills := by
      split at rest
      · cases rest
        rfl
      · cases rest
        rfl
    rw [kept, List.length_append, List.length_singleton] at grown
    omega

theorem apply_returns (matcher : ReferenceMatcher) (m : FeedMessage) : ∃ matcher', matcher.apply m = some matcher' := by
  have adds : ∀ (matcher : ReferenceMatcher) (m : FeedMessage), ∃ matcher', matcher.add m = some matcher' := by
    intro matcher m
    obtain ⟨outcome, loop⟩ := matchLoop_returns (OrderType.ofByte m.orderType) m.sequence
      ((arriving m).remainingQty.toNat + 1) matcher (arriving m) (Nat.lt_succ_self _)
    rw [add_eq, loop, Option.bind_some]
    split
    · exact ⟨_, rfl⟩
    · exact ⟨_, rfl⟩
  unfold ReferenceMatcher.apply
  split
  · exact adds matcher m
  split
  · exact ⟨_, rfl⟩
  split
  · split
    · exact ⟨_, rfl⟩
    · exact adds _ _
  · exact ⟨_, rfl⟩

end ReferenceMatcher

end ChronoBook
