import ChronoBook.Library.SignedWords
import ChronoBook.Store.TradeStore

/-! The trade store on SQLite, and how far it answers like the one on a flat file.
A table holds signed 64-bit integers: words are cast on their way in and out, and
SQL compares, orders and adds them as signed numbers. Calls of SQLite succeed,
but for a SUM that overflows; averages are exact. -/

namespace ChronoBook
open Library SignedWords

/-- A row of the table `trades`. -/
structure TradeRow where
  id : Nat
  buyOrderId : Int64
  sellOrderId : Int64
  symbol : Int64
  price : Int64
  qty : Int64
  ts : Int64
  deriving DecidableEq, Repr

/-- The table with the last id that AUTOINCREMENT gave. -/
structure SQLiteStore where
  rows : List TradeRow
  lastId : Nat

namespace SQLiteStore

def bindInt64 (value : UInt64) : Int64 := value.toInt64

/-- Prices and quantities are cast to `int` for the call; SQLite stores the number. -/
def bindInt (value : UInt32) : Int64 := value.toInt32.toInt64

def columnUInt64 (value : Int64) : UInt64 := value.toUInt64

/-- A database in which `init` has just made the table. -/
def init : SQLiteStore := ⟨[], 0⟩

/-- `INSERT INTO trades(...) VALUES(?,?,?,?,?,?)`. -/
def insertRow (store : SQLiteStore) (f : Fill) : SQLiteStore where
  rows := store.rows ++ [{
    id := store.lastId + 1
    buyOrderId := bindInt64 f.buyOrderId
    sellOrderId := bindInt64 f.sellOrderId
    symbol := bindInt64 f.symbolPacked
    price := bindInt f.price
    qty := bindInt f.qty
    ts := bindInt64 f.timestamp }]
  lastId := store.lastId + 1

/-- What is thrown before the commit rolls the transaction back. -/
def insertBatch (store : SQLiteStore) (fills : List Fill) (failBeforeCommit : Bool) :
    SQLiteStore × Except Failure Unit :=
  let staged := fills.foldl insertRow store
  if failBeforeCommit then (store, .error (.thrown "injected failure before commit"))
  else (staged, .ok ())

/-- Deleting the rows does not give their ids back. -/
def replaceAll (store : SQLiteStore) (fills : List Fill) : SQLiteStore × Except Failure Unit :=
  (fills.foldl insertRow { store with rows := [] }, .ok ())

/-- `SELECT COUNT(*) FROM trades`. -/
def tradeCount (store : SQLiteStore) : UInt64 := columnUInt64 (Int64.ofNat store.rows.length)

/-- `WHERE symbol=?`. -/
def ofSymbol (symbolPacked : UInt64) (rows : List TradeRow) : List TradeRow :=
  rows.filter (fun row => row.symbol = bindInt64 symbolPacked)

def tradeCountOf (store : SQLiteStore) (symbolPacked : UInt64) : UInt64 :=
  columnUInt64 (Int64.ofNat (ofSymbol symbolPacked store.rows).length)

/-- `WHERE ts BETWEEN ? AND ?`. -/
def between (beginTs endTs : UInt64) (rows : List TradeRow) : List TradeRow :=
  rows.filter (fun row => decide (bindInt64 beginTs ≤ row.ts) && decide (row.ts ≤ bindInt64 endTs))

/-- `SUM` adds integers and gives up when a sum is not a signed 64-bit integer. -/
def sumFrom (total : Int) : List Int → Except Failure Int
  | [] => .ok total
  | value :: rest =>
      if total + value < -2 ^ 63 ∨ 2 ^ 63 ≤ total + value then .error (.thrown "step failed: integer overflow")
      else sumFrom (total + value) rest

/-- The `SUM` of no rows is NULL. -/
def sum (values : List Int) : Except Failure (Option Int) :=
  if values = [] then .ok none else (sumFrom 0 values).map some

/-- `SELECT COALESCE(SUM(price * qty) * 1.0 / NULLIF(SUM(qty),0),0)`; a product of two cast words does not overflow. -/
def average (rows : List TradeRow) : Except Failure ℚ := do
  let notional ← sum (rows.map (fun row => row.price.toInt * row.qty.toInt))
  let qty ← sum (rows.map (fun row => row.qty.toInt))
  match notional, qty with
  | some notional, some qty => .ok (if qty = 0 then 0 else notional / qty)
  | _, _ => .ok 0

/-- Without `ORDER BY` the rows come in an order of the library's choice. -/
structure Scan where
  order : List TradeRow → List TradeRow
  perm : ∀ rows, (order rows).Perm rows

def vwap (store : SQLiteStore) (scan : Scan) (beginTs endTs : UInt64) : Except Failure ℚ :=
  average (scan.order (between beginTs endTs store.rows))

def vwapOf (store : SQLiteStore) (scan : Scan) (symbolPacked beginTs endTs : UInt64) : Except Failure ℚ :=
  average (scan.order (between beginTs endTs (ofSymbol symbolPacked store.rows)))

/-- `ORDER BY ts,id`. -/
def ahead (a b : TradeRow) : Bool := decide (a.ts < b.ts) || decide (a.ts = b.ts) && decide (a.id ≤ b.id)

/-- The fill that `timeline` makes of a row. -/
def fill (row : TradeRow) : Fill where
  buyOrderId := columnUInt64 row.buyOrderId
  sellOrderId := columnUInt64 row.sellOrderId
  price := (columnUInt64 row.price).toUInt32
  qty := (columnUInt64 row.qty).toUInt32
  timestamp := columnUInt64 row.ts
  symbolPacked := columnUInt64 row.symbol

def timeline (store : SQLiteStore) (symbolPacked beginTs endTs : UInt64) : List Fill :=
  ((between beginTs endTs (ofSymbol symbolPacked store.rows)).mergeSort ahead).map fill

end SQLiteStore

/-- A call that changes a store. -/
inductive StoreCall where
  | insertBatch (fills : List Fill) (failBeforeCommit : Bool)
  | replaceAll (fills : List Fill)
  deriving DecidableEq

/-- The two stores next to each other, the flat one with its file. -/
structure Backends where
  flat : TradeStore
  file : Option (List UInt8)
  sqlite : SQLiteStore

namespace Backends

/-- Both stores are new. -/
def init (path : String) : Backends := ⟨TradeStore.rebuildIndex path [], none, SQLiteStore.init⟩

/-- The same call to both; the flat store's file is written whole. -/
def call (s : Backends) : StoreCall → Backends
  | .insertBatch fills failBeforeCommit =>
      let (flat, file, _) := s.flat.insertBatch fills failBeforeCommit .done s.file
      ⟨flat, file, (s.sqlite.insertBatch fills failBeforeCommit).1⟩
  | .replaceAll fills =>
      let (flat, file, _) := s.flat.replaceAll fills .done s.file
      ⟨flat, file, (s.sqlite.replaceAll fills).1⟩

def run (s : Backends) (calls : List StoreCall) : Backends := calls.foldl call s

end Backends

namespace SQLiteStore

variable {store : SQLiteStore} {trades : List Fill} {beginTs endTs : UInt64}

/-- The table holds these trades, in the order of their ids. -/
structure Holds (store : SQLiteStore) (trades : List Fill) : Prop where
  fills : store.rows.map fill = trades
  casts : ∀ row ∈ store.rows, row.price = bindInt (fill row).price ∧ row.qty = bindInt (fill row).qty
  ids : store.rows.Pairwise (fun a b => a.id < b.id)
  last : ∀ row ∈ store.rows, row.id ≤ store.lastId

theorem Holds.init : SQLiteStore.init.Holds [] := ⟨rfl, by simp [SQLiteStore.init], List.Pairwise.nil, by simp [SQLiteStore.init]⟩

/-- What is stored is read back as it was. -/
theorem Holds.insertRow (holds : store.Holds trades) (f : Fill) : (store.insertRow f).Holds (trades ++ [f]) := by
  have back : fill ⟨store.lastId + 1, bindInt64 f.buyOrderId, bindInt64 f.sellOrderId, bindInt64 f.symbolPacked,
      bindInt f.price, bindInt f.qty, bindInt64 f.timestamp⟩ = f := by
    simp only [fill, columnUInt64, bindInt64, bindInt, UInt64.toUInt64_toInt64, toUInt32_widened]
  unfold SQLiteStore.insertRow
  refine ⟨?_, ?_, ?_, ?_⟩
  · rw [List.map_append, holds.fills, List.map_singleton, back]
  · intro row inside
    rcases List.mem_append.mp inside with old | new
    · exact holds.casts row old
    · rw [List.mem_singleton.mp new, back]
      exact ⟨rfl, rfl⟩
  · rw [List.pairwise_append]
    refine ⟨holds.ids, List.pairwise_singleton _ _, ?_⟩
    intro old inside new last
    rw [List.mem_singleton.mp last]
    exact Nat.lt_succ_of_le (holds.last old inside)
  · intro row inside
    rcases List.mem_append.mp inside with old | new
    · exact Nat.le_succ_of_le (holds.last row old)
    · rw [List.mem_singleton.mp new]

theorem Holds.insertRows (fills : List Fill) : ∀ {store : SQLiteStore} {trades : List Fill}, store.Holds trades →
    (fills.foldl SQLiteStore.insertRow store).Holds (trades ++ fills) := by
  induction fills with
  | nil =>
    intro store trades holds
    rw [List.append_nil]
    exact holds
  | cons f rest ih =>
    intro store trades holds
    rw [List.foldl_cons, List.append_cons]
    exact ih (holds.insertRow f)

theorem Holds.cleared (store : SQLiteStore) : ({ store with rows := [] } : SQLiteStore).Holds [] :=
  ⟨rfl, by simp, List.Pairwise.nil, by simp⟩

end SQLiteStore

/-- An insert leaves a vector that its type allows. -/
def StoreCall.Fits (stored : Nat) : StoreCall → Prop
  | .insertBatch fills false => stored + fills.length ≤ maxSize
  | _ => True

instance (stored : Nat) : (call : StoreCall) → Decidable (call.Fits stored)
  | .insertBatch fills false => inferInstanceAs (Decidable (stored + fills.length ≤ maxSize))
  | .insertBatch _ true => isTrue trivial
  | .replaceAll _ => isTrue trivial

namespace Backends

variable {s : Backends}

def Fits (s : Backends) : List StoreCall → Prop
  | [] => True
  | call :: later => call.Fits s.flat.trades.length ∧ (s.call call).Fits later

theorem call_holds (holds : s.sqlite.Holds s.flat.trades) {call : StoreCall} (fits : call.Fits s.flat.trades.length) :
    (s.call call).sqlite.Holds (s.call call).flat.trades := by
  cases call with
  | insertBatch fills failBeforeCommit =>
    cases failBeforeCommit with
    | true =>
      have same : (s.flat.insertBatch fills true .done s.file).1 = s.flat := by
        unfold TradeStore.insertBatch
        split <;> rfl
      unfold Backends.call
      dsimp only
      rw [same]
      exact holds
    | false =>
      unfold Backends.call
      dsimp only
      rw [TradeStore.insertBatch_done s.flat fits]
      exact holds.insertRows fills
  | replaceAll fills => exact (SQLiteStore.Holds.cleared s.sqlite).insertRows fills

theorem run_holds (calls : List StoreCall) : ∀ {s : Backends}, s.sqlite.Holds s.flat.trades → s.Fits calls →
    (s.run calls).sqlite.Holds (s.run calls).flat.trades := by
  induction calls with
  | nil =>
    intro s holds _
    exact holds
  | cons call later ih =>
    intro s holds fits
    exact ih (call_holds holds fits.1) fits.2

end Backends

namespace SQLiteStore

variable {store : SQLiteStore} {trades : List Fill} {beginTs endTs : UInt64} {rows : List TradeRow}

/-- The window as SQL compares it. -/
def signedIn (beginTs endTs : UInt64) (f : Fill) : Bool :=
  decide (beginTs.toInt64 ≤ f.timestamp.toInt64) && decide (f.timestamp.toInt64 ≤ endTs.toInt64)

theorem ts_eq (row : TradeRow) : row.ts = (fill row).timestamp.toInt64 := (Int64.toInt64_toUInt64 row.ts).symm

theorem ofSymbol_fills (symbolPacked : UInt64) (rows : List TradeRow) :
    (ofSymbol symbolPacked rows).map fill = (rows.map fill).filter (fun f => f.symbolPacked = symbolPacked) := by
  rw [List.filter_map]
  unfold ofSymbol
  congr 1
  apply List.filter_congr
  intro row _
  have symbol : row.symbol = (fill row).symbolPacked.toInt64 := (Int64.toInt64_toUInt64 row.symbol).symm
  rw [Function.comp_apply, symbol]
  exact decide_eq_decide.mpr toInt64_inj

theorem between_fills (beginTs endTs : UInt64) (rows : List TradeRow) :
    (between beginTs endTs rows).map fill = (rows.map fill).filter (signedIn beginTs endTs) := by
  rw [List.filter_map]
  rfl

theorem mem_inWindow {f : Fill} : f ∈ TradeStore.inWindow beginTs endTs trades ↔
    f ∈ trades ∧ beginTs ≤ f.timestamp ∧ f.timestamp ≤ endTs := by
  unfold TradeStore.inWindow
  rw [List.mem_filter]
  simp

theorem signedIn_iff {f : Fill} : signedIn beginTs endTs f = true ↔
    beginTs.toInt64 ≤ f.timestamp.toInt64 ∧ f.timestamp.toInt64 ≤ endTs.toInt64 := by
  unfold signedIn
  rw [Bool.and_eq_true, decide_eq_true_eq, decide_eq_true_eq]

/-- The window ends on the side where it begins, or no trade is met between its ends. -/
def Aligned (beginTs endTs : UInt64) (trades : List Fill) : Prop :=
  SameSide beginTs endTs ∨ ∀ f ∈ trades, ¬Met beginTs endTs f.timestamp

theorem aligned_iff : Aligned beginTs endTs trades ↔ ∀ f ∈ trades,
    (signedIn beginTs endTs f = true ↔ beginTs ≤ f.timestamp ∧ f.timestamp ≤ endTs) := by
  unfold Aligned
  by_cases side : SameSide beginTs endTs
  · have same : ∀ f : Fill, signedIn beginTs endTs f = true ↔ beginTs ≤ f.timestamp ∧ f.timestamp ≤ endTs :=
      fun f => signedIn_iff.trans (between_of_sameSide side)
    exact ⟨fun _ f _ => same f, fun _ => Or.inl side⟩
  · have split : ∀ f : Fill, (signedIn beginTs endTs f = true ↔ beginTs ≤ f.timestamp ∧ f.timestamp ≤ endTs) ↔
        ¬Met beginTs endTs f.timestamp := by
      intro f
      rw [signedIn_iff]
      exact between_of_split side
    simp only [side, false_or, split]

theorem Aligned.selects (aligned : Aligned beginTs endTs trades) :
    trades.filter (signedIn beginTs endTs) = TradeStore.inWindow beginTs endTs trades := by
  unfold TradeStore.inWindow
  apply List.filter_congr
  intro f inside
  rw [Bool.eq_iff_iff, aligned_iff.mp aligned f inside]
  simp

theorem ahead_trans (a b c : TradeRow) (first : ahead a b = true) (second : ahead b c = true) : ahead a c = true := by
  unfold ahead at first second ⊢
  simp only [Bool.or_eq_true, Bool.and_eq_true, decide_eq_true_eq, Int64.lt_iff_toInt_lt, ← Int64.toInt_inj]
    at first second ⊢
  omega

theorem ahead_total (a b : TradeRow) : (ahead a b || ahead b a) = true := by
  unfold ahead
  simp only [Bool.or_eq_true, Bool.and_eq_true, decide_eq_true_eq, Int64.lt_iff_toInt_lt, ← Int64.toInt_inj]
  omega

/-- In the table's order a row is ahead of a later one unless its time is greater. -/
theorem ahead_iff {a b : TradeRow} (earlier : a.id < b.id) : ahead a b = true ↔ a.ts ≤ b.ts := by
  unfold ahead
  simp only [Bool.or_eq_true, Bool.and_eq_true, decide_eq_true_eq, Int64.lt_iff_toInt_lt, ← Int64.toInt_inj,
    Int64.le_iff_toInt_le]
  omega

/-- Sorting leaves the selected trades as the flat store lists them exactly if the same trades are selected and they
are stored in the order of their signed times. -/
theorem sorted_iff (ids : rows.Pairwise (fun a b => a.id < b.id)) :
    ((between beginTs endTs rows).mergeSort ahead).map fill = TradeStore.inWindow beginTs endTs (rows.map fill) ↔
      Aligned beginTs endTs (rows.map fill) ∧ (TradeStore.inWindow beginTs endTs (rows.map fill)).Pairwise
        (fun f g => f.timestamp.toInt64 ≤ g.timestamp.toInt64) := by
  constructor
  · intro same
    have members : ∀ f, f ∈ (rows.map fill).filter (signedIn beginTs endTs) ↔
        f ∈ TradeStore.inWindow beginTs endTs (rows.map fill) := by
      intro f
      rw [← same, ← between_fills]
      exact ((List.mergeSort_perm (between beginTs endTs rows) ahead).map fill).mem_iff.symm
    constructor
    · rw [aligned_iff]
      intro f inside
      have here := members f
      rw [List.mem_filter, mem_inWindow] at here
      exact ⟨fun signed => (here.mp ⟨inside, signed⟩).2, fun unsigned => (here.mpr ⟨inside, unsigned⟩).2⟩
    · rw [← same, List.pairwise_map]
      apply (List.pairwise_mergeSort ahead_trans ahead_total _).imp
      intro a b sorted
      rw [← ts_eq, ← ts_eq, Int64.le_iff_toInt_le]
      unfold ahead at sorted
      simp only [Bool.or_eq_true, Bool.and_eq_true, decide_eq_true_eq, Int64.lt_iff_toInt_lt, ← Int64.toInt_inj] at sorted
      omega
  · intro conditions
    obtain ⟨aligned, ordered⟩ := conditions
    have selected : (between beginTs endTs rows).map fill = TradeStore.inWindow beginTs endTs (rows.map fill) :=
      (between_fills beginTs endTs rows).trans aligned.selects
    have already : (between beginTs endTs rows).Pairwise (fun a b => ahead a b = true) := by
      rw [← selected, List.pairwise_map] at ordered
      have numbered : (between beginTs endTs rows).Pairwise (fun a b => a.id < b.id) := ids.filter _
      apply (numbered.and ordered).imp
      intro a b both
      rw [ahead_iff both.1, ts_eq a, ts_eq b]
      exact both.2
    rw [List.mergeSort_of_pairwise already, selected]

/-- The window ends on the side where it begins and its trades are stored in the order of their times, or it ends on the
other side and no trade is met between its ends. -/
def Chronological (beginTs endTs : UInt64) (trades : List Fill) : Prop :=
  if SameSide beginTs endTs then
    (TradeStore.inWindow beginTs endTs trades).Pairwise (fun f g => f.timestamp ≤ g.timestamp)
  else ∀ f ∈ trades, ¬Met beginTs endTs f.timestamp

instance (beginTs endTs : UInt64) (trades : List Fill) : Decidable (Chronological beginTs endTs trades) :=
  inferInstanceAs (Decidable (ite _ _ _))

theorem chronological_iff : Chronological beginTs endTs trades ↔
    Aligned beginTs endTs trades ∧ (TradeStore.inWindow beginTs endTs trades).Pairwise
      (fun f g => f.timestamp.toInt64 ≤ g.timestamp.toInt64) := by
  unfold Chronological Aligned
  by_cases side : SameSide beginTs endTs
  · rw [if_pos side]
    have same : (TradeStore.inWindow beginTs endTs trades).Pairwise (fun f g => f.timestamp ≤ g.timestamp) ↔
        (TradeStore.inWindow beginTs endTs trades).Pairwise
          (fun f g => f.timestamp.toInt64 ≤ g.timestamp.toInt64) := by
      apply List.Pairwise.iff_of_mem
      intro f g here there
      exact (toInt64_le_iff side (mem_inWindow.mp here).2 (mem_inWindow.mp there).2).symm
    rw [same]
    exact ⟨fun ordered => ⟨Or.inl side, ordered⟩, fun both => both.2⟩
  · rw [if_neg side]
    constructor
    · intro none
      refine ⟨Or.inr none, ?_⟩
      have empty : TradeStore.inWindow beginTs endTs trades = [] := by
        rw [List.eq_nil_iff_forall_not_mem]
        intro f inside
        obtain ⟨member, low, high⟩ := mem_inWindow.mp inside
        exact none f member (Or.inl ⟨UInt64.le_trans low high, low, high⟩)
      rw [empty]
      exact List.Pairwise.nil
    · intro both
      exact both.1.resolve_left side

theorem Holds.timeline_iff (holds : store.Holds trades) (symbolPacked : UInt64) :
    store.timeline symbolPacked beginTs endTs =
      TradeStore.inWindow beginTs endTs (trades.filter (fun f => f.symbolPacked = symbolPacked)) ↔
    Chronological beginTs endTs (trades.filter (fun f => f.symbolPacked = symbolPacked)) := by
  have numbered : (ofSymbol symbolPacked store.rows).Pairwise (fun a b => a.id < b.id) := holds.ids.filter _
  rw [chronological_iff, ← holds.fills, ← ofSymbol_fills]
  exact sorted_iff numbered

theorem Holds.tradeCount (holds : store.Holds trades) : store.tradeCount = UInt64.ofNat trades.length := by
  unfold SQLiteStore.tradeCount columnUInt64
  rw [Int64.toUInt64_ofNat', ← holds.fills, List.length_map]

theorem Holds.tradeCountOf (holds : store.Holds trades) (symbolPacked : UInt64) :
    store.tradeCountOf symbolPacked = UInt64.ofNat (trades.filter (fun f => f.symbolPacked = symbolPacked)).length := by
  unfold SQLiteStore.tradeCountOf columnUInt64
  rw [Int64.toUInt64_ofNat', ← holds.fills, ← ofSymbol_fills, List.length_map]

def notionals (fills : List Fill) : List Nat := fills.map (fun f => f.price.toNat * f.qty.toNat)

def quantities (fills : List Fill) : List Nat := fills.map (fun f => f.qty.toNat)

/-- Prices and quantities that an `int` holds, with sums that a signed 64-bit integer holds. -/
structure Summable (fills : List Fill) : Prop where
  cast : ∀ f ∈ fills, f.price.toNat < 2 ^ 31 ∧ f.qty.toNat < 2 ^ 31
  notional : (notionals fills).sum < 2 ^ 63
  qty : (quantities fills).sum < 2 ^ 63

theorem sumFrom_nat (values : List Nat) : ∀ {total : Nat}, total + values.sum < 2 ^ 63 →
    sumFrom total (values.map Int.ofNat) = .ok ((total + values.sum : Nat) : Int) := by
  induction values with
  | nil =>
    intro total _
    rfl
  | cons value rest ih =>
    intro total small
    rw [List.sum_cons] at small ⊢
    have next := ih (show total + value + rest.sum < 2 ^ 63 by omega)
    rw [List.map_cons, sumFrom, Int.ofNat_eq_natCast, if_neg (by omega), ← Int.natCast_add, next, Nat.add_assoc]

theorem sum_nat {values : List Nat} (small : values.sum < 2 ^ 63) :
    sum (values.map Int.ofNat) = .ok (if values = [] then none else some ((values.sum : Nat) : Int)) := by
  unfold sum
  by_cases empty : values = []
  · rw [empty]
    rfl
  · have total := sumFrom_nat values (show 0 + values.sum < 2 ^ 63 by omega)
    rw [Nat.zero_add] at total
    rw [if_neg (by simpa using empty), if_neg empty]
    change (sumFrom ((0 : Nat) : Int) _).map some = _
    rw [total]
    rfl

/-- The flat store adds the quantities as words. -/
theorem sum_toUInt64 (fills : List Fill) :
    (TradeStore.quantity fills).toNat = (quantities fills).sum % 2 ^ 64 := by
  unfold quantities TradeStore.quantity
  induction fills with
  | nil => rfl
  | cons f rest ih =>
    rw [List.map_cons, List.sum_cons, List.map_cons, List.sum_cons, UInt64.toNat_add, ih, UInt32.toNat_toUInt64]
    omega

theorem average_nat {fills : List Fill} (small : (quantities fills).sum < 2 ^ 64) : TradeStore.average fills =
    if (quantities fills).sum = 0 then 0 else ((notionals fills).sum : ℚ) / (quantities fills).sum := by
  have value := sum_toUInt64 fills
  rw [Nat.mod_eq_of_lt small] at value
  unfold TradeStore.average
  rw [← value]
  simp only [← UInt64.toNat_inj, UInt64.toNat_zero]
  rfl

theorem average_eq {fills : List Fill} (same : rows.map fill = fills)
    (casts : ∀ row ∈ rows, row.price = bindInt (fill row).price ∧ row.qty = bindInt (fill row).qty)
    (summable : Summable fills) : average rows = .ok (TradeStore.average fills) := by
  have read : ∀ row ∈ rows, row.price.toInt = (fill row).price.toNat ∧ row.qty.toInt = (fill row).qty.toNat := by
    intro row inside
    obtain ⟨price, qty⟩ := summable.cast (fill row) (same ▸ List.mem_map_of_mem inside)
    rw [(casts row inside).1, (casts row inside).2]
    unfold bindInt
    rw [Int32.toInt_toInt64, Int32.toInt_toInt64, toInt_toInt32 price, toInt_toInt32 qty]
    exact ⟨rfl, rfl⟩
  have notional : rows.map (fun row => row.price.toInt * row.qty.toInt) = (notionals fills).map Int.ofNat := by
    rw [← same, notionals, List.map_map, List.map_map]
    apply List.map_congr_left
    intro row inside
    rw [(read row inside).1, (read row inside).2]
    exact (Int.natCast_mul _ _).symm
  have qty : rows.map (fun row => row.qty.toInt) = (quantities fills).map Int.ofNat := by
    rw [← same, quantities, List.map_map, List.map_map]
    apply List.map_congr_left
    intro row inside
    exact (read row inside).2
  have few := summable.qty
  unfold average
  rw [notional, qty, sum_nat summable.notional, sum_nat few, average_nat (by omega)]
  cases fills with
  | nil => rfl
  | cons f rest =>
    change Except.ok (if _ then _ else _) = _
    simp only [Int.natCast_eq_zero, Int.cast_natCast]

theorem Summable.sublist {fills part : List Fill} (summable : Summable fills) (sub : part.Sublist fills) :
    Summable part := by
  have notional : (notionals part).sum ≤ (notionals fills).sum :=
    (sub.map _).sum_le_sum (fun _ _ => Nat.zero_le _)
  have qty : (quantities part).sum ≤ (quantities fills).sum := (sub.map _).sum_le_sum (fun _ _ => Nat.zero_le _)
  exact ⟨fun f inside => summable.cast f (sub.subset inside), notional.trans_lt summable.notional,
    qty.trans_lt summable.qty⟩

theorem Summable.perm {fills other : List Fill} (summable : Summable fills) (same : other.Perm fills) : Summable other where
  cast := fun f inside => summable.cast f (same.mem_iff.mp inside)
  notional := (same.map _).sum_eq.trans_lt summable.notional
  qty := (same.map _).sum_eq.trans_lt summable.qty

/-- As long as the sums are small, the order of the fills does not matter. -/
theorem average_perm {fills other : List Fill} (summable : Summable fills) (same : other.Perm fills) :
    TradeStore.average other = TradeStore.average fills := by
  have few := summable.qty
  have quantity : (quantities other).sum = (quantities fills).sum := (same.map _).sum_eq
  have notional : (notionals other).sum = (notionals fills).sum := (same.map _).sum_eq
  rw [average_nat (by omega), average_nat (by omega), quantity, notional]

theorem average_between (scan : Scan)
    (casts : ∀ row ∈ rows, row.price = bindInt (fill row).price ∧ row.qty = bindInt (fill row).qty)
    (aligned : Aligned beginTs endTs (rows.map fill))
    (summable : Summable (TradeStore.inWindow beginTs endTs (rows.map fill))) :
    average (scan.order (between beginTs endTs rows)) =
      .ok (TradeStore.average (TradeStore.inWindow beginTs endTs (rows.map fill))) := by
  have chosen := scan.perm (between beginTs endTs rows)
  have same : ((scan.order (between beginTs endTs rows)).map fill).Perm
      (TradeStore.inWindow beginTs endTs (rows.map fill)) := by
    rw [← aligned.selects, ← between_fills]
    exact chosen.map fill
  rw [← average_perm summable same]
  refine average_eq rfl (fun row inside => ?_) (summable.perm same)
  exact casts row (List.mem_of_mem_filter (chosen.mem_iff.mp inside))

theorem Holds.vwap (holds : store.Holds trades) (scan : Scan) (aligned : Aligned beginTs endTs trades)
    (summable : Summable (TradeStore.inWindow beginTs endTs trades)) :
    store.vwap scan beginTs endTs = .ok (TradeStore.average (TradeStore.inWindow beginTs endTs trades)) := by
  rw [← holds.fills] at aligned summable ⊢
  exact average_between scan holds.casts aligned summable

theorem Holds.vwapOf (holds : store.Holds trades) (scan : Scan) (symbolPacked : UInt64) (aligned : Aligned beginTs endTs trades)
    (summable : Summable (TradeStore.inWindow beginTs endTs trades)) :
    store.vwapOf scan symbolPacked beginTs endTs = .ok (TradeStore.average
      (TradeStore.inWindow beginTs endTs (trades.filter (fun f => f.symbolPacked = symbolPacked)))) := by
  have own : (ofSymbol symbolPacked store.rows).map fill = trades.filter (fun f => f.symbolPacked = symbolPacked) := by
    rw [ofSymbol_fills, holds.fills]
  rw [← own]
  apply average_between
  · intro row inside
    exact holds.casts row (List.mem_of_mem_filter inside)
  · rw [own]
    exact aligned.imp_right (fun none f inside => none f (List.mem_of_mem_filter inside))
  · rw [own]
    exact summable.sublist (List.filter_sublist.filter _)

end SQLiteStore

/-- The two stores answer alike about a symbol and a window. -/
structure Backends.Alike (s : Backends) (symbolPacked beginTs endTs : UInt64) : Prop where
  tradeCount : s.sqlite.tradeCount = UInt64.ofNat s.flat.tradeCount
  tradeCountOf : s.sqlite.tradeCountOf symbolPacked = UInt64.ofNat (s.flat.tradeCountOf symbolPacked)
  timeline : s.sqlite.timeline symbolPacked beginTs endTs = s.flat.timeline symbolPacked beginTs endTs
  vwap : ∀ scan, s.sqlite.vwap scan beginTs endTs = .ok (s.flat.vwap beginTs endTs)
  vwapOf : ∀ scan, s.sqlite.vwapOf scan symbolPacked beginTs endTs = .ok (s.flat.vwapOf symbolPacked beginTs endTs)

namespace Backends
open SQLiteStore

variable {s : Backends} {symbolPacked beginTs endTs : UInt64}

theorem timeline_iff (holds : s.sqlite.Holds s.flat.trades) :
    s.sqlite.timeline symbolPacked beginTs endTs = s.flat.timeline symbolPacked beginTs endTs ↔
      Chronological beginTs endTs (s.flat.picked symbolPacked) := by
  unfold TradeStore.timeline
  rw [TradeStore.picked_eq]
  exact holds.timeline_iff symbolPacked

theorem alike (holds : s.sqlite.Holds s.flat.trades)
    (chronological : Chronological beginTs endTs (s.flat.picked symbolPacked))
    (aligned : Aligned beginTs endTs s.flat.trades)
    (summable : Summable (TradeStore.inWindow beginTs endTs s.flat.trades)) :
    s.Alike symbolPacked beginTs endTs where
  tradeCount := holds.tradeCount
  tradeCountOf := by
    rw [TradeStore.tradeCountOf_eq]
    exact holds.tradeCountOf symbolPacked
  timeline := (timeline_iff holds).mpr chronological
  vwap := fun scan => holds.vwap scan aligned summable
  vwapOf := by
    intro scan
    unfold TradeStore.vwapOf
    rw [TradeStore.picked_eq]
    exact holds.vwapOf scan symbolPacked aligned summable

/-- The default window of `timeline` leads the backends apart as soon as there is a trade. -/
theorem default_differs (holds : s.sqlite.Holds s.flat.trades) {f : Fill} (stored : f ∈ s.flat.trades) :
    s.sqlite.timeline f.symbolPacked 0 0xffffffffffffffff ≠ s.flat.timeline f.symbolPacked 0 0xffffffffffffffff := by
  intro same
  have chronological := (timeline_iff holds).mp same
  unfold Chronological at chronological
  rw [if_neg (by decide), TradeStore.picked_eq] at chronological
  have own : f ∈ s.flat.trades.filter (fun trade => trade.symbolPacked = f.symbolPacked) :=
    List.mem_filter.mpr ⟨stored, by simp⟩
  have top : f.timestamp ≤ 0xffffffffffffffff := by
    rw [UInt64.le_iff_toNat_le]
    exact Nat.le_of_lt_succ f.timestamp.toNat_lt
  exact chronological f own (Or.inl ⟨by decide, UInt64.zero_le, top⟩)

end Backends

open SQLiteStore in
/-- After every sequence of calls: about a window that ends on the side of 2^63 where it begins, or meets no trade on its
way there, the backends answer alike if the symbol's trades in it are stored in the order of their times and the
numbers stay small; the timelines differ in all other cases, and so no store with a trade in it answers alike about
every window. -/
theorem store_backends_agree (path : String) {calls : List StoreCall} (fits : (Backends.init path).Fits calls) :
    let s := (Backends.init path).run calls
    (∀ symbolPacked beginTs endTs, Chronological beginTs endTs (s.flat.picked symbolPacked) →
      Aligned beginTs endTs s.flat.trades → Summable (TradeStore.inWindow beginTs endTs s.flat.trades) →
      s.Alike symbolPacked beginTs endTs) ∧
    (∀ symbolPacked beginTs endTs,
      s.sqlite.timeline symbolPacked beginTs endTs = s.flat.timeline symbolPacked beginTs endTs ↔
        Chronological beginTs endTs (s.flat.picked symbolPacked)) ∧
    ((∀ symbolPacked beginTs endTs, s.Alike symbolPacked beginTs endTs) ↔ s.flat.trades = []) := by
  intro s
  have holds : s.sqlite.Holds s.flat.trades := Backends.run_holds calls Holds.init fits
  refine ⟨?_, ?_, ?_, ?_⟩
  · intro symbolPacked beginTs endTs chronological aligned summable
    exact Backends.alike holds chronological aligned summable
  · intro symbolPacked beginTs endTs
    exact Backends.timeline_iff holds
  · intro alike
    rw [List.eq_nil_iff_forall_not_mem]
    intro f stored
    exact Backends.default_differs holds stored (alike f.symbolPacked 0 0xffffffffffffffff).timeline
  · intro nothing symbolPacked beginTs endTs
    have none : s.flat.picked symbolPacked = [] := by
      rw [TradeStore.picked_eq, nothing]
      rfl
    apply Backends.alike holds
    · rw [none]
      unfold Chronological
      split
      · exact List.Pairwise.nil
      · simp
    · rw [nothing]
      exact Or.inr (by simp)
    · rw [nothing]
      exact ⟨by simp [TradeStore.inWindow], Nat.two_pow_pos 63, Nat.two_pow_pos 63⟩

/-- A failed batch and two trades in order, asked for in a window below 2^63. -/
theorem store_backends_agree_sample :
    let s := (Backends.init "trades.db").run
      [.insertBatch [⟨1, 2, 100, 5, 1, 7⟩] true, .insertBatch [⟨1, 2, 100, 5, 1, 7⟩, ⟨3, 4, 102, 5, 2, 7⟩] false]
    s.Alike 7 0 0x7fffffffffffffff ∧ s.flat.timeline 7 0 0x7fffffffffffffff = s.flat.trades := by
  intro s
  have fits : (Backends.init "trades.db").Fits [.insertBatch [⟨1, 2, 100, 5, 1, 7⟩] true,
      .insertBatch [⟨1, 2, 100, 5, 1, 7⟩, ⟨3, 4, 102, 5, 2, 7⟩] false] := ⟨trivial, by decide, trivial⟩
  refine ⟨(store_backends_agree "trades.db" fits).1 7 0 0x7fffffffffffffff ?_ ?_ ?_, by decide⟩
  · decide
  · exact Or.inl (by decide)
  · exact ⟨by decide, by decide, by decide⟩

/-- With the default window the flat store lists its trade and SQLite lists none. -/
theorem store_backends_differ :
    let s := (Backends.init "trades.db").run [.insertBatch [⟨1, 2, 100, 5, 1, 7⟩] false]
    s.flat.timeline 7 0 0xffffffffffffffff = [⟨1, 2, 100, 5, 1, 7⟩] ∧
      s.sqlite.timeline 7 0 0xffffffffffffffff = [] ∧
      s.flat.vwap 0 0xffffffffffffffff = 100 ∧ ∀ scan, s.sqlite.vwap scan 0 0xffffffffffffffff = .ok 0 := by
  intro s
  have none : SQLiteStore.between 0 0xffffffffffffffff (SQLiteStore.ofSymbol 7 s.sqlite.rows) = [] := by decide
  have nothing : SQLiteStore.between 0 0xffffffffffffffff s.sqlite.rows = [] := by decide
  refine ⟨by decide, ?_, by decide +kernel, ?_⟩
  · unfold SQLiteStore.timeline
    rw [none]
    simp
  · intro scan
    unfold SQLiteStore.vwap
    rw [nothing, (scan.perm []).eq_nil]
    rfl

end ChronoBook
