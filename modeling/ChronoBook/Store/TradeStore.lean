import ChronoBook.Journal.FillJournal
import Mathlib.Algebra.Order.Field.Rat

/-! The trade store in its default form: a vector of fills with an index by symbol,
and a flat file that is written anew for every batch. Of a write of the file any
number of bytes may arrive; averages are exact. -/

namespace ChronoBook
open Library

namespace TradeStore

/-- The positions of each symbol's trades; a symbol without an entry has none. -/
abbrev Index := UInt64 → List Nat

def indexRange (trades : List Fill) (bySymbol : Index) (first last : Nat) : Index :=
  (List.range' first (last - first)).foldl (fun bySymbol i =>
    match trades[i]? with
    | none => bySymbol
    | some trade => Function.update bySymbol trade.symbolPacked (bySymbol trade.symbolPacked ++ [i])) bySymbol

theorem indexRange_append (trades later : List Fill) :
    indexRange (trades ++ later) (indexRange trades (fun _ => []) 0 trades.length) trades.length
      (trades ++ later).length = indexRange (trades ++ later) (fun _ => []) 0 (trades ++ later).length := by
  have before : indexRange trades (fun _ => []) 0 trades.length =
      indexRange (trades ++ later) (fun _ => []) 0 trades.length := by
    unfold indexRange
    apply List.foldl_ext
    intro bySymbol i inside
    rw [List.mem_range'_1] at inside
    rw [List.getElem?_append_left (by omega)]
  rw [before]
  unfold indexRange
  rw [← List.foldl_append, List.length_append, Nat.add_sub_cancel_left, Nat.sub_zero, Nat.sub_zero]
  have whole := List.range'_append_1 (s := 0) (m := trades.length) (n := later.length)
  rw [Nat.zero_add] at whole
  rw [whole]

end TradeStore

structure TradeStore where
  path : String
  trades : List Fill
  bySymbol : TradeStore.Index
  indexed : bySymbol = TradeStore.indexRange trades (fun _ => []) 0 trades.length

namespace TradeStore

/-- The store after `rebuildIndex`. -/
def rebuildIndex (path : String) (trades : List Fill) : TradeStore where
  path := path
  trades := trades
  bySymbol := indexRange trades (fun _ => []) 0 trades.length
  indexed := rfl

def content (fills : List Fill) : List UInt8 :=
  Codec.uint64.encode (UInt64.ofNat fills.length) ++ Fill.codec.encodeAll fills

def writeAll (path : String) (fills : List Fill) (outcome : WriteOutcome) (file : Option (List UInt8)) :
    Option (List UInt8) × Except Failure Unit :=
  match outcome with
  | .openFails => (file, .error (.thrown ("open trade store failed: " ++ path)))
  | .done => (some (content fills), .ok ())
  | .short bytes noticed =>
      (some ((content fills).take bytes),
        if noticed then .error (.thrown ("write trade store failed: " ++ path)) else .ok ())

/-- The constructor; `none` is a file that cannot be opened. -/
def load (path : String) (file : Option (List UInt8)) : Except Failure TradeStore :=
  match file with
  | none => .ok (rebuildIndex path [])
  | some bytes =>
      if bytes.length < 8 then .ok (rebuildIndex path [])
      else
        let count := Codec.uint64.decode (bytes.take 8)
        if maxSize < count.toNat then .error (.thrown lengthError)
        else if bytes.length - 8 < count.toNat * 40 then .error (.thrown ("truncated trade store: " ++ path))
        else .ok (rebuildIndex path (Fill.codec.decodeAll count.toNat (bytes.drop 8)))

theorem index_staged (store : TradeStore) (fills : List Fill) :
    indexRange (store.trades ++ fills) store.bySymbol store.trades.length (store.trades ++ fills).length =
      indexRange (store.trades ++ fills) (fun _ => []) 0 (store.trades ++ fills).length := by
  rw [store.indexed]
  exact indexRange_append store.trades fills

/-- The call leaves an object and a file. -/
def insertBatch (store : TradeStore) (fills : List Fill) (failBeforeCommit : Bool) (outcome : WriteOutcome)
    (file : Option (List UInt8)) : TradeStore × Option (List UInt8) × Except Failure Unit :=
  if maxSize < store.trades.length + fills.length then (store, file, .error (.thrown lengthError))
  else
    let staged := store.trades ++ fills
    let stagedBySymbol := indexRange staged store.bySymbol store.trades.length staged.length
    if failBeforeCommit then (store, file, .error (.thrown "injected failure before commit"))
    else
      match writeAll store.path staged outcome file with
      | (file, .error failure) => (store, file, .error failure)
      | (file, .ok _) =>
          (⟨store.path, staged, stagedBySymbol, store.index_staged fills⟩, file, .ok ())

def replaceAll (store : TradeStore) (fills : List Fill) (outcome : WriteOutcome) (file : Option (List UInt8)) :
    TradeStore × Option (List UInt8) × Except Failure Unit :=
  match writeAll store.path fills outcome file with
  | (file, .error failure) => (store, file, .error failure)
  | (file, .ok _) => (rebuildIndex store.path fills, file, .ok ())

def tradeCount (store : TradeStore) : Nat := store.trades.length

def tradeCountOf (store : TradeStore) (symbolPacked : UInt64) : Nat := (store.bySymbol symbolPacked).length

/-- The trades that the loops over a window of time do not skip. -/
def inWindow (beginTs endTs : UInt64) (fills : List Fill) : List Fill :=
  fills.filter (fun fill => !(decide (fill.timestamp < beginTs) || decide (fill.timestamp > endTs)))

def notional (fills : List Fill) : Nat := (fills.map (fun fill => fill.price.toNat * fill.qty.toNat)).sum

/-- The sum of the quantities is a 64-bit word. -/
def quantity (fills : List Fill) : UInt64 := (fills.map (fun fill => fill.qty.toUInt64)).sum

/-- The price for one unit over some fills. -/
def average (fills : List Fill) : ℚ := if quantity fills = 0 then 0 else notional fills / (quantity fills).toNat

def vwap (store : TradeStore) (beginTs endTs : UInt64) : ℚ := average (inWindow beginTs endTs store.trades)

def picked (store : TradeStore) (symbolPacked : UInt64) : List Fill :=
  (store.bySymbol symbolPacked).filterMap (fun i => store.trades[i]?)

def vwapOf (store : TradeStore) (symbolPacked beginTs endTs : UInt64) : ℚ :=
  average (inWindow beginTs endTs (store.picked symbolPacked))

def timeline (store : TradeStore) (symbolPacked beginTs endTs : UInt64) : List Fill :=
  inWindow beginTs endTs (store.picked symbolPacked)

variable {store store' : TradeStore} {fills : List Fill} {file file' : Option (List UInt8)}

theorem ext_trades (path : store.path = store'.path) (trades : store.trades = store'.trades) : store = store' := by
  obtain ⟨path, trades, bySymbol, indexed⟩ := store
  obtain ⟨path', trades', bySymbol', indexed'⟩ := store'
  cases path
  cases trades
  cases indexed
  cases indexed'
  rfl

theorem indexRange_apply (trades : List Fill) (bySymbol : Index) (first last : Nat) (symbolPacked : UInt64) :
    indexRange trades bySymbol first last symbolPacked = bySymbol symbolPacked ++
      (List.range' first (last - first)).filter (fun i => trades[i]?.map Fill.symbolPacked = some symbolPacked) := by
  unfold indexRange
  induction List.range' first (last - first) generalizing bySymbol with
  | nil => exact (List.append_nil _).symm
  | cons i rest ih =>
    rw [List.foldl_cons, ih, List.filter_cons]
    cases trades[i]? with
    | none => rfl
    | some trade =>
      dsimp only [Option.map_some]
      by_cases same : trade.symbolPacked = symbolPacked
      · subst same
        rw [Function.update_self, if_pos (by simp), List.append_assoc]
        rfl
      · rw [Function.update_of_ne (Ne.symm same), if_neg (by simpa using same)]

/-- Positions of a symbol behind some other trades, and the trades they lead to. -/
theorem picked_behind (front trades : List Fill) (symbolPacked : UInt64) :
    ((List.range' front.length trades.length).filter
        (fun i => (front ++ trades)[i]?.map Fill.symbolPacked = some symbolPacked)).filterMap
      (fun i => (front ++ trades)[i]?) = trades.filter (fun trade => trade.symbolPacked = symbolPacked) := by
  induction trades generalizing front with
  | nil => rfl
  | cons trade rest ih =>
    have here : (front ++ trade :: rest)[front.length]? = some trade := by
      rw [List.getElem?_append_right (Nat.le_refl _), Nat.sub_self, List.getElem?_cons_zero]
    have later := ih (front ++ [trade])
    rw [List.append_assoc, List.singleton_append, List.length_append, List.length_singleton] at later
    rw [List.length_cons, List.range'_succ, List.filter_cons, List.filter_cons, here, Option.map_some]
    by_cases same : trade.symbolPacked = symbolPacked
    · rw [if_pos (by simpa using same), if_pos (by simpa using same), List.filterMap_cons_some here, later]
    · rw [if_neg (by simpa using same), if_neg (by simpa using same), later]

theorem picked_eq (store : TradeStore) (symbolPacked : UInt64) :
    store.picked symbolPacked = store.trades.filter (fun trade => trade.symbolPacked = symbolPacked) := by
  unfold picked
  rw [store.indexed, indexRange_apply, List.nil_append, Nat.sub_zero]
  exact picked_behind [] store.trades symbolPacked

theorem tradeCountOf_eq (store : TradeStore) (symbolPacked : UInt64) : store.tradeCountOf symbolPacked =
    (store.trades.filter (fun trade => trade.symbolPacked = symbolPacked)).length := by
  rw [← store.picked_eq, picked, tradeCountOf, eq_comm, List.filterMap_length_eq_length]
  intro i inside
  rw [store.indexed, indexRange_apply, List.nil_append, List.mem_filter, decide_eq_true_eq] at inside
  obtain ⟨trade, found, _⟩ := Option.map_eq_some_iff.mp inside.2
  rw [found]
  rfl

theorem content_length (fills : List Fill) : (content fills).length = 8 + 40 * fills.length := by
  unfold content
  rw [List.length_append, FillJournal.uint64_length, FillJournal.encodeAll_length]

theorem small_toNat (small : fills.length ≤ maxSize) : (UInt64.ofNat fills.length).toNat = fills.length := by
  have bound : maxSize < 2 ^ 64 := by decide
  rw [UInt64.toNat_ofNat', Nat.mod_eq_of_lt (by omega)]

/-- What was written is loaded, whatever stands behind it. -/
theorem load_content (path : String) (small : fills.length ≤ maxSize) (rest : List UInt8) :
    load path (some (content fills ++ rest)) = .ok (rebuildIndex path fills) := by
  have count := small_toNat small
  have width := FillJournal.uint64_length (UInt64.ofNat fills.length)
  have length := content_length fills
  have parts : content fills ++ rest =
      Codec.uint64.encode (UInt64.ofNat fills.length) ++ (Fill.codec.encodeAll fills ++ rest) := List.append_assoc ..
  unfold load
  dsimp only
  rw [List.length_append, length, if_neg (by omega), parts, List.take_left' width, List.drop_left' width,
    Codec.uint64.decode_encode, count, if_neg (Nat.not_lt.mpr small), if_neg (by omega),
    Fill.codec.decodeAll_encodeAll]

/-- Of a file that was not written to its end, too little is nothing and more is refused. -/
theorem load_short (path : String) (small : fills.length ≤ maxSize) {bytes : Nat} (few : bytes < (content fills).length) :
    load path (some ((content fills).take bytes)) =
      if bytes < 8 then .ok (rebuildIndex path []) else .error (.thrown ("truncated trade store: " ++ path)) := by
  have count := small_toNat small
  have width := FillJournal.uint64_length (UInt64.ofNat fills.length)
  have taken : ((content fills).take bytes).length = bytes := by
    rw [List.length_take, Nat.min_eq_left (Nat.le_of_lt few)]
  rw [content_length] at few
  unfold load
  dsimp only
  rw [taken]
  by_cases tiny : bytes < 8
  · rw [if_pos tiny, if_pos tiny]
  · have front : ((content fills).take bytes).take 8 = Codec.uint64.encode (UInt64.ofNat fills.length) := by
      rw [List.take_take, Nat.min_eq_left (by omega)]
      exact List.take_left' width
    rw [if_neg tiny, if_neg tiny, front, Codec.uint64.decode_encode, count, if_neg (Nat.not_lt.mpr small),
      if_pos (by omega)]

/-- The file is absent, too short for a count, or has all the trades that it counts. -/
def Loadable (file : Option (List UInt8)) : Prop :=
  ∀ bytes, file = some bytes → 8 ≤ bytes.length →
    (Codec.uint64.decode (bytes.take 8)).toNat ≤ maxSize ∧
      8 + 40 * (Codec.uint64.decode (bytes.take 8)).toNat ≤ bytes.length

theorem load_loadable (path : String) (loadable : Loadable file) :
    ∃ trades, load path file = .ok (rebuildIndex path trades) := by
  cases file with
  | none => exact ⟨[], rfl⟩
  | some bytes =>
    unfold load
    dsimp only
    by_cases tiny : bytes.length < 8
    · rw [if_pos tiny]
      exact ⟨[], rfl⟩
    · obtain ⟨small, whole⟩ := loadable bytes rfl (Nat.le_of_not_lt tiny)
      rw [if_neg tiny, if_neg (Nat.not_lt.mpr small), if_neg (by omega)]
      exact ⟨_, rfl⟩

theorem load_refused (path : String) (damaged : ¬Loadable file) : ∃ failure, load path file = .error failure := by
  unfold Loadable at damaged
  push Not at damaged
  obtain ⟨bytes, same, long, damage⟩ := damaged
  subst same
  unfold load
  dsimp only
  rw [if_neg (Nat.not_lt.mpr long)]
  by_cases many : maxSize < (Codec.uint64.decode (bytes.take 8)).toNat
  · rw [if_pos many]
    exact ⟨_, rfl⟩
  · have missing := damage (Nat.le_of_not_lt many)
    rw [if_neg many, if_pos (by omega)]
    exact ⟨_, rfl⟩

theorem load_shape {path : String} (loads : load path file = .ok store) : ∃ trades, store = rebuildIndex path trades := by
  by_cases loadable : Loadable file
  · obtain ⟨trades, same⟩ := load_loadable path loadable
    rw [loads] at same
    exact ⟨trades, Except.ok.inj same⟩
  · obtain ⟨failure, failed⟩ := load_refused path loadable
    rw [loads] at failed
    cases failed

theorem insertBatch_writes (store : TradeStore) (small : store.trades.length + fills.length ≤ maxSize)
    (outcome : WriteOutcome) (file : Option (List UInt8)) :
    store.insertBatch fills false outcome file =
      match writeAll store.path (store.trades ++ fills) outcome file with
      | (file', .error failure) => (store, file', .error failure)
      | (file', .ok _) => (rebuildIndex store.path (store.trades ++ fills), file', .ok ()) := by
  unfold insertBatch
  rw [if_neg (Nat.not_lt.mpr small)]
  dsimp only
  rw [if_neg Bool.false_ne_true]
  rcases writeAll store.path (store.trades ++ fills) outcome file with ⟨file', failure | _⟩
  · rfl
  · exact congrArg (fun store => (store, file', Except.ok ())) (ext_trades rfl rfl)

theorem insertBatch_done (store : TradeStore) (small : store.trades.length + fills.length ≤ maxSize)
    (file : Option (List UInt8)) : store.insertBatch fills false .done file =
      (rebuildIndex store.path (store.trades ++ fills), some (content (store.trades ++ fills)), .ok ()) :=
  insertBatch_writes store small .done file

/-- A call that fails before it writes leaves everything as it was. -/
theorem insertBatch_throws {store : TradeStore} {failBeforeCommit : Bool}
    (fails : failBeforeCommit = true ∨ maxSize < store.trades.length + fills.length) (outcome : WriteOutcome)
    (file : Option (List UInt8)) :
    ∃ failure, store.insertBatch fills failBeforeCommit outcome file = (store, file, .error failure) := by
  unfold insertBatch
  by_cases long : maxSize < store.trades.length + fills.length
  · exact ⟨_, if_pos long⟩
  · rw [if_neg long]
    exact ⟨_, if_pos (fails.resolve_right long)⟩

/-- The object after the call is the one before it, or has the batch behind its trades. -/
theorem insertBatch_object (store : TradeStore) (fills : List Fill) (outcome : WriteOutcome) (file : Option (List UInt8)) :
    (∃ file' failure, store.insertBatch fills false outcome file = (store, file', .error failure)) ∨
      ∃ file', store.insertBatch fills false outcome file =
        (rebuildIndex store.path (store.trades ++ fills), file', .ok ()) := by
  by_cases small : store.trades.length + fills.length ≤ maxSize
  · rw [insertBatch_writes store small]
    rcases writeAll store.path (store.trades ++ fills) outcome file with ⟨file', failure | _⟩
    · exact Or.inl ⟨file', failure, rfl⟩
    · exact Or.inr ⟨file', rfl⟩
  · unfold insertBatch
    rw [if_pos (Nat.lt_of_not_le small)]
    exact Or.inl ⟨file, _, rfl⟩

theorem load_named {path : String} {failure : Failure}
    (failed : load path file = .error failure) : failure.Named := by
  cases file with
  | none => cases failed
  | some bytes =>
    unfold load at failed
    dsimp only at failed
    split at failed
    · cases failed
    split at failed
    · cases failed
      change lengthError ≠ ""
      decide
    split at failed
    · cases failed
      exact named_append (by decide) _
    · cases failed

theorem insertBatch_named {outcome : WriteOutcome} {failure : Failure}
    (failed : store.insertBatch fills false outcome file = (store', file', .error failure)) : failure.Named := by
  by_cases small : store.trades.length + fills.length ≤ maxSize
  · rw [insertBatch_writes store small] at failed
    cases outcome with
    | done => cases failed
    | openFails =>
      cases failed
      exact named_append (by decide) _
    | short bytes noticed =>
      cases noticed with
      | true =>
        cases failed
        exact named_append (by decide) _
      | false => cases failed
  · unfold insertBatch at failed
    rw [if_pos (Nat.lt_of_not_le small)] at failed
    cases failed
    change lengthError ≠ ""
    decide

/-- The call throws and nothing has changed, or returns and the batch is in, for the object and for a reader of the file. -/
def CommitsAsUnit (store : TradeStore) (fills : List Fill) (failBeforeCommit : Bool) (outcome : WriteOutcome)
    (file : Option (List UInt8)) : Prop :=
  match store.insertBatch fills failBeforeCommit outcome file with
  | (store', file', .error _) => store' = store ∧ load store.path file' = .ok store
  | (store', file', .ok _) => store' = rebuildIndex store.path (store.trades ++ fills) ∧
      load store.path file' = .ok (rebuildIndex store.path (store.trades ++ fills))

/-- The write is whole or not begun; a cut that happens to leave what it should is told apart by where it falls. -/
def Harmless (before batch : List Fill) : WriteOutcome → Prop
  | .done | .openFails => True
  | .short bytes noticed =>
      if bytes < 8 then before = [] ∧ (noticed = false → batch = [])
      else 8 + 40 * (before.length + batch.length) ≤ bytes ∧ (noticed = true → batch = [])

instance (before batch : List Fill) : (outcome : WriteOutcome) → Decidable (Harmless before batch outcome)
  | .done | .openFails => isTrue trivial
  | .short bytes noticed => inferInstanceAs (Decidable (if bytes < 8 then _ else _))

theorem load_taken (path : String) (small : fills.length ≤ maxSize) (bytes : Nat) :
    load path (some ((content fills).take bytes)) =
      if bytes < 8 then .ok (rebuildIndex path [])
      else if 8 + 40 * fills.length ≤ bytes then .ok (rebuildIndex path fills)
      else .error (.thrown ("truncated trade store: " ++ path)) := by
  have length := content_length fills
  by_cases whole : 8 + 40 * fills.length ≤ bytes
  · have all := load_content path small []
    rw [List.append_nil] at all
    rw [if_neg (by omega), if_pos whole, List.take_of_length_le (by omega), all]
  · rw [load_short path small (by omega), if_neg whole]

/-- What the file of the store shows after a write that may have been cut short. -/
theorem load_written {path : String} (small : fills.length ≤ maxSize)
    {outcome : WriteOutcome} {result : Except Failure Unit}
    (written : writeAll path fills outcome file = (file', result)) (loads : load path file' = .ok store) :
    file' = file ∨ store.trades <+: fills := by
  cases outcome with
  | openFails =>
    cases written
    exact Or.inl rfl
  | done =>
    cases written
    have whole := load_content path small []
    rw [List.append_nil, loads] at whole
    cases whole
    exact Or.inr (List.prefix_refl _)
  | short bytes noticed =>
    cases written
    rw [load_taken path small] at loads
    right
    split at loads
    · cases loads
      exact List.nil_prefix
    split at loads
    · cases loads
      exact List.prefix_refl _
    · cases loads

/-- A write leaves the old file, or one that shows nothing or everything if it can be loaded. -/
theorem load_all_or_nothing {path : String} (small : fills.length ≤ maxSize) {outcome : WriteOutcome}
    (loads : load path (writeAll path fills outcome file).1 = .ok store) :
    (writeAll path fills outcome file).1 = file ∨ store.trades = [] ∨ store.trades = fills := by
  cases outcome with
  | openFails => exact Or.inl rfl
  | done =>
    have whole := load_content path small []
    rw [List.append_nil] at whole
    change load path (some (content fills)) = .ok store at loads
    cases whole.symm.trans loads
    exact Or.inr (Or.inr rfl)
  | short bytes noticed =>
    change load path (some ((content fills).take bytes)) = .ok store at loads
    rw [load_taken path small] at loads
    right
    split at loads
    · cases loads
      exact Or.inl rfl
    split at loads
    · cases loads
      exact Or.inr rfl
    · cases loads

theorem rebuildIndex_inj (path : String) {trades trades' : List Fill} :
    (Except.ok (rebuildIndex path trades) : Except Failure TradeStore) = .ok (rebuildIndex path trades') ↔
      trades = trades' := by
  constructor
  · intro same
    exact congrArg TradeStore.trades (Except.ok.inj same)
  · intro same
    rw [same]

/-- What a reader finds after a cut write is what should be there only in the harmless places. -/
theorem load_cut (path : String) {before batch : List Fill} (small : (before ++ batch).length ≤ maxSize)
    (bytes : Nat) (noticed : Bool) :
    load path (some ((content (before ++ batch)).take bytes)) =
      .ok (rebuildIndex path (if noticed then before else before ++ batch)) ↔
    Harmless before batch (.short bytes noticed) := by
  rw [load_taken path small, List.length_append]
  change _ ↔ (if bytes < 8 then _ else _)
  by_cases tiny : bytes < 8
  · rw [if_pos tiny, if_pos tiny, rebuildIndex_inj]
    cases noticed with
    | true => simp [eq_comm]
    | false => simp [eq_comm]
  · rw [if_neg tiny, if_neg tiny]
    by_cases whole : 8 + 40 * (before.length + batch.length) ≤ bytes
    · rw [if_pos whole, rebuildIndex_inj]
      cases noticed with
      | true => simp [whole]
      | false => simp [whole]
    · rw [if_neg whole]
      simp [whole]

theorem commits_iff_harmless (store : TradeStore) {file : Option (List UInt8)} (agrees : load store.path file = .ok store)
    {fills : List Fill} (small : store.trades.length + fills.length ≤ maxSize) (outcome : WriteOutcome) :
    store.CommitsAsUnit fills false outcome file ↔ Harmless store.trades fills outcome := by
  have self : rebuildIndex store.path store.trades = store := ext_trades rfl rfl
  have total : (store.trades ++ fills).length ≤ maxSize := by rwa [List.length_append]
  unfold CommitsAsUnit
  rw [insertBatch_writes store small]
  cases outcome with
  | openFails => simp [writeAll, Harmless, agrees]
  | done =>
    have all := load_content store.path total []
    rw [List.append_nil] at all
    simp [writeAll, Harmless, all]
  | short bytes noticed =>
    rw [← load_cut store.path total]
    cases noticed with
    | true => simp [writeAll, self]
    | false => simp [writeAll]

/-- A batch commits as a unit exactly if the write of the file is not reached, or is not cut in a harmful place. -/
theorem insertBatch_commits_iff (store : TradeStore) (file : Option (List UInt8))
    (agrees : load store.path file = .ok store) (fills : List Fill) (failBeforeCommit : Bool) (outcome : WriteOutcome) :
    store.CommitsAsUnit fills failBeforeCommit outcome file ↔
      maxSize < store.trades.length + fills.length ∨ failBeforeCommit = true ∨ Harmless store.trades fills outcome := by
  by_cases long : maxSize < store.trades.length + fills.length
  · unfold CommitsAsUnit insertBatch
    rw [if_pos long]
    simp [long, agrees]
  by_cases fails : failBeforeCommit = true
  · unfold CommitsAsUnit insertBatch
    rw [if_neg long]
    simp [fails, agrees]
  rw [Bool.eq_false_of_not_eq_true fails, commits_iff_harmless store agrees (Nat.le_of_not_lt long)]
  simp [long]

/-- A noticed cut behind the counter leaves a file that is refused. -/
theorem insertBatch_cut (path : String) (before batch : List Fill) (small : before.length + batch.length ≤ maxSize)
    {bytes : Nat} (counted : 8 ≤ bytes) (cut : bytes < 8 + 40 * (before.length + batch.length)) :
    let store := rebuildIndex path before
    let result := store.insertBatch batch false (.short bytes true) (some (content before))
    result.2.2 = .error (.thrown ("write trade store failed: " ++ path)) ∧
      load path result.2.1 = .error (.thrown ("truncated trade store: " ++ path)) ∧
      ¬store.CommitsAsUnit batch false (.short bytes true) (some (content before)) := by
  have total : (before ++ batch).length ≤ maxSize := by rwa [List.length_append]
  have call := insertBatch_writes (rebuildIndex path before) small (.short bytes true) (some (content before))
  have refused : load path (some ((content (before ++ batch)).take bytes)) =
      .error (.thrown ("truncated trade store: " ++ path)) := by
    rw [load_taken path total, if_neg (by omega), if_neg (by rw [List.length_append]; omega)]
  dsimp only
  unfold CommitsAsUnit
  rw [call]
  refine ⟨rfl, refused, ?_⟩
  rintro ⟨_, loads⟩
  cases refused.symm.trans loads

/-- One trade is stored, and the write of twenty-five more, too long for the stream's buffer, stops after 60 bytes. -/
theorem insertBatch_torn :
    let store := rebuildIndex "trades.dat" [⟨1, 2, 100, 5, 1, 7⟩]
    let file := some (content store.trades)
    let batch := List.replicate 25 ⟨3, 4, 101, 6, 2, 7⟩
    load store.path file = .ok store ∧ (content (store.trades ++ batch)).length = 1048 ∧
      (store.insertBatch batch false (.short 60 true) file).2.2 =
        .error (.thrown "write trade store failed: trades.dat") ∧
      load store.path (store.insertBatch batch false (.short 60 true) file).2.1 =
        .error (.thrown "truncated trade store: trades.dat") ∧
      ¬store.CommitsAsUnit batch false (.short 60 true) file := by
  have agrees : load "trades.dat" (some (content [⟨1, 2, 100, 5, 1, 7⟩])) =
      .ok (rebuildIndex "trades.dat" [⟨1, 2, 100, 5, 1, 7⟩]) := rfl
  obtain ⟨thrown, refused, torn⟩ := insertBatch_cut "trades.dat" [⟨1, 2, 100, 5, 1, 7⟩]
    (List.replicate 25 ⟨3, 4, 101, 6, 2, 7⟩) (by decide) (show 8 ≤ 60 by decide) (by decide)
  exact ⟨agrees, content_length _, thrown, refused, torn⟩

theorem insertBatch_commits_iff_sample :
    let store := rebuildIndex "trades.dat" [⟨1, 2, 100, 5, 1, 7⟩]
    load store.path (some (content store.trades)) = .ok store ∧
      store.CommitsAsUnit [⟨3, 4, 101, 6, 2, 7⟩] false .done (some (content store.trades)) :=
  ⟨rfl, (insertBatch_commits_iff _ _ rfl _ _ _).mpr (Or.inr (Or.inr trivial))⟩

end TradeStore

end ChronoBook
