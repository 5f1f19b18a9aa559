import ChronoBook.Matching.FeedRun
import ChronoBook.Store.TradeStore
import Mathlib.Tactic.Positivity

/-! Recovery: the feed is replayed through one engine and compared with the journal
and the store, and the store is rebuilt from the journal. Averages are exact. -/

namespace ChronoBook
open Library

structure RecoveryReport where
  replayFills : Nat
  journalFills : Nat
  storeTrades : Nat
  journalMatches : Bool
  storeCountMatches : Bool
  storeVwapMatches : Bool
  replayVwap : ℚ
  storeVwap : ℚ

def RecoveryReport.ok (report : RecoveryReport) : Bool :=
  report.journalMatches && report.storeCountMatches && report.storeVwapMatches

namespace RecoveryReconciler

/-- The loop over the feed; a call of the engine that does not come back is a fault. -/
def replayMessages (engine : MatchingEngine) : List FeedMessage → Except Failure (List Fill)
  | [] => .ok []
  | msg :: later =>
      if !isValidFeedMessage msg then .error (.thrown "invalid feed message during recovery replay")
      else
        match engine.dispatch msg with
        | none => .error .fault
        | some (.dropped, _) => .error (.thrown "recovery replay pool exhausted")
        | some (_, engine) => do
            let (batch, engine) := engine.drainFills
            let fills ← replayMessages engine later
            .ok (batch ++ fills)

def poolSize (feed : List FeedMessage) (poolCapacity : UInt64) : UInt64 :=
  if poolCapacity = 0 then max 1024 (UInt64.ofNat feed.length + 1024) else poolCapacity

def replayFills (feed : List FeedMessage) (poolCapacity : UInt64) : Except Failure (List Fill) :=
  match MatchingEngine.construct (poolSize feed poolCapacity) with
  | none => .error .fault
  | some engine => replayMessages engine feed

/-- The condition under which the loop of `sameFills` gives up. -/
def differs (fill : Fill) (record : FillRecord) : Bool :=
  fill.buyOrderId != record.buyOrderId || fill.sellOrderId != record.sellOrderId || fill.price != record.price ||
    fill.qty != record.qty || fill.timestamp != record.timestamp || fill.symbolPacked != record.symbolPacked

def sameFills (fills : List Fill) (records : List FillRecord) : Bool :=
  if fills.length ≠ records.length then false
  else (fills.zip records).all (fun pair => !differs pair.1 pair.2)

/-- The times of the first and the last fill; without fills both stay zero. -/
def window (fills : List Fill) : UInt64 × UInt64 :=
  if fills.isEmpty then (0, 0)
  else (fills.foldl (fun beginTs fill => min beginTs fill.timestamp) 0xffffffffffffffff,
    fills.foldl (fun endTs fill => max endTs fill.timestamp) 0)

def vwap (fills : List Fill) : ℚ := if fills.isEmpty then 0 else TradeStore.average fills

def reconcile (feed : List FeedMessage) (journalPath : String) (journalFile : Option (List UInt8)) (storePath : String)
    (storeFile : Option (List UInt8)) (poolCapacity : UInt64) : Except Failure RecoveryReport := do
  let replayed ← replayFills feed poolCapacity
  let journal ← FillJournal.replay journalPath journalFile
  let store ← TradeStore.load storePath storeFile
  let (beginTs, endTs) := window replayed
  .ok
    { replayFills := replayed.length
      journalFills := journal.length
      storeTrades := store.tradeCount
      journalMatches := sameFills replayed journal
      storeCountMatches := store.tradeCount = replayed.length
      replayVwap := vwap replayed
      storeVwap := store.vwap beginTs endTs
      storeVwapMatches := |vwap replayed - store.vwap beginTs endTs| < 1 / 10 ^ 9 }

/-- The call leaves a store file; no call of the system fails. -/
def rebuildStoreFromJournal (journalPath : String) (journalFile : Option (List UInt8)) (storePath : String)
    (storeFile : Option (List UInt8)) : Option (List UInt8) × Except Failure Nat :=
  match FillJournal.replay journalPath journalFile with
  | .error failure => (storeFile, .error failure)
  | .ok records =>
      let fills := records.map FillRecord.fill
      match TradeStore.load storePath storeFile with
      | .error failure => (storeFile, .error failure)
      | .ok store =>
          match store.replaceAll fills .done storeFile with
          | (_, storeFile, .error failure) => (storeFile, .error failure)
          | (_, storeFile, .ok _) => (storeFile, .ok fills.length)

/-- A feed is a vector, so the chosen size does not wrap. -/
theorem poolSize_toNat {feed : List FeedMessage} (vector : feed.length ≤ maxSize) (poolCapacity : UInt64) :
    (poolSize feed poolCapacity).toNat = if poolCapacity = 0 then feed.length + 1024 else poolCapacity.toNat := by
  have limit : maxSize = 230584300921369395 := rfl
  have sum : (UInt64.ofNat feed.length + 1024).toNat = feed.length + 1024 := by
    rw [UInt64.toNat_add, UInt64.toNat_ofNat_of_lt' (by change _ < 2 ^ 64; omega)]
    change (feed.length + 1024) % 2 ^ 64 = _
    omega
  have larger : (1024 : UInt64) ≤ UInt64.ofNat feed.length + 1024 := by
    rw [UInt64.le_iff_toNat_le, sum]
    exact Nat.le_add_left 1024 feed.length
  unfold poolSize
  split
  · change (if (1024 : UInt64) ≤ UInt64.ofNat feed.length + 1024 then _ else _ : UInt64).toNat = _
    rw [if_pos larger, sum]
  · rfl

/-- The chosen size never wraps the storage of the pool; a given one may. -/
theorem construct_poolSize {feed : List FeedMessage} (vector : feed.length ≤ maxSize) (poolCapacity : UInt64) :
    MatchingEngine.construct (poolSize feed poolCapacity) =
      if poolCapacity.toNat * 48 < 2 ^ 64 then some (MatchingEngine.create (poolSize feed poolCapacity).toNat)
      else none := by
  have limit : maxSize = 230584300921369395 := rfl
  have same : (poolSize feed poolCapacity).toNat * 48 < 2 ^ 64 ↔ poolCapacity.toNat * 48 < 2 ^ 64 := by
    rw [poolSize_toNat vector]
    split
    next zero =>
      rw [zero, UInt64.toNat_zero]
      omega
    · exact Iff.rfl
  rw [MatchingEngine.construct_eq]
  simp only [same]

theorem differs_iff (fill : Fill) (record : FillRecord) : differs fill record = false ↔ record = fill.record := by
  obtain ⟨buy, sell, price, qty, time, symbol⟩ := record
  rw [eq_comm (a := _) (b := fill.record)]
  unfold differs Fill.record
  rw [FillRecord.mk.injEq]
  simp only [Bool.or_eq_false_iff, bne_eq_false_iff_eq, and_assoc]

theorem sameFills_iff (fills : List Fill) (records : List FillRecord) :
    sameFills fills records = true ↔ records = fills.map Fill.record := by
  unfold sameFills
  by_cases length : fills.length = records.length
  · rw [if_neg (not_not.mpr length)]
    induction fills generalizing records with
    | nil =>
      rw [List.eq_nil_of_length_eq_zero length.symm]
      simp
    | cons fill rest ih =>
      cases records with
      | nil => cases length
      | cons record later =>
        have here := differs_iff fill record
        have tail := ih later (Nat.succ.inj length)
        rw [List.zip_cons_cons, List.all_cons, Bool.and_eq_true, tail, Bool.not_eq_true', here, List.map_cons,
          List.cons.injEq]
  · rw [if_pos length]
    constructor
    · intro same
      cases same
    · intro same
      rw [same, List.length_map] at length
      exact absurd rfl length

variable {feed : List FeedMessage} {journalPath storePath : String} {journalFile storeFile : Option (List UInt8)}
  {poolCapacity : UInt64}

structure Agrees (replayed : List Fill) (journal : List FillRecord) (trades : List Fill) : Prop where
  journal : journal = replayed.map Fill.record
  count : trades.length = replayed.length
  average : |vwap replayed - TradeStore.average
    (TradeStore.inWindow (window replayed).1 (window replayed).2 trades)| < 1 / 10 ^ 9

theorem reconcile_report {replayed : List Fill} {journal : List FillRecord} {store : TradeStore}
    (replays : replayFills feed poolCapacity = .ok replayed)
    (reads : FillJournal.replay journalPath journalFile = .ok journal)
    (loads : TradeStore.load storePath storeFile = .ok store) :
    ∃ report, reconcile feed journalPath journalFile storePath storeFile poolCapacity = .ok report ∧
      (report.ok = true ↔ Agrees replayed journal store.trades) := by
  unfold reconcile
  rw [replays, reads, loads]
  refine ⟨_, rfl, ?_⟩
  unfold RecoveryReport.ok
  rw [Bool.and_eq_true, Bool.and_eq_true, sameFills_iff, decide_eq_true_eq, decide_eq_true_eq]
  constructor
  · intro checks
    exact ⟨checks.1.1, checks.1.2, checks.2⟩
  · intro agrees
    exact ⟨⟨agrees.journal, agrees.count⟩, agrees.average⟩

theorem le_max_time (a b : UInt64) : a ≤ max a b ∧ b ≤ max a b := by
  change a ≤ (if a ≤ b then b else a) ∧ b ≤ (if a ≤ b then b else a)
  split
  next below => exact ⟨below, UInt64.le_refl b⟩
  next above => exact ⟨UInt64.le_refl a, UInt64.le_of_lt (UInt64.not_le.mp above)⟩

theorem foldl_min_le (fills : List Fill) : ∀ start : UInt64,
    fills.foldl (fun beginTs fill => min beginTs fill.timestamp) start ≤ start ∧
      ∀ fill ∈ fills, fills.foldl (fun beginTs fill => min beginTs fill.timestamp) start ≤ fill.timestamp := by
  induction fills with
  | nil =>
    intro start
    exact ⟨UInt64.le_refl _, nofun⟩
  | cons first later ih =>
    intro start
    obtain ⟨below, rest⟩ := ih (min start first.timestamp)
    refine ⟨UInt64.le_trans below Std.min_le_left, fun fill inside => ?_⟩
    rcases List.mem_cons.mp inside with same | later
    · rw [same]
      exact UInt64.le_trans below Std.min_le_right
    · exact rest fill later

theorem le_foldl_max (fills : List Fill) : ∀ start : UInt64,
    start ≤ fills.foldl (fun endTs fill => max endTs fill.timestamp) start ∧
      ∀ fill ∈ fills, fill.timestamp ≤ fills.foldl (fun endTs fill => max endTs fill.timestamp) start := by
  induction fills with
  | nil =>
    intro start
    exact ⟨UInt64.le_refl _, nofun⟩
  | cons first later ih =>
    intro start
    obtain ⟨above, rest⟩ := ih (max start first.timestamp)
    refine ⟨UInt64.le_trans (le_max_time _ _).1 above, fun fill inside => ?_⟩
    rcases List.mem_cons.mp inside with same | later
    · rw [same]
      exact UInt64.le_trans (le_max_time _ _).2 above
    · exact rest fill later

theorem inWindow_window (fills : List Fill) : TradeStore.inWindow (window fills).1 (window fills).2 fills = fills := by
  cases fills with
  | nil => rfl
  | cons first later =>
    apply List.filter_eq_self.mpr
    intro fill inside
    have early := (foldl_min_le (first :: later) 0xffffffffffffffff).2 fill inside
    have late := (le_foldl_max (first :: later) 0).2 fill inside
    rw [Bool.not_eq_true', Bool.or_eq_false_iff, decide_eq_false_iff_not, decide_eq_false_iff_not]
    exact ⟨UInt64.not_lt.mpr early, UInt64.not_lt.mpr late⟩

/-- A journal and a store with exactly the replayed fills satisfy the report. -/
theorem reconcile_same {fills : List Fill} (replays : replayFills feed poolCapacity = .ok fills)
    (reads : FillJournal.replay journalPath journalFile = .ok (fills.map Fill.record))
    (loads : TradeStore.load storePath storeFile = .ok (TradeStore.rebuildIndex storePath fills)) :
    ∃ report, reconcile feed journalPath journalFile storePath storeFile poolCapacity = .ok report ∧
      report.ok = true := by
  obtain ⟨report, reconciled, good⟩ := reconcile_report replays reads loads
  refine ⟨report, reconciled, good.mpr ⟨rfl, rfl, ?_⟩⟩
  have same : vwap fills = TradeStore.average fills := by
    unfold vwap
    cases fills <;> rfl
  change |_ - TradeStore.average (TradeStore.inWindow _ _ fills)| < _
  rw [inWindow_window, same, sub_self, abs_zero]
  positivity

/-- What a positive report says: the journal has the replayed fills, the store as many trades and the same average. -/
theorem reconcile_ok_iff (feed : List FeedMessage) (journalPath storePath : String)
    (journalFile storeFile : Option (List UInt8)) (poolCapacity : UInt64) :
    (∃ report, reconcile feed journalPath journalFile storePath storeFile poolCapacity = .ok report ∧ report.ok = true) ↔
      ∃ replayed journal trades, replayFills feed poolCapacity = .ok replayed ∧
        FillJournal.replay journalPath journalFile = .ok journal ∧
        TradeStore.load storePath storeFile = .ok (TradeStore.rebuildIndex storePath trades) ∧
        Agrees replayed journal trades := by
  constructor
  · intro positive
    obtain ⟨report, reconciled, good⟩ := positive
    obtain ⟨replayed, replays, rest⟩ := FillJournal.bind_ok reconciled
    obtain ⟨journal, reads, rest⟩ := FillJournal.bind_ok rest
    obtain ⟨store, loads, _⟩ := FillJournal.bind_ok rest
    obtain ⟨report', reconciled', agrees⟩ := reconcile_report replays reads loads
    rw [reconciled] at reconciled'
    cases reconciled'
    obtain ⟨trades, shape⟩ := TradeStore.load_shape loads
    subst shape
    exact ⟨replayed, journal, trades, replays, reads, loads, agrees.mp good⟩
  · intro agreement
    obtain ⟨replayed, journal, trades, replays, reads, loads, agrees⟩ := agreement
    obtain ⟨report, reconciled, good⟩ := reconcile_report replays reads loads
    exact ⟨report, reconciled, good.mpr agrees⟩

/-- A trade of other orders and of another symbol at the same price and time satisfies the report. -/
theorem reconcile_misses_other_trade :
    let feed := [makeAdd 1 1 .SELL .LIMIT 100 5 7, makeAdd 2 2 .BUY .LIMIT 100 5 7]
    let fill : Fill := ⟨2, 1, 100, 5, 2, 7⟩
    let other : Fill := ⟨9, 8, 100, 5, 2, 3⟩
    let journalFile := some (FillJournal.Header.codec.encode ⟨FillJournal.kMagic, 1, 1⟩ ++ Fill.codec.encode fill)
    replayFills feed 2 = .ok [fill] ∧
      TradeStore.load "trades.dat" (some (TradeStore.content [other])) = .ok (TradeStore.rebuildIndex "trades.dat" [other]) ∧
      other ≠ fill ∧
      ∃ report, reconcile feed "fills.journal" journalFile "trades.dat" (some (TradeStore.content [other])) 2 =
        .ok report ∧ report.ok = true := by
  have replays : replayFills [makeAdd 1 1 .SELL .LIMIT 100 5 7, makeAdd 2 2 .BUY .LIMIT 100 5 7] 2 =
      .ok [⟨2, 1, 100, 5, 2, 7⟩] := by decide
  have reads : FillJournal.replay "fills.journal" (some (FillJournal.Header.codec.encode ⟨FillJournal.kMagic, 1, 1⟩ ++
      Fill.codec.encode ⟨2, 1, 100, 5, 2, 7⟩)) = .ok [⟨2, 1, 100, 5, 2, 7⟩] := by decide
  have loads : TradeStore.load "trades.dat" (some (TradeStore.content [⟨9, 8, 100, 5, 2, 3⟩])) =
      .ok (TradeStore.rebuildIndex "trades.dat" [⟨9, 8, 100, 5, 2, 3⟩]) := rfl
  have seen : TradeStore.inWindow (window [⟨2, 1, 100, 5, 2, 7⟩]).1 (window [⟨2, 1, 100, 5, 2, 7⟩]).2
      [⟨9, 8, 100, 5, 2, 3⟩] = [⟨9, 8, 100, 5, 2, 3⟩] := by decide
  have same : vwap [⟨2, 1, 100, 5, 2, 7⟩] = TradeStore.average [⟨9, 8, 100, 5, 2, 3⟩] := rfl
  obtain ⟨report, reconciled, good⟩ := reconcile_report replays reads loads
  refine ⟨replays, loads, by decide, report, reconciled, good.mpr ⟨rfl, rfl, ?_⟩⟩
  change |_ - TradeStore.average (TradeStore.inWindow _ _ [⟨9, 8, 100, 5, 2, 3⟩])| < _
  rw [seen, same, sub_self, abs_zero]
  positivity

/-- The store is written and read back as the journal's records, and stays so when it is rebuilt again. -/
def Rebuilds (journalPath : String) (journalFile : Option (List UInt8)) (storePath : String)
    (storeFile : Option (List UInt8)) (records : List FillRecord) : Prop :=
  ∃ rebuilt, rebuildStoreFromJournal journalPath journalFile storePath storeFile = (rebuilt, .ok records.length) ∧
    TradeStore.load storePath rebuilt = .ok (TradeStore.rebuildIndex storePath (records.map FillRecord.fill)) ∧
    rebuildStoreFromJournal journalPath journalFile storePath rebuilt = (rebuilt, .ok records.length)

theorem rebuild_loaded {records : List FillRecord} {store : TradeStore}
    (reads : FillJournal.replay journalPath journalFile = .ok records)
    (loads : TradeStore.load storePath storeFile = .ok store) :
    rebuildStoreFromJournal journalPath journalFile storePath storeFile =
      (some (TradeStore.content (records.map FillRecord.fill)), .ok records.length) := by
  have count : (records.map FillRecord.fill).length = records.length := List.length_map ..
  unfold rebuildStoreFromJournal
  rw [reads]
  dsimp only
  rw [loads]
  dsimp only [TradeStore.replaceAll, TradeStore.writeAll]
  rw [count]

/-- The repair works exactly on a store file that the constructor can load. -/
theorem rebuildStoreFromJournal_iff {records : List FillRecord}
    (reads : FillJournal.replay journalPath journalFile = .ok records) (storePath : String)
    (storeFile : Option (List UInt8)) :
    Rebuilds journalPath journalFile storePath storeFile records ↔ TradeStore.Loadable storeFile := by
  have small : (records.map FillRecord.fill).length ≤ maxSize := by
    rw [List.length_map]
    exact FillJournal.replay_small reads
  have back : TradeStore.load storePath (some (TradeStore.content (records.map FillRecord.fill))) =
      .ok (TradeStore.rebuildIndex storePath (records.map FillRecord.fill)) := by
    have whole := TradeStore.load_content storePath small []
    rwa [List.append_nil] at whole
  constructor
  · intro rebuilds
    obtain ⟨rebuilt, first, _, _⟩ := rebuilds
    by_contra damaged
    obtain ⟨failure, failed⟩ := TradeStore.load_refused storePath damaged
    unfold rebuildStoreFromJournal at first
    rw [reads] at first
    dsimp only at first
    rw [failed] at first
    cases first
  · intro loadable
    obtain ⟨trades, loads⟩ := TradeStore.load_loadable storePath loadable
    exact ⟨_, rebuild_loaded reads loads, back, rebuild_loaded reads back⟩

/-- The remains of an interrupted write, the case that the repair is for. -/
theorem rebuild_refuses_torn_store :
    let fill : Fill := ⟨2, 1, 100, 5, 2, 7⟩
    let journalFile := some (FillJournal.Header.codec.encode ⟨FillJournal.kMagic, 1, 1⟩ ++ Fill.codec.encode fill)
    let storeFile := some ((TradeStore.content [fill]).take 20)
    FillJournal.replay "fills.journal" journalFile = .ok [fill.record] ∧
      rebuildStoreFromJournal "fills.journal" journalFile "trades.dat" storeFile =
        (storeFile, .error (.thrown "truncated trade store: trades.dat")) ∧
      ¬Rebuilds "fills.journal" journalFile "trades.dat" storeFile [fill.record] := by
  refine ⟨rfl, rfl, ?_⟩
  intro rebuilds
  obtain ⟨rebuilt, first, _, _⟩ := rebuilds
  cases congrArg Prod.snd first

theorem rebuildStoreFromJournal_iff_sample :
    let fill : Fill := ⟨2, 1, 100, 5, 2, 7⟩
    let journalFile := some (FillJournal.Header.codec.encode ⟨FillJournal.kMagic, 1, 1⟩ ++ Fill.codec.encode fill)
    FillJournal.replay "fills.journal" journalFile = .ok [fill.record] ∧
      Rebuilds "fills.journal" journalFile "trades.dat" (some (TradeStore.content [])) [fill.record] := by
  refine ⟨rfl, (rebuildStoreFromJournal_iff rfl "trades.dat" _).mpr ?_⟩
  intro bytes same _
  cases same
  decide

end RecoveryReconciler

end ChronoBook
