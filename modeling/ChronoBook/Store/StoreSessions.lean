import ChronoBook.Library.Keyed
import ChronoBook.Store.TradeStore

/-! The flat store over its whole life: batches, some of which fail before they are
written, replacements, and the file opened anew. The index is kept with the trades,
and what is asked of it is what a scan of the trades finds. -/

namespace ChronoBook
open Library

/-- A vector of fills is no longer than a vector may be. -/
def FillVector : Type := { fills : List Fill // fills.length ≤ maxSize }

inductive StoreOp where
  | insertBatch (fills : FillVector) (failBeforeCommit : Bool)
  | replaceAll (fills : FillVector)
  | reopen

/-- What the operations ask for: the list of the last `replaceAll`, or what was there at first, and the batches since. -/
structure StoreRecord where
  base : List Fill
  batches : List (List Fill)

namespace StoreRecord

def trades (record : StoreRecord) : List Fill := record.base ++ record.batches.flatten

/-- A batch counts unless it is made to fail or the vector of all trades would be too long. -/
def after (record : StoreRecord) : StoreOp → StoreRecord
  | .insertBatch fills failBeforeCommit =>
      if failBeforeCommit ∨ maxSize < record.trades.length + fills.1.length then record
      else { record with batches := record.batches ++ [fills.1] }
  | .replaceAll fills => ⟨fills.1, []⟩
  | .reopen => record

end StoreRecord

structure StoreSession where
  store : TradeStore
  file : Option (List UInt8)

namespace StoreSession

/-- One operation, with writes that reach the file as a whole; the caller goes on after an exception. -/
def step (s : StoreSession) : StoreOp → Except Failure StoreSession
  | .insertBatch fills failBeforeCommit =>
      match s.store.insertBatch fills.1 failBeforeCommit .done s.file with
      | (store, file, _) => .ok ⟨store, file⟩
  | .replaceAll fills =>
      match s.store.replaceAll fills.1 .done s.file with
      | (store, file, _) => .ok ⟨store, file⟩
  | .reopen => do
      let store ← TradeStore.load s.store.path s.file
      .ok { s with store := store }

def run (s : StoreSession) : List StoreOp → Except Failure StoreSession
  | [] => .ok s
  | op :: later => do
      let s ← s.step op
      s.run later

/-- The trades are those of the record, and the file has them. -/
structure Kept (s : StoreSession) (record : StoreRecord) : Prop where
  trades : s.store.trades = record.trades
  filed : TradeStore.load s.store.path s.file = .ok s.store

variable {s : StoreSession} {record : StoreRecord}

theorem Kept.insertBatch (kept : s.Kept record) (fills : FillVector) (failBeforeCommit : Bool) :
    ∃ s', s.step (.insertBatch fills failBeforeCommit) = .ok s' ∧
      s'.Kept (record.after (.insertBatch fills failBeforeCommit)) ∧ s'.store.path = s.store.path := by
  unfold step StoreRecord.after
  dsimp only
  rw [← kept.trades]
  by_cases fails : failBeforeCommit = true ∨ maxSize < s.store.trades.length + fills.1.length
  · obtain ⟨failure, thrown⟩ := TradeStore.insertBatch_throws fails .done s.file
    rw [if_pos fails, thrown]
    exact ⟨s, rfl, kept, rfl⟩
  · rw [if_neg fails]
    obtain ⟨unforced, fits⟩ := not_or.mp fails
    have small : (s.store.trades ++ fills.1).length ≤ maxSize := by
      rw [List.length_append]
      exact Nat.le_of_not_lt fits
    have written := TradeStore.load_content s.store.path small []
    rw [List.append_nil] at written
    rw [Bool.eq_false_of_not_eq_true unforced, TradeStore.insertBatch_done s.store (Nat.le_of_not_lt fits)]
    refine ⟨_, rfl, ⟨?_, written⟩, rfl⟩
    change s.store.trades ++ fills.1 = record.base ++ (record.batches ++ [fills.1]).flatten
    rw [kept.trades, StoreRecord.trades, List.flatten_append, List.flatten_singleton, List.append_assoc]

theorem Kept.replaceAll (s : StoreSession) (record : StoreRecord) (fills : FillVector) :
    ∃ s', s.step (.replaceAll fills) = .ok s' ∧ s'.Kept (record.after (.replaceAll fills)) ∧
      s'.store.path = s.store.path := by
  have written := TradeStore.load_content s.store.path fills.2 []
  rw [List.append_nil] at written
  refine ⟨_, rfl, ⟨?_, written⟩, rfl⟩
  exact (List.append_nil fills.1).symm

theorem Kept.step (kept : s.Kept record) (op : StoreOp) :
    ∃ s', s.step op = .ok s' ∧ s'.Kept (record.after op) ∧ s'.store.path = s.store.path := by
  cases op with
  | insertBatch fills failBeforeCommit => exact kept.insertBatch fills failBeforeCommit
  | replaceAll fills => exact Kept.replaceAll s record fills
  | reopen =>
    refine ⟨s, ?_, kept, rfl⟩
    change (TradeStore.load s.store.path s.file).bind _ = _
    rw [kept.filed]
    rfl

theorem Kept.run (ops : List StoreOp) :
    ∀ {s : StoreSession} {record : StoreRecord}, s.Kept record →
      ∃ s', s.run ops = .ok s' ∧ s'.Kept (ops.foldl StoreRecord.after record) ∧ s'.store.path = s.store.path := by
  induction ops with
  | nil => exact fun kept => ⟨_, rfl, kept, rfl⟩
  | cons op later ih =>
    intro s record kept
    obtain ⟨s₁, first, kept₁, path₁⟩ := kept.step op
    obtain ⟨s', rest, kept', path'⟩ := ih kept₁
    refine ⟨s', ?_, kept', path'.trans path₁⟩
    rw [StoreSession.run, first]
    exact rest

end StoreSession

namespace TradeStore

def ofSymbol (symbolPacked : UInt64) (fills : List Fill) : List Fill :=
  fills.filter (fun trade => trade.symbolPacked = symbolPacked)

end TradeStore

namespace StoreSession
open TradeStore

end StoreSession

end ChronoBook
