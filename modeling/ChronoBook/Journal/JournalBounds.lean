import ChronoBook.Journal.JournalReopening

/-! Where appends write. The size of the mapping is a product and a sum of 64-bit words,
while an append is only refused at the capacity itself; the two agree for exactly the
capacities whose size does not wrap. -/

namespace ChronoBook
open Library

namespace FillJournal

variable {journal journal' : FillJournal} {fills : List Fill} {capacity : UInt64}

/-- The states of a journal under appends, with those that were done; an append that throws changes nothing. -/
inductive Appended (start : FillJournal) : List Fill → FillJournal → Prop where
  | none : Appended start [] start
  | done {fills : List Fill} {fill : Fill} {journal journal' : FillJournal} (earlier : Appended start fills journal)
      (appends : journal.append fill = .ok journal') : Appended start (fills ++ [fill]) journal'

/-- The end of the record at an index, as the code would compute it. -/
def recordEnd (idx : UInt64) : UInt64 := 24 + (idx + 1) * 40

/-- An append that does not throw writes below the end of the mapping. -/
def WritesInside (journal : FillJournal) (fill : Fill) : Prop :=
  (∃ what, journal.append fill = .error (.thrown what)) ∨
    ∃ h, journal.header = .ok h ∧ 24 + 40 * (h.records.toNat + 1) ≤ journal.fileBytes.toNat ∧
      recordEnd h.records ≤ journal.fileBytes ∧ ∃ journal', journal.append fill = .ok journal'

/-- No append leaves the mapping, and what was appended is replayed behind what was there. -/
def AppendsInside (path : String) (start : FillJournal) : Prop :=
  ∀ fills journal, Appended start fills journal →
    (∀ fill, journal.WritesInside fill) ∧
      replay path (some journal.file) = .ok (records path (some start.file) ++ fills.map Fill.record)

theorem Appended.holds {start : FillJournal} {base : List Fill} (appended : Appended start fills journal)
    (holds : start.Holds base) :
    journal.Holds (base ++ fills) ∧ journal.capacity = start.capacity ∧ journal.fileBytes = start.fileBytes := by
  induction appended with
  | none => exact ⟨by rwa [List.append_nil], rfl, rfl⟩
  | done _ appends ih =>
    obtain ⟨before, capacity, size⟩ := ih
    obtain ⟨after, capacity', size'⟩ := before.append_ok appends
    rw [List.append_assoc] at after
    exact ⟨after, capacity'.trans capacity, size'.trans size⟩

theorem appended_batch (more : List Fill) :
    ∀ {start journal journal' : FillJournal} {fills : List Fill}, Appended start fills journal →
      journal.appendBatch more = .ok journal' → Appended start (fills ++ more) journal' := by
  induction more with
  | nil =>
    intro start journal journal' fills appended done
    cases done
    rwa [List.append_nil]
  | cons fill rest ih =>
    intro start journal journal' fills appended done
    obtain ⟨next, first, later⟩ := bind_ok done
    have last := ih (appended.done first) later
    rwa [List.append_assoc, List.singleton_append] at last

theorem recordEnd_le {idx : UInt64} {bytes : UInt64} (inside : 24 + 40 * (idx.toNat + 1) ≤ bytes.toNat) :
    recordEnd idx ≤ bytes := by
  have bound := bytes.toNat_lt
  have next : (idx + 1).toNat = idx.toNat + 1 := by
    rw [UInt64.toNat_add, UInt64.toNat_one]
    omega
  have product : ((idx + 1) * 40).toNat = (idx.toNat + 1) * 40 := by
    rw [UInt64.toNat_mul, next]
    change (idx.toNat + 1) * 40 % 2 ^ 64 = _
    omega
  rw [UInt64.le_iff_toNat_le, recordEnd, UInt64.toNat_add, product]
  change (24 + (idx.toNat + 1) * 40) % 2 ^ 64 ≤ _
  omega

theorem Holds.writesInside (holds : journal.Holds fills)
    (room : 24 + 40 * journal.capacity.toNat ≤ journal.fileBytes.toNat) (fill : Fill) : journal.WritesInside fill := by
  by_cases full : journal.capacity.toNat ≤ fills.length
  · have refused := holds.storeRecord fill
    rw [if_pos full] at refused
    refine Or.inl ⟨"fill journal full: " ++ journal.path, ?_⟩
    unfold FillJournal.append
    rw [refused]
    rfl
  · have inside : 24 + 40 * (fills.length + 1) ≤ journal.fileBytes.toNat := by omega
    obtain ⟨file, done, _⟩ := holds.append fill (Nat.lt_of_not_le full) inside
    have count := holds.count_toNat
    refine Or.inr ⟨_, holds.header_eq, ?_, recordEnd_le ?_, _, done⟩
    · rw [count]
      exact inside
    · rw [count]
      exact inside

def Constructible (capacity : UInt64) : Prop :=
  ∃ path existing journal, (create path capacity existing).2 = .ok journal

theorem Constructible.mappable (constructible : Constructible capacity) : Mappable capacity := by
  obtain ⟨path, existing, journal, opened⟩ := constructible
  have created : create path capacity existing = ((create path capacity existing).1, .ok journal) := Prod.ext rfl opened
  obtain ⟨_, _, _, size, h, headed⟩ := create_opened created
  have room := headed.room
  have positive := headed.positive
  rw [size] at room positive
  refine ⟨?_, room, positive⟩
  intro zero
  unfold create at opened
  rw [if_pos zero] at opened
  cases opened

theorem bytes_exact (unwrapped : 24 + 40 * capacity.toNat < 2 ^ 64) :
    (24 + capacity * 40).toNat = 24 + 40 * capacity.toNat := by
  rw [UInt64.toNat_add, UInt64.toNat_mul]
  change (24 + capacity.toNat * 40 % 2 ^ 64) % 2 ^ 64 = _
  omega

theorem appendsInside_of_unwrapped (unwrapped : 24 + 40 * capacity.toNat < 2 ^ 64) {path : String}
    {existing : Option (List UInt8)} (opened : (create path capacity existing).2 = .ok journal) :
    journal.AppendsInside path := by
  have created : create path capacity existing = ((create path capacity existing).1, .ok journal) := Prod.ext rfl opened
  obtain ⟨_, _, same, size, h, headed⟩ := create_opened created
  have bytes : journal.fileBytes.toNat = 24 + 40 * journal.capacity.toNat := by rw [size, same, bytes_exact unwrapped]
  have few := headed.records_le
  obtain ⟨base, _, holds⟩ := headed.holds (by omega)
  intro fills journal' appended
  obtain ⟨holds', same', size'⟩ := appended.holds holds
  refine ⟨holds'.writesInside (by rw [same', size', bytes]), ?_⟩
  rw [holds'.replay, holds.records, List.map_append]

/-- When the size has wrapped, a new journal runs over the end of its mapping before it is full. -/
theorem Holds.runs_over (holds : journal.Holds []) (wrapped : journal.fileBytes.toNat < 24 + 40 * journal.capacity.toNat) :
    ∃ fills journal', Appended journal fills journal' ∧ ∀ fill, journal'.append fill = .error .fault := by
  have room := holds.fits
  rw [List.length_nil] at room
  let count := (journal.fileBytes.toNat - 24) / 40
  let fills : List Fill := List.replicate count ⟨0, 0, 0, 0, 0, 0⟩
  have length : fills.length = count := List.length_replicate
  obtain ⟨journal', appends, _⟩ := holds.appendBatch fills (by rw [length, List.length_nil]; omega)
    (by rw [length, List.length_nil]; omega)
  have appended : Appended journal ([] ++ fills) journal' := appended_batch fills .none appends
  obtain ⟨holds', same, size⟩ := appended.holds holds
  refine ⟨_, journal', appended, ?_⟩
  intro fill
  have outside := holds'.storeRecord fill
  have total : ([] ++ ([] ++ fills)).length = count := length
  rw [total, same, size, if_neg (by omega), if_pos (by omega)] at outside
  unfold FillJournal.append
  rw [outside]
  rfl

theorem absent_none : (none : Option (List UInt8)).getD [] = [] := rfl

/-- Appends stay inside of the mapping for exactly the capacities whose size does not wrap. -/
theorem appends_inside_iff (capacity : UInt64) (constructible : Constructible capacity) :
    (∀ path existing journal, (create path capacity existing).2 = .ok journal → journal.AppendsInside path) ↔
      24 + 40 * capacity.toNat < 2 ^ 64 := by
  constructor
  · intro inside
    by_contra wraps
    have mappable := constructible.mappable
    obtain ⟨journal, created, holds, _, same, size⟩ := create_mappable mappable "" absent_none
    have wrapped : journal.fileBytes.toNat < 24 + 40 * journal.capacity.toNat := by
      have positive := holds.positive
      rw [same]
      omega
    obtain ⟨fills, journal', appended, fault⟩ := holds.runs_over wrapped
    have opened : (create "" capacity none).2 = .ok journal := by rw [created]
    have writes := (inside "" none journal opened fills journal' appended).1 ⟨0, 0, 0, 0, 0, 0⟩
    rcases writes with ⟨what, thrown⟩ | ⟨_, _, _, _, _, done⟩
    · rw [fault] at thrown
      cases thrown
    · rw [fault] at done
      cases done
  · intro unwrapped path existing journal opened
    exact appendsInside_of_unwrapped unwrapped opened

theorem appends_inside_iff_sample :
    ∃ journal, (create "fills" 2 none).2 = .ok journal ∧ journal.AppendsInside "fills" := by
  have mappable : Mappable 2 := by unfold Mappable; decide
  obtain ⟨journal, created, _⟩ := create_mappable mappable "fills" absent_none
  have opened : (create "fills" 2 none).2 = .ok journal := by rw [created]
  exact ⟨journal, opened, (appends_inside_iff 2 ⟨_, _, _, opened⟩).mpr (by decide) _ _ _ opened⟩

/-- The size for 2^61 records wraps to that of the header, and the first append is already outside. -/
theorem first_append_outside :
    ∃ journal, (create "fills" 0x2000000000000000 none).2 = .ok journal ∧ journal.fileBytes = 24 ∧
      journal.append ⟨1, 2, 100, 5, 1, 7⟩ = .error .fault := by
  have mappable : Mappable 0x2000000000000000 := by unfold Mappable; decide
  obtain ⟨journal, created, holds, _, same, size⟩ := create_mappable mappable "fills" absent_none
  have bytes : journal.fileBytes = 24 := size.trans (by decide)
  have outside := holds.storeRecord ⟨1, 2, 100, 5, 1, 7⟩
  rw [same, bytes, if_neg (by decide), if_pos (by decide)] at outside
  refine ⟨journal, by rw [created], bytes, ?_⟩
  unfold FillJournal.append
  rw [outside]
  rfl

end FillJournal

end ChronoBook
