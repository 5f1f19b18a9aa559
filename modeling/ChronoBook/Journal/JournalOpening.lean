import ChronoBook.Journal.FillJournal

/-! Opening a journal. A new file is sized and gets its header, an old one is filled
up to the mapping and its header checked; what the constructor accepts can be
appended to, unless its size has wrapped and the mapping is too small. -/

namespace ChronoBook
open Library

namespace FillJournal

variable {journal journal' : FillJournal} {fills : List Fill} {fill : Fill}

theorem store_inside {offset : Nat} {bytes : List UInt8} (fits : offset + bytes.length ≤ journal.fileBytes.toNat)
    (inside : offset + bytes.length ≤ journal.file.length) :
    journal.store offset bytes = .ok { journal with file := patch journal.file offset bytes } := if_pos ⟨fits, inside⟩

theorem store_ok {offset : Nat} {bytes : List UInt8} (stored : journal.store offset bytes = .ok journal') :
    journal' = { journal with file := patch journal.file offset bytes } ∧
      offset + bytes.length ≤ journal.fileBytes.toNat ∧ offset + bytes.length ≤ journal.file.length := by
  unfold store at stored
  split at stored
  next inside =>
    cases stored
    exact ⟨rfl, inside⟩
  · cases stored

/-- The journal with a file that is a header and something behind it. -/
def laid (journal : FillJournal) (h : Header) (rest : List UInt8) : FillJournal :=
  { journal with file := Header.codec.encode h ++ rest }

theorem store_laid {h h' : Header} {rest : List UInt8} {offset : Nat} {value : UInt64}
    (whole : 24 + rest.length = journal.fileBytes.toNat) (field : offset + 8 ≤ 24)
    (patched : patch (Header.codec.encode h ++ rest) offset (Codec.uint64.encode value) =
      Header.codec.encode h' ++ rest) :
    (journal.laid h rest).store offset (Codec.uint64.encode value) = .ok (journal.laid h' rest) := by
  have fits : offset + (Codec.uint64.encode value).length ≤ (journal.laid h rest).fileBytes.toNat := by
    rw [uint64_length]
    change offset + 8 ≤ journal.fileBytes.toNat
    omega
  have inside : offset + (Codec.uint64.encode value).length ≤ (journal.laid h rest).file.length := by
    change _ ≤ (Header.codec.encode h ++ rest).length
    rw [uint64_length, List.length_append, header_length]
    omega
  rw [store_inside fits inside]
  exact congrArg Except.ok (congrArg (fun file => { journal with file := file }) patched)

/-- The stores that make the header of a new file, in their order. -/
def stores (journal : FillJournal) : List (Nat × List UInt8) :=
  [(0, List.replicate journal.fileBytes.toNat 0), (0, Codec.uint64.encode kMagic), (8, Codec.uint64.encode 0),
    (16, Codec.uint64.encode journal.capacity)]

def storeAll (journal : FillJournal) : List (Nat × List UInt8) → Except Failure FillJournal
  | [] => .ok journal
  | write :: rest => do
      let journal ← journal.store write.1 write.2
      journal.storeAll rest

theorem storeAll_cons {write : Nat × List UInt8} (done : journal.store write.1 write.2 = .ok journal')
    (rest : List (Nat × List UInt8)) : journal.storeAll (write :: rest) = journal'.storeAll rest := by
  rw [storeAll, done]
  rfl

theorem bind_congr_ok {α β : Type} {attempt : Except Failure α} {next next' : α → Except Failure β}
    (same : ∀ value, attempt = .ok value → next value = next' value) : attempt >>= next = attempt >>= next' := by
  cases attempt with
  | error failure => rfl
  | ok value => exact same value rfl

theorem initialize_stores (fresh : journal.newFile = true) :
    journal.initializeOrValidateHeader = journal.storeAll journal.stores := by
  unfold initializeOrValidateHeader stores
  rw [if_pos fresh]
  refine bind_congr_ok (fun first cleared => ?_)
  refine bind_congr_ok (fun second marked => ?_)
  refine bind_congr_ok (fun third counted => ?_)
  have capacity : third.capacity = journal.capacity := by
    rw [(store_ok counted).1, (store_ok marked).1, (store_ok cleared).1]
  rw [capacity, storeAll]
  exact (bind_pure _).symm

def headerAfter (capacity : UInt64) : Nat → Header
  | 0 | 1 => ⟨0, 0, 0⟩
  | 2 | 3 => ⟨kMagic, 0, 0⟩
  | _ => ⟨kMagic, 0, capacity⟩

/-- A file of zeros under the first stores. -/
theorem storeAll_take (room : 24 ≤ journal.fileBytes.toNat)
    (zeros : journal.file = List.replicate journal.fileBytes.toNat 0) (count : Nat) :
    journal.storeAll (journal.stores.take count) =
      .ok (journal.laid (headerAfter journal.capacity count) (List.replicate (journal.fileBytes.toNat - 24) 0)) := by
  let rest : List UInt8 := List.replicate (journal.fileBytes.toNat - 24) 0
  have whole : 24 + rest.length = journal.fileBytes.toNat := by
    rw [List.length_replicate]
    omega
  have blank : Header.codec.encode ⟨0, 0, 0⟩ ++ rest = List.replicate journal.fileBytes.toNat 0 := by
    have front : Header.codec.encode ⟨0, 0, 0⟩ = List.replicate 24 0 := by decide
    rw [front, ← List.replicate_add, Nat.add_sub_cancel' room]
  have cleared : journal.store 0 (List.replicate journal.fileBytes.toNat 0) = .ok (journal.laid ⟨0, 0, 0⟩ rest) := by
    rw [store_inside (by simp) (by simp [zeros])]
    unfold laid patch
    rw [zeros, blank]
    simp
  have marked : (journal.laid ⟨0, 0, 0⟩ rest).store 0 (Codec.uint64.encode kMagic) =
      .ok (journal.laid ⟨kMagic, 0, 0⟩ rest) := store_laid whole (by omega) (patch_magic _ _ _)
  have counted : (journal.laid ⟨kMagic, 0, 0⟩ rest).store 8 (Codec.uint64.encode 0) =
      .ok (journal.laid ⟨kMagic, 0, 0⟩ rest) := store_laid whole (by omega) (patch_records _ _ _)
  have done : (journal.laid ⟨kMagic, 0, 0⟩ rest).store 16 (Codec.uint64.encode journal.capacity) =
      .ok (journal.laid ⟨kMagic, 0, journal.capacity⟩ rest) := store_laid whole (by omega) (patch_capacity _ _ _)
  have start : journal = journal.laid ⟨0, 0, 0⟩ rest := by
    unfold laid
    rw [blank, ← zeros]
  rcases count with _ | _ | _ | _ | count
  · exact congrArg Except.ok start
  · exact storeAll_cons cleared []
  · exact (storeAll_cons cleared _).trans (storeAll_cons marked [])
  · exact (storeAll_cons cleared _).trans ((storeAll_cons marked _).trans (storeAll_cons counted []))
  · rw [List.take_of_length_le (Nat.le_add_left 4 count)]
    exact (storeAll_cons cleared _).trans
      ((storeAll_cons marked _).trans ((storeAll_cons counted _).trans (storeAll_cons done [])))

/-- A new file is initialised when it is large enough for the header. -/
theorem initialize_zeros (fresh : journal.newFile = true) (room : 24 ≤ journal.fileBytes.toNat)
    (zeros : journal.file = List.replicate journal.fileBytes.toNat 0) :
    journal.initializeOrValidateHeader =
      .ok (journal.laid ⟨kMagic, 0, journal.capacity⟩ (List.replicate (journal.fileBytes.toNat - 24) 0)) := by
  rw [initialize_stores fresh]
  exact storeAll_take room zeros 4

/-- A new file gets a header only if the whole mapping is in the file and the header in the mapping. -/
theorem initialize_ok (fresh : journal.newFile = true) (done : journal.initializeOrValidateHeader = .ok journal') :
    24 ≤ journal.fileBytes.toNat ∧ journal.fileBytes.toNat ≤ journal.file.length := by
  unfold initializeOrValidateHeader at done
  rw [if_pos fresh] at done
  obtain ⟨cleared, first, rest⟩ := bind_ok done
  obtain ⟨marked, second, rest⟩ := bind_ok rest
  obtain ⟨counted, third, last⟩ := bind_ok rest
  obtain ⟨one, _, whole⟩ := store_ok first
  obtain ⟨two, _, _⟩ := store_ok second
  obtain ⟨three, _, _⟩ := store_ok third
  obtain ⟨_, fits, _⟩ := store_ok last
  rw [List.length_replicate] at whole
  rw [uint64_length, three, two, one] at fits
  dsimp only at fits
  omega

theorem sizedFile_empty {fileBytes : UInt64} (positive : fileBytes.toNat < 2 ^ 63) :
    sizedFile fileBytes [] = List.replicate fileBytes.toNat 0 := by
  unfold sizedFile offT
  rw [if_pos positive]
  by_cases empty : fileBytes.toNat = 0
  · rw [empty]
    rfl
  · rw [if_pos (by change ((0 : Nat) : Int) < _; omega)]
    simp

theorem sizedFile_negative {fileBytes : UInt64} (negative : ¬fileBytes.toNat < 2 ^ 63) : sizedFile fileBytes [] = [] := by
  unfold sizedFile offT
  have bound := fileBytes.toNat_lt
  rw [if_neg negative, if_neg (by change ¬((0 : Nat) : Int) < _; omega)]

/-- The header has room in the mapping, and the mapping is a size that a file can have. -/
def Mappable (capacity : UInt64) : Prop :=
  capacity ≠ 0 ∧ 24 ≤ (24 + capacity * 40).toNat ∧ (24 + capacity * 40).toNat < 2 ^ 63

theorem bytes_of_fits {capacity : UInt64} (fits : 24 + 40 * capacity.toNat < 2 ^ 63) :
    (24 + capacity * 40).toNat = 24 + 40 * capacity.toNat := by
  rw [UInt64.toNat_add, UInt64.toNat_mul]
  change (24 + capacity.toNat * 40 % 2 ^ 64) % 2 ^ 64 = _
  omega

theorem mappable_of_fits {capacity : UInt64} (positive : 1 ≤ capacity.toNat) (fits : 24 + 40 * capacity.toNat < 2 ^ 63) :
    Mappable capacity := by
  have bytes := bytes_of_fits fits
  refine ⟨?_, by omega, by omega⟩
  intro zero
  rw [zero] at positive
  exact absurd positive (by decide)

theorem openMapping_mappable {capacity : UInt64} (mappable : Mappable capacity) (path : String) (existing : List UInt8) :
    openMapping path capacity existing = .ok ⟨path, capacity, 24 + capacity * 40, existing.length = 0,
      sizedFile (24 + capacity * 40) existing⟩ := by
  obtain ⟨_, room, positive⟩ := mappable
  apply if_neg
  rintro (nothing | large)
  · rw [nothing] at room
    exact absurd room (by decide)
  · omega

theorem create_mappable {capacity : UInt64} (mappable : Mappable capacity) (path : String)
    {existing : Option (List UInt8)} (absent : existing.getD [] = []) :
    ∃ journal : FillJournal, create path capacity existing = (some journal.file, .ok journal) ∧ journal.Holds [] ∧
      journal.path = path ∧ journal.capacity = capacity ∧ journal.fileBytes = 24 + capacity * 40 := by
  have mapping := openMapping_mappable mappable path []
  obtain ⟨some, room, positive⟩ := mappable
  rw [sizedFile_empty positive] at mapping
  let opened : FillJournal := ⟨path, capacity, 24 + capacity * 40, true, List.replicate (24 + capacity * 40).toNat 0⟩
  let journal := opened.laid ⟨kMagic, 0, capacity⟩ (List.replicate ((24 + capacity * 40).toNat - 24) 0)
  have mapped : openMapping path capacity [] = .ok opened := mapping
  have ready : opened.initializeOrValidateHeader = .ok journal := initialize_zeros rfl room rfl
  refine ⟨journal, ?_, ⟨Nat.le_of_eq ?_, positive, room, Nat.zero_le _, _, rfl⟩, rfl, rfl, rfl⟩
  · unfold create
    rw [if_neg some, absent, mapped]
    dsimp only
    rw [ready]
  · change _ = (Header.codec.encode ⟨kMagic, 0, capacity⟩ ++ List.replicate ((24 + capacity * 40).toNat - 24) 0).length
    rw [List.length_append, header_length, List.length_replicate]
    change (24 + capacity * 40).toNat = _
    omega

/-- Without a mapping of a proper size the constructor fails, and leaves no file that has a header. -/
theorem create_unmappable {capacity : UInt64} (unmappable : ¬Mappable capacity) (path : String)
    {existing : Option (List UInt8)} (absent : existing.getD [] = []) :
    ∃ file failure, create path capacity existing = (file, .error failure) ∧ (file.getD []).length < 24 := by
  have short : (sizedFile (24 + capacity * 40) []).length < 24 ∨ capacity = 0 := by
    by_cases zero : capacity = 0
    · exact Or.inr zero
    left
    by_cases positive : (24 + capacity * 40).toNat < 2 ^ 63
    · rw [sizedFile_empty positive, List.length_replicate]
      by_contra long
      exact unmappable ⟨zero, Nat.le_of_not_lt long, positive⟩
    · rw [sizedFile_negative positive]
      decide
  unfold create
  by_cases zero : capacity = 0
  · rw [if_pos zero]
    exact ⟨existing, _, rfl, by rw [absent]; decide⟩
  rw [if_neg zero, absent]
  have few := short.resolve_right zero
  unfold openMapping
  dsimp only
  by_cases refused : 24 + capacity * 40 = 0 ∨ 2 ^ 63 ≤ (24 + capacity * 40).toNat
  · rw [if_pos refused]
    exact ⟨_, _, rfl, few⟩
  rw [if_neg refused]
  dsimp only
  split
  · exact ⟨_, _, rfl, few⟩
  next journal ready =>
    obtain ⟨room, whole⟩ := initialize_ok rfl ready
    dsimp only at room whole
    omega

/-- The file is never shortened, and reaches the end of a mapping that a file can have. -/
theorem sizedFile_grows (fileBytes : UInt64) (existing : List UInt8) :
    ∃ zeros, sizedFile fileBytes existing = existing ++ List.replicate zeros 0 ∧
      (fileBytes.toNat < 2 ^ 63 → fileBytes.toNat ≤ existing.length + zeros) := by
  unfold sizedFile
  by_cases short : (existing.length : Int) < offT fileBytes
  · rw [if_pos short]
    exact ⟨_, rfl, fun _ => by omega⟩
  · rw [if_neg short]
    refine ⟨0, (List.append_nil _).symm, fun positive => ?_⟩
    unfold offT at short
    rw [if_pos positive] at short
    omega

theorem validateHeader_ok {h : Header} (done : journal.validateHeader h = .ok journal') :
    h.magic = kMagic ∧ h.capacity = journal.capacity ∧ ¬h.records > h.capacity ∧ journal' = journal := by
  unfold validateHeader at done
  split at done
  · cases done
  next magic =>
    split at done
    · cases done
    next capacity =>
      split at done
      · cases done
      next few =>
        cases done
        exact ⟨not_not.mp magic, not_not.mp capacity, few, rfl⟩

/-- Opening a file that has a header: the file is kept, filled up to the mapping, and the header checked. -/
theorem create_headed {capacity : UInt64} (mappable : Mappable capacity) (path : String) (h : Header)
    (rest : List UInt8) :
    ∃ zeros, (24 + capacity * 40).toNat ≤ (Header.codec.encode h ++ rest).length + zeros ∧
      let file := Header.codec.encode h ++ (rest ++ List.replicate zeros 0)
      create path capacity (some (Header.codec.encode h ++ rest)) =
        (some file, (⟨path, capacity, 24 + capacity * 40, false, file⟩ : FillJournal).validateHeader h) := by
  have mapped := openMapping_mappable mappable path (Header.codec.encode h ++ rest)
  obtain ⟨nonzero, room, positive⟩ := mappable
  obtain ⟨zeros, sized, reaches⟩ := sizedFile_grows (24 + capacity * 40) (Header.codec.encode h ++ rest)
  refine ⟨zeros, reaches positive, ?_⟩
  rw [List.append_assoc] at sized
  have old : decide ((Header.codec.encode h ++ rest).length = 0) = false := by
    rw [List.length_append, header_length]
    exact decide_eq_false (by omega)
  have reads : (⟨path, capacity, 24 + capacity * 40, false,
      Header.codec.encode h ++ (rest ++ List.replicate zeros 0)⟩ : FillJournal).header = .ok h := by
    have long : 24 ≤ (Header.codec.encode h ++ (rest ++ List.replicate zeros 0)).length := by
      rw [List.length_append, header_length]
      omega
    unfold header
    rw [if_pos ⟨room, long⟩, List.take_left' (header_length _), Header.codec.decode_encode]
  unfold create
  rw [if_neg nonzero, Option.getD_some, mapped, sized, old]
  have validates : (⟨path, capacity, 24 + capacity * 40, false,
      Header.codec.encode h ++ (rest ++ List.replicate zeros 0)⟩ : FillJournal).initializeOrValidateHeader =
        validateHeader ⟨path, capacity, 24 + capacity * 40, false,
          Header.codec.encode h ++ (rest ++ List.replicate zeros 0)⟩ h := by
    unfold initializeOrValidateHeader
    rw [if_neg Bool.false_ne_true, reads]
    rfl
  dsimp only
  rw [validates]
  cases checked : validateHeader _ h with
  | error failure => rfl
  | ok journal =>
    obtain ⟨_, _, _, same⟩ := validateHeader_ok checked
    rw [same]

/-- A mapping that cannot be made is refused before the header is looked at. -/
theorem create_refused {capacity : UInt64} (unmappable : ¬Mappable capacity) (path : String) (h : Header)
    (rest : List UInt8) :
    ∃ more failure, create path capacity (some (Header.codec.encode h ++ rest)) =
      (some (Header.codec.encode h ++ more), .error failure) := by
  obtain ⟨zeros, sized, _⟩ := sizedFile_grows (24 + capacity * 40) (Header.codec.encode h ++ rest)
  rw [List.append_assoc] at sized
  have old : decide ((Header.codec.encode h ++ rest).length = 0) = false := by
    rw [List.length_append, header_length]
    exact decide_eq_false (by omega)
  unfold create
  by_cases zero : capacity = 0
  · rw [if_pos zero]
    exact ⟨rest, _, rfl⟩
  rw [if_neg zero, Option.getD_some]
  unfold openMapping
  dsimp only
  rw [sized, old]
  by_cases refused : 24 + capacity * 40 = 0 ∨ 2 ^ 63 ≤ (24 + capacity * 40).toNat
  · rw [if_pos refused]
    exact ⟨_, _, rfl⟩
  -- what is left is a mapping too small for the header
  have small : ¬24 ≤ (24 + capacity * 40).toNat := by
    intro room
    exact unmappable ⟨zero, room, Nat.lt_of_not_le (not_or.mp refused).2⟩
  rw [if_neg refused]
  dsimp only
  unfold initializeOrValidateHeader header
  rw [if_neg Bool.false_ne_true, if_neg (fun inside => small inside.1)]
  exact ⟨_, _, rfl⟩

/-- A journal without records: no file, an empty file, or a header that counts none. -/
def Blank (file : Option (List UInt8)) : Prop :=
  file.getD [] = [] ∨ ∃ capacity rest, file = some (Header.codec.encode ⟨kMagic, 0, capacity⟩ ++ rest)

theorem records_short (path : String) {file : Option (List UInt8)} (short : (file.getD []).length < 24) :
    records path file = [] := by
  cases file with
  | none => rfl
  | some bytes =>
    rw [Option.getD_some] at short
    unfold records replay
    dsimp only
    rw [if_pos short]

theorem records_uncounted (path : String) (capacity : UInt64) (rest : List UInt8) :
    records path (some (Header.codec.encode ⟨kMagic, 0, capacity⟩ ++ rest)) = [] := by
  have long : ¬(Header.codec.encode ⟨kMagic, 0, capacity⟩ ++ rest).length < 24 := by
    rw [List.length_append, header_length]
    omega
  have few : ¬(0 : UInt64) > capacity := by
    rw [gt_iff_lt, UInt64.lt_iff_toNat_lt]
    exact Nat.not_lt_zero _
  have zero : (0 : UInt64).toNat = 0 := rfl
  unfold records replay
  dsimp only
  rw [if_neg long, List.take_left' (header_length _), Header.codec.decode_encode]
  dsimp only
  rw [if_neg (by simp), if_neg few, zero, if_neg (Nat.not_lt_zero _), if_neg (by omega)]
  rfl

theorem Blank.records {file : Option (List UInt8)} (blank : Blank file) (path : String) :
    FillJournal.records path file = [] := by
  rcases blank with absent | ⟨capacity, rest, same⟩
  · exact records_short path (by rw [absent]; decide)
  · rw [same, records_uncounted]

/-- Opening a file without records, whether it succeeds or not, leaves a file without records. -/
theorem create_blank_records {existing : Option (List UInt8)} (blank : Blank existing) (path : String)
    (capacity : UInt64) : records path (create path capacity existing).1 = [] := by
  by_cases mappable : Mappable capacity
  · rcases blank with absent | ⟨counted, rest, same⟩
    · obtain ⟨journal, created, holds, _⟩ := create_mappable mappable path absent
      rw [created]
      exact holds.records path
    · subst same
      obtain ⟨zeros, _, opened⟩ := create_headed mappable path ⟨kMagic, 0, counted⟩ rest
      dsimp only at opened
      cases checked : validateHeader ⟨path, capacity, 24 + capacity * 40, false,
          Header.codec.encode ⟨kMagic, 0, counted⟩ ++ (rest ++ List.replicate zeros 0)⟩ ⟨kMagic, 0, counted⟩ with
      | error failure =>
        rw [checked] at opened
        rw [opened]
        exact records_uncounted path counted _
      | ok journal =>
        obtain ⟨_, _, _, same⟩ := validateHeader_ok checked
        rw [checked] at opened
        subst same
        rw [opened]
        exact records_uncounted path counted _
  · rcases blank with absent | ⟨counted, rest, same⟩
    · obtain ⟨file, failure, failed, short⟩ := create_unmappable mappable path absent
      rw [failed]
      exact records_short path short
    · subst same
      obtain ⟨more, failure, failed⟩ := create_refused mappable path ⟨kMagic, 0, counted⟩ rest
      rw [failed]
      exact records_uncounted path counted more

theorem Holds.reopen (holds : journal.Holds fills) (mappable : Mappable journal.capacity)
    (size : journal.fileBytes = 24 + journal.capacity * 40) (path : String) :
    ∃ journal' : FillJournal, create path journal.capacity (some journal.file) = (some journal'.file, .ok journal') ∧
      journal'.Holds fills ∧ journal'.path = path ∧ journal'.capacity = journal.capacity ∧
      journal'.fileBytes = journal.fileBytes := by
  obtain ⟨rest, layout⟩ := holds.layout
  obtain ⟨zeros, reaches, opened⟩ := create_headed mappable path
    ⟨kMagic, UInt64.ofNat fills.length, journal.capacity⟩ (Fill.codec.encodeAll fills ++ rest)
  have few : ¬UInt64.ofNat fills.length > journal.capacity := by
    rw [gt_iff_lt, UInt64.lt_iff_toNat_lt, holds.count_toNat]
    exact Nat.not_lt.mpr holds.bounded
  dsimp only at opened
  unfold validateHeader at opened
  rw [if_neg (by simp), if_neg (by simp), if_neg few, ← layout] at opened
  let journal' : FillJournal := ⟨path, journal.capacity, 24 + journal.capacity * 40, false,
    Header.codec.encode ⟨kMagic, UInt64.ofNat fills.length, journal.capacity⟩ ++
      (Fill.codec.encodeAll fills ++ rest ++ List.replicate zeros 0)⟩
  have fits := holds.fits
  rw [size] at fits
  refine ⟨journal', opened, ⟨?_, mappable.2.2, fits, holds.bounded, rest ++ List.replicate zeros 0, ?_⟩,
    rfl, rfl, size.symm⟩
  · change _ ≤ (Header.codec.encode ⟨kMagic, UInt64.ofNat fills.length, journal.capacity⟩ ++
      (Fill.codec.encodeAll fills ++ rest ++ List.replicate zeros 0)).length
    rw [← List.append_assoc, List.length_append, List.length_replicate]
    exact reaches
  · change Header.codec.encode _ ++ (Fill.codec.encodeAll fills ++ rest ++ List.replicate zeros 0) = _
    rw [List.append_assoc]

theorem store_named {offset : Nat} {bytes : List UInt8} {failure : Failure}
    (failed : journal.store offset bytes = .error failure) : failure.Named := by
  unfold store at failed
  split at failed <;> cases failed
  trivial

theorem validateHeader_named {h : Header} {failure : Failure}
    (failed : journal.validateHeader h = .error failure) : failure.Named := by
  unfold validateHeader at failed
  split at failed
  · cases failed
    exact named_append (by decide) _
  split at failed
  · cases failed
    exact named_append (by decide) _
  split at failed
  · cases failed
    exact named_append (by decide) _
  · cases failed

theorem initialize_named {failure : Failure}
    (failed : journal.initializeOrValidateHeader = .error failure) : failure.Named := by
  unfold initializeOrValidateHeader at failed
  split at failed
  · refine bind_named failed (fun _ => store_named) (fun _ _ failed => ?_)
    refine bind_named failed (fun _ => store_named) (fun _ _ failed => ?_)
    exact bind_named failed (fun _ => store_named) (fun _ _ => store_named)
  · refine bind_named failed ?_ (fun _ _ => validateHeader_named)
    intro failure failed
    unfold header at failed
    split at failed <;> cases failed
    trivial

theorem create_named {path : String} {capacity : UInt64} {existing file : Option (List UInt8)}
    {failure : Failure} (failed : create path capacity existing = (file, .error failure)) : failure.Named := by
  unfold create at failed
  split at failed
  · cases failed
    change "fill journal capacity is zero" ≠ ""
    decide
  split at failed
  next earlier opened =>
    cases failed
    unfold openMapping at opened
    dsimp only at opened
    split at opened <;> cases opened
    exact named_append (by decide) _
  next journal opened =>
    split at failed
    next earlier refused =>
      cases failed
      exact initialize_named refused
    · cases failed

/-- Nothing can be appended: the counter is at its end, or the next record would stand outside of the mapping. -/
def Stuck (journal : FillJournal) : Prop :=
  ∀ fill, ∃ failure, failure.Named ∧ journal.storeRecord fill = .error failure

/-- The records are the older ones and then these fills; to a journal that is stuck nothing was added. -/
def Keeps (journal : FillJournal) (older : List FillRecord) (fills : List Fill) : Prop :=
  (∃ base : List Fill, base.map Fill.record = older ∧ journal.Holds (base ++ fills)) ∨
    journal.Stuck ∧ fills = [] ∧ ∀ path, records path (some journal.file) = older

theorem Holds.keeps (holds : journal.Holds fills) : journal.Keeps [] fills := Or.inl ⟨[], rfl, holds⟩

theorem Keeps.records {older : List FillRecord} (keeps : journal.Keeps older fills) (path : String) :
    FillJournal.records path (some journal.file) = older ++ fills.map Fill.record := by
  rcases keeps with ⟨base, same, holds⟩ | ⟨_, none, listed⟩
  · rw [holds.records, List.map_append, same]
  · rw [listed, none, List.map_nil, List.append_nil]

/-- Storing a record fails, or it is in place behind those that are counted. -/
theorem Keeps.storeRecord {older : List FillRecord} (keeps : journal.Keeps older fills) (fill : Fill) :
    (∃ failure, failure.Named ∧ journal.storeRecord fill = .error failure) ∨
      ∃ file base, base.map Fill.record = older ∧
        journal.storeRecord fill = .ok (UInt64.ofNat (base ++ fills).length, { journal with file := file }) ∧
        Stored { journal with file := file } (base ++ fills) fill := by
  rcases keeps with ⟨base, same, holds⟩ | ⟨stuck, _, _⟩
  · have record := holds.storeRecord fill
    split at record
    · exact Or.inl ⟨_, named_append (by decide) _, record⟩
    split at record
    · exact Or.inl ⟨.fault, trivial, record⟩
    · obtain ⟨file, result, stored⟩ := record
      exact Or.inr ⟨file, base, same, result, stored⟩
  · exact Or.inl (stuck fill)

/-- The file reaches the end of its mapping and has this header, which is a good one. -/
structure Headed (journal : FillJournal) (h : Header) : Prop where
  magic : h.magic = kMagic
  agrees : h.capacity = journal.capacity
  few : ¬h.records > h.capacity
  room : 24 ≤ journal.fileBytes.toNat
  positive : journal.fileBytes.toNat < 2 ^ 63
  mapped : journal.fileBytes.toNat ≤ journal.file.length
  layout : ∃ rest, journal.file = Header.codec.encode h ++ rest

namespace Headed

variable {h : Header}

theorem header_eq (headed : journal.Headed h) : journal.header = .ok h := by
  obtain ⟨rest, file⟩ := headed.layout
  unfold header
  rw [if_pos ⟨headed.room, headed.room.trans headed.mapped⟩, file, List.take_left' (header_length _),
    Header.codec.decode_encode]

theorem records_le (headed : journal.Headed h) : h.records.toNat ≤ journal.capacity.toNat := by
  have few := headed.few
  rw [gt_iff_lt, UInt64.lt_iff_toNat_lt, Nat.not_lt, headed.agrees] at few
  exact few

/-- The journal holds the records that are counted, when they are inside of the mapping. -/
theorem holds (headed : journal.Headed h) (fits : 24 + 40 * h.records.toNat ≤ journal.fileBytes.toNat) :
    ∃ base : List Fill, base.length = h.records.toNat ∧ journal.Holds base := by
  obtain ⟨rest, file⟩ := headed.layout
  have mapped := headed.mapped
  have length := congrArg List.length file
  rw [List.length_append, header_length] at length
  have parts := Fill.codec.encodeAll_decodeAll h.records.toNat rest (by change 40 * h.records.toNat ≤ _; omega)
  have count := Fill.codec.decodeAll_length h.records.toNat rest
  refine ⟨Fill.codec.decodeAll h.records.toNat rest, count, mapped, headed.positive, ?_, ?_,
    rest.drop (Fill.codec.width * h.records.toNat), ?_⟩
  · rw [count]
    exact fits
  · rw [count]
    exact headed.records_le
  · have whole : h = ⟨kMagic, h.records, journal.capacity⟩ := by rw [← headed.magic, ← headed.agrees]
    rw [count, UInt64.ofNat_toNat, ← parts, ← whole]
    exact file

theorem stuck (headed : journal.Headed h) (outside : ¬24 + 40 * h.records.toNat ≤ journal.fileBytes.toNat) :
    journal.Stuck := by
  intro fill
  unfold FillJournal.storeRecord
  rw [headed.header_eq]
  change ∃ failure : Failure, failure.Named ∧ (if h.records ≥ h.capacity then _ else _) = Except.error failure
  by_cases full : h.records ≥ h.capacity
  · rw [if_pos full]
    exact ⟨_, named_append (by decide) _, rfl⟩
  · have width : (FillRecord.codec.encode fill.record).length = 40 := FillRecord.codec.encode_length _
    rw [if_neg full]
    unfold store
    rw [width, if_neg (by omega)]
    exact ⟨.fault, trivial, rfl⟩

theorem keeps (headed : journal.Headed h) (path : String) :
    journal.Keeps (FillJournal.records path (some journal.file)) [] := by
  by_cases fits : 24 + 40 * h.records.toNat ≤ journal.fileBytes.toNat
  · obtain ⟨base, _, holds⟩ := headed.holds fits
    exact Or.inl ⟨base, (holds.records path).symm, by rwa [List.append_nil]⟩
  · exact Or.inr ⟨headed.stuck fits, rfl, fun _ => records_path _ _ _⟩

end Headed

theorem Holds.headed (holds : journal.Holds fills) :
    journal.Headed ⟨kMagic, UInt64.ofNat fills.length, journal.capacity⟩ := by
  obtain ⟨rest, layout⟩ := holds.layout
  have fits := holds.fits
  refine ⟨rfl, rfl, ?_, by omega, holds.positive, holds.mapped, _, layout⟩
  rw [gt_iff_lt, UInt64.lt_iff_toNat_lt, holds.count_toNat]
  exact Nat.not_lt.mpr holds.bounded

theorem header_ok {h : Header} (reads : journal.header = .ok h) :
    24 ≤ journal.fileBytes.toNat ∧ 24 ≤ journal.file.length ∧
      journal.file = Header.codec.encode h ++ journal.file.drop 24 := by
  unfold header at reads
  split at reads
  next inside =>
    cases reads
    have front : (journal.file.take 24).length = 24 := by
      rw [List.length_take]
      omega
    refine ⟨inside.1, inside.2, ?_⟩
    rw [Header.codec.encode_decode _ front, List.take_append_drop]
  · cases reads

/-- Whatever file it was given, the object that the constructor makes has a good header. -/
theorem create_opened {path : String} {capacity : UInt64} {existing file : Option (List UInt8)}
    (created : create path capacity existing = (file, .ok journal)) :
    file = some journal.file ∧ journal.path = path ∧ journal.capacity = capacity ∧
      journal.fileBytes = 24 + capacity * 40 ∧ ∃ h, journal.Headed h := by
  by_cases absent : existing.getD [] = []
  · by_cases mappable : Mappable capacity
    · obtain ⟨journal', created', holds, path', capacity', size⟩ := create_mappable mappable path absent
      rw [created] at created'
      cases created'
      exact ⟨rfl, path', capacity', size, _, holds.headed⟩
    · obtain ⟨_, _, failed, _⟩ := create_unmappable mappable path absent
      rw [created] at failed
      cases failed
  · have old : decide ((existing.getD []).length = 0) = false :=
      decide_eq_false (fun empty => absent (List.eq_nil_of_length_eq_zero empty))
    obtain ⟨zeros, sized, reaches⟩ := sizedFile_grows (24 + capacity * 40) (existing.getD [])
    unfold create at created
    split at created
    · cases created
    unfold openMapping at created
    dsimp only at created
    rw [sized, old] at created
    split at created
    next refused =>
      split at refused
      · cases created
      · cases refused
    next opened mapping =>
      split at mapping
      · cases mapping
      next accepted =>
        cases mapping
        have positive := Nat.lt_of_not_le (not_or.mp accepted).2
        unfold initializeOrValidateHeader at created
        rw [if_neg Bool.false_ne_true] at created
        split at created
        · cases created
        next ready checked =>
          cases created
          obtain ⟨h, reads, checked⟩ := bind_ok checked
          obtain ⟨magic, agrees, few, same⟩ := validateHeader_ok checked
          obtain ⟨room, _, layout⟩ := header_ok reads
          subst same
          refine ⟨rfl, rfl, rfl, rfl, h, magic, agrees, few, room, positive, ?_, _, layout⟩
          dsimp only
          rw [List.length_append, List.length_replicate]
          exact reaches positive

theorem create_ok {path : String} {capacity : UInt64} {existing file : Option (List UInt8)}
    (created : create path capacity existing = (file, .ok journal)) :
    file = some journal.file ∧ journal.path = path ∧ journal.capacity = capacity ∧
      journal.fileBytes = 24 + capacity * 40 ∧ journal.Keeps (FillJournal.records path file) [] := by
  obtain ⟨same, path', capacity', size, h, headed⟩ := create_opened created
  refine ⟨same, path', capacity', size, ?_⟩
  rw [same]
  exact headed.keeps path

end FillJournal

end ChronoBook
