import ChronoBook.Core.Failure
import ChronoBook.Library.Bytes
import ChronoBook.Matching.MatchingEngine

/-! The fill journal, a memory-mapped file of fixed records behind a header. The
mapping is shared, so the journal's memory is the file. Sizes and positions are
computed in 64 bits as the source does; system calls do what they are asked. -/

namespace ChronoBook
open Library

structure FillRecord where
  buyOrderId : UInt64 := 0
  sellOrderId : UInt64 := 0
  price : UInt32 := 0
  qty : UInt32 := 0
  timestamp : UInt64 := 0
  symbolPacked : UInt64 := 0
  deriving DecidableEq, Repr

def Fill.record (fill : Fill) : FillRecord :=
  ⟨fill.buyOrderId, fill.sellOrderId, fill.price, fill.qty, fill.timestamp, fill.symbolPacked⟩

def FillRecord.fill (record : FillRecord) : Fill :=
  ⟨record.buyOrderId, record.sellOrderId, record.price, record.qty, record.timestamp, record.symbolPacked⟩

/-- The 40 bytes of a fill, in memory and in files. -/
def Fill.codec : Codec Fill :=
  (Codec.uint64.pair (Codec.uint64.pair (Codec.uint32.pair (Codec.uint32.pair (Codec.uint64.pair Codec.uint64))))).record
    (fun fill => (fill.buyOrderId, fill.sellOrderId, fill.price, fill.qty, fill.timestamp, fill.symbolPacked))
    (fun fields => ⟨fields.1, fields.2.1, fields.2.2.1, fields.2.2.2.1, fields.2.2.2.2.1, fields.2.2.2.2.2⟩)
    (fun _ => rfl) (fun _ => rfl)

def FillRecord.codec : Codec FillRecord := Fill.codec.record FillRecord.fill Fill.record (fun _ => rfl)
  (fun _ => rfl)

structure FillJournal where
  path : String
  capacity : UInt64
  fileBytes : UInt64
  newFile : Bool
  file : List UInt8

namespace FillJournal

structure Header where
  magic : UInt64 := 0
  records : UInt64 := 0
  capacity : UInt64 := 0
  deriving DecidableEq, Repr

def Header.codec : Codec Header :=
  (Codec.uint64.pair (Codec.uint64.pair Codec.uint64)).record (fun header => (header.magic, header.records, header.capacity))
    (fun fields => ⟨fields.1, fields.2.1, fields.2.2⟩) (fun _ => rfl) (fun _ => rfl)

def kMagic : UInt64 := 0x324a46424f4e4843

/-- A size as `off_t`, which is signed. -/
def offT (bytes : UInt64) : Int := if bytes.toNat < 2 ^ 63 then bytes.toNat else (bytes.toNat : Int) - 2 ^ 64

/-- A store through the mapping; behind the mapping or the end of the file there is no memory. -/
def store (journal : FillJournal) (offset : Nat) (bytes : List UInt8) : Except Failure FillJournal :=
  if offset + bytes.length ≤ journal.fileBytes.toNat ∧ offset + bytes.length ≤ journal.file.length then
    .ok { journal with file := patch journal.file offset bytes }
  else .error .fault

def header (journal : FillJournal) : Except Failure Header :=
  if 24 ≤ journal.fileBytes.toNat ∧ 24 ≤ journal.file.length then .ok (Header.codec.decode (journal.file.take 24))
  else .error .fault

/-- The file after `fstat` and `ftruncate`. -/
def sizedFile (fileBytes : UInt64) (existing : List UInt8) : List UInt8 :=
  if (existing.length : Int) < offT fileBytes then
    existing ++ List.replicate (fileBytes.toNat - existing.length) 0
  else existing

/-- No mapping is empty, and none takes half of the addresses. -/
def openMapping (path : String) (capacity : UInt64) (existing : List UInt8) : Except Failure FillJournal :=
  let fileBytes := 24 + capacity * 40
  if fileBytes = 0 ∨ 2 ^ 63 ≤ fileBytes.toNat then .error (.thrown ("failed to mmap fill journal: " ++ path))
  else .ok
    { path := path
      capacity := capacity
      fileBytes := fileBytes
      newFile := existing.length = 0
      file := sizedFile fileBytes existing }

def validateHeader (journal : FillJournal) (header : Header) : Except Failure FillJournal :=
  if header.magic ≠ kMagic then .error (.thrown ("invalid fill journal magic: " ++ journal.path))
  else if header.capacity ≠ journal.capacity then .error (.thrown ("fill journal capacity mismatch: " ++ journal.path))
  else if header.records > header.capacity then
    .error (.thrown ("invalid fill journal record count: " ++ journal.path))
  else .ok journal

def initializeOrValidateHeader (journal : FillJournal) : Except Failure FillJournal :=
  if journal.newFile then do
    let journal ← journal.store 0 (List.replicate journal.fileBytes.toNat 0)
    let journal ← journal.store 0 (Codec.uint64.encode kMagic)
    let journal ← journal.store 8 (Codec.uint64.encode 0)
    journal.store 16 (Codec.uint64.encode journal.capacity)
  else do
    let header ← journal.header
    journal.validateHeader header

/-- The constructor, with the file it leaves; an absent file is created empty. -/
def create (path : String) (capacity : UInt64) (existing : Option (List UInt8)) :
    Option (List UInt8) × Except Failure FillJournal :=
  if capacity = 0 then (existing, .error (.thrown "fill journal capacity is zero"))
  else
    match openMapping path capacity (existing.getD []) with
    | .error failure => (some (sizedFile (24 + capacity * 40) (existing.getD [])), .error failure)
    | .ok journal =>
        match journal.initializeOrValidateHeader with
        | .error failure => (some journal.file, .error failure)
        | .ok journal => (some journal.file, .ok journal)

/-- The first part of `append`: the record is stored, and not yet counted. -/
def storeRecord (journal : FillJournal) (fill : Fill) : Except Failure (UInt64 × FillJournal) := do
  let header ← journal.header
  let idx := header.records
  if idx ≥ header.capacity then .error (.thrown ("fill journal full: " ++ journal.path))
  else
    let journal ← journal.store (24 + idx.toNat * 40) (FillRecord.codec.encode fill.record)
    .ok (idx, journal)

def storeCount (journal : FillJournal) (idx : UInt64) : Except Failure FillJournal :=
  journal.store 8 (Codec.uint64.encode (idx + 1))

def append (journal : FillJournal) (fill : Fill) : Except Failure FillJournal := do
  let (idx, journal) ← journal.storeRecord fill
  journal.storeCount idx

def recordsWritten (journal : FillJournal) : Nat :=
  match journal.header with
  | .ok header => header.records.toNat
  | .error _ => 0

/-- The records of the file at a path; `none` is a file that cannot be opened. -/
def replay (path : String) (file : Option (List UInt8)) : Except Failure (List FillRecord) :=
  match file with
  | none => .error (.thrown ("failed to open fill journal for replay: " ++ path))
  | some bytes =>
      if bytes.length < 24 then .error (.thrown ("truncated fill journal header: " ++ path))
      else
        let h := Header.codec.decode (bytes.take 24)
        if h.magic ≠ kMagic then .error (.thrown ("invalid fill journal magic: " ++ path))
        else if h.records > h.capacity then .error (.thrown ("invalid fill journal record count: " ++ path))
        else if maxSize < h.records.toNat then .error (.thrown lengthError)
        else if bytes.length - 24 < h.records.toNat * 40 then .error (.thrown "truncated fill journal record")
        else .ok (FillRecord.codec.decodeAll h.records.toNat (bytes.drop 24))

theorem bind_ok {α β : Type} {attempt : Except Failure α} {next : α → Except Failure β} {result : β}
    (done : attempt >>= next = .ok result) : ∃ value, attempt = .ok value ∧ next value = .ok result := by
  cases attempt with
  | error failure => cases done
  | ok value => exact ⟨value, rfl, done⟩

theorem bind_named {α β : Type} {attempt : Except Failure α} {next : α → Except Failure β} {failure : Failure}
    (failed : attempt >>= next = .error failure) (first : ∀ failure, attempt = .error failure → failure.Named)
    (second : ∀ value failure, next value = .error failure → failure.Named) : failure.Named := by
  cases attempt with
  | error earlier =>
    cases failed
    exact first _ rfl
  | ok value => exact second value failure failed

variable {journal journal' : FillJournal} {fills : List Fill} {fill : Fill}

/-- The journal holds these fills: they stand behind the header, which counts them. -/
structure Holds (journal : FillJournal) (fills : List Fill) : Prop where
  mapped : journal.fileBytes.toNat ≤ journal.file.length
  positive : journal.fileBytes.toNat < 2 ^ 63
  fits : 24 + 40 * fills.length ≤ journal.fileBytes.toNat
  bounded : fills.length ≤ journal.capacity.toNat
  layout : ∃ rest, journal.file = Header.codec.encode ⟨kMagic, UInt64.ofNat fills.length, journal.capacity⟩ ++
    (Fill.codec.encodeAll fills ++ rest)

/-- The next record is in place behind those that are counted. -/
structure Stored (journal : FillJournal) (fills : List Fill) (fill : Fill) : Prop extends journal.Holds fills where
  room : fills.length < journal.capacity.toNat
  inside : 24 + 40 * (fills.length + 1) ≤ journal.fileBytes.toNat
  placed : ∃ rest, journal.file = Header.codec.encode ⟨kMagic, UInt64.ofNat fills.length, journal.capacity⟩ ++
    (Fill.codec.encodeAll fills ++ (Fill.codec.encode fill ++ rest))

theorem header_length (h : Header) : (Header.codec.encode h).length = 24 := Header.codec.encode_length h

theorem uint64_length (value : UInt64) : (Codec.uint64.encode value).length = 8 := Codec.uint64.encode_length value

theorem header_encode (h : Header) : Header.codec.encode h =
    Codec.uint64.encode h.magic ++ (Codec.uint64.encode h.records ++ Codec.uint64.encode h.capacity) := rfl

theorem patch_records (h : Header) (rest : List UInt8) (records : UInt64) :
    patch (Header.codec.encode h ++ rest) 8 (Codec.uint64.encode records) =
      Header.codec.encode { h with records := records } ++ rest := by
  have width : (Codec.uint64.encode h.records).length = (Codec.uint64.encode records).length := by
    rw [uint64_length, uint64_length]
  rw [header_encode, header_encode, List.append_assoc, List.append_assoc, patch_middle (uint64_length _) width,
    List.append_assoc, List.append_assoc]

theorem patch_magic (h : Header) (rest : List UInt8) (magic : UInt64) :
    patch (Header.codec.encode h ++ rest) 0 (Codec.uint64.encode magic) =
      Header.codec.encode { h with magic := magic } ++ rest := by
  have width : (Codec.uint64.encode h.magic).length = (Codec.uint64.encode magic).length := by
    rw [uint64_length, uint64_length]
  rw [header_encode, header_encode]
  simp only [List.append_assoc]
  exact patch_middle (List.length_nil (α := UInt8)) width

theorem patch_capacity (h : Header) (rest : List UInt8) (capacity : UInt64) :
    patch (Header.codec.encode h ++ rest) 16 (Codec.uint64.encode capacity) =
      Header.codec.encode { h with capacity := capacity } ++ rest := by
  have width : (Codec.uint64.encode h.capacity).length = (Codec.uint64.encode capacity).length := by
    rw [uint64_length, uint64_length]
  have front : (Codec.uint64.encode h.magic ++ Codec.uint64.encode h.records).length = 16 := by
    rw [List.length_append, uint64_length, uint64_length]
  rw [header_encode, header_encode, ← List.append_assoc, List.append_assoc, patch_middle front width]
  simp only [List.append_assoc]

theorem encodeAll_length (fills : List Fill) : (Fill.codec.encodeAll fills).length = 40 * fills.length :=
  Fill.codec.encodeAll_length fills

theorem Holds.split (holds : journal.Holds fills) :
    ∃ rest, journal.file = Header.codec.encode ⟨kMagic, UInt64.ofNat fills.length, journal.capacity⟩ ++
        (Fill.codec.encodeAll fills ++ rest) ∧
      24 + 40 * fills.length + rest.length = journal.file.length := by
  obtain ⟨rest, layout⟩ := holds.layout
  have length := congrArg List.length layout
  rw [List.length_append, List.length_append, header_length, encodeAll_length] at length
  exact ⟨rest, layout, by omega⟩

theorem Holds.count_toNat (holds : journal.Holds fills) : (UInt64.ofNat fills.length).toNat = fills.length := by
  have fits := holds.fits
  have positive := holds.positive
  rw [UInt64.toNat_ofNat', Nat.mod_eq_of_lt]
  omega

theorem Holds.header_eq (holds : journal.Holds fills) :
    journal.header = .ok ⟨kMagic, UInt64.ofNat fills.length, journal.capacity⟩ := by
  have fits := holds.fits
  have mapped := holds.mapped
  obtain ⟨rest, layout⟩ := holds.layout
  unfold header
  rw [if_pos (by omega), layout, List.take_left' (header_length _), Header.codec.decode_encode]

theorem Holds.recordsWritten (holds : journal.Holds fills) : journal.recordsWritten = fills.length := by
  unfold FillJournal.recordsWritten
  rw [holds.header_eq]
  exact holds.count_toNat

theorem count_ge_capacity (holds : journal.Holds fills) :
    UInt64.ofNat fills.length ≥ journal.capacity ↔ journal.capacity.toNat ≤ fills.length := by
  rw [ge_iff_le, UInt64.le_iff_toNat_le, holds.count_toNat]

theorem Holds.placed (holds : journal.Holds fills) (fits : 24 + 40 * (fills.length + 1) ≤ journal.fileBytes.toNat)
    (fill : Fill) :
    ∃ rest, patch journal.file (24 + fills.length * 40) (FillRecord.codec.encode fill.record) =
      Header.codec.encode ⟨kMagic, UInt64.ofNat fills.length, journal.capacity⟩ ++
        (Fill.codec.encodeAll fills ++ (Fill.codec.encode fill ++ rest)) := by
  obtain ⟨rest, layout, length⟩ := holds.split
  have mapped := holds.mapped
  have parts : journal.file =
      (Header.codec.encode ⟨kMagic, UInt64.ofNat fills.length, journal.capacity⟩ ++ Fill.codec.encodeAll fills) ++
        (rest.take 40 ++ rest.drop 40) := by
    rw [List.take_append_drop, List.append_assoc, layout]
  refine ⟨rest.drop 40, ?_⟩
  rw [parts, patch_middle, List.append_assoc]
  · rfl
  · rw [List.length_append, header_length, encodeAll_length, Nat.mul_comm]
  · rw [FillRecord.codec.encode_length, List.length_take, Nat.min_eq_left (by omega)]
    rfl

/-- Storing a record in a full journal, outside of the mapping, or behind the records that are counted. -/
theorem Holds.storeRecord (holds : journal.Holds fills) (fill : Fill) :
    if journal.capacity.toNat ≤ fills.length then
      journal.storeRecord fill = .error (.thrown ("fill journal full: " ++ journal.path))
    else if journal.fileBytes.toNat < 24 + 40 * (fills.length + 1) then journal.storeRecord fill = .error .fault
    else ∃ file, journal.storeRecord fill = .ok (UInt64.ofNat fills.length, { journal with file := file }) ∧
      Stored { journal with file := file } fills fill := by
  have reads : journal.storeRecord fill = if UInt64.ofNat fills.length ≥ journal.capacity then
      .error (.thrown ("fill journal full: " ++ journal.path))
    else (journal.store (24 + (UInt64.ofNat fills.length).toNat * 40) (FillRecord.codec.encode fill.record)).map
      (fun journal => (UInt64.ofNat fills.length, journal)) := by
    unfold FillJournal.storeRecord
    rw [holds.header_eq]
    rfl
  have mapped := holds.mapped
  rw [reads, holds.count_toNat]
  by_cases full : journal.capacity.toNat ≤ fills.length
  · rw [if_pos full, if_pos ((count_ge_capacity holds).mpr full)]
  · rw [if_neg full, if_neg (fun above => full ((count_ge_capacity holds).mp above))]
    have width : (FillRecord.codec.encode fill.record).length = 40 := FillRecord.codec.encode_length _
    unfold store
    rw [width]
    by_cases outside : journal.fileBytes.toNat < 24 + 40 * (fills.length + 1)
    · rw [if_pos outside, if_neg (by omega)]
      rfl
    · rw [if_neg outside, if_pos (by omega)]
      obtain ⟨rest, placed⟩ := holds.placed (Nat.le_of_not_lt outside) fill
      refine ⟨_, rfl, ⟨⟨?_, holds.positive, holds.fits, holds.bounded, _, placed⟩, Nat.lt_of_not_le full,
        Nat.le_of_not_lt outside, _, placed⟩⟩
      rwa [patch_length (by omega)]

theorem Stored.storeCount (stored : journal.Stored fills fill) :
    ∃ file, journal.storeCount (UInt64.ofNat fills.length) = .ok { journal with file := file } ∧
      Holds { journal with file := file } (fills ++ [fill]) := by
  have fits := stored.fits
  have mapped := stored.mapped
  obtain ⟨rest, placed⟩ := stored.placed
  have next : UInt64.ofNat fills.length + 1 = UInt64.ofNat (fills ++ [fill]).length := by
    rw [List.length_append]
    exact (UInt64.ofNat_add fills.length 1).symm
  have patched : patch journal.file 8 (Codec.uint64.encode (UInt64.ofNat fills.length + 1)) =
      Header.codec.encode ⟨kMagic, UInt64.ofNat (fills ++ [fill]).length, journal.capacity⟩ ++
        (Fill.codec.encodeAll (fills ++ [fill]) ++ rest) := by
    rw [placed, next, patch_records, Codec.encodeAll_append, Codec.encodeAll_singleton, List.append_assoc]
  have inside : 8 + (Codec.uint64.encode (UInt64.ofNat fills.length + 1)).length ≤ journal.fileBytes.toNat := by
    rw [uint64_length]
    omega
  have more : (fills ++ [fill]).length = fills.length + 1 := List.length_append
  unfold FillJournal.storeCount store
  rw [if_pos ⟨inside, inside.trans mapped⟩]
  refine ⟨_, rfl, ?_, stored.positive, more ▸ stored.inside, more ▸ stored.room, rest, patched⟩
  rwa [patch_length (inside.trans mapped)]

theorem encodeAll_records (fills : List Fill) :
    FillRecord.codec.encodeAll (fills.map Fill.record) = Fill.codec.encodeAll fills := by
  unfold Codec.encodeAll
  rw [List.flatMap_map]
  rfl

theorem Holds.replay (holds : journal.Holds fills) (path : String) :
    FillJournal.replay path (some journal.file) = .ok (fills.map Fill.record) := by
  have fits := holds.fits
  have positive := holds.positive
  have count := holds.count_toNat
  have mapped := holds.mapped
  obtain ⟨rest, layout⟩ := holds.layout
  have header : Header.codec.decode (journal.file.take 24) = ⟨kMagic, UInt64.ofNat fills.length, journal.capacity⟩ := by
    rw [layout, List.take_left' (header_length _), Header.codec.decode_encode]
  have body : journal.file.drop 24 = FillRecord.codec.encodeAll (fills.map Fill.record) ++ rest := by
    rw [layout, List.drop_left' (header_length _), encodeAll_records]
  have bounded : ¬UInt64.ofNat fills.length > journal.capacity := by
    rw [gt_iff_lt, UInt64.lt_iff_toNat_lt, count]
    exact Nat.not_lt.mpr holds.bounded
  unfold FillJournal.replay
  dsimp only
  rw [if_neg (by omega), header]
  dsimp only
  rw [if_neg (by simp), if_neg bounded, count, if_neg (by unfold maxSize maxSizeOf; omega), if_neg (by omega), body]
  have back := FillRecord.codec.decodeAll_encodeAll (fills.map Fill.record) rest
  rw [List.length_map] at back
  rw [back]

/-- A vector of records is never longer than a vector may be. -/
theorem replay_small {path : String} {file : Option (List UInt8)} {records : List FillRecord}
    (reads : replay path file = .ok records) : records.length ≤ maxSize := by
  cases file with
  | none => cases reads
  | some bytes =>
    unfold replay at reads
    dsimp only at reads
    split at reads
    · cases reads
    split at reads
    · cases reads
    split at reads
    · cases reads
    split at reads
    · cases reads
    next few =>
      split at reads
      · cases reads
      · cases reads
        rw [Codec.decodeAll_length]
        exact Nat.le_of_not_lt few

/-- The records that a reader of the file gets, none if the file is refused. -/
def records (path : String) (file : Option (List UInt8)) : List FillRecord :=
  match replay path file with
  | .ok records => records
  | .error _ => []

/-- Only the text of an error depends on the path. -/
theorem records_path (path path' : String) (file : Option (List UInt8)) : records path file = records path' file := by
  cases file with
  | none => rfl
  | some bytes =>
    unfold records replay
    dsimp only
    split_ifs <;> rfl

theorem Holds.records (holds : journal.Holds fills) (path : String) :
    FillJournal.records path (some journal.file) = fills.map Fill.record := by
  unfold FillJournal.records
  rw [holds.replay]

end FillJournal

end ChronoBook
