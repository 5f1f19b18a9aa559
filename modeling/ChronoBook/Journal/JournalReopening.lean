import ChronoBook.Journal.JournalOpening

/-! Files that a journal meets when it is opened. An existing file is filled up to the
size of the mapping before its header is looked at; a construction that is cut off
leaves a file that has a size and not yet a header. -/

namespace ChronoBook
open Library

namespace FillJournal

variable {journal journal' : FillJournal} {fills : List Fill} {path : String} {capacity : UInt64}
  {content : List UInt8}

/-- Opening an existing file and closing it again goes unnoticed: a constructor that throws leaves the bytes as they
were, and after one that succeeds a replay ends as before. -/
def OpensUnnoticed (path : String) (capacity : UInt64) (content : List UInt8) : Prop :=
  match create path capacity (some content) with
  | (file, .error _) => file = some content
  | (file, .ok _) => replay path file = replay path (some content)

/-- A header that the constructor accepts for this capacity. -/
def Header.Fits (h : Header) (capacity : UInt64) : Prop :=
  h.magic = kMagic ∧ h.capacity = capacity ∧ ¬h.records > h.capacity

/-- The file has the size of the mapping, or at least a header for this capacity and the records that it counts. -/
def Complete (capacity : UInt64) (content : List UInt8) : Prop :=
  24 + 40 * capacity.toNat ≤ content.length ∨
    ∃ h rest, content = Header.codec.encode h ++ rest ∧ h.Fits capacity ∧ 40 * h.records.toNat ≤ rest.length

theorem sizedFile_fits (fits : 24 + 40 * capacity.toNat < 2 ^ 63) (content : List UInt8) :
    sizedFile (24 + capacity * 40) content =
      content ++ List.replicate (24 + 40 * capacity.toNat - content.length) 0 := by
  have bytes := bytes_of_fits fits
  have size : offT (24 + capacity * 40) = ((24 + 40 * capacity.toNat : Nat) : Int) := by
    unfold offT
    rw [bytes, if_pos fits]
  unfold sizedFile
  rw [size, bytes]
  by_cases short : content.length < 24 + 40 * capacity.toNat
  · rw [if_pos (by omega)]
  · rw [if_neg (by omega), Nat.sub_eq_zero_of_le (Nat.le_of_not_lt short), List.replicate_zero, List.append_nil]

/-- The constructor on a file that is not empty: it is sized, and the header of the sized file checked. -/
theorem create_old (mappable : Mappable capacity) (path : String) (some : content ≠ []) :
    create path capacity (.some content) =
      (.some (sizedFile (24 + capacity * 40) content),
        (⟨path, capacity, 24 + capacity * 40, false, sizedFile (24 + capacity * 40) content⟩ :
          FillJournal).validateHeader (Header.codec.decode ((sizedFile (24 + capacity * 40) content).take 24))) := by
  have mapped := openMapping_mappable mappable path content
  obtain ⟨nonzero, room, positive⟩ := mappable
  obtain ⟨zeros, sized, reaches⟩ := sizedFile_grows (24 + capacity * 40) content
  have old : decide (content.length = 0) = false :=
    decide_eq_false (fun empty => some (List.eq_nil_of_length_eq_zero empty))
  have long : 24 ≤ (sizedFile (24 + capacity * 40) content).length := by
    rw [sized, List.length_append, List.length_replicate]
    exact room.trans (reaches positive)
  let opened : FillJournal := ⟨path, capacity, 24 + capacity * 40, false, sizedFile (24 + capacity * 40) content⟩
  have validates : opened.initializeOrValidateHeader =
      opened.validateHeader (Header.codec.decode (opened.file.take 24)) := by
    unfold initializeOrValidateHeader header
    rw [if_neg Bool.false_ne_true, if_pos ⟨room, long⟩]
    rfl
  unfold create
  rw [if_neg nonzero, Option.getD_some, mapped, old]
  dsimp only
  rw [validates]
  cases checked : opened.validateHeader _ with
  | error failure => rfl
  | ok journal =>
    obtain ⟨_, _, _, same⟩ := validateHeader_ok checked
    rw [same]

theorem replay_headed {h : Header} (magic : h.magic = kMagic) (few : ¬h.records > h.capacity)
    (small : h.records.toNat ≤ maxSize) (path : String) (rest : List UInt8) :
    replay path (some (Header.codec.encode h ++ rest)) =
      if rest.length < h.records.toNat * 40 then .error (.thrown "truncated fill journal record")
      else .ok (FillRecord.codec.decodeAll h.records.toNat rest) := by
  have long : ¬(Header.codec.encode h ++ rest).length < 24 := by
    rw [List.length_append, header_length]
    omega
  unfold replay
  dsimp only
  rw [if_neg long, List.take_left' (header_length _), List.drop_left' (header_length _), Header.codec.decode_encode,
    if_neg (not_not_intro magic), if_neg few, if_neg (Nat.not_lt.mpr small), List.length_append, header_length,
    Nat.add_sub_cancel_left]

theorem replay_short (path : String) (short : content.length < 24) :
    replay path (some content) = .error (.thrown ("truncated fill journal header: " ++ path)) := if_pos short

theorem take_header {h : Header} {rest : List UInt8} (laid : content = Header.codec.encode h ++ rest) :
    Header.codec.decode (content.take 24) = h ∧ content.drop 24 = rest ∧ 24 ≤ content.length := by
  subst laid
  refine ⟨?_, List.drop_left' (header_length h), ?_⟩
  · rw [List.take_left' (header_length h), Header.codec.decode_encode]
  · rw [List.length_append, header_length]
    omega

theorem header_drop (long : 24 ≤ content.length) :
    content = Header.codec.encode (Header.codec.decode (content.take 24)) ++ content.drop 24 := by
  have front : (content.take 24).length = 24 := by
    rw [List.length_take]
    omega
  rw [Header.codec.encode_decode _ front, List.take_append_drop]

theorem validateHeader_iff (journal : FillJournal) (h : Header) :
    (h.Fits journal.capacity ∧ journal.validateHeader h = .ok journal) ∨
      (¬h.Fits journal.capacity ∧ ∃ failure, journal.validateHeader h = .error failure) := by
  cases checked : journal.validateHeader h with
  | ok journal' =>
    obtain ⟨magic, agrees, few, same⟩ := validateHeader_ok checked
    exact Or.inl ⟨⟨magic, agrees, few⟩, by rw [same]⟩
  | error failure =>
    refine Or.inr ⟨?_, failure, rfl⟩
    rintro ⟨magic, agrees, few⟩
    unfold validateHeader at checked
    rw [if_neg (not_not_intro magic), if_neg (not_not_intro agrees), if_neg few] at checked
    cases checked

/-- A file that is shorter than the mapping. If the header of the sized file is refused the size stays; if it is
accepted, zeros may count as records. -/
theorem opens_short (positive : 1 ≤ capacity.toNat) (fits : 24 + 40 * capacity.toNat < 2 ^ 63) (path : String)
    (some : content ≠ []) (short : content.length < 24 + 40 * capacity.toNat) :
    OpensUnnoticed path capacity content ↔
      ∃ h rest, content = Header.codec.encode h ++ rest ∧ h.Fits capacity ∧ 40 * h.records.toNat ≤ rest.length := by
  let zeros : List UInt8 := List.replicate (24 + 40 * capacity.toNat - content.length) 0
  have length : (content ++ zeros).length = 24 + 40 * capacity.toNat := by
    rw [List.length_append, List.length_replicate]
    omega
  have created := create_old (mappable_of_fits positive fits) path some
  rw [sizedFile_fits fits] at created
  let h := Header.codec.decode ((content ++ zeros).take 24)
  let opened : FillJournal := ⟨path, capacity, 24 + capacity * 40, false, content ++ zeros⟩
  -- a header inside of the content is the header that is checked
  have same : ∀ h' rest, content = Header.codec.encode h' ++ rest → h' = h ∧ rest = content.drop 24 := by
    intro h' rest laid
    have whole : content ++ zeros = Header.codec.encode h' ++ (rest ++ zeros) := by
      rw [laid, List.append_assoc]
    exact ⟨(take_header whole).1.symm, (take_header laid).2.1.symm⟩
  unfold OpensUnnoticed
  rcases validateHeader_iff opened h with ⟨accepts, checked⟩ | ⟨refuses, failure, checked⟩
  · have small : h.records.toNat ≤ capacity.toNat := by
      obtain ⟨_, agrees, few⟩ := accepts
      rw [gt_iff_lt, UInt64.lt_iff_toNat_lt, Nat.not_lt, agrees] at few
      exact few
    have few : h.records.toNat ≤ maxSize := by
      unfold maxSize maxSizeOf
      omega
    have after := replay_headed accepts.1 accepts.2.2 few path ((content ++ zeros).drop 24)
    rw [← header_drop (by omega), if_neg (by rw [List.length_drop]; omega)] at after
    rw [created, checked]
    dsimp only
    rw [after]
    by_cases headed : 24 ≤ content.length
    · have laid := header_drop headed
      obtain ⟨agree, _⟩ := same _ _ laid
      rw [agree] at laid
      have before := replay_headed accepts.1 accepts.2.2 few path (content.drop 24)
      rw [← laid] at before
      rw [before]
      by_cases lost : (content.drop 24).length < h.records.toNat * 40
      · rw [if_pos lost]
        refine iff_of_false (by intro equal; cases equal) ?_
        rintro ⟨h', rest, laid', _, enough⟩
        obtain ⟨rfl, rfl⟩ := same h' rest laid'
        omega
      · rw [if_neg lost, List.drop_append_of_le_length headed, FillRecord.codec.decodeAll_front]
        · exact iff_of_true rfl ⟨h, _, laid, accepts, by omega⟩
        · change 40 * h.records.toNat ≤ _
          omega
    · rw [replay_short path (Nat.lt_of_not_le headed)]
      refine iff_of_false (by intro equal; cases equal) ?_
      rintro ⟨h', rest, laid', _⟩
      exact headed (take_header laid').2.2
  · rw [created, checked]
    dsimp only
    refine iff_of_false ?_ ?_
    · intro equal
      have lengths := congrArg List.length (Option.some.inj equal)
      rw [length] at lengths
      omega
    · rintro ⟨h', rest, laid', accepts, _⟩
      obtain ⟨rfl, rfl⟩ := same h' rest laid'
      exact refuses accepts

/-- An existing file is opened unnoticed exactly when the mapping needs no more of it than it has. -/
theorem opens_unnoticed_iff (path : String) (some : content ≠ []) (positive : 1 ≤ capacity.toNat)
    (fits : 24 + 40 * capacity.toNat < 2 ^ 63) :
    OpensUnnoticed path capacity content ↔ Complete capacity content := by
  unfold Complete
  by_cases long : 24 + 40 * capacity.toNat ≤ content.length
  · have same : sizedFile (24 + capacity * 40) content = content := by
      rw [sizedFile_fits fits, Nat.sub_eq_zero_of_le long, List.replicate_zero, List.append_nil]
    have created := create_old (mappable_of_fits positive fits) path some
    rw [same] at created
    refine iff_of_true ?_ (Or.inl long)
    unfold OpensUnnoticed
    rw [created]
    rcases validateHeader_iff ⟨path, capacity, 24 + capacity * 40, false, content⟩
        (Header.codec.decode (content.take 24)) with ⟨_, checked⟩ | ⟨_, failure, checked⟩
    · rw [checked]
    · rw [checked]
  · rw [opens_short positive fits path some (Nat.lt_of_not_le long), or_iff_right long]

def oneRecord : List UInt8 := Header.codec.encode ⟨kMagic, 1, 1⟩ ++ Fill.codec.encode {}

theorem opens_unnoticed_iff_sample : oneRecord ≠ [] ∧ OpensUnnoticed "fills" 1 oneRecord := by
  have some : oneRecord ≠ [] := by decide
  refine ⟨some, (opens_unnoticed_iff "fills" some (by decide) (by decide)).mpr (Or.inl (by decide))⟩

/-- A file of one byte is made 64 bytes long and then refused; a journal that lost its record is accepted, and then
replayed with a record of zeros. -/
theorem opening_noticed : ¬OpensUnnoticed "fills" 1 [7] ∧ ¬OpensUnnoticed "fills" 1 (oneRecord.take 24) := by
  constructor
  · rw [opens_short (by decide) (by decide) "fills" (by decide) (by decide)]
    rintro ⟨h, rest, laid, _⟩
    exact absurd (take_header laid).2.2 (by decide)
  · rw [opens_short (by decide) (by decide) "fills" (by decide) (by decide)]
    rintro ⟨h, rest, laid, _, enough⟩
    obtain ⟨rfl, rfl, _⟩ := take_header laid
    exact absurd enough (by decide)

/-- How far a construction had come when the process died: the file existed, it had its size, or some of the stores of
the initialisation were made. -/
inductive Crash where
  | created
  | sized
  | stored (count : Nat)
  deriving DecidableEq, Repr

/-- The file that the first construction on an absent or empty file leaves when the process dies; a construction that
has already failed does not come that far. -/
def leftBy (path : String) (capacity : UInt64) : Crash → Except Failure (List UInt8)
  | .created => .ok []
  | .sized => .ok (sizedFile (24 + capacity * 40) [])
  | .stored count => do
      let journal ← openMapping path capacity []
      let journal ← journal.storeAll (journal.stores.take count)
      .ok journal.file

/-- The calls of `append` in `appendBatch`; what follows them does not change the file. -/
def appendBatch (journal : FillJournal) : List Fill → Except Failure FillJournal
  | [] => .ok journal
  | fill :: rest => do
      let journal ← journal.append fill
      journal.appendBatch rest

/-- The file can be opened as an empty journal, and takes as many fills as its capacity says. -/
def Usable (path : String) (capacity : UInt64) (file : List UInt8) : Prop :=
  ∃ journal : FillJournal, (create path capacity (some file)).2 = .ok journal ∧ journal.recordsWritten = 0 ∧
    ∀ fills : List Fill, fills.length ≤ capacity.toNat → ∃ journal', journal.appendBatch fills = .ok journal' ∧
      replay path (some journal'.file) = .ok (fills.map Fill.record)

/-- The file was not yet sized, or all stores were made. -/
def Crash.Harmless : Crash → Prop
  | .created => True
  | .sized => False
  | .stored count => 4 ≤ count

theorem Holds.append (holds : journal.Holds fills) (fill : Fill) (room : fills.length < journal.capacity.toNat)
    (fits : 24 + 40 * (fills.length + 1) ≤ journal.fileBytes.toNat) :
    ∃ file, journal.append fill = .ok { journal with file := file } ∧
      Holds { journal with file := file } (fills ++ [fill]) := by
  have record := holds.storeRecord fill
  rw [if_neg (Nat.not_le.mpr room), if_neg (Nat.not_lt.mpr fits)] at record
  obtain ⟨file, result, stored⟩ := record
  obtain ⟨file', counted, holds'⟩ := stored.storeCount
  refine ⟨file', ?_, holds'⟩
  unfold FillJournal.append
  rw [result]
  exact counted

theorem Holds.append_ok (holds : journal.Holds fills) {fill : Fill} (done : journal.append fill = .ok journal') :
    journal'.Holds (fills ++ [fill]) ∧ journal'.capacity = journal.capacity ∧
      journal'.fileBytes = journal.fileBytes := by
  have record := holds.storeRecord fill
  unfold FillJournal.append at done
  split at record
  · rw [record] at done
    cases done
  split at record
  · rw [record] at done
    cases done
  obtain ⟨file, result, stored⟩ := record
  obtain ⟨file', counted, holds'⟩ := stored.storeCount
  rw [result] at done
  change FillJournal.storeCount _ _ = _ at done
  rw [counted] at done
  cases done
  exact ⟨holds', rfl, rfl⟩

theorem Holds.appendBatch (more : List Fill) :
    ∀ {journal : FillJournal} {fills : List Fill}, journal.Holds fills →
      fills.length + more.length ≤ journal.capacity.toNat →
      24 + 40 * (fills.length + more.length) ≤ journal.fileBytes.toNat →
      ∃ journal', journal.appendBatch more = .ok journal' ∧ journal'.Holds (fills ++ more) := by
  induction more with
  | nil =>
    intro journal fills holds _ _
    exact ⟨journal, rfl, by rwa [List.append_nil]⟩
  | cons fill rest ih =>
    intro journal fills holds room fits
    rw [List.length_cons] at room fits
    obtain ⟨file, appended, holds'⟩ := holds.append fill (by omega) (by omega)
    have more : (fills ++ [fill]).length = fills.length + 1 := List.length_append
    obtain ⟨journal', rest', last⟩ := ih holds' (by rw [more]; change _ ≤ journal.capacity.toNat; omega)
      (by rw [more]; change _ ≤ journal.fileBytes.toNat; omega)
    refine ⟨journal', ?_, by rwa [List.append_assoc, List.singleton_append] at last⟩
    rw [FillJournal.appendBatch, appended]
    exact rest'

theorem Holds.appendBatch_ok (more : List Fill) :
    ∀ {journal : FillJournal} {fills : List Fill}, journal.Holds fills → journal.appendBatch more = .ok journal' →
      journal'.Holds (fills ++ more) ∧ journal'.fileBytes = journal.fileBytes := by
  induction more with
  | nil =>
    intro journal fills holds done
    cases done
    exact ⟨by rwa [List.append_nil], rfl⟩
  | cons fill rest ih =>
    intro journal fills holds done
    obtain ⟨next, appended, later⟩ := bind_ok done
    obtain ⟨holds', _, size⟩ := holds.append_ok appended
    obtain ⟨last, size'⟩ := ih holds' later
    exact ⟨by rwa [List.append_assoc, List.singleton_append] at last, size'.trans size⟩

theorem usable_of_holds {path : String} {file : List UInt8} (fits : 24 + 40 * capacity.toNat < 2 ^ 63)
    (opened : (create path capacity (some file)).2 = .ok journal) (holds : journal.Holds [])
    (same : journal.capacity = capacity) (size : journal.fileBytes = 24 + capacity * 40) :
    Usable path capacity file := by
  have bytes := bytes_of_fits fits
  refine ⟨journal, opened, holds.recordsWritten, ?_⟩
  intro fills few
  obtain ⟨journal', appended, holds'⟩ := holds.appendBatch fills (by rw [same, List.length_nil]; omega)
    (by rw [size, bytes, List.length_nil]; omega)
  exact ⟨journal', appended, holds'.replay path⟩

/-- A journal of this capacity takes all its fills only if its size has not wrapped. -/
theorem Usable.fits {path : String} {file : List UInt8} (usable : Usable path capacity file)
    (positive : 1 ≤ capacity.toNat) : 24 + 40 * capacity.toNat < 2 ^ 63 := by
  obtain ⟨journal, opened, none, appends⟩ := usable
  have created : create path capacity (some file) = ((create path capacity (some file)).1, .ok journal) := by
    rw [← opened]
  obtain ⟨_, _, _, _, keeps⟩ := create_ok created
  rcases keeps with ⟨base, _, holds⟩ | ⟨stuck, _, _⟩
  · rw [List.append_nil] at holds
    rw [holds.recordsWritten] at none
    rw [List.length_eq_zero_iff.mp none] at holds
    obtain ⟨journal', appended, _⟩ := appends (List.replicate capacity.toNat {}) (by rw [List.length_replicate])
    obtain ⟨holds', _⟩ := holds.appendBatch_ok _ appended
    have room := holds'.fits
    have positive := holds'.positive
    rw [List.nil_append, List.length_replicate] at room
    omega
  · obtain ⟨journal', appended, _⟩ := appends [{}] positive
    obtain ⟨_, first, _⟩ := bind_ok appended
    obtain ⟨failure, _, fails⟩ := stuck {}
    unfold FillJournal.append at first
    rw [fails] at first
    cases first

theorem create_headed_iff (mappable : Mappable capacity) (path : String) (h : Header) (rest : List UInt8) :
    (∃ journal, (create path capacity (some (Header.codec.encode h ++ rest))).2 = .ok journal) ↔ h.Fits capacity := by
  obtain ⟨zeros, _, opened⟩ := create_headed mappable path h rest
  dsimp only at opened
  rw [opened]
  rcases validateHeader_iff ⟨path, capacity, 24 + capacity * 40, false,
      Header.codec.encode h ++ (rest ++ List.replicate zeros 0)⟩ h with ⟨accepts, checked⟩ | ⟨refuses, _, checked⟩
  · exact iff_of_true ⟨_, checked⟩ accepts
  · refine iff_of_false ?_ refuses
    rintro ⟨journal, done⟩
    cases checked.symm.trans done

/-- What a crash leaves of a size that does not wrap: nothing, or a header that some stores have made. -/
theorem leftBy_stored (positive : 1 ≤ capacity.toNat) (fits : 24 + 40 * capacity.toNat < 2 ^ 63) (path : String)
    (count : Nat) : leftBy path capacity (.stored count) =
      .ok (Header.codec.encode (headerAfter capacity count) ++ List.replicate (40 * capacity.toNat) 0) := by
  have bytes := bytes_of_fits fits
  have mappable := mappable_of_fits positive fits
  have mapped := openMapping_mappable mappable path []
  obtain ⟨_, room, small⟩ := mappable
  let opened : FillJournal := ⟨path, capacity, 24 + capacity * 40, true, List.replicate (24 + capacity * 40).toNat 0⟩
  rw [sizedFile_empty small] at mapped
  have stored : opened.storeAll (opened.stores.take count) = _ := storeAll_take room rfl count
  unfold leftBy
  dsimp only
  rw [mapped]
  change (opened.storeAll (opened.stores.take count)).bind (fun journal => .ok journal.file) = _
  rw [stored]
  change Except.ok (Header.codec.encode (headerAfter capacity count) ++
    List.replicate ((24 + capacity * 40).toNat - 24) 0) = _
  rw [bytes, Nat.add_sub_cancel_left]

theorem leftBy_sized (positive : 1 ≤ capacity.toNat) (fits : 24 + 40 * capacity.toNat < 2 ^ 63) (path : String) :
    leftBy path capacity .sized = leftBy path capacity (.stored 0) := by
  have front : Header.codec.encode ⟨0, 0, 0⟩ = List.replicate 24 0 := by decide
  rw [leftBy_stored positive fits]
  change Except.ok (sizedFile (24 + capacity * 40) []) = .ok (Header.codec.encode ⟨0, 0, 0⟩ ++ _)
  rw [sizedFile_fits fits, front, List.nil_append, List.length_nil, Nat.sub_zero, List.replicate_add]

/-- The header is good when its last store is made, and not before. -/
theorem headerAfter_fits (positive : 1 ≤ capacity.toNat) (count : Nat) :
    (headerAfter capacity count).Fits capacity ↔ 4 ≤ count := by
  have nonzero : (0 : UInt64) ≠ capacity := by
    rintro rfl
    exact absurd positive (by decide)
  have unmarked : ¬(⟨0, 0, 0⟩ : Header).Fits capacity := fun fits => absurd fits.1 (by decide)
  have unsized : ¬(⟨kMagic, 0, 0⟩ : Header).Fits capacity := fun fits => nonzero fits.2.1
  rcases count with _ | _ | _ | _ | count
  · exact iff_of_false unmarked (by decide)
  · exact iff_of_false unmarked (by decide)
  · exact iff_of_false unsized (by decide)
  · exact iff_of_false unsized (by decide)
  · refine iff_of_true ⟨rfl, rfl, ?_⟩ (Nat.le_add_left 4 count)
    change ¬(0 : UInt64) > capacity
    rw [gt_iff_lt, UInt64.lt_iff_toNat_lt]
    exact Nat.not_lt_zero _

theorem usable_stored (positive : 1 ≤ capacity.toNat) (fits : 24 + 40 * capacity.toNat < 2 ^ 63) (path : String)
    (count : Nat) :
    Usable path capacity (Header.codec.encode (headerAfter capacity count) ++ List.replicate (40 * capacity.toNat) 0) ↔
      4 ≤ count := by
  have mappable := mappable_of_fits positive fits
  have bytes := bytes_of_fits fits
  constructor
  · rintro ⟨journal, opened, _⟩
    exact (headerAfter_fits positive count).mp ((create_headed_iff mappable path _ _).mp ⟨journal, opened⟩)
  · intro all
    obtain ⟨more, rfl⟩ := Nat.exists_eq_add_of_le' all
    let closed : FillJournal := ⟨path, capacity, 24 + capacity * 40, true,
      Header.codec.encode ⟨kMagic, 0, capacity⟩ ++ List.replicate (40 * capacity.toNat) 0⟩
    have holds : closed.Holds [] := by
      refine ⟨?_, mappable.2.2, mappable.2.1, Nat.zero_le _, List.replicate (40 * capacity.toNat) 0, rfl⟩
      change (24 + capacity * 40).toNat ≤ (Header.codec.encode ⟨kMagic, 0, capacity⟩ ++ List.replicate _ 0).length
      rw [List.length_append, header_length, List.length_replicate, bytes]
    obtain ⟨journal, created, holds', _, same, size⟩ := holds.reopen mappable rfl path
    exact usable_of_holds fits (congrArg Prod.snd created) holds' same size

/-- A crash of the first construction leaves a usable journal exactly if the size of the journal has not wrapped and the
crash came before the file had its size, or after the last store. -/
theorem crashed_usable_iff {file : List UInt8} (path : String) (crash : Crash) (positive : 1 ≤ capacity.toNat)
    (left : leftBy path capacity crash = .ok file) :
    Usable path capacity file ↔ 24 + 40 * capacity.toNat < 2 ^ 63 ∧ crash.Harmless := by
  constructor
  · intro usable
    have fits := usable.fits positive
    refine ⟨fits, ?_⟩
    cases crash with
    | created => trivial
    | sized =>
      rw [leftBy_sized positive fits, leftBy_stored positive fits] at left
      cases left
      exact absurd ((usable_stored positive fits path 0).mp usable) (by decide)
    | stored count =>
      rw [leftBy_stored positive fits] at left
      cases left
      exact (usable_stored positive fits path count).mp usable
  · rintro ⟨fits, harmless⟩
    cases crash with
    | created =>
      cases left
      obtain ⟨journal, created, holds, _, same, size⟩ :=
        create_mappable (mappable_of_fits positive fits) path (rfl : (some ([] : List UInt8)).getD [] = [])
      exact usable_of_holds fits (congrArg Prod.snd created) holds same size
    | sized => exact harmless.elim
    | stored count =>
      rw [leftBy_stored positive fits] at left
      cases left
      exact (usable_stored positive fits path count).mpr harmless

/-- All four stores were made: the journal of one record is there. -/
theorem crashed_usable_iff_sample :
    leftBy "fills" 1 (.stored 4) = .ok (Header.codec.encode ⟨kMagic, 0, 1⟩ ++ List.replicate 40 0) ∧
      Usable "fills" 1 (Header.codec.encode ⟨kMagic, 0, 1⟩ ++ List.replicate 40 0) := by
  have left : leftBy "fills" 1 (.stored 4) = .ok (Header.codec.encode ⟨kMagic, 0, 1⟩ ++ List.replicate 40 0) := by decide
  exact ⟨left, (crashed_usable_iff "fills" (.stored 4) (by decide) left).mpr ⟨by decide, Nat.le_refl 4⟩⟩

/-- The process dies when the file has its size: the constructor will not have this file. -/
theorem crash_after_sizing : leftBy "fills" 1 .sized = .ok (List.replicate 64 0) ∧
    ¬Usable "fills" 1 (List.replicate 64 0) := by
  refine ⟨by decide, ?_⟩
  rintro ⟨journal, opened, _⟩
  have refused : (create "fills" 1 (some (List.replicate 64 0))).2.isOk = false := by decide
  rw [opened] at refused
  cases refused

end FillJournal

end ChronoBook
