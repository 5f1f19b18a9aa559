import Mathlib.Algebra.Ring.Nat
import Mathlib.Data.List.Basic
import Mathlib.Data.List.GetD
import Mathlib.Tactic.Common

/-! Values in files. A codec writes every value of a type in the same number of
bytes and reads it back; files of codec values are read from the front, and a
store into a file replaces bytes in the middle of it. -/

namespace ChronoBook.Library

/-- A layout of fixed width. -/
structure Codec (α : Type) where
  width : Nat
  encode : α → List UInt8
  decode : List UInt8 → α
  encode_length : ∀ value, (encode value).length = width
  decode_encode : ∀ value, decode (encode value) = value
  encode_decode : ∀ bytes, bytes.length = width → encode (decode bytes) = bytes

namespace Codec

def littleEndian : Nat → Nat → List UInt8
  | 0, _ => []
  | width + 1, value => UInt8.ofNat value :: littleEndian width (value / 256)

def number : List UInt8 → Nat
  | [] => 0
  | byte :: rest => byte.toNat + 256 * number rest

theorem littleEndian_length (width value : Nat) : (littleEndian width value).length = width := by
  induction width generalizing value with
  | zero => rfl
  | succ width ih => rw [littleEndian, List.length_cons, ih]

theorem number_littleEndian {width value : Nat} (small : value < 256 ^ width) :
    number (littleEndian width value) = value := by
  induction width generalizing value with
  | zero => exact (Nat.lt_one_iff.mp small).symm
  | succ width ih =>
    have less : value / 256 < 256 ^ width := by
      rw [Nat.pow_succ] at small
      exact Nat.div_lt_of_lt_mul (by rwa [Nat.mul_comm])
    rw [littleEndian, number, ih less, UInt8.toNat_ofNat']
    omega

theorem number_lt (bytes : List UInt8) : number bytes < 256 ^ bytes.length := by
  induction bytes with
  | nil => exact Nat.one_pos
  | cons byte rest ih =>
    have bound := byte.toNat_lt
    rw [number, List.length_cons, Nat.pow_succ]
    omega

theorem littleEndian_number (bytes : List UInt8) : littleEndian bytes.length (number bytes) = bytes := by
  induction bytes with
  | nil => rfl
  | cons byte rest ih =>
    have bound := byte.toNat_lt
    have low : UInt8.ofNat (byte.toNat + 256 * number rest) = byte := by
      apply UInt8.toNat_inj.mp
      rw [UInt8.toNat_ofNat']
      omega
    have high : (byte.toNat + 256 * number rest) / 256 = number rest := by omega
    rw [List.length_cons, number, littleEndian, low, high, ih]

def uint64 : Codec UInt64 where
  width := 8
  encode value := littleEndian 8 value.toNat
  decode bytes := UInt64.ofNat (number bytes)
  encode_length value := littleEndian_length 8 value.toNat
  decode_encode value := by
    rw [number_littleEndian value.toNat_lt]
    exact UInt64.ofNat_toNat
  encode_decode bytes length := by
    have bound : number bytes < 2 ^ 64 := by
      have below := number_lt bytes
      rw [length] at below
      exact below
    rw [UInt64.toNat_ofNat', Nat.mod_eq_of_lt bound, ← length, littleEndian_number]

def uint32 : Codec UInt32 where
  width := 4
  encode value := littleEndian 4 value.toNat
  decode bytes := UInt32.ofNat (number bytes)
  encode_length value := littleEndian_length 4 value.toNat
  decode_encode value := by
    rw [number_littleEndian value.toNat_lt]
    exact UInt32.ofNat_toNat
  encode_decode bytes length := by
    have bound : number bytes < 2 ^ 32 := by
      have below := number_lt bytes
      rw [length] at below
      exact below
    rw [UInt32.toNat_ofNat', Nat.mod_eq_of_lt bound, ← length, littleEndian_number]

def byte : Codec UInt8 where
  width := 1
  encode value := [value]
  decode bytes := bytes.headD 0
  encode_length _ := rfl
  decode_encode _ := rfl
  encode_decode bytes length := by
    obtain ⟨value, rfl⟩ := List.length_eq_one_iff.mp length
    rfl

def array (width : Nat) : Codec (Vector UInt8 width) where
  width := width
  encode value := value.toList
  decode bytes := Vector.ofFn (fun i => bytes.getD i 0)
  encode_length value := value.length_toList
  decode_encode value := by
    apply Vector.ext
    intro i inside
    rw [Vector.getElem_ofFn, List.getD_eq_getElem _ _ (by rwa [value.length_toList]), Vector.getElem_toList]
  encode_decode bytes length := by
    apply List.ext_getElem
    · rw [Vector.length_toList, length]
    · intro i _ inside
      rw [Vector.getElem_toList, Vector.getElem_ofFn, List.getD_eq_getElem _ _ inside]

variable {α β : Type}

/-- One value after the other, with nothing between them. -/
def pair (first : Codec α) (second : Codec β) : Codec (α × β) where
  width := first.width + second.width
  encode value := first.encode value.1 ++ second.encode value.2
  decode bytes := (first.decode (bytes.take first.width), second.decode (bytes.drop first.width))
  encode_length value := by rw [List.length_append, first.encode_length, second.encode_length]
  decode_encode value := by
    have width := first.encode_length value.1
    rw [List.take_left' width, List.drop_left' width, first.decode_encode, second.decode_encode]
  encode_decode bytes length := by
    have front : (bytes.take first.width).length = first.width := by
      rw [List.length_take, length]
      omega
    have back : (bytes.drop first.width).length = second.width := by
      rw [List.length_drop, length]
      omega
    rw [first.encode_decode _ front, second.encode_decode _ back, List.take_append_drop]

/-- The layout of a record whose fields are those of another. -/
def record (fields : Codec α) (read : β → α) (make : α → β) (make_read : ∀ value, make (read value) = value)
    (read_make : ∀ value, read (make value) = value) : Codec β where
  width := fields.width
  encode value := fields.encode (read value)
  decode bytes := make (fields.decode bytes)
  encode_length value := fields.encode_length (read value)
  decode_encode value := by rw [fields.decode_encode, make_read]
  encode_decode bytes length := by rw [read_make, fields.encode_decode bytes length]

variable (codec : Codec α)

def encodeAll (values : List α) : List UInt8 := values.flatMap codec.encode

/-- The first values of a file. -/
def decodeAll : Nat → List UInt8 → List α
  | 0, _ => []
  | count + 1, bytes => codec.decode (bytes.take codec.width) :: decodeAll count (bytes.drop codec.width)

theorem encodeAll_length (values : List α) : (codec.encodeAll values).length = codec.width * values.length := by
  unfold encodeAll
  induction values with
  | nil => rfl
  | cons value rest ih =>
    rw [List.flatMap_cons, List.length_append, codec.encode_length, ih, List.length_cons, Nat.mul_succ, Nat.add_comm]

theorem encodeAll_append (first second : List α) :
    codec.encodeAll (first ++ second) = codec.encodeAll first ++ codec.encodeAll second := List.flatMap_append

theorem encodeAll_singleton (value : α) : codec.encodeAll [value] = codec.encode value := List.flatMap_singleton _ _

theorem decodeAll_length (count : Nat) (bytes : List UInt8) : (codec.decodeAll count bytes).length = count := by
  induction count generalizing bytes with
  | zero => rfl
  | succ count ih => rw [decodeAll, List.length_cons, ih]

/-- What was written is read back, whatever stands behind it. -/
theorem decodeAll_encodeAll (values : List α) (rest : List UInt8) :
    codec.decodeAll values.length (codec.encodeAll values ++ rest) = values := by
  unfold encodeAll
  induction values with
  | nil => rfl
  | cons value later ih =>
    have width := codec.encode_length value
    rw [List.flatMap_cons, List.append_assoc, List.length_cons, decodeAll, List.take_left' width, List.drop_left' width,
      codec.decode_encode, ih]

/-- Every file that is long enough begins with some values. -/
theorem encodeAll_decodeAll (count : Nat) (bytes : List UInt8) (long : codec.width * count ≤ bytes.length) :
    bytes = codec.encodeAll (codec.decodeAll count bytes) ++ bytes.drop (codec.width * count) := by
  induction count generalizing bytes with
  | zero => rfl
  | succ count ih =>
    rw [Nat.mul_succ] at long ⊢
    have front : (bytes.take codec.width).length = codec.width := by
      rw [List.length_take]
      omega
    have later := ih (bytes.drop codec.width) (by rw [List.length_drop]; omega)
    rw [List.drop_drop, Nat.add_comm codec.width] at later
    rw [decodeAll, encodeAll, List.flatMap_cons, codec.encode_decode _ front, List.append_assoc]
    change bytes = bytes.take codec.width ++ (codec.encodeAll (codec.decodeAll count (bytes.drop codec.width)) ++ _)
    rw [← later, List.take_append_drop]

theorem decodeAll_add (count more : Nat) (bytes : List UInt8) :
    codec.decodeAll (count + more) bytes =
      codec.decodeAll count bytes ++ codec.decodeAll more (bytes.drop (codec.width * count)) := by
  induction count generalizing bytes with
  | zero => rw [Nat.zero_add, Nat.mul_zero, List.drop_zero, decodeAll, List.nil_append]
  | succ count ih =>
    rw [Nat.add_right_comm, decodeAll, decodeAll, ih, List.drop_drop, Nat.mul_succ, Nat.add_comm codec.width,
      List.cons_append]

/-- Value `i` stands at `i` times the width. -/
theorem decodeAll_eq_map (count : Nat) (bytes : List UInt8) : codec.decodeAll count bytes =
    (List.range count).map (fun i => codec.decode ((bytes.drop (i * codec.width)).take codec.width)) := by
  induction count with
  | zero => rfl
  | succ count ih =>
    rw [decodeAll_add, ih, List.range_succ, List.map_append, Nat.mul_comm codec.width]
    rfl

/-- Values are read from the bytes that they take, whatever stands behind these. -/
theorem decodeAll_front {count : Nat} {bytes : List UInt8} (long : codec.width * count ≤ bytes.length)
    (rest : List UInt8) : codec.decodeAll count (bytes ++ rest) = codec.decodeAll count bytes := by
  have split := codec.encodeAll_decodeAll count bytes long
  have back := codec.decodeAll_encodeAll (codec.decodeAll count bytes) (bytes.drop (codec.width * count) ++ rest)
  rw [codec.decodeAll_length, ← List.append_assoc, ← split] at back
  exact back

end Codec

/-- A file after a store of some bytes at an offset. -/
def patch (file : List UInt8) (offset : Nat) (bytes : List UInt8) : List UInt8 :=
  file.take offset ++ bytes ++ file.drop (offset + bytes.length)

theorem patch_length {file bytes : List UInt8} {offset : Nat} (inside : offset + bytes.length ≤ file.length) :
    (patch file offset bytes).length = file.length := by
  unfold patch
  rw [List.length_append, List.length_append, List.length_take, List.length_drop]
  omega

theorem patch_middle {front old back bytes : List UInt8} {offset : Nat} (starts : front.length = offset)
    (same : old.length = bytes.length) : patch (front ++ (old ++ back)) offset bytes = front ++ (bytes ++ back) := by
  have ends : (front ++ old).length = offset + bytes.length := by rw [List.length_append, starts, same]
  unfold patch
  rw [List.take_left' starts, ← List.append_assoc front old back, List.drop_left' ends, List.append_assoc]

end ChronoBook.Library

namespace ChronoBook

/-- What comes of writing a file anew. A stream notices missing bytes at once, or only when it is closed. -/
inductive WriteOutcome where
  | done
  | openFails
  | short (bytes : Nat) (noticed : Bool)
  deriving DecidableEq, Repr

end ChronoBook
