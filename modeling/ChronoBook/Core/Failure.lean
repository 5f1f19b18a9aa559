import Mathlib.Algebra.Ring.Nat

/-! How calls end without a result, and the sizes from which on a vector refuses to be made. -/

namespace ChronoBook

/-- Why a call ends without a result: an exception with its text, or an access outside of the memory it may use. -/
inductive Failure where
  | thrown (what : String)
  | fault
  deriving DecidableEq, Repr

/-- An exception says something. -/
def Failure.Named : Failure → Prop
  | .thrown what => what ≠ ""
  | .fault => True

theorem named_append {text : String} (some : text ≠ "") (path : String) : (Failure.thrown (text ++ path)).Named := by
  intro nothing
  have both : text = "" ∧ path = "" := by simpa using nothing
  exact some both.1

/-- The text of the library's exception for a vector longer than `max_size()`. -/
def lengthError : String := "vector length error"

/-- `max_size()` of a vector whose elements have this many bytes. -/
def maxSizeOf (bytes : Nat) : Nat := (2 ^ 63 - 1) / bytes

/-- The greatest number of fills, and of messages, in a vector: both have 40 bytes. -/
def maxSize : Nat := maxSizeOf 40

/-- What a vector's constructor or `reserve` does with a length before it allocates. -/
def checkLength (maxSize length : Nat) : Except Failure Unit :=
  if maxSize < length then .error (.thrown lengthError) else .ok ()

theorem checkLength_ok {maxSize length : Nat} (fits : length ≤ maxSize) : checkLength maxSize length = .ok () :=
  if_neg (Nat.not_lt.mpr fits)

theorem checkLength_error {maxSize length : Nat} (long : maxSize < length) :
    checkLength maxSize length = .error (.thrown lengthError) :=
  if_pos long

theorem ok_of_toOption {α : Type} {result : Except Failure α} {value : α} (there : result.toOption = some value) :
    result = .ok value := by
  cases result with
  | error failure => cases there
  | ok other =>
    cases there
    rfl

end ChronoBook
