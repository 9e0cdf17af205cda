/-
This file gives every value its canonical form: the fields of each map sorted by
name, and each float that is equal to a 64-bit integer replaced by that integer.
The written form of the canonical form is what the store keeps, and what it
compares when it has to recognise a row that was found along two ways.

NaN has no canonical form, because it is not equal to any number.
-/

import IndexedStore.Cbor.Reader
import IndexedStore.Value.Order

namespace IndexedStore

/-- Why a value could not be written, read or converted. -/
inductive CodecError where
  | decodingFailed (cause : Cbor.ReadError)
  | nanForbidden
  | unexpectedType (expected found : String)
deriving DecidableEq

/-- The text of a failure. -/
def CodecError.message : CodecError → String
  | decodingFailed cause => "decoding failed: " ++ cause.message
  | nanForbidden => "NaN values are forbidden"
  | unexpectedType expected found => "expected " ++ expected ++ ", found " ++ found

namespace Value

mutual

/-- Replaces every float that is equal to a 64-bit integer by that integer. -/
@[simp]
def settleNumbers : Value → Value
  | float number =>
    match number.toInt64? with
    | some whole => integer whole
    | none => float number
  | array items => array (settleItems items)
  | map fields => map (settleFields fields)
  | value => value

/-- Replaces integral floats in every item. -/
@[simp]
def settleItems : List Value → List Value
  | [] => []
  | item :: rest => item.settleNumbers :: settleItems rest

/-- Replaces integral floats in the value of every field. -/
@[simp]
def settleFields : List (String × Value) → List (String × Value)
  | [] => []
  | (name, value) :: rest => (name, value.settleNumbers) :: settleFields rest

end

/-- The canonical form of a value. -/
def normalize (value : Value) : Value := value.arrange.settleNumbers

mutual

/-- Brings a value into canonical form, and stops at the first NaN. -/
@[simp]
def canonicalize : Value → Except CodecError Value
  | float number =>
    if number.isNaN then .error .nanForbidden
    else .ok (number.toInt64?.elim (float number) integer)
  | array items => return array (← canonicalizeItems items)
  | map fields => return map (← canonicalizeFields fields)
  | value => .ok value

/-- Brings every item into canonical form. -/
@[simp]
def canonicalizeItems : List Value → Except CodecError (List Value)
  | [] => .ok []
  | item :: rest => return (← item.canonicalize) :: (← canonicalizeItems rest)

/-- Brings the value of every field into canonical form and sorts the fields. -/
@[simp]
def canonicalizeFields : List (String × Value) → Except CodecError (List (String × Value))
  | [] => .ok []
  | (name, value) :: rest =>
    return insertField (name, ← value.canonicalize) (← canonicalizeFields rest)

end

/-- The bytes of a value's canonical form. -/
def encode (value : Value) : Except CodecError (List UInt8) := value.canonicalize.map Cbor.write

/-- Reads a value from bytes. -/
def decode (bytes : List UInt8) : Except CodecError Value :=
  match Cbor.read bytes with
  | .ok value => .ok value
  | .error cause => .error (.decodingFailed cause)

end Value

end IndexedStore
