/-
This file lists the ways in which reading the binary format fails. Reading stops
at the first failure.
-/

import IndexedStore.Cbor.Header
import IndexedStore.Text.Quoted

namespace IndexedStore.Cbor

/-- Why bytes could not be read as a value. -/
inductive ReadError where
  /-- The bytes ended inside an item. -/
  | endOfInput
  /-- The bytes at this offset follow no rule of the format. -/
  | malformed (offset : Nat)
  /-- Arrays and maps are nested more deeply than a reader follows. -/
  | nestedTooDeep
  /-- A well-formed item stands where it has no meaning. -/
  | unexpected (found : Header) (wanted : String)
  /-- A tagged item, other than an integer of at most sixteen bytes. -/
  | unexpectedTag
  /-- A tagged integer below the range of 128 bits. -/
  | integerTooLarge
deriving DecidableEq

/-- The text of a failure that concerns the meaning of an item. -/
def semanticMessage (text : String) : String := "Semantic(None, " ++ Text.quoted text ++ ")"

/-- The text of a failure. -/
def ReadError.message : ReadError → String
  | endOfInput => "Io"
  | malformed offset => "Syntax(" ++ String.ofList (renderInt offset) ++ ")"
  | nestedTooDeep => "RecursionLimitExceeded"
  | unexpected found wanted =>
    semanticMessage ("invalid type: " ++ found.describe ++ ", expected " ++ wanted)
  | unexpectedTag => semanticMessage "invalid type: enum, expected a row value"
  | integerTooLarge => semanticMessage "integer too large"

end IndexedStore.Cbor
