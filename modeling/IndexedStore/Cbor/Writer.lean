/-
This file writes values in the binary format: every item has a definite length and
the shortest header, and a map's fields are written in the order in which they
stand.
-/

import IndexedStore.Cbor.Header
import IndexedStore.Value.Basic

namespace IndexedStore.Cbor

/-- An integer is written by its distance from zero or, below zero, from minus one. -/
def integerHeader (n : Int) : Header :=
  if 0 ≤ n then .positive n.toNat else .negative (-1 - n).toNat

/-- The bytes of a text. -/
def textBytes (text : String) : List UInt8 := text.toUTF8.data.toList

/-- A text with its header. -/
def writeText (text : String) : List UInt8 :=
  let content := textBytes text
  (Header.text (some content.length)).write ++ content

mutual

/-- The written form of a value. -/
def write : Value → List UInt8
  | .null => (Header.simple 22).write
  | .bool flag => (Header.simple (if flag then 21 else 20)).write
  | .integer number => (integerHeader number.toInt).write
  | .float number => (Header.float number).write
  | .text content => writeText content
  | .bytes content => (Header.bytes (some content.length)).write ++ content
  | .array items => (Header.array (some items.length)).write ++ writeItems items
  | .map fields => (Header.map (some fields.length)).write ++ writeFields fields

/-- The items of an array, one after the other. -/
@[simp]
def writeItems : List Value → List UInt8
  | [] => []
  | item :: rest => write item ++ writeItems rest

/-- The fields of a map, each as its name followed by its value. -/
@[simp]
def writeFields : List (String × Value) → List UInt8
  | [] => []
  | (name, value) :: rest => writeText name ++ write value ++ writeFields rest

end

end IndexedStore.Cbor
