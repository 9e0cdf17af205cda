/-
This file writes values as compact JSON text. Byte strings become arrays of
numbers, and floats that are not finite become null. Fields are written in the
order in which they stand, repeated names included.
-/

import IndexedStore.Number.Notation
import IndexedStore.Value.Basic

namespace IndexedStore.Json

/-- The written form of one character inside a JSON text: controls, quotes and
backslashes are escaped, and all else stands for itself. -/
def escapeChar (c : Char) : List Char :=
  if c = '"' then ['\\', '"']
  else if c = '\\' then ['\\', '\\']
  else if c = '\n' then ['\\', 'n']
  else if c = '\r' then ['\\', 'r']
  else if c = '\t' then ['\\', 't']
  else if c.toNat = 8 then ['\\', 'b']
  else if c.toNat = 12 then ['\\', 'f']
  else if c.toNat < 32 then
    ['\\', 'u', '0', '0', Nat.digitChar (c.toNat / 16), Nat.digitChar (c.toNat % 16)]
  else [c]

/-- A text in quotes. -/
def writeText (text : String) : List Char := '"' :: text.toList.flatMap escapeChar ++ ['"']

/-- Parts with commas between them. -/
@[simp]
def withCommas : List (List Char) → List Char
  | [] => []
  | [part] => part
  | part :: rest => part ++ ',' :: withCommas rest

mutual

/-- The JSON text of a value. -/
def write : Value → List Char
  | .null => "null".toList
  | .bool flag => if flag then "true".toList else "false".toList
  | .integer number => renderInt number.toInt
  | .float number => (number.render .json).toList
  | .text content => writeText content
  | .bytes content =>
    '[' :: withCommas (content.map fun byte => renderInt byte.toNat) ++ [']']
  | .array items => '[' :: withCommas (writeItems items) ++ [']']
  | .map fields => '\x7b' :: withCommas (writeFields fields) ++ ['\x7d']

/-- The JSON texts of items. -/
@[simp]
def writeItems : List Value → List (List Char)
  | [] => []
  | item :: rest => write item :: writeItems rest

/-- The JSON texts of fields. -/
@[simp]
def writeFields : List (String × Value) → List (List Char)
  | [] => []
  | (name, value) :: rest => (writeText name ++ ':' :: write value) :: writeFields rest

end

end IndexedStore.Json
