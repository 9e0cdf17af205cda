/-
This file writes values as messages show them: the kind of a value followed by its
content in brackets, with texts quoted.
-/

import IndexedStore.Number.Notation
import IndexedStore.Text.Quoted
import IndexedStore.Value.Basic

namespace IndexedStore

namespace Value

/-- Texts with a comma and a blank between them. -/
def commaSeparated (parts : List String) : String := String.intercalate ", " parts

mutual

/-- The form of a value in messages. -/
def display : Value → String
  | null => "Null"
  | bool flag => "Bool(" ++ (if flag then "true" else "false") ++ ")"
  | integer number => "Integer(" ++ String.ofList (renderInt number.toInt) ++ ")"
  | float number => "Float(" ++ number.render .message ++ ")"
  | text content => "Text(" ++ Text.quoted content ++ ")"
  | bytes content =>
    "Bytes([" ++
      commaSeparated (content.map fun byte => String.ofList (renderInt byte.toNat)) ++ "])"
  | array items => "Array([" ++ commaSeparated (displayItems items) ++ "])"
  | map fields => "Map([" ++ commaSeparated (displayFields fields) ++ "])"

/-- The forms of the items of an array. -/
def displayItems : List Value → List String
  | [] => []
  | item :: rest => item.display :: displayItems rest

/-- The forms of the fields of a map: pairs of a quoted name and a value. -/
def displayFields : List (String × Value) → List String
  | [] => []
  | (name, value) :: rest =>
    ("(" ++ Text.quoted name ++ ", " ++ value.display ++ ")") :: displayFields rest

end

/-- The form of a value that may be missing. -/
def displayOption : Option Value → String
  | none => "None"
  | some value => "Some(" ++ value.display ++ ")"

end Value

end IndexedStore
