/-
This file defines rows: fields in order, no two of one name. Setting a field that
is there replaces its value where it stands, and setting a new one appends it.
That names stay distinct is part of the type.
-/

import IndexedStore.NamedList
import IndexedStore.Value.Canonical

namespace IndexedStore

/-- A row of a table. -/
structure Row where
  /-- The fields in the order in which they were added. -/
  fields : List (String × Value)
  /-- No name stands twice. -/
  distinct : (fields.map Prod.fst).Nodup := by simp

namespace Row

/-- The row without fields. -/
def empty : Row := { fields := [] }

instance : Inhabited Row := ⟨empty⟩

/-- Sets a field. -/
def set (row : Row) (name : String) (value : Value) : Row :=
  ⟨assign name value row.fields, assign_distinct row.distinct⟩

/-- The row of the given fields, where a later field of a name replaces an earlier one. -/
def ofFields (fields : List (String × Value)) : Row :=
  fields.foldl (fun row field => row.set field.1 field.2) empty

/-- The value of a field. -/
def get? (row : Row) (name : String) : Option Value := row.fields.lookup name

/-- Removes a field. -/
def erase (row : Row) (name : String) : Row :=
  ⟨unassign name row.fields, unassign_distinct row.distinct⟩

/-- Whether the row has a field. -/
def contains (row : Row) (name : String) : Bool := (row.get? name).isSome

/-- The number of fields. -/
def size (row : Row) : Nat := row.fields.length

/-- The row as a map value. -/
def toValue (row : Row) : Value := .map row.fields

/-- The row of a map value. -/
def ofValue (value : Value) : Except CodecError Row :=
  match value with
  | .map fields => .ok (ofFields fields)
  | other => .error (.unexpectedType "map" other.typeName)

/-- Rows are the same when they are as maps, whatever the order of their fields. -/
instance : BEq Row := ⟨fun first second => first.toValue == second.toValue⟩

/-- The canonical bytes of a row. -/
def encode (row : Row) : Except CodecError (List UInt8) := row.toValue.encode

/-- Reads a row from bytes. -/
def decode (bytes : List UInt8) : Except CodecError Row := do
  ofValue (← Value.decode bytes)

end Row

end IndexedStore
