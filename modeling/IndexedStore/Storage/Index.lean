/-
This file defines secondary indexes. An index on a field maps each index key to its
owners: the primary keys of the rows that have it. A row without the field, or with
a value that may not be a key, is not in the index. A multi-entry index has one key
for each item of an array instead of one key for the array.
-/

import IndexedStore.KeyMap
import IndexedStore.Row

namespace IndexedStore

/-- The options of an index. -/
structure IndexOptions where
  /-- At most one row may have each key. -/
  unique : Bool := false
  /-- An array has a key for each of its items. -/
  multiEntry : Bool := false
  /-- A hint for collation, which is kept but not interpreted. -/
  locale : Option String := none
deriving DecidableEq

/-- An index: its options, and the owners of each index key. -/
structure Index where
  /-- The options with which the index was created. -/
  options : IndexOptions
  /-- The owners of each index key. -/
  owners : KeyMap KeySet := {}

namespace Index

/-- Keeps the last of neighbours that are the same. -/
def keepLast : List Value → List Value
  | first :: second :: rest =>
    if first == second then keepLast (second :: rest) else first :: keepLast (second :: rest)
  | rest => rest

/-- The index keys of an array in a multi-entry index, in ascending order. -/
def itemKeys (items : List Value) : List Value :=
  keepLast (Value.sort (items.filter Value.isIndexable))

/-- The index keys of a row in an index on the given field. -/
def keysFor (index : Index) (field : String) (row : Row) : List Value :=
  match row.get? field with
  | some value =>
    match value, index.options.multiEntry with
    | .array items, true => itemKeys items
    | value, _ => if value.isIndexable then [value] else []
  | none => []

/-- The owners of an index key. -/
def ownersOf (index : Index) (key : Value) : KeySet := (index.owners.get? key).getD {}

/-- The first of the keys that a row other than `owner` has in a unique index. -/
def conflict? (index : Index) (keys : List Value) (owner : Value) : Option Value :=
  if index.options.unique then
    keys.find? fun key => (index.ownersOf key).keys.any fun other => !(other == owner)
  else none

/-- Adds an owner to one key. -/
def addOwner (index : Index) (owner key : Value) : Index :=
  { index with owners := index.owners.insert key ((index.ownersOf key).insert owner ()) }

/-- Takes an owner from one key. A key without owners leaves the index. -/
def dropOwner (index : Index) (owner key : Value) : Index :=
  match index.owners.get? key with
  | some owners =>
    let left := owners.erase owner
    if left.isEmpty then { index with owners := index.owners.erase key }
    else { index with owners := index.owners.insert key left }
  | none => index

/-- Adds an owner to several keys. -/
def addOwners (index : Index) (owner : Value) (keys : List Value) : Index :=
  keys.foldl (fun index key => index.addOwner owner key) index

/-- Takes an owner from several keys. -/
def dropOwners (index : Index) (owner : Value) (keys : List Value) : Index :=
  keys.foldl (fun index key => index.dropOwner owner key) index

end Index

end IndexedStore
