/-
This file defines the tables of a store. A table keeps its rows as canonical bytes
under their primary keys, and an index for each field that was asked for. Writing
checks everything before it changes anything; the rows that a scan returns are read
from the bytes.
-/

import IndexedStore.Storage.Error
import IndexedStore.Storage.Index

namespace IndexedStore

/-- What a write does when a row with the key is there. -/
inductive WriteMode where
  /-- It overwrites the row. -/
  | put
  /-- It fails. -/
  | insert
deriving DecidableEq

/-- A table of a store. -/
structure Table where
  /-- The name, for messages. -/
  name : String
  /-- The field that holds the primary key. -/
  keyField : String
  /-- Whether a row without key gets a generated one. -/
  autoIncrement : Bool
  /-- The next generated key, or nothing once no key is left. -/
  nextKey : Option Int64 := some 1
  /-- The canonical bytes of the rows. -/
  rows : KeyMap (List UInt8) := {}
  /-- The indexes with their fields, in ascending order of the fields. -/
  indexes : List (String × Index) := []

namespace Table

/-! ### Indexes -/

/-- The options of the index on a field. -/
def indexOptions? (table : Table) (field : String) : Option IndexOptions :=
  (table.indexes.lookup field).map Index.options

/-- Whether there is an index on a field. -/
def hasIndex (table : Table) (field : String) : Bool := (table.indexOptions? field).isSome

/-- Puts an index at its place among the others. -/
def insertIndex (field : String) (index : Index) : List (String × Index) → List (String × Index)
  | [] => [(field, index)]
  | (other, old) :: rest =>
    if (compare field other).isLT then (field, index) :: (other, old) :: rest
    else (other, old) :: insertIndex field index rest

/-- Adds stored rows to a new index. -/
def fillIndex (table : Table) (field : String) (index : Index) :
    List (Value × List UInt8) → Except EngineError Index
  | [] => .ok index
  | (key, bytes) :: rest => do
    let row ← EngineError.ofCodec (Row.decode bytes)
    let keys := index.keysFor field row
    match index.conflict? keys key with
    | some taken => throw (.constraint table.name (.uniqueDuplicate field taken))
    | none => table.fillIndex field (index.addOwners key keys) rest

/-- Creates an index over the rows that are there. -/
def createIndex (table : Table) (field : String) (options : IndexOptions) :
    Except EngineError Unit × Table :=
  editing table do
    if (← get).hasIndex field then
      throw (.alreadyExists ("index " ++ field ++ " on table " ++ (← get).name))
    else
      let index ← (← get).fillIndex field { options } (← get).rows.entries
      modify fun table => { table with indexes := insertIndex field index table.indexes }

/-! ### Writing -/

/-- The row to be stored and its key: the one in the key field, or else a generated one. -/
def assignKey (table : Table) (row : Row) : Except EngineError (Value × Row) :=
  match row.get? table.keyField with
  | some key =>
    if key.isIndexable then .ok (key, row)
    else .error (.invalidKey table.name (.notIndexable key.typeName))
  | none =>
    if table.autoIncrement then
      match table.nextKey with
      | some next => .ok (.integer next, row.set table.keyField (.integer next))
      | none => .error (.constraint table.name .keysExhausted)
    else .error (.invalidKey table.name (.missing table.keyField))

/-- The stored row that a write replaces, if there is one and replacing is allowed. -/
def replaced? (table : Table) (key : Value) (mode : WriteMode) :
    Except EngineError (Option Row) :=
  match table.rows.get? key with
  | none => .ok none
  | some bytes =>
    match mode with
    | .insert => .error (.constraint table.name (.keyExists key))
    | .put => (EngineError.ofCodec (Row.decode bytes)).map some

/-- Refuses a row that has a key of another row in a unique index. -/
def checkUnique (table : Table) (key : Value) (row : Row) :
    List (String × Index) → Except EngineError Unit
  | [] => .ok ()
  | (field, index) :: rest =>
    match index.conflict? (index.keysFor field row) key with
    | some taken => .error (.constraint table.name (.uniqueTaken field taken))
    | none => table.checkUnique key row rest

/-- Replaces a row in an index. -/
def reindex (key : Value) (previous : Option Row) (row : Row) (field : String) (index : Index) :
    Index :=
  let cleared := match previous with
    | some previous => index.dropOwners key (index.keysFor field previous)
    | none => index
  cleared.addOwners key (index.keysFor field row)

/-- The key after `n`, if there is one. -/
def keyAfter (n : Int64) : Option Int64 := if n = Int64.maxValue then none else some (n + 1)

/-- The next generated key after a row with the given key: generated keys stay ahead of
every integer key that was written. -/
def advance (table : Table) (key : Value) : Option Int64 :=
  match key, table.nextKey with
  | .integer n, some next => if table.autoIncrement ∧ next ≤ n then keyAfter n else some next
  | _, next => next

/-- Writes a row and gives its key. -/
def put (table : Table) (row : Row) (mode : WriteMode) : Except EngineError Value × Table :=
  editing table do
    let (key, row) ← (← get).assignKey row
    let previous ← (← get).replaced? key mode
    let bytes ← EngineError.ofCodec row.encode
    (← get).checkUnique key row (← get).indexes
    -- From here on nothing can fail.
    modify fun table => { table with
      indexes := table.indexes.map fun (field, index) =>
        (field, reindex key previous row field index) }
    modify fun table => { table with nextKey := table.advance key }
    modify fun table => { table with rows := table.rows.insert key bytes }
    return key

/-! ### Deleting -/

/-- Deletes a row. A key without row is no failure. A stored row that cannot be read is
taken out all the same, but its index keys are not known and stay. -/
def delete (table : Table) (key : Value) : Except EngineError Unit × Table :=
  match table.rows.get? key with
  | none => (.ok (), table)
  | some bytes =>
    let without := { table with rows := table.rows.erase key }
    match Row.decode bytes with
    | .error cause => (.error (.codec cause), without)
    | .ok row =>
      (.ok (), { without with
        indexes := table.indexes.map fun (field, index) =>
          (field, index.dropOwners key (index.keysFor field row)) })

/-! ### Scanning -/

/-- Reads stored rows. -/
def readRows (stored : List (List UInt8)) : Except EngineError (List Row) :=
  stored.mapM fun bytes => EngineError.ofCodec (Row.decode bytes)

/-- What comes of a scan by primary key. It has no outcome if the map of the rows refuses the
range. -/
def scanPrimary? (table : Table) : Option KeyRange → Option (Except EngineError (List Row))
  | some range => (table.rows.contentsIn? range).map readRows
  | none => some (readRows table.rows.contents)

/-- What comes of a scan of the index on a field. It has no outcome if the map of the owners
refuses the range. -/
def scanIndex? (table : Table) (field : String) (range : KeyRange) :
    Option (Except EngineError (List Row)) :=
  match table.indexes.lookup field with
  | none => some (.error (.indexNotFound table.name field))
  | some index => (index.owners.contentsIn? range).map fun owners =>
    readRows ((owners.flatMap KeyMap.keys).filterMap table.rows.get?)

theorem isSome_scanPrimary? (table : Table) (range : Option KeyRange) :
    (table.scanPrimary? range).isSome := by
  cases range with
  | none => rfl
  | some range =>
    rw [scanPrimary?, Option.isSome_map]
    exact table.rows.isSome_contentsIn? range

theorem isSome_scanIndex? (table : Table) (field : String) (range : KeyRange) :
    (table.scanIndex? field range).isSome := by
  rw [scanIndex?]
  split
  · rfl
  · rename_i index _
    rw [Option.isSome_map]
    exact index.owners.isSome_contentsIn? range

/-- The rows whose primary key lies in a range, or all rows, in order of their keys. -/
def scanPrimary (table : Table) (range : Option KeyRange) : Except EngineError (List Row) :=
  (table.scanPrimary? range).get (table.isSome_scanPrimary? range)

/-- The rows that have an index key in a range, in order of the index keys and then of
the primary keys. A row is found once for each of its index keys in the range. -/
def scanIndex (table : Table) (field : String) (range : KeyRange) :
    Except EngineError (List Row) :=
  (table.scanIndex? field range).get (table.isSome_scanIndex? field range)

end Table

end IndexedStore
