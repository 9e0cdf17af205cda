/-
This file defines a small database of people to try queries on: a table of people
keyed by a number, with a unique index on their addresses and one on each of their
tags, and a table of notes whose keys are generated.
-/

import IndexedStore.Connection.Mutation

namespace IndexedStore.People

/-! ### Schema -/

/-- The table of people. -/
def people : TableSchema where
  name := "People"
  keyColumn := "id"
  columns := [
    { name := "firstName" }, { name := "lastName" }, { name := "age" },
    { name := "email", options := { unique := true } },
    { name := "tags", options := { multiEntry := true } }]

/-- The table of notes. -/
def notes : TableSchema where
  name := "Notes"
  keyColumn := "id"
  columns := [{ name := "topic" }]
  autoIncrement := true

/-- The database. -/
def database : DatabaseSchema where
  name := "people"
  tables := [people, notes]
  named := by decide
  distinct := by decide

/-! ### Rows -/

/-- The row of a person. -/
def person (id : Int64) (firstName lastName : String) (age : Int64) : Row :=
  Row.ofFields [("id", .integer id), ("firstName", .text firstName),
    ("lastName", .text lastName), ("age", .integer age)]

/-- Six people. Two of them have one last name, and two others have first name and age
in common. -/
def sample : List Row := [
  (person 1 "John" "Gilmore" 69).set "email" (.text "john@gilmore.example"),
  (person 2 "John" "Doe" 69).set "email" (.text "john@doe.example"),
  (person 3 "Rory" "Gilmore" 22).set "tags" (.array [.text "student", .text "writer"]),
  (person 4 "Jane" "Doe" 17).set "tags" (.array [.text "student"]),
  person 5 "John" "Smith" 40,
  person 6 "Ann" "Lee" 12]

/-- The keys of rows that are integers, in ascending order. -/
def sortedIds (rows : List Row) : List Int64 :=
  (rows.filterMap fun row => (row.get? "id").bind Value.asInteger?).mergeSort fun first second =>
    first ≤ second

/-! ### Stores -/

/-- An open database of people. -/
structure Store where
  /-- The connection. -/
  connection : Connection
  /-- The engine that it works on. -/
  engine : Engine

namespace Store

/-- The database without rows, in a store of its own. Opening it cannot fail: the store
is new, and the schema has no table or index twice. -/
def empty : Store where
  connection := { handle := some 0, database, config := {} }
  engine := (Connection.openStore {} database {}).2.2

/-- Opening the database in a store of its own succeeds, with this connection. -/
theorem openStore_eq_empty :
    Connection.openStore {} database {} = (.done empty.connection, [], empty.engine) := by
  rfl

/-- Writes a person. -/
def add (store : Store) (row : Row) (mode : WriteMode) : Reply Value × Store :=
  let (reply, engine) := store.connection.add store.engine people.name row mode
  (reply, { store with engine })

/-- Writes several people. -/
def addMany (store : Store) (rows : List Row) (mode : WriteMode)
    (schedule : Schedule := .inOrder) : Reply (List Value) × Store :=
  let (reply, engine) := store.connection.addMany store.engine people.name rows mode schedule
  (reply, { store with engine })

/-- The people that a query finds. -/
def select (store : Store) (query : Query) : Except DatabaseError (List Row) × Store :=
  let (result, engine) := store.connection.select store.engine people.name query
  (result, { store with engine })

/-- Deletes the people that a query finds, and gives their number. -/
def delete (store : Store) (query : Query) (schedule : Schedule := .inOrder) :
    Reply Nat × Store :=
  let (reply, _, engine) := store.connection.delete store.engine people.name query schedule
  (reply, { store with engine })

/-- The database with the six people. -/
def populated : Store := (empty.addMany sample .insert).2

end Store

end IndexedStore.People
