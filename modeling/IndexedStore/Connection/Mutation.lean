/-
This file writes and deletes rows. Every row is written or deleted in a transaction
of its own. An operation on several rows goes on after a failure, keeps what has
succeeded, and reports every failure with the position of its row.

The rows of such an operation are worked on at the same time, but the store has one
writer at a time: each transaction ends before the next one begins. In which order they
get their turns is not laid down here. It is a schedule, which every operation on
several rows is given.
-/

import IndexedStore.Connection.Select

namespace IndexedStore

/-! ### One row -/

/-- Runs the commit that ends a transaction on one row, and gives the result it has
had so far. -/
def Engine.finish {α : Type} (engine : Engine) (transaction : Transaction) (result : α)
    (failed : EngineError → DatabaseError) : Reply α × Engine :=
  match engine.commit transaction with
  | (.ok (), engine) => (.done result, engine)
  | (.error failure, engine) => (.failed (failed failure), engine)

/-- Makes a call of the engine in a transaction of its own. A call that fails ends the
transaction without effect. -/
def TableSchema.transact {α : Type} (table : TableSchema) (engine : Engine) (handle : HandleId)
    (call : Engine → Transaction → Except EngineError α × Transaction × Engine)
    (failed : EngineError → DatabaseError) : Reply α × Engine :=
  match engine.beginWrite handle with
  | (.waiting, engine) => (.waiting, engine)
  | (.failed failure, engine) => (.failed (.transaction table.name failure), engine)
  | (.done transaction, engine) =>
    match call engine transaction with
    | (.error failure, transaction, engine) =>
      (.failed (failed failure), engine.discard transaction)
    | (.ok result, transaction, engine) => engine.finish transaction result failed

/-- Writes a row of a table and gives its key. -/
def TableSchema.addRow (table : TableSchema) (engine : Engine) (handle : HandleId) (row : Row)
    (mode : WriteMode) : Reply Value × Engine :=
  let key := row.get? table.keyColumn
  if key.isNone ∧ !table.autoIncrement then
    (.failed (.invalidRow table.name table.keyColumn), engine)
  else
    table.transact engine handle
      (fun engine transaction => engine.write transaction table.name row mode)
      (.write table.name key)

/-- Deletes the row of a key. -/
def TableSchema.deleteKey (table : TableSchema) (engine : Engine) (handle : HandleId)
    (key : Value) : Reply Unit × Engine :=
  table.transact engine handle
    (fun engine transaction => engine.delete transaction table.name key)
    (.delete table.name key)

/-! ### Several rows -/

/-- The order in which operations get their turns that are started together. -/
structure Schedule where
  /-- The positions of so many items, in the order of their turns. -/
  order : Nat → List Nat
  /-- Every item has one turn. -/
  perm_range : ∀ count, (order count).Perm (List.range count)

namespace Schedule

variable {α : Type}

/-- The items get their turns in the order in which they are given. -/
def inOrder : Schedule := ⟨List.range, fun _ => .refl _⟩

/-- Items in the order of their turns. -/
def arrange (schedule : Schedule) (items : List α) : List α :=
  (schedule.order items.length).filterMap fun position => items[position]?

/-- What the turns give, in the order of the items. -/
def restore (schedule : Schedule) (results : List α) : List α :=
  (List.range results.length).filterMap fun position =>
    results[(schedule.order results.length).idxOf position]?

end Schedule

/-- Runs an operation on every item in order. -/
def runItems {α β : Type} (operate : Engine → α → Reply β × Engine) (engine : Engine) :
    List α → List (Reply β) × Engine
  | [] => ([], engine)
  | item :: rest =>
    let (reply, engine) := operate engine item
    let (replies, engine) := runItems operate engine rest
    (reply :: replies, engine)

section

variable {α β : Type} {operate : Engine → α → Reply β × Engine} {engine : Engine}

@[simp]
theorem runItems_nil : runItems operate engine [] = ([], engine) := rfl

@[simp]
theorem runItems_cons {item : α} {rest : List α} :
    runItems operate engine (item :: rest) =
      ((operate engine item).1 :: (runItems operate (operate engine item).2 rest).1,
        (runItems operate (operate engine item).2 rest).2) := rfl

end

/-- Runs an operation on every item as it gets its turn, and gives the replies in the order
of the items. -/
def runAll {α β : Type} (schedule : Schedule) (operate : Engine → α → Reply β × Engine)
    (engine : Engine) (items : List α) : List (Reply β) × Engine :=
  let (replies, engine) := runItems operate engine (schedule.arrange items)
  (schedule.restore replies, engine)

/-- One reply for several: all results, or all failures. If one item has to wait, they
all do. -/
def Reply.collect {α : Type} (table : String) (replies : List (Reply α)) : Reply (List α) :=
  if replies.any Outcome.isWaiting then .waiting
  else
    match Outcome.failures 0 replies with
    | [] => .done (Outcome.results replies)
    | failures => .failed (.batch table replies.length failures)

/-- The keys of rows in ascending order, each once. -/
def keysToDelete (table : TableSchema) (rows : List Row) : KeySet :=
  rows.foldl (fun keys row =>
    match row.get? table.keyColumn with
    | some key => keys.insert key ()
    | none => keys) {}

/-- A warning for every row without key. -/
def keyWarnings (table : TableSchema) (rows : List Row) : List Warning :=
  rows.filterMap fun row =>
    if row.contains table.keyColumn then none else some (.rowWithoutKey table.name)

namespace Connection

/-- Writes a row and gives its key. -/
def add (connection : Connection) (engine : Engine) (table : String) (row : Row)
    (mode : WriteMode) : Reply Value × Engine :=
  match connection.resolve table with
  | .error failure => (.failed failure, engine)
  | .ok (handle, schema) => schema.addRow engine handle row mode

/-- Writes several rows and gives their keys. -/
def addMany (connection : Connection) (engine : Engine) (table : String) (rows : List Row)
    (mode : WriteMode) (schedule : Schedule) : Reply (List Value) × Engine :=
  match connection.resolve table with
  | .error failure => (.failed failure, engine)
  | .ok (handle, schema) =>
    let (replies, engine) :=
      runAll schedule (fun engine row => schema.addRow engine handle row mode) engine rows
    (Reply.collect table replies, engine)

/-- Deletes the rows that a query finds, and gives their number. -/
def delete (connection : Connection) (engine : Engine) (table : String) (query : Query)
    (schedule : Schedule) : Reply Nat × List Warning × Engine :=
  match connection.resolve table with
  | .error failure => (.failed failure, [], engine)
  | .ok (handle, schema) =>
    match connection.find engine handle schema query with
    | (.error failure, engine) => (.failed failure, [], engine)
    | (.ok rows, engine) =>
      let (replies, engine) :=
        runAll schedule (fun engine key => schema.deleteKey engine handle key) engine
          (keysToDelete schema rows).keys
      let reply := (Reply.collect table replies).map List.length
      (reply, keyWarnings schema rows, engine)

end Connection

end IndexedStore
