/-
This file defines connections: an open store together with the schema of its
database. Opening a connection brings the store up to the schema, and closing it
gives its handle back.
-/

import IndexedStore.Connection.Error
import IndexedStore.Storage.Faults

namespace IndexedStore

/-- What a query that asks for nothing finds. -/
inductive EmptyQuery where
  | allRows
  | reject
deriving DecidableEq

/-- How a connection is opened. -/
structure Config where
  /-- The version of the store. -/
  version : Nat := 1
  /-- What a query that asks for nothing finds. -/
  emptyQuery : EmptyQuery := .allRows

/-- A connection to a store. -/
structure Connection where
  /-- The handle to the store, until the connection is closed. -/
  handle : Option HandleId
  /-- The schema. -/
  database : DatabaseSchema
  /-- How the connection was opened. -/
  config : Config

/-- How an operation of a connection ends. -/
abbrev Reply (α : Type) := Outcome DatabaseError α

/-! ### Bringing a store up to a schema -/

/-- Creates the indexes that columns ask for, where they are missing. An index that is
there keeps its options. -/
def applyColumns (table : TableSchema) (data : StoreData) :
    List Column → UpgradeOutcome (List Warning)
  | [] => ⟨.ok (), data, []⟩
  | column :: rest =>
    if table.isKey column.name then applyColumns table data rest
    else
      match data.indexOptions? table.name column.name with
      | none =>
        match data.createIndex table.name column.name column.options with
        | (.ok (), data) => applyColumns table data rest
        | (.error failure, data) => ⟨.error failure, data, []⟩
      | some stored =>
        let warning := if stored = column.options then []
          else [.optionsChanged table.name column.name]
        let outcome := applyColumns table data rest
        { outcome with report := warning ++ outcome.report }

/-- Creates a table, if it is missing. -/
def applyTable (table : TableSchema) (data : StoreData) : Except EngineError Unit × StoreData :=
  if data.hasTable table.name then (.ok (), data)
  else data.createTable table.name table.keyColumn table.autoIncrement

/-- Creates the tables that are missing, each with its missing indexes. -/
def applyTables (data : StoreData) : List TableSchema → UpgradeOutcome (List Warning)
  | [] => ⟨.ok (), data, []⟩
  | table :: rest =>
    match applyTable table data with
    | (.error failure, data) => ⟨.error failure, data, []⟩
    | (.ok (), data) =>
      let outcome := applyColumns table data table.columns
      match outcome.result with
      | .error failure => ⟨.error failure, outcome.data, outcome.report⟩
      | .ok () =>
        let others := applyTables outcome.data rest
        { others with report := outcome.report ++ others.report }

/-- The upgrade that brings a store up to a schema. -/
def DatabaseSchema.upgrade (database : DatabaseSchema) : Upgrade (List Warning) :=
  fun _ _ data => applyTables data database.tables

namespace Connection

/-- Opens a connection. -/
def openStore (engine : Engine) (database : DatabaseSchema) (config : Config) :
    Reply Connection × List Warning × Engine :=
  let (outcome, report, registry) :=
    engine.registry.openStore database.name config.version database.upgrade
  let connection (handle : HandleId) : Connection := { handle := some handle, database, config }
  let reply := (outcome.map connection).mapFailure (.connection database.name)
  (reply, report.getD [], { engine with registry })

/-- Whether the connection has not been closed. -/
def isOpen (connection : Connection) : Bool := connection.handle.isSome

/-- Closes the connection. Closing it again does nothing. -/
def close (connection : Connection) (engine : Engine) : Connection × Engine :=
  match connection.handle with
  | some handle =>
    ({ connection with handle := none },
      { engine with registry := engine.registry.close handle })
  | none => (connection, engine)

/-- The handle and the schema of a table that an operation needs. -/
def resolve (connection : Connection) (table : String) :
    Except DatabaseError (HandleId × TableSchema) :=
  match connection.handle with
  | none => .error .notInitialized
  | some handle =>
    match connection.database.table? table with
    | none => .error (.missingTable table)
    | some schema => .ok (handle, schema)

end Connection

end IndexedStore
