/-
This file runs queries. Every clause of a query is one scan of an index, all of them
in one transaction and in order, up to the first that fails; the batches are then
joined. A query without inclusion clauses starts from the whole table.
-/

import IndexedStore.Connection.Basic
import IndexedStore.Query.Merge
import IndexedStore.Query.Plan

namespace IndexedStore

namespace TableSchema

/-- Refuses a plan with a clause on a field that cannot be asked for. -/
def checkColumns (table : TableSchema) (plan : Plan) : Except DatabaseError Unit :=
  match plan.clauses.find? fun clause => !table.hasIndex clause.field with
  | some clause => .error (.unknownColumn table.name clause.field)
  | none => .ok ()

/-- Scans the index of a clause. -/
def scanClause (table : TableSchema) (engine : Engine) (transaction : Transaction)
    (clause : Clause) : Except DatabaseError (List Row) × Engine :=
  match table.target? clause.field with
  | none => (.error (.unknownColumn table.name clause.field), engine)
  | some target =>
    let (result, engine) := match target with
      | .primary => engine.scanPrimary transaction table.name (some clause.range)
      | .column column =>
        engine.scanIndex transaction table.name column.name clause.range
    (result.mapError (.scan table.name clause.display), engine)

/-- Scans the indexes of clauses in order, up to the first scan that fails. -/
def scanClauses (table : TableSchema) (engine : Engine) (transaction : Transaction) :
    List Clause → Except DatabaseError (List (List Row)) × Engine
  | [] => (.ok [], engine)
  | clause :: rest =>
    match table.scanClause engine transaction clause with
    | (.error failure, engine) => (.error failure, engine)
    | (.ok rows, engine) =>
      match table.scanClauses engine transaction rest with
      | (.error failure, engine) => (.error failure, engine)
      | (.ok batches, engine) => (.ok (rows :: batches), engine)

/-- Scans the inclusion clauses, or the whole table if there are none. -/
def scanInclusions (table : TableSchema) (engine : Engine) (transaction : Transaction)
    (clauses : List Clause) : Except DatabaseError (List (List Row)) × Engine :=
  if clauses.isEmpty then
    let (result, engine) := engine.scanPrimary transaction table.name none
    ((result.map fun rows => [rows]).mapError (.scan table.name "*"), engine)
  else table.scanClauses engine transaction clauses

/-- The rows of a plan, as its scans find them and the merge joins them. -/
def runPlan (table : TableSchema) (engine : Engine) (transaction : Transaction) (plan : Plan) :
    Except DatabaseError (List Row) × Engine :=
  match table.scanInclusions engine transaction plan.inclusions with
  | (.error failure, engine) => (.error failure, engine)
  | (.ok inclusions, engine) =>
    match table.scanClauses engine transaction plan.exclusions with
    | (.error failure, engine) => (.error failure, engine)
    | (.ok exclusions, engine) => ((merge inclusions exclusions).mapError .codec, engine)

end TableSchema

namespace Connection

/-- The rows of a table that a query finds. -/
def find (connection : Connection) (engine : Engine) (handle : HandleId) (table : TableSchema)
    (query : Query) : Except DatabaseError (List Row) × Engine :=
  let plan := query.plan
  if plan.isEmpty ∧ connection.config.emptyQuery = .reject then
    (.error (.invalidQuery table.name), engine)
  else
    match table.checkColumns plan with
    | .error failure => (.error failure, engine)
    | .ok () =>
      match engine.beginRead handle with
      | (.error failure, engine) => (.error (.transaction table.name failure), engine)
      | (.ok transaction, engine) => table.runPlan engine transaction plan

/-- The rows of a table that a query finds, the table being given by its name. -/
def select (connection : Connection) (engine : Engine) (table : String) (query : Query) :
    Except DatabaseError (List Row) × Engine :=
  match connection.resolve table with
  | .error failure => (.error failure, engine)
  | .ok (handle, schema) => connection.find engine handle schema query

/-- The number of rows that a query finds. -/
def count (connection : Connection) (engine : Engine) (table : String) (query : Query) :
    Except DatabaseError Nat × Engine :=
  let (result, engine) := connection.select engine table query
  (result.map List.length, engine)

end Connection

end IndexedStore
