/-
This file lists the failures of connections and their texts. A failure of the
storage engine is kept beneath the one that names the table and the clause or key
at which it came up.
-/

import IndexedStore.Schema.Database
import IndexedStore.Storage.Error

namespace IndexedStore

/-- Why a connection refused an operation. -/
inductive DatabaseError where
  /-- The connection has been closed. -/
  | notInitialized
  | missingTable (table : String)
  | unknownColumn (table field : String)
  | configuration (cause : SchemaError)
  | connection (store : String) (cause : EngineError)
  /-- The row lacks its key. -/
  | invalidRow (table keyColumn : String)
  /-- The query asks for nothing. -/
  | invalidQuery (table : String)
  | transaction (table : String) (cause : EngineError)
  /-- The scan of a clause failed; the clause is given as text. -/
  | scan (table clause : String) (cause : EngineError)
  | write (table : String) (key : Option Value) (cause : EngineError)
  | delete (table : String) (key : Value) (cause : EngineError)
  /-- Some of several items failed; they are given with their positions. -/
  | batch (table : String) (total : Nat) (failures : List (Nat × DatabaseError))
  | codec (cause : CodecError)

namespace DatabaseError

/-- The text of a failure. -/
def message : DatabaseError → String
  | notInitialized => "connection is not initialized"
  | missingTable table => "table not found in schema: " ++ table
  | unknownColumn table field => "table " ++ table ++ " has no index on field " ++ field
  | configuration cause => "invalid schema: " ++ cause.message
  | connection store cause => "cannot open store " ++ store ++ ": " ++ cause.message
  | invalidRow table keyColumn =>
    "invalid row for table " ++ table ++ ": row has no " ++ keyColumn ++ " field"
  | invalidQuery table => "invalid query on table " ++ table ++ ": query has no clauses"
  | transaction table cause => "transaction on table " ++ table ++ " failed: " ++ cause.message
  | scan table clause cause =>
    "scan of table " ++ table ++ " failed for clause " ++ clause ++ ": " ++ cause.message
  | write table key cause =>
    "write to table " ++ table ++ " failed for key " ++ Value.displayOption key ++ ": " ++
      cause.message
  | delete table key cause =>
    "delete from table " ++ table ++ " failed for key " ++ key.display ++ ": " ++ cause.message
  | batch table total failures =>
    natText failures.length ++ " of " ++ natText total ++ " operations on table " ++ table ++
      " failed"
  | codec cause => "codec error: " ++ cause.message

/-- The failure of the storage engine beneath a failure. -/
def source? : DatabaseError → Option EngineError
  | connection _ cause | transaction _ cause | scan _ _ cause | write _ _ cause
  | delete _ _ cause => some cause
  | _ => none

end DatabaseError

end IndexedStore
