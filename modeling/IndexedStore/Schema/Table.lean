/-
This file defines the schema of a table: its key column and the columns that have an
index. Rows may have other fields too; those are stored but cannot be asked for.
-/

import IndexedStore.Schema.Warning
import IndexedStore.Storage.Index

namespace IndexedStore

/-- Why a schema is not accepted. -/
inductive SchemaError where
  | tableWithoutName
  | tableWithoutKey (table : String)
  | databaseWithoutName
  | tableRepeated (database table : String)
deriving DecidableEq

/-- The text of a rejection. -/
def SchemaError.message : SchemaError → String
  | tableWithoutName => "table has no name"
  | tableWithoutKey table => "table " ++ table ++ " has no key column"
  | databaseWithoutName => "database has no name"
  | tableRepeated database table =>
    "database " ++ database ++ " declares table " ++ table ++ " more than once"

/-- A field with an index. -/
structure Column where
  /-- The field. -/
  name : String
  /-- The options of its index. -/
  options : IndexOptions := {}

/-- The schema of a table. -/
structure TableSchema where
  /-- The name of the table. -/
  name : String
  /-- The field that holds the primary key. -/
  keyColumn : String
  /-- The columns in the order of their declaration. -/
  columns : List Column := []
  /-- Whether the engine generates missing keys. -/
  autoIncrement : Bool := false

/-- A table as it is declared, before it is checked. -/
structure TableDeclaration where
  /-- The name of the table. -/
  name : String
  /-- The field that holds the primary key, if one is given. -/
  keyColumn : Option String := none
  /-- The columns in the order of their declaration. -/
  columns : List Column := []
  /-- Whether the engine generates missing keys. -/
  autoIncrement : Bool := false

/-- Where the rows with a field's value are looked up. -/
inductive IndexTarget where
  /-- Among the primary keys. -/
  | primary
  /-- In the index of a column. -/
  | column (column : Column)

/-- Accepts a declaration with a name and a key column. -/
def TableDeclaration.build (declaration : TableDeclaration) : Except SchemaError TableSchema :=
  if declaration.name = "" then .error .tableWithoutName
  else
    match declaration.keyColumn with
    | none | some "" => .error (.tableWithoutKey declaration.name)
    | some keyColumn =>
      .ok {
        name := declaration.name
        keyColumn
        columns := declaration.columns
        autoIncrement := declaration.autoIncrement }

namespace TableSchema

/-- Whether a field is the primary key. -/
def isKey (table : TableSchema) (field : String) : Bool := table.keyColumn == field

/-- The first column declared for a field. -/
def column? (table : TableSchema) (field : String) : Option Column :=
  table.columns.find? fun column => column.name == field

/-- Where a field is looked up. The key column is looked up among the primary keys even
if it is also declared as a column. -/
def target? (table : TableSchema) (field : String) : Option IndexTarget :=
  if table.isKey field then some .primary else (table.column? field).map .column

/-- Whether a field can be asked for. -/
def hasIndex (table : TableSchema) (field : String) : Bool := (table.target? field).isSome

/-- The warnings about columns, given those that stand before them. -/
def columnWarnings (table : TableSchema) (seen : List String) : List Column → List Warning
  | [] => []
  | column :: rest =>
    (if table.isKey column.name then [.keyListedAsColumn table.name column.name] else []) ++
      (if column.name ∈ seen then [.columnRepeated table.name column.name] else []) ++
      table.columnWarnings (column.name :: seen) rest

/-- The warnings about a table, in the order of its columns. -/
def warnings (table : TableSchema) : List Warning := table.columnWarnings [] table.columns

end TableSchema

end IndexedStore
