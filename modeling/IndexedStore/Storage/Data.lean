/-
This file defines the data of a store, its tables by name, and the changes to its
schema that an upgrade may make. An upgrade works on a copy of the data; which data
the store has afterwards is decided by whoever runs it.
-/

import IndexedStore.Storage.Table

namespace IndexedStore

/-- The tables of a store. -/
structure StoreData where
  /-- The tables with their names. -/
  tables : List (String × Table) := []

namespace StoreData

/-- The table of a name. -/
def table? (data : StoreData) (name : String) : Except EngineError Table :=
  match data.tables.lookup name with
  | some table => .ok table
  | none => .error (.tableNotFound name)

/-- Whether there is a table of that name. -/
def hasTable (data : StoreData) (name : String) : Bool := (data.tables.lookup name).isSome

/-- Puts a table in the place of the one of that name. -/
def setTable (data : StoreData) (name : String) (table : Table) : StoreData :=
  ⟨assign name table data.tables⟩

/-- Makes a call on the table of a name. The table stays as the call has left it, also if
the call fails. -/
def onTable {α : Type} (data : StoreData) (name : String)
    (call : Table → Except EngineError α × Table) : Except EngineError α × StoreData :=
  match data.table? name with
  | .error failure => (.error failure, data)
  | .ok table =>
    let (result, changed) := call table
    (result, data.setTable name changed)

/-- Creates a table without rows. -/
def createTable (data : StoreData) (name keyField : String) (autoIncrement : Bool) :
    Except EngineError Unit × StoreData :=
  if data.hasTable name then (.error (.alreadyExists ("table " ++ name)), data)
  else (.ok (), data.setTable name { name, keyField, autoIncrement })

/-- Creates an index on a field of a table. -/
def createIndex (data : StoreData) (name field : String) (options : IndexOptions) :
    Except EngineError Unit × StoreData :=
  data.onTable name fun table => table.createIndex field options

/-- The options of the index on a field of a table. -/
def indexOptions? (data : StoreData) (name field : String) : Option IndexOptions :=
  (data.tables.lookup name).bind fun table => table.indexOptions? field

end StoreData

/-! ### Upgrades -/

/-- What an upgrade leaves: its success or failure, the data, and a report of its work. -/
structure UpgradeOutcome (ρ : Type) where
  /-- Whether it has succeeded. -/
  result : Except EngineError Unit
  /-- The data as it was changed, also by an upgrade that has failed. -/
  data : StoreData
  /-- The report. -/
  report : ρ

/-- An upgrade from one version to another. -/
abbrev Upgrade (ρ : Type) := Nat → Nat → StoreData → UpgradeOutcome ρ

/-- One thing that an upgrade may do. -/
inductive UpgradeAction where
  | createTable (table keyField : String) (autoIncrement : Bool)
  | createIndex (table field : String) (options : IndexOptions)
  | hasTable (table : String)
  | hasIndex (table field : String)
  | indexOptions (table field : String)
  | versions
  | fail (message : String)

/-- What an action answers. -/
inductive UpgradeAnswer where
  | done
  | flag (flag : Bool)
  | options (options : Option IndexOptions)
  | versions (old new : Nat)

/-- An action, and whether the upgrade goes on when it fails. -/
structure UpgradeStep where
  /-- The action. -/
  action : UpgradeAction
  /-- Whether a failure is passed over. -/
  ignoresFailure : Bool := false

namespace UpgradeAction

/-- Runs an action on the data. -/
def run (old new : Nat) (data : StoreData) :
    UpgradeAction → Except EngineError UpgradeAnswer × StoreData
  | createTable table keyField autoIncrement =>
    let (result, changed) := data.createTable table keyField autoIncrement
    (result.map fun _ => .done, changed)
  | createIndex table field options =>
    let (result, changed) := data.createIndex table field options
    (result.map fun _ => .done, changed)
  | hasTable table => (.ok (.flag (data.hasTable table)), data)
  | hasIndex table field => (.ok (.flag (data.indexOptions? table field).isSome), data)
  | indexOptions table field => (.ok (.options (data.indexOptions? table field)), data)
  | versions => (.ok (.versions old new), data)
  | fail message => (.error (.alreadyExists message), data)

end UpgradeAction

/-- The answers of the actions of an upgrade that were run. -/
abbrev UpgradeLog := List (Except EngineError UpgradeAnswer)

/-- Runs actions one after the other. A failure that is not passed over ends the
upgrade. -/
def runUpgradeSteps (old new : Nat) (data : StoreData) :
    List UpgradeStep → UpgradeOutcome UpgradeLog
  | [] => ⟨.ok (), data, []⟩
  | step :: rest =>
    match step.action.run old new data with
    | (.ok answer, data) =>
      let outcome := runUpgradeSteps old new data rest
      { outcome with report := .ok answer :: outcome.report }
    | (.error failure, data) =>
      if step.ignoresFailure then
        let outcome := runUpgradeSteps old new data rest
        { outcome with report := .error failure :: outcome.report }
      else ⟨.error failure, data, [.error failure]⟩

/-- The upgrade that runs the given actions. -/
def Upgrade.ofSteps (steps : List UpgradeStep) : Upgrade UpgradeLog :=
  fun old new data => runUpgradeSteps old new data steps

end IndexedStore
