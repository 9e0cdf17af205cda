/-
This file defines the engines that connections lead to, by any sequence of operations and
with any faults between, and proves that all their tables are tables that calls lead to.

The connections are arbitrary: nothing is asked of the handle or the schema with which one
comes to the engine, so it makes no difference which of several connections works next.
-/

import IndexedStore.Connection.Mutation
import IndexedStore.Proofs.Storage.Registry

namespace IndexedStore

/-! ### Upgrades -/

theorem reached_applyColumns {table : TableSchema} {columns : List Column} {data : StoreData}
    (reached : data.Reached) : (applyColumns table data columns).data.Reached := by
  induction columns generalizing data with
  | nil => exact reached
  | cons column rest inductionHypothesis =>
    rw [applyColumns]
    split
    · exact inductionHypothesis reached
    · split
      · split <;> rename_i created
        · exact inductionHypothesis (reached.createIndex created)
        · exact reached.createIndex created
      · exact inductionHypothesis reached

theorem reached_applyTable {table : TableSchema} {data changed : StoreData}
    {result : Except EngineError Unit} (reached : data.Reached)
    (applied : applyTable table data = (result, changed)) : changed.Reached := by
  rw [applyTable] at applied
  split at applied
  · cases applied
    exact reached
  · exact reached.createTable applied

theorem reached_applyTables {tables : List TableSchema} {data : StoreData}
    (reached : data.Reached) : (applyTables data tables).data.Reached := by
  induction tables generalizing data with
  | nil => exact reached
  | cons table rest inductionHypothesis =>
    rw [applyTables]
    split <;> rename_i applied
    · exact reached_applyTable reached applied
    · have columns := @reached_applyColumns table table.columns _
        (reached_applyTable reached applied)
      dsimp only
      split
      · exact columns
      · exact inductionHypothesis columns

/-! ### Calls of the engine -/

namespace Engine

variable {engine changed : Engine} {handle : HandleId} {transaction altered : Transaction}
  {table : String}

theorem reached_beginWrite (reached : engine.registry.Reached)
    {outcome : Outcome EngineError Transaction}
    (began : engine.beginWrite handle = (outcome, changed)) :
    changed.registry.Reached ∧ ∀ transaction, outcome = .done transaction →
      transaction.data.Reached := by
  unfold beginWrite at began
  dsimp only at began
  split at began
  · cases began
    exact ⟨reached, nofun⟩
  · cases began
    exact @Registry.Reached.begin _ handle reached .readWrite _ _ rfl

theorem reached_write (reached : transaction.data.Reached) {row : Row} {mode : WriteMode}
    {result : Except EngineError Value}
    (written : engine.write transaction table row mode = (result, altered, changed)) :
    altered.data.Reached ∧ changed.registry = engine.registry := by
  obtain ⟨after, same, struck | passed⟩ := alter_cases engine .write transaction
    fun transaction => transaction.write table row mode
  · cases struck.symm.trans written
    exact ⟨reached, same⟩
  · cases passed.symm.trans written
    exact ⟨Transaction.reached_write reached rfl, same⟩

theorem reached_delete (reached : transaction.data.Reached) {key : Value}
    {result : Except EngineError Unit}
    (deleted : engine.delete transaction table key = (result, altered, changed)) :
    (result = .ok () → altered.data.Reached) ∧ changed.registry = engine.registry := by
  obtain ⟨after, same, struck | passed⟩ := alter_cases engine .delete transaction
    fun transaction => transaction.delete table key
  · cases struck.symm.trans deleted
    exact ⟨nofun, same⟩
  · cases passed.symm.trans deleted
    exact ⟨fun isOk => Transaction.reached_delete reached (Prod.ext isOk rfl), same⟩

theorem reached_commit (reached : engine.registry.Reached) (data : transaction.data.Reached) :
    (engine.commit transaction).2.registry.Reached := by
  unfold commit
  dsimp only
  split
  · exact reached.discard transaction
  · exact reached.commit data

theorem reached_finish {α : Type} (reached : engine.registry.Reached)
    (data : transaction.data.Reached) (result : α) (failed : EngineError → DatabaseError) :
    (engine.finish transaction result failed).2.registry.Reached := by
  have committed := reached_commit reached data
  unfold finish
  split <;> rename_i ended <;> rw [ended] at committed <;> exact committed

end Engine

/-! ### Operations on rows -/

namespace TableSchema

variable {table : TableSchema} {engine : Engine} {handle : HandleId}

/-- A call on one row keeps what is reached if the call of the engine does. -/
theorem reached_transact {α : Type}
    {call : Engine → Transaction → Except EngineError α × Transaction × Engine}
    (reached : engine.registry.Reached) (failed : EngineError → DatabaseError)
    (keeps : ∀ opened transaction, transaction.data.Reached →
      (∀ result, (call opened transaction).1 = .ok result →
        (call opened transaction).2.1.data.Reached) ∧
      (call opened transaction).2.2.registry = opened.registry) :
    (table.transact engine handle call failed).2.registry.Reached := by
  unfold transact
  cases began : engine.beginWrite handle with
  | mk outcome opened =>
    obtain ⟨begun, data⟩ := Engine.reached_beginWrite reached began
    cases outcome with
    | waiting => exact begun
    | failed failure => exact begun
    | done transaction =>
      obtain ⟨changed, same⟩ := keeps opened transaction (data transaction rfl)
      dsimp only
      cases called : call opened transaction with
      | mk result rest =>
        obtain ⟨altered, after⟩ := rest
        rw [called] at changed same
        have kept : after.registry.Reached := same ▸ begun
        cases result with
        | error failure => exact kept.discard altered
        | ok result => exact Engine.reached_finish kept (changed result rfl) result failed

theorem reached_addRow (reached : engine.registry.Reached) (row : Row) (mode : WriteMode) :
    (table.addRow engine handle row mode).2.registry.Reached := by
  rw [addRow]
  split
  · exact reached
  · refine reached_transact reached _ fun opened transaction data => ?_
    obtain ⟨changed, same⟩ := Engine.reached_write data rfl
    exact ⟨fun _ _ => changed, same⟩

theorem reached_deleteKey (reached : engine.registry.Reached) (key : Value) :
    (table.deleteKey engine handle key).2.registry.Reached := by
  refine reached_transact reached _ fun opened transaction data => ?_
  cases deleted : opened.delete transaction table.name key with
  | mk result rest =>
    obtain ⟨changed, same⟩ := Engine.reached_delete data deleted
    exact ⟨fun _ isOk => changed isOk, same⟩

end TableSchema

/-- An operation on several items keeps what each of its operations keeps. -/
theorem reached_runItems {α β : Type} {operate : Engine → α → Reply β × Engine}
    (keeps : ∀ engine item, engine.registry.Reached → (operate engine item).2.registry.Reached)
    {engine : Engine} (reached : engine.registry.Reached) (items : List α) :
    (runItems operate engine items).2.registry.Reached := by
  induction items generalizing engine with
  | nil => exact reached
  | cons item rest inductionHypothesis => exact inductionHypothesis (keeps engine item reached)

/-! ### Queries -/

namespace TableSchema

variable {table : TableSchema} {engine : Engine} {transaction : Transaction}

@[simp]
theorem registry_scanClause (clause : Clause) :
    (table.scanClause engine transaction clause).2.registry = engine.registry := by
  unfold scanClause
  split
  · rfl
  · rename_i target _
    cases target with
    | primary => exact rfl
    | column column => exact rfl

@[simp]
theorem registry_scanClauses (clauses : List Clause) :
    (table.scanClauses engine transaction clauses).2.registry = engine.registry := by
  induction clauses generalizing engine with
  | nil => rfl
  | cons clause rest inductionHypothesis =>
    have first := @registry_scanClause table engine transaction clause
    rw [scanClauses]
    split <;> rename_i scanned <;> rw [scanned] at first
    · exact first
    · rename_i after
      have others := @inductionHypothesis after
      split <;> rename_i scanned' <;> rw [scanned'] at others <;> exact others.trans first

@[simp]
theorem registry_scanInclusions (clauses : List Clause) :
    (table.scanInclusions engine transaction clauses).2.registry = engine.registry := by
  unfold scanInclusions
  split
  · exact rfl
  · exact registry_scanClauses clauses

@[simp]
theorem registry_runPlan (plan : Plan) :
    (table.runPlan engine transaction plan).2.registry = engine.registry := by
  have first := @registry_scanInclusions table engine transaction plan.inclusions
  unfold runPlan
  split <;> rename_i scanned <;> rw [scanned] at first
  · exact first
  · rename_i after
    have others := @registry_scanClauses table after transaction plan.exclusions
    split <;> rename_i scanned' <;> rw [scanned'] at others <;> exact others.trans first

end TableSchema

namespace Connection

variable {connection : Connection} {engine : Engine}

/-- Queries change nothing in the stores. -/
@[simp]
theorem registry_find (handle : HandleId) (table : TableSchema) (query : Query) :
    (connection.find engine handle table query).2.registry = engine.registry := by
  rw [find]
  split
  · rfl
  · split
    · rfl
    · have begun : (engine.beginRead handle).2.registry = engine.registry := rfl
      split <;> rename_i began <;> rw [began] at begun
      · exact begun
      · exact (TableSchema.registry_runPlan query.plan).trans begun

@[simp]
theorem registry_select (table : String) (query : Query) :
    (connection.select engine table query).2.registry = engine.registry := by
  unfold select
  split
  · rfl
  · exact registry_find _ _ query

/-! ### Operations of connections -/

theorem reached_openStore (reached : engine.registry.Reached) (database : DatabaseSchema)
    (config : Config) : (openStore engine database config).2.2.registry.Reached :=
  reached.openStore (fun _ _ _ => reached_applyTables) database.name config.version

theorem reached_close (reached : engine.registry.Reached) :
    (connection.close engine).2.registry.Reached := by
  unfold close
  split
  · exact reached.close _
  · exact reached

theorem reached_add (reached : engine.registry.Reached) (table : String) (row : Row)
    (mode : WriteMode) : (connection.add engine table row mode).2.registry.Reached := by
  unfold add
  split
  · exact reached
  · exact TableSchema.reached_addRow reached row mode

theorem reached_addMany (reached : engine.registry.Reached) (table : String) (rows : List Row)
    (mode : WriteMode) (schedule : Schedule) :
    (connection.addMany engine table rows mode schedule).2.registry.Reached := by
  unfold addMany
  split
  · exact reached
  · exact reached_runItems (fun _ row known => TableSchema.reached_addRow known row mode)
      reached _

theorem reached_deleteFound (reached : engine.registry.Reached) (table : String) (query : Query)
    (schedule : Schedule) :
    (connection.delete engine table query schedule).2.2.registry.Reached := by
  unfold delete
  split
  · exact reached
  · rename_i handle schema _
    have same := @registry_find connection engine handle schema query
    split <;> rename_i found <;> rw [found] at same
    · exact same ▸ reached
    · exact reached_runItems (fun _ key known => TableSchema.reached_deleteKey known key)
        (same ▸ reached) _

end Connection

/-! ### Every sequence of operations -/

/-- The engines that connections lead to. Faults may be laid down at any time, and the rows of one
operation may get their turns in any order. -/
inductive Engine.Reached : Engine → Prop where
  | start (faults : Faults) : Reached { faults }
  | arm {engine : Engine} (before : Reached engine) (faults : Faults) :
    Reached { engine with faults }
  | openStore {engine : Engine} (before : Reached engine) (database : DatabaseSchema)
    (config : Config) : Reached (Connection.openStore engine database config).2.2
  | close {engine : Engine} (before : Reached engine) (connection : Connection) :
    Reached (connection.close engine).2
  | add {engine : Engine} (before : Reached engine) (connection : Connection) (table : String)
    (row : Row) (mode : WriteMode) : Reached (connection.add engine table row mode).2
  | addMany {engine : Engine} (before : Reached engine) (connection : Connection) (table : String)
    (rows : List Row) (mode : WriteMode) (schedule : Schedule) :
    Reached (connection.addMany engine table rows mode schedule).2
  | delete {engine : Engine} (before : Reached engine) (connection : Connection) (table : String)
    (query : Query) (schedule : Schedule) :
    Reached (connection.delete engine table query schedule).2.2
  | select {engine : Engine} (before : Reached engine) (connection : Connection) (table : String)
    (query : Query) : Reached (connection.select engine table query).2

/-- Every table in an engine that connections lead to is a table that calls lead to. -/
theorem Engine.Reached.registry {engine : Engine} (reached : engine.Reached) :
    engine.registry.Reached := by
  induction reached with
  | start faults => exact nofun
  | arm before faults inductionHypothesis => exact inductionHypothesis
  | openStore before database config inductionHypothesis =>
    exact Connection.reached_openStore inductionHypothesis database config
  | close before connection inductionHypothesis =>
    exact Connection.reached_close inductionHypothesis
  | add before connection table row mode inductionHypothesis =>
    exact Connection.reached_add inductionHypothesis table row mode
  | addMany before connection table rows mode schedule inductionHypothesis =>
    exact Connection.reached_addMany inductionHypothesis table rows mode schedule
  | delete before connection table query schedule inductionHypothesis =>
    exact Connection.reached_deleteFound inductionHypothesis table query schedule
  | select before connection table query inductionHypothesis =>
    simpa using inductionHypothesis

end IndexedStore
