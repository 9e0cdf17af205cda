/-
This file says what the deletion of one row comes to, whichever of its calls is struck. A row that
can be read is gone if the deletion is done, and otherwise nothing has changed: what the writer had
deleted was in its own copy of the data, and was thrown away.
-/

import IndexedStore.Proofs.Connection.Deletion
import IndexedStore.Proofs.Connection.Idle

namespace IndexedStore

/-! ### The rows of a table -/

namespace Table

variable {table current altered : Table} {gone gone' : Value → Prop} {key : Value}

/-- A table has lost the rows of certain keys, and is otherwise what it was. -/
structure Loses (table altered : Table) (gone : Value → Prop) : Prop where
  /-- The key field, the generated keys and all else beside the rows and indexes stay. -/
  same : altered = { table with rows := altered.rows, indexes := altered.indexes }
  /-- There are the same indexes, with the same options. -/
  options : altered.indexes.map (fun entry => (entry.1, entry.2.options)) =
    table.indexes.map fun entry => (entry.1, entry.2.options)
  /-- These rows are gone. -/
  lost : ∀ key, gone key → altered.rows.get? key = none
  /-- The others have the same bytes. -/
  kept : ∀ key, ¬gone key → altered.rows.get? key = table.rows.get? key

theorem Loses.refl (none : ∀ key, ¬gone key) : table.Loses table gone where
  same := rfl
  options := rfl
  lost key isGone := absurd isGone (none key)
  kept _ _ := rfl

theorem Loses.trans (first : table.Loses current gone) (second : current.Loses altered gone') :
    table.Loses altered fun key => gone key ∨ gone' key where
  same := by rw [second.same, first.same]
  options := second.options.trans first.options
  lost key isGone := by
    by_cases isLast : gone' key
    · exact second.lost key isLast
    · rw [second.kept key isLast]
      exact first.lost key (isGone.resolve_right isLast)
  kept key notGone := by
    rw [not_or] at notGone
    exact (second.kept key notGone.2).trans (first.kept key notGone.1)

theorem Loses.congr (loses : table.Loses altered gone) (same : ∀ key, gone' key ↔ gone key) :
    table.Loses altered gone' where
  same := loses.same
  options := loses.options
  lost key isGone := loses.lost key ((same key).mp isGone)
  kept key notGone := loses.kept key fun isGone => notGone ((same key).mpr isGone)

/-- Deleting a key takes out its row, if there is one. -/
theorem loses_delete (deletes : table.Deletes key) :
    table.Loses (table.delete key).2 (· == key) := by
  unfold delete
  split
  · rename_i absent
    refine ⟨rfl, rfl, fun other same => ?_, fun _ _ => rfl⟩
    rw [KeyMap.get?_congr same, absent]
  · rename_i bytes found
    obtain ⟨row, read⟩ := deletes bytes found
    rw [read]
    refine ⟨rfl, ?_, fun other same => ?_, fun other different => ?_⟩
    · simp [Function.comp_def]
    · simp [same]
    · simp [different]

end Table

/-! ### The record of a store -/

namespace Registry

variable {registry : Registry} {store : StoreId} {record : StoreRecord} {handle : HandleId}

/-- A handle is open and leads to a store to which nobody is writing. -/
structure Lends (registry : Registry) (handle : HandleId) (store : StoreId)
    (record : StoreRecord) : Prop where
  /-- The handle is open, and this is its store. -/
  isOpen : ∃ entry, registry.handles[handle]? = some entry ∧ entry.isClosed = false ∧
    entry.store = store
  /-- The record of the store. -/
  here : registry.stores[store]? = some record
  /-- The lock is free. -/
  idle : record.hasWriter = false

/-- A handle lends one store. -/
theorem Lends.unique {other : StoreId} {otherRecord : StoreRecord}
    (lends : registry.Lends handle store record)
    (lends' : registry.Lends handle other otherRecord) : store = other ∧ record = otherRecord := by
  obtain ⟨entry, there, -, rfl⟩ := lends.isOpen
  obtain ⟨entry', there', -, rfl⟩ := lends'.isOpen
  cases there.symm.trans there'
  exact ⟨rfl, Option.some.inj (lends.here.symm.trans lends'.here)⟩

theorem Idle.lends_of_beginRead {transaction : Transaction} (idle : registry.Idle)
    (began : registry.beginRead handle = .ok transaction) :
    ∃ store record, registry.Lends handle store record ∧ record.data = transaction.data := by
  unfold beginRead at began
  split at began
  · rename_i entry there
    split at began
    · rename_i record isOpen here
      cases began
      exact ⟨entry.store, record, ⟨⟨entry, there, isOpen, rfl⟩, here,
        idle.hasWriter_eq_false (List.mem_of_getElem? here)⟩, rfl⟩
    · cases began
  · cases began

theorem Lends.published (lends : registry.Lends handle store record) :
    registry.published handle = some record.data := by
  obtain ⟨entry, there, isOpen, rfl⟩ := lends.isOpen
  simp [Registry.published, there, isOpen, lends.here]

/-- Publishes a table of a store. -/
def publish (registry : Registry) (store : StoreId) (name : String) (table : Table) : Registry :=
  registry.modifyStore store fun record => { record with data := record.data.setTable name table }

theorem Lends.publish (lends : registry.Lends handle store record) (name : String)
    (table : Table) : (registry.publish store name table).Lends handle store
      { record with data := record.data.setTable name table } where
  isOpen := lends.isOpen
  here := by simp [Registry.publish, lends.here]
  idle := lends.idle

/-- The handle is open, and stays so while its store is locked. -/
theorem Lends.isOpen_handle (lends : registry.Lends handle store record) :
    registry.isOpen handle := by
  obtain ⟨entry, there, isOpen, -⟩ := lends.isOpen
  simp [Registry.isOpen, there, isOpen]

/-- Taking the lock and freeing it changes nothing. -/
theorem Lends.freed (lends : registry.Lends handle store record) :
    (registry.modifyStore store fun record => { record with hasWriter := true }).modifyStore store
      (fun record => { record with hasWriter := false }) = registry := by
  rw [modifyStore_modifyStore]
  refine modifyStore_of_eq lends.here ?_
  obtain ⟨_, _, _, _, _⟩ := record
  cases lends.idle
  rfl

/-- Freeing the lock with a changed table publishes it. -/
theorem Lends.committed (lends : registry.Lends handle store record) (name : String)
    (table : Table) :
    (registry.modifyStore store fun record => { record with hasWriter := true }).modifyStore store
      (fun other =>
        { other with hasWriter := false, data := record.data.setTable name table }) =
      registry.publish store name table := by
  rw [modifyStore_modifyStore]
  refine modifyStore_congr lends.here ?_
  obtain ⟨_, _, _, _, _⟩ := record
  cases lends.idle
  rfl

end Registry

namespace Engine

variable {engine : Engine} {store : StoreId} {record : StoreRecord} {handle : HandleId}
  {transaction : Transaction} {name : String} {content : Table} {key : Value}

theorem beginWrite_of_lends (lends : engine.registry.Lends handle store record) :
    (∃ after, engine.beginWrite handle = (.failed .closed, after) ∧
        after.registry = engine.registry) ∨
      ∃ after, engine.beginWrite handle =
          (.done (.begun .readWrite store handle record.data), after) ∧
        after.registry = engine.registry.modifyStore store fun record =>
          { record with hasWriter := true } := by
  obtain ⟨entry, there, isOpen, rfl⟩ := lends.isOpen
  have begun : engine.registry.beginWrite handle =
      (.done (.begun .readWrite entry.store handle record.data),
        engine.registry.modifyStore entry.store fun record =>
          { record with hasWriter := true }) := by
    simp [Registry.beginWrite, there, isOpen, lends.here, lends.idle, Transaction.begun]
  unfold beginWrite
  dsimp only
  split
  · exact .inl ⟨_, rfl, rfl⟩
  · rw [registry_strike, begun]
    exact .inr ⟨_, rfl, rfl⟩

theorem delete_of_deletes (writes : transaction.mode = .readWrite)
    (found : transaction.data.table? name = .ok content) (deletes : content.Deletes key) :
    (∃ after, engine.delete transaction name key = (.error .closed, transaction, after) ∧
        after.registry = engine.registry) ∨
      ∃ after, engine.delete transaction name key = (.ok (), { transaction with
          isDirty := true, data := transaction.data.setTable name (content.delete key).2 }, after) ∧
        after.registry = engine.registry := by
  obtain ⟨after, same, struck | passed⟩ :=
    alter_cases engine .delete transaction fun transaction => transaction.delete name key
  · exact .inl ⟨after, struck, same⟩
  · refine .inr ⟨after, passed.trans ?_, same⟩
    simp [Transaction.delete, writes, found, Table.delete_eq_ok deletes]

/-- The commit of a writer on an open handle publishes its data, unless it is struck. -/
theorem commit_of_isOpen (writes : transaction.mode = .readWrite) (isDirty : transaction.isDirty)
    (isOpen : engine.registry.isOpen transaction.handle) :
    (∃ after, engine.commit transaction = (.error .closed, after) ∧
        after.registry = engine.registry.modifyStore transaction.store fun record =>
          { record with hasWriter := false }) ∨
      ∃ after, engine.commit transaction = (.ok (), after) ∧
        after.registry = engine.registry.modifyStore transaction.store fun record =>
          { record with hasWriter := false, data := transaction.data } := by
  unfold commit discard
  dsimp only
  split
  · refine .inl ⟨_, rfl, ?_⟩
    rw [Registry.discard, writes]
    rfl
  · have committed : engine.registry.commit transaction = (.ok (),
        engine.registry.modifyStore transaction.store fun record =>
          { record with hasWriter := false, data := transaction.data }) := by
      simp [Registry.commit, isOpen, isDirty, Registry.discard, writes, Function.comp_def]
    rw [registry_strike, committed]
    exact .inr ⟨_, rfl, rfl⟩

end Engine

namespace TableSchema

variable {table : TableSchema} {engine : Engine} {store : StoreId} {record : StoreRecord}
  {handle : HandleId} {content : Table} {key : Value}

/-- A deletion of one row that can be read is done, or a fault has kept it back. Either the row is
gone, or nothing has changed; the lock is free in both cases. -/
theorem deleteKey_of_lends (lends : engine.registry.Lends handle store record)
    (found : record.data.table? table.name = .ok content) (deletes : content.Deletes key) :
    (∃ failure after, table.deleteKey engine handle key = (.failed failure, after) ∧
        failure.source? = some .closed ∧ after.registry = engine.registry) ∨
      ∃ after, table.deleteKey engine handle key = (.done (), after) ∧
        after.registry = engine.registry.publish store table.name (content.delete key).2 := by
  rw [deleteKey, transact]
  rcases Engine.beginWrite_of_lends lends with ⟨after, began, same⟩ | ⟨opened, began, locked⟩
  · rw [began]
    exact .inl ⟨_, _, rfl, rfl, same⟩
  rw [began]
  dsimp only
  rcases @Engine.delete_of_deletes opened (.begun .readWrite store handle record.data) table.name
    content key rfl found deletes with ⟨after, deleted, same⟩ | ⟨altered, deleted, same⟩
  · rw [deleted]
    refine .inl ⟨_, _, rfl, rfl, ?_⟩
    show after.registry.modifyStore store _ = _
    rw [same, locked, lends.freed]
  rw [deleted]
  dsimp only
  have stillOpen : altered.registry.isOpen handle := by
    simpa [same, locked] using lends.isOpen_handle
  unfold Engine.finish
  rcases @Engine.commit_of_isOpen altered
      { Transaction.begun .readWrite store handle record.data with
        isDirty := true, data := record.data.setTable table.name (content.delete key).2 } rfl rfl
      stillOpen with ⟨after, ended, last⟩ | ⟨after, ended, last⟩
  · refine .inl ⟨.delete table.name key .closed, after, ?_, rfl, last.trans ?_⟩
    · simp only [Transaction.begun] at ended ⊢
      rw [ended]
    · rw [same, locked]
      exact lends.freed
  · refine .inr ⟨after, ?_, last.trans ?_⟩
    · simp only [Transaction.begun] at ended ⊢
      rw [ended]
    · rw [same, locked]
      exact lends.committed table.name (content.delete key).2

end TableSchema

end IndexedStore
