/-
This file says what writing and deleting rows do where no call is struck. Nothing is struck
afterwards either, so that work goes on undisturbed. A deletion is done if the query for the rows
has succeeded, and it takes out exactly the rows that were found.
-/

import IndexedStore.Proofs.Connection.Batches
import IndexedStore.Proofs.Connection.QuietQuery
import IndexedStore.Proofs.Connection.Reopening

namespace IndexedStore

/-! ### Several deletions -/

/-- Deletions that can be done leave an engine on which no call is struck. -/
theorem TableSchema.quiet_runItems_deleteKey {table : TableSchema} {engine : Engine}
    {handle : HandleId} {data : StoreData} {content : Table} {keys : List Value}
    (free : engine.Free handle data) (found : data.table? table.name = .ok content)
    (deletes : ∀ key ∈ keys, content.Deletes key) :
    (runItems (fun engine key => table.deleteKey engine handle key) engine keys).2.Quiet := by
  induction keys generalizing engine data content with
  | nil => exact free.quiet
  | cons key rest inductionHypothesis =>
    rw [List.forall_mem_cons] at deletes
    obtain ⟨after, ended, free'⟩ := free_deleteKey free found (Table.delete_eq_ok deletes.1)
    rw [runItems_cons, ended]
    exact inductionHypothesis free' StoreData.table?_setTable
      fun other member => (deletes.2 other member).delete

namespace Connection

variable {connection : Connection} {engine after : Engine} {name : String} {query : Query}
  {table : TableSchema} {content : Table} {row : Row} {rows : List Row} {mode : WriteMode}
  {key : Value}

/-- A row that is written has been put into the table that the connection sees. -/
theorem add_of_quiet (reached : engine.Reached) (quiet : engine.Quiet)
    (sees : connection.Sees engine name table content)
    (added : connection.add engine name row mode = (.done key, after)) :
    after.Quiet ∧ table.Admits row ∧ ∃ altered, content.put row mode = (.ok key, altered) ∧
      connection.Sees after name table altered := by
  obtain ⟨other, before, altered, sees', put, seesAfter⟩ := add_eq_done added
  obtain ⟨rfl, rfl⟩ := sees.unique sees'
  obtain ⟨handle, transaction, resolved, -⟩ := sees
  rw [add, resolved] at added
  have again := TableSchema.addRow_of_done reached.idle quiet rfl added
  refine ⟨?_, TableSchema.admits_of_addRow added, altered, put, seesAfter⟩
  rw [(Prod.mk.inj (added.symm.trans again)).2]
  exact quiet

/-- Where the table has the key column of the schema, a deletion whose rows are found is done. It
takes out these rows, and their number is that of their keys. -/
theorem exists_delete (schedule : Schedule) (reached : engine.Reached) (quiet : engine.Quiet)
    (sees : connection.Sees engine name table content) (named : content.keyField = table.keyColumn)
    (selected : connection.select engine name query = (.ok rows, engine)) :
    ∃ warnings after altered, connection.delete engine name query schedule =
        (.done (keysToDelete table rows).keys.length, warnings, after) ∧ after.Quiet ∧
      connection.Sees after name table altered ∧
      content.Loses altered fun key => ∃ row ∈ rows, content.rows.Stores key row := by
  have ok : (connection.select engine name query).1 = .ok rows := by rw [selected]
  have sound := sound_of_sees reached sees
  have deletes : ∀ key ∈ (keysToDelete table rows).keys, content.Deletes key :=
    fun key => deletes_of_mem sound named (reads_of_select reached sees ok)
  obtain ⟨handle, transaction, resolved, began, there⟩ := id sees
  have free := Engine.free_of_beginRead began quiet fun record => reached.idle.hasWriter_eq_false
  have found : connection.find engine handle table query = (.ok rows, engine) := by
    rw [select, resolved] at selected
    exact selected
  have number := delete_eq_done schedule resolved found free there deletes
  have calm : (connection.delete engine name query schedule).2.2.Quiet := by
    simp only [delete, resolved, found]
    exact TableSchema.quiet_runItems_deleteKey free there fun key member =>
      deletes key (Schedule.mem_arrange.mp member)
  cases deleted : connection.delete engine name query schedule with
  | mk reply rest =>
    obtain ⟨warnings, after⟩ := rest
    rw [deleted] at number calm
    cases number
    obtain ⟨altered, sees', loses⟩ := loses_of_delete reached selected sees named deleted
    exact ⟨warnings, after, altered, rfl, calm, sees', loses⟩

end Connection

end IndexedStore
