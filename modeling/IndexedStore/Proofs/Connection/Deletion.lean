/-
This file proves that a deletion is done wherever nothing stands in its way: the rows have been
found, no call is struck any more, nobody is writing, and the table has the key column of the
schema. The number that it gives is the number of keys of the rows that were found.

What is found was read from the bytes that the table keeps, and deleting a row reads nothing but
these bytes again. So the deletion does not fail to read a row that the selection could read.
-/

import IndexedStore.Proofs.Connection.Schedule
import IndexedStore.Proofs.Connection.Select

namespace IndexedStore

/-! ### Rows that were read -/

/-- A row is what reading bytes of a table gives. -/
def Table.Reads (table : Table) (row : Row) : Prop :=
  ∃ bytes ∈ table.rows.contents, Row.decode bytes = .ok row

namespace Table

variable {table : Table} {rows : List Row} {field : String}

theorem exists_of_mem_readRows {stored : List (List UInt8)} (ok : readRows stored = .ok rows) :
    ∀ row ∈ rows, ∃ bytes ∈ stored, Row.decode bytes = .ok row := by
  rw [readRows_eq_ok_iff] at ok
  induction ok with
  | nil => exact nofun
  | cons read _ inductionHypothesis =>
    refine List.forall_mem_cons.mpr ⟨⟨_, List.mem_cons_self, read⟩, fun row member => ?_⟩
    obtain ⟨own, inside, decoded⟩ := inductionHypothesis row member
    exact ⟨own, List.mem_cons_of_mem _ inside, decoded⟩

theorem reads_of_scanPrimary {range : Option KeyRange} (ok : table.scanPrimary range = .ok rows) :
    ∀ row ∈ rows, table.Reads row := by
  intro row member
  cases range with
  | none => exact exists_of_mem_readRows ok row member
  | some range =>
    rw [scanPrimary_some] at ok
    obtain ⟨bytes, inside, decoded⟩ := exists_of_mem_readRows ok row member
    exact ⟨bytes, (List.filter_sublist.map Prod.snd).subset inside, decoded⟩

theorem reads_of_scanIndex {range : KeyRange} (ok : table.scanIndex field range = .ok rows) :
    ∀ row ∈ rows, table.Reads row := by
  intro row member
  cases found : table.indexes.lookup field with
  | none =>
    rw [scanIndex_of_lookup_eq_none found] at ok
    cases ok
  | some index =>
    rw [scanIndex_of_lookup found] at ok
    obtain ⟨bytes, inside, decoded⟩ := exists_of_mem_readRows ok row member
    obtain ⟨owner, -, here⟩ := List.mem_filterMap.mp inside
    exact ⟨bytes, KeyMap.mem_contents_of_get? here, decoded⟩

end Table

namespace TableSchema

variable {table : TableSchema} {engine : Engine} {transaction : Transaction} {content : Table}
  {clauses : List Clause} {batches : List (List Row)} {rows : List Row}

theorem reads_of_scanClauses (found : transaction.data.table? table.name = .ok content)
    (ok : (table.scanClauses engine transaction clauses).1 = .ok batches) :
    ∀ batch ∈ batches, ∀ row ∈ batch, content.Reads row := by
  induction clauses generalizing engine batches with
  | nil =>
    cases ok
    exact nofun
  | cons clause rest inductionHypothesis =>
    obtain ⟨rows, others, after, first, remaining, rfl⟩ := scanClauses_cons_eq_ok ok
    refine List.forall_mem_cons.mpr ⟨?_, inductionHypothesis remaining⟩
    obtain ⟨other, found', scanned⟩ := scanClause_eq_ok first
    cases found.symm.trans found'
    split at scanned
    · exact Table.reads_of_scanPrimary scanned
    · exact Table.reads_of_scanIndex scanned

theorem reads_of_scanInclusions (found : transaction.data.table? table.name = .ok content)
    (ok : (table.scanInclusions engine transaction clauses).1 = .ok batches) :
    ∀ batch ∈ batches, ∀ row ∈ batch, content.Reads row := by
  unfold scanInclusions at ok
  split at ok
  · obtain ⟨rows, scanned, rfl⟩ := exists_of_map_eq_ok (eq_ok_of_mapError ok)
    obtain ⟨other, found', all⟩ := scanPrimary_eq_ok scanned
    cases found.symm.trans found'
    exact List.forall_mem_singleton.mpr (Table.reads_of_scanPrimary all)
  · exact reads_of_scanClauses found ok

/-- A plan that is run has scanned all its clauses and joined what they have found. -/
theorem scans_of_runPlan {plan : Plan} (ok : (table.runPlan engine transaction plan).1 = .ok rows) :
    ∃ inclusions exclusions after,
      (table.scanInclusions engine transaction plan.inclusions).1 = .ok inclusions ∧
      (table.scanClauses after transaction plan.exclusions).1 = .ok exclusions ∧
      merge inclusions exclusions = .ok rows := by
  unfold runPlan at ok
  split at ok
  · cases ok
  · rename_i inclusions after scanned
    split at ok
    · cases ok
    · rename_i exclusions _ scanned'
      exact ⟨inclusions, exclusions, after, by rw [scanned], by rw [scanned'],
        eq_ok_of_mapError ok⟩

end TableSchema

/-! ### A deletion with nothing in its way -/

/-- A handle may write at once: no call is struck any more, the handle is open, nobody writes to
its store, and this is what the store has published. -/
structure Engine.Free (engine : Engine) (handle : HandleId) (data : StoreData) : Prop where
  /-- No fault is to come. -/
  quiet : ∀ call, engine.faults.gaps call = []
  /-- The handle is open, and its store has no writer. -/
  isOpen : ∃ entry record, engine.registry.handles[handle]? = some entry ∧
    entry.isClosed = false ∧ engine.registry.stores[entry.store]? = some record ∧
    record.hasWriter = false ∧ record.data = data

namespace Engine

variable {engine : Engine} {handle : HandleId} {transaction : Transaction} {data : StoreData}

/-- Whoever may read a store may write to it where nobody does and no call is struck. -/
theorem free_of_beginRead (began : engine.registry.beginRead handle = .ok transaction)
    (quiet : ∀ call, engine.faults.gaps call = [])
    (idle : ∀ record ∈ engine.registry.stores, record.hasWriter = false) :
    engine.Free handle transaction.data := by
  unfold Registry.beginRead at began
  split at began
  · rename_i entry here
    split at began
    · rename_i record isOpen there
      cases began
      exact ⟨quiet, entry, record, here, isOpen, there, idle record (List.mem_of_getElem? there),
        rfl⟩
    · cases began
  · cases began

end Engine

namespace TableSchema

variable {table : TableSchema} {engine : Engine} {handle : HandleId} {data : StoreData}
  {content : Table} {key : Value}

/-- A deletion of one row is done if the call on the table is, and the handle may write again
after it. -/
theorem free_deleteKey (free : engine.Free handle data)
    (found : data.table? table.name = .ok content) (ok : (content.delete key).1 = .ok ()) :
    ∃ after, table.deleteKey engine handle key = (.done (), after) ∧
      after.Free handle (data.setTable table.name (content.delete key).2) := by
  obtain ⟨quiet, entry, before, here, isOpen, there, idle, rfl⟩ := free
  have struck : ∀ call (registry : Registry),
      Engine.strike { engine with registry } call = (false, { engine with registry }) :=
    fun call registry => Engine.strike_of_quiet (quiet call)
  have began : engine.beginWrite handle =
      (.done { mode := .readWrite, store := entry.store, handle, data := before.data },
        { engine with registry := engine.registry.modifyStore entry.store fun record =>
          { record with hasWriter := true } }) := by
    simp [Engine.beginWrite, quiet .begin, Registry.beginWrite, here, isOpen, there, idle]
  -- What the writer has deleted is published by its commit, for the handle is still open.
  have ended : table.deleteKey engine handle key = (.done (), { engine with
      registry := ((engine.registry.modifyStore entry.store fun record =>
        { record with hasWriter := true }).modifyStore entry.store fun record =>
          { record with hasWriter := false }).modifyStore entry.store fun record =>
            { record with
              data := before.data.setTable table.name (content.delete key).2 } }) := by
    have stillOpen : Registry.isOpen (engine.registry.modifyStore entry.store fun record =>
        { record with hasWriter := true }) handle := by
      simp [Registry.isOpen, here, isOpen]
    simp [deleteKey, transact, began, Engine.delete, Engine.alter, struck, Transaction.delete, found, ok,
      Engine.finish, Engine.commit, Registry.commit, stillOpen, Registry.discard]
  refine ⟨_, ended, quiet, entry, { before with
    hasWriter := false, data := before.data.setTable table.name (content.delete key).2 },
    here, isOpen, ?_, rfl, rfl⟩
  simp [there]

end TableSchema

/-! ### Several deletions -/

/-- Nothing keeps the row of a key from being deleted: if there is one, it can be read. -/
def Table.Deletes (table : Table) (key : Value) : Prop :=
  ∀ bytes, table.rows.get? key = some bytes → ∃ row, Row.decode bytes = .ok row

namespace Table

variable {table : Table} {key other : Value}

theorem delete_eq_ok (deletes : table.Deletes key) : (table.delete key).1 = .ok () := by
  unfold delete
  split
  · rfl
  · rename_i bytes found
    obtain ⟨row, read⟩ := deletes bytes found
    rw [read]

theorem Deletes.delete (deletes : table.Deletes other) : (table.delete key).2.Deletes other := by
  have erased : ∀ bytes, (table.rows.erase key).get? other = some bytes →
      ∃ row, Row.decode bytes = .ok row := by
    intro bytes found
    rw [KeyMap.get?_erase] at found
    split at found
    · cases found
    · exact deletes bytes found
  unfold Table.delete
  split
  · exact deletes
  · split
    · exact erased
    · exact erased

end Table

theorem failures_map_done {ε α : Type} {start : Nat} (results : List α) :
    Outcome.failures start (results.map (@Outcome.done ε α)) = [] := by
  induction results generalizing start with
  | nil => rfl
  | cons result rest inductionHypothesis => exact inductionHypothesis

theorem map_done_results {ε α : Type} {outcomes : List (Outcome ε α)} {start : Nat}
    (finished : outcomes.any Outcome.isWaiting = false)
    (succeeded : Outcome.failures start outcomes = []) :
    outcomes = (Outcome.results outcomes).map .done := by
  induction outcomes generalizing start with
  | nil => rfl
  | cons outcome rest inductionHypothesis =>
    cases outcome with
    | done result => exact congrArg _ (inductionHypothesis finished succeeded)
    | failed cause => cases succeeded
    | waiting => cases finished

/-- Replies come to results exactly if all of them are done, and these are their results. -/
theorem Reply.collect_eq_done_iff {α : Type} {name : String} {replies : List (Reply α)}
    {results : List α} :
    Reply.collect name replies = .done results ↔ replies = results.map .done := by
  constructor
  · intro collected
    unfold Reply.collect at collected
    split at collected
    · cases collected
    · rename_i finished
      split at collected
      · rename_i succeeded
        cases collected
        exact map_done_results (Bool.eq_false_iff.mpr finished) succeeded
      · cases collected
  · rintro rfl
    simp [Reply.collect, failures_map_done, Outcome.results, Outcome.isWaiting,
      Function.comp_def, Outcome.result?]

namespace TableSchema

variable {table : TableSchema} {engine : Engine} {handle : HandleId} {data : StoreData}
  {content : Table}

/-- Several deletions are done where each of them can be. -/
theorem runItems_deleteKey (free : engine.Free handle data)
    (found : data.table? table.name = .ok content) {keys : List Value}
    (deletes : ∀ key ∈ keys, content.Deletes key) :
    (runItems (fun engine key => table.deleteKey engine handle key) engine keys).1 =
      (keys.map fun _ => ()).map .done := by
  induction keys generalizing engine data content with
  | nil => rfl
  | cons key rest inductionHypothesis =>
    rw [List.forall_mem_cons] at deletes
    obtain ⟨after, ended, free'⟩ := free_deleteKey free found (Table.delete_eq_ok deletes.1)
    simpa [ended] using inductionHypothesis free' StoreData.table?_setTable
      fun other member => (deletes.2 other member).delete

/-- So they are in any order of their turns. -/
theorem runAll_deleteKey {schedule : Schedule} (free : engine.Free handle data)
    (found : data.table? table.name = .ok content) {keys : List Value}
    (deletes : ∀ key ∈ keys, content.Deletes key) :
    (runAll schedule (fun engine key => table.deleteKey engine handle key) engine keys).1 =
      (keys.map fun _ => ()).map .done := by
  rw [fst_runAll, Schedule.restore_eq_iff, Schedule.arrange_map, Schedule.arrange_map]
  exact runItems_deleteKey free found fun key member => deletes key (Schedule.mem_arrange.mp member)

end TableSchema

end IndexedStore
