/-
This file says what writing or deleting one row does to the registry where nobody is writing. The
operation finds the lock free, so that it never waits. It is done, and then the table that its call
has given is published, or the registry is what it was before, whatever has kept the row back.
-/

import IndexedStore.Proofs.Connection.DeletedRow

namespace IndexedStore

/-- Where nobody is writing, whoever begins to write gets the lock, or nothing has happened. -/
theorem Engine.beginWrite_of_idle {engine opened : Engine} {handle : HandleId}
    {outcome : Outcome EngineError Transaction} (idle : engine.registry.Idle)
    (began : engine.beginWrite handle = (outcome, opened)) :
    ((∃ failure, outcome = .failed failure) ∧ opened.registry = engine.registry) ∨
      ∃ store record, engine.registry.Lends handle store record ∧
        outcome = .done (.begun .readWrite store handle record.data) ∧
        opened.registry = engine.registry.modifyStore store fun record =>
          { record with hasWriter := true } := by
  unfold beginWrite at began
  dsimp only at began
  split at began
  · cases began
    exact .inl ⟨⟨_, rfl⟩, rfl⟩
  · unfold Registry.beginWrite at began
    rw [registry_strike] at began
    split at began
    · rename_i entry there
      split at began
      · rename_i record isOpen here
        have isFree := idle.hasWriter_eq_false (List.mem_of_getElem? here)
        rw [isFree, if_neg Bool.false_ne_true] at began
        cases began
        exact .inr ⟨entry.store, record, ⟨⟨entry, there, isOpen, rfl⟩, here, isFree⟩, rfl, rfl⟩
      · cases began
        exact .inl ⟨⟨_, rfl⟩, rfl⟩
    · cases began
      exact .inl ⟨⟨_, rfl⟩, rfl⟩

namespace TableSchema

variable {table : TableSchema} {engine opened : Engine} {handle : HandleId} {store : StoreId}
  {record : StoreRecord} {altered : Transaction} {α : Type}
  {work : Table → Except EngineError α × Table}

/-- What an operation on one row comes to where nobody is writing. -/
inductive Posts (table : TableSchema) (registry : Registry) (handle : HandleId)
    (work : Table → Except EngineError α × Table) : Reply α × Engine → Prop
  /-- The call has succeeded, and its table is published. -/
  | done {store : StoreId} {record : StoreRecord} {content changed : Table} {result : α}
    {after : Engine} (lends : registry.Lends handle store record)
    (found : record.data.table? table.name = .ok content)
    (ok : work content = (.ok result, changed))
    (published : after.registry = registry.publish store table.name changed) :
    Posts table registry handle work (.done result, after)
  /-- The operation has failed, and nothing has changed. -/
  | failed {failure : DatabaseError} {after : Engine} (same : after.registry = registry) :
    Posts table registry handle work (.failed failure, after)

/-- The end of an operation on one row whose call has succeeded. -/
theorem posts_finish {result : α} {failed : EngineError → DatabaseError}
    (lends : engine.registry.Lends handle store record)
    (locked : opened.registry = engine.registry.modifyStore store fun record =>
      { record with hasWriter := true })
    (makes : (Transaction.begun .readWrite store handle record.data).Makes table.name work
      (.ok result) altered) :
    table.Posts engine.registry handle work (opened.finish altered result failed) := by
  obtain ⟨content, changed, found, ok, isDirty, data⟩ := makes.ok result rfl
  obtain ⟨writes, sameStore, own⟩ := makes.same
  have isOpen : opened.registry.isOpen altered.handle := by
    simpa [own, locked] using lends.isOpen_handle
  unfold Engine.finish
  rcases Engine.commit_of_isOpen writes isDirty isOpen with
    ⟨after, ended, last⟩ | ⟨after, ended, last⟩
  · rw [ended]
    refine .failed (last.trans ?_)
    rw [locked, sameStore]
    exact lends.freed
  · rw [ended]
    refine .done lends found ok (last.trans ?_)
    rw [locked, sameStore, data]
    exact lends.committed table.name changed

/-- The end of an operation on one row whose call has failed. -/
theorem posts_discard {failure : EngineError} {cause : DatabaseError}
    (lends : engine.registry.Lends handle store record)
    (locked : opened.registry = engine.registry.modifyStore store fun record =>
      { record with hasWriter := true })
    (makes : (Transaction.begun .readWrite store handle record.data).Makes table.name work
      (.error failure) altered) :
    table.Posts engine.registry handle work (.failed cause, opened.discard altered) := by
  obtain ⟨writes, sameStore, -⟩ := makes.same
  refine .failed ?_
  show opened.registry.discard altered = _
  rw [Registry.discard, writes, locked, sameStore]
  exact lends.freed

/-- A call on one row posts what the call on the table gives, or nothing. -/
theorem posts_transact {call : Engine → Transaction → Except EngineError α × Transaction × Engine}
    (idle : engine.registry.Idle) (applies : Engine.Applies table.name work call)
    (failed : EngineError → DatabaseError) :
    table.Posts engine.registry handle work (table.transact engine handle call failed) := by
  unfold transact
  cases began : engine.beginWrite handle with
  | mk outcome opened =>
    rcases Engine.beginWrite_of_idle idle began with
      ⟨⟨failure, rfl⟩, same⟩ | ⟨store, record, lends, rfl, locked⟩
    · exact .failed same
    · obtain ⟨makes, same⟩ := applies opened (.begun .readWrite store handle record.data) rfl
      dsimp only
      cases called : call opened (.begun .readWrite store handle record.data) with
      | mk result rest =>
        obtain ⟨altered, after⟩ := rest
        rw [called] at makes same
        cases result with
        | error failure => exact posts_discard lends (same.trans locked) makes
        | ok result => exact posts_finish lends (same.trans locked) makes

theorem posts_addRow (idle : engine.registry.Idle) (row : Row) (mode : WriteMode) :
    table.Posts engine.registry handle (fun content => content.put row mode)
      (table.addRow engine handle row mode) := by
  rw [addRow]
  split
  · exact .failed rfl
  · exact posts_transact idle (Engine.applies_write row mode) _

theorem posts_deleteKey (idle : engine.registry.Idle) (key : Value) :
    table.Posts engine.registry handle (fun content => content.delete key)
      (table.deleteKey engine handle key) :=
  posts_transact idle (Engine.applies_delete key) _

end TableSchema

end IndexedStore
