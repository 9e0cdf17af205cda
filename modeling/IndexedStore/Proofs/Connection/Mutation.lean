/-
This file says what writing or deleting one row does to the data that a handle sees. An
operation that is done has published exactly what the call on the table has given, and one
that is not done has published nothing.

It also says where a failure to read or write a row comes from: the call on the table has
failed with it. Beginning and ending a transaction never fail so.
-/

import IndexedStore.Connection.Mutation
import IndexedStore.Proofs.Storage.Registry

namespace IndexedStore

/-- A failure goes back to bytes that could not be read, or to a row without bytes. -/
inductive DatabaseError.HasCodec : DatabaseError → CodecError → Prop
  | codec {cause : CodecError} : HasCodec (.codec cause) cause
  | scan {table clause : String} {cause : CodecError} :
    HasCodec (.scan table clause (.codec cause)) cause
  | write {table : String} {key : Option Value} {cause : CodecError} :
    HasCodec (.write table key (.codec cause)) cause
  | delete {table : String} {key : Value} {cause : CodecError} :
    HasCodec (.delete table key (.codec cause)) cause
  | batch {table : String} {total : Nat} {failures : List (Nat × DatabaseError)}
    {failure : Nat × DatabaseError} {cause : CodecError} (member : failure ∈ failures)
    (beneath : HasCodec failure.2 cause) : HasCodec (.batch table total failures) cause

/-! ### Transactions -/

namespace Transaction

variable {transaction : Transaction} {table : String} {α : Type}

/-- What a call on a table makes of a transaction that may write. -/
structure Makes (transaction : Transaction) (table : String)
    (call : Table → Except EngineError α × Table) (result : Except EngineError α)
    (changed : Transaction) : Prop where
  /-- The transaction stays what it is. -/
  same : changed.mode = transaction.mode ∧ changed.store = transaction.store ∧
    changed.handle = transaction.handle
  /-- A call that succeeds has changed the table, and nothing else. -/
  ok : ∀ value, result = .ok value → ∃ content altered,
    transaction.data.table? table = .ok content ∧
    call content = (.ok value, altered) ∧ changed.isDirty ∧
    changed.data = transaction.data.setTable table altered
  /-- A failure to read or write a row is one of the call. -/
  codec : ∀ cause, result = .error (.codec cause) → ∃ content,
    transaction.data.table? table = .ok content ∧ (call content).1 = .error (.codec cause)

variable {call : Table → Except EngineError α × Table} {changed : Transaction}

/-- A call that has failed, or that was not made. -/
theorem makes_error {failure : EngineError}
    (same : changed.mode = transaction.mode ∧ changed.store = transaction.store ∧
      changed.handle = transaction.handle)
    (codec : ∀ cause, failure = .codec cause → ∃ content,
      transaction.data.table? table = .ok content ∧ (call content).1 = .error (.codec cause)) :
    transaction.Makes table call (.error failure) changed := by
  refine ⟨same, fun value isOk => ?_, fun cause isCodec => ?_⟩
  · cases isOk
  · exact codec cause (Except.error.inj isCodec)

/-- A call that has succeeded. -/
theorem makes_ok {content altered : Table} {result : α}
    (same : changed.mode = transaction.mode ∧ changed.store = transaction.store ∧
      changed.handle = transaction.handle)
    (found : transaction.data.table? table = .ok content)
    (called : call content = (.ok result, altered)) (isDirty : changed.isDirty)
    (data : changed.data = transaction.data.setTable table altered) :
    transaction.Makes table call (.ok result) changed := by
  refine ⟨same, fun value isOk => ?_, fun cause isCodec => ?_⟩
  · cases isOk
    exact ⟨content, altered, found, called, isDirty, data⟩
  · cases isCodec

theorem makes_change (writes : transaction.mode = .readWrite) :
    transaction.Makes table call (transaction.change table call).1
      (transaction.change table call).2 := by
  rw [change_of_readWrite writes]
  cases found : transaction.data.table? table with
  | error failure =>
    rw [StoreData.onTable_of_error found, StoreData.eq_of_table?_eq_error found]
    exact makes_error ⟨rfl, rfl, rfl⟩ fun cause isCodec => by cases isCodec
  | ok content =>
    rw [StoreData.onTable_of_table? found]
    rcases called : call content with ⟨failure | value, altered⟩
    · refine makes_error ⟨rfl, rfl, rfl⟩ fun cause isCodec => ⟨content, found, ?_⟩
      rw [called, isCodec]
    · exact makes_ok ⟨rfl, rfl, rfl⟩ found called rfl rfl

end Transaction

/-! ### The engine -/

namespace Engine

variable {engine : Engine} {handle : HandleId} {transaction : Transaction} {table : String}
  {α : Type}

theorem beginWrite_cases {outcome : Outcome EngineError Transaction} {changed : Engine}
    (began : engine.beginWrite handle = (outcome, changed)) :
    changed.registry.published = engine.registry.published ∧
      ∀ transaction, outcome = .done transaction →
        changed.registry.Writer handle transaction ∧
          engine.registry.published handle = some transaction.data := by
  unfold beginWrite at began
  dsimp only at began
  split at began
  · cases began
    exact ⟨rfl, fun transaction isDone => by cases isDone⟩
  · cases began
    exact @Registry.beginWrite_cases engine.registry handle _ _ rfl

/-- A call of the engine that, in a transaction that may write, makes a call on a table, and that
leaves the registry alone. -/
def Applies (table : String) (work : Table → Except EngineError α × Table)
    (call : Engine → Transaction → Except EngineError α × Transaction × Engine) : Prop :=
  ∀ engine transaction, transaction.mode = .readWrite →
    transaction.Makes table work (call engine transaction).1 (call engine transaction).2.1 ∧
      (call engine transaction).2.2.registry = engine.registry

theorem applies_alter {call : EngineCall} {work : Table → Except EngineError α × Table}
    {change : Transaction → Except EngineError α × Transaction}
    (makes : ∀ transaction : Transaction, transaction.mode = .readWrite →
      transaction.Makes table work (change transaction).1 (change transaction).2) :
    Applies table work fun engine transaction => engine.alter call transaction change := by
  intro engine transaction writes
  dsimp only
  obtain ⟨after, same, struck | passed⟩ := alter_cases engine call transaction change
  · rw [struck]
    refine ⟨Transaction.makes_error ⟨rfl, rfl, rfl⟩ fun cause isCodec => ?_, same⟩
    cases isCodec
  · rw [passed]
    exact ⟨makes transaction writes, same⟩

theorem applies_write (row : Row) (mode : WriteMode) :
    Applies table (fun content => content.put row mode)
      fun engine transaction => engine.write transaction table row mode :=
  applies_alter fun _ => Transaction.makes_change

theorem applies_delete (key : Value) :
    Applies table (fun content => content.delete key)
      fun engine transaction => engine.delete transaction table key :=
  applies_alter fun _ => Transaction.makes_change

/-- The commit of a writer publishes its data, unless it is struck. -/
theorem commit_cases (writer : engine.registry.Writer handle transaction)
    (isDirty : transaction.isDirty) :
    ((engine.commit transaction).1 = .error .closed ∧
        (engine.commit transaction).2.registry.published = engine.registry.published) ∨
      ((engine.commit transaction).1 = .ok () ∧
        (engine.commit transaction).2.registry.published handle = some transaction.data) := by
  unfold commit
  dsimp only
  split
  · exact .inl ⟨rfl, Registry.published_discard transaction⟩
  · exact .inr (Registry.published_commit writer isDirty)

end Engine

/-! ### One row -/

namespace TableSchema

variable {table : TableSchema} {engine : Engine} {handle : HandleId} {α : Type}

/-- What an operation on one row may come to. It has published what the call on the table has
given, or it has published nothing. -/
inductive Performs (table : TableSchema) (engine : Engine) (handle : HandleId)
    (call : Table → Except EngineError α × Table) : Reply α × Engine → Prop
  | done {data : StoreData} {content altered : Table} {result : α} {after : Engine}
    (sees : engine.registry.published handle = some data)
    (found : data.table? table.name = .ok content) (ok : call content = (.ok result, altered))
    (publishes : after.registry.published handle = some (data.setTable table.name altered)) :
    Performs table engine handle call (.done result, after)
  | failed {failure : DatabaseError} {after : Engine}
    (same : after.registry.published = engine.registry.published)
    (codec : ∀ cause, failure.HasCodec cause → ∃ data content,
      engine.registry.published handle = some data ∧ data.table? table.name = .ok content ∧
      (call content).1 = .error (.codec cause)) :
    Performs table engine handle call (.failed failure, after)
  | waiting {after : Engine} (same : after.registry.published = engine.registry.published) :
    Performs table engine handle call (.waiting, after)

/-- The end of an operation on one row, once its call has been made. -/
theorem performs_finish {call : Table → Except EngineError α × Table} {opened : Engine}
    {transaction altered : Transaction} {result : α} {failed : EngineError → DatabaseError}
    (published : opened.registry.published = engine.registry.published)
    (sees : engine.registry.published handle = some transaction.data)
    (writer : opened.registry.Writer handle transaction)
    (makes : transaction.Makes table.name call (.ok result) altered)
    (notCodec : ∀ cause, ¬(failed .closed).HasCodec cause) :
    table.Performs engine handle call (opened.finish altered result failed) := by
  obtain ⟨content, changed, found, ok, isDirty, data⟩ := makes.ok result rfl
  obtain ⟨mode, store, own⟩ := makes.same
  have still : opened.registry.Writer handle altered :=
    ⟨mode.trans writer.mode, own.trans writer.handle_eq, store ▸ writer.isOpen⟩
  have ended := Engine.commit_cases still isDirty
  unfold Engine.finish
  cases committed : opened.commit altered with
  | mk outcome after =>
    rw [committed] at ended
    rcases ended with ⟨isClosed, same⟩ | ⟨isOk, publishes⟩
    · cases isClosed
      exact .failed (same.trans published) fun cause isCodec => absurd isCodec (notCodec cause)
    · cases isOk
      exact .done sees found ok (data ▸ publishes)

/-- The failure of the call ends the transaction, and nothing is published. -/
theorem performs_discard {call : Table → Except EngineError α × Table} {opened : Engine}
    {transaction altered : Transaction} {failure : EngineError}
    {failed : EngineError → DatabaseError}
    (published : opened.registry.published = engine.registry.published)
    (sees : engine.registry.published handle = some transaction.data)
    (makes : transaction.Makes table.name call (.error failure) altered)
    (wraps : ∀ cause, (failed failure).HasCodec cause → failure = .codec cause) :
    table.Performs engine handle call (.failed (failed failure), opened.discard altered) := by
  refine .failed ((Registry.published_discard altered).trans published) fun cause isCodec => ?_
  obtain ⟨content, found, same⟩ := makes.codec cause (congrArg _ (wraps cause isCodec))
  exact ⟨transaction.data, content, sees, found, same⟩

/-- A call on one row in a transaction of its own performs the call on the table. -/
theorem performs_transact {work : Table → Except EngineError α × Table}
    {call : Engine → Transaction → Except EngineError α × Transaction × Engine}
    {failed : EngineError → DatabaseError} (applies : Engine.Applies table.name work call)
    (wraps : ∀ failure cause, (failed failure).HasCodec cause → failure = .codec cause) :
    table.Performs engine handle work (table.transact engine handle call failed) := by
  unfold transact
  cases began : engine.beginWrite handle with
  | mk outcome opened =>
    obtain ⟨published, begun⟩ := Engine.beginWrite_cases began
    cases outcome with
    | waiting => exact .waiting published
    | failed failure => exact .failed published nofun
    | done transaction =>
      obtain ⟨writer, sees⟩ := begun transaction rfl
      obtain ⟨makes, same⟩ := applies opened transaction writer.mode
      dsimp only
      cases called : call opened transaction with
      | mk result rest =>
        obtain ⟨altered, after⟩ := rest
        rw [called] at makes same
        change after.registry = opened.registry at same
        cases result with
        | error failure => exact performs_discard (same ▸ published) sees makes (wraps failure)
        | ok result =>
          refine performs_finish (same ▸ published) sees (same ▸ writer) makes fun cause isCodec => ?_
          cases wraps .closed cause isCodec

theorem performs_addRow (row : Row) (mode : WriteMode) :
    table.Performs engine handle (fun content => content.put row mode)
      (table.addRow engine handle row mode) := by
  rw [addRow]
  split
  · exact .failed rfl nofun
  · refine performs_transact (Engine.applies_write row mode) fun failure cause isCodec => ?_
    cases isCodec
    rfl

theorem performs_deleteKey (key : Value) :
    table.Performs engine handle (fun content => content.delete key)
      (table.deleteKey engine handle key) := by
  refine performs_transact (Engine.applies_delete key) fun failure cause isCodec => ?_
  cases isCodec
  rfl

end TableSchema

end IndexedStore
