/-
This file proves that no operation of the registry leaves the tables that calls lead to.
What a transaction works on comes from a published store, and what it publishes is what its
calls have made of that. Only a deletion that has failed may lead elsewhere.
-/

import IndexedStore.Proofs.Storage.StoreState
import IndexedStore.Proofs.Storage.Table

namespace IndexedStore

theorem mem_assign {α : Type} {name : String} {content : α} {entry : String × α}
    {entries : List (String × α)} (member : entry ∈ assign name content entries) :
    entry = (name, content) ∨ entry ∈ entries := by
  induction entries with
  | nil => exact .inl (List.mem_singleton.mp member)
  | cons head rest inductionHypothesis =>
    rw [assign] at member
    split at member
    · exact (List.mem_cons.mp member).imp id (List.mem_cons_of_mem _)
    · rcases List.mem_cons.mp member with rfl | inRest
      · exact .inr List.mem_cons_self
      · exact (inductionHypothesis inRest).imp id (List.mem_cons_of_mem _)

/-! ### The data of a store -/

namespace StoreData

variable {data changed : StoreData} {name field : String} {table : Table}

/-- Every table is one that calls lead to. -/
def Reached (data : StoreData) : Prop := ∀ entry ∈ data.tables, entry.2.Reached

theorem table?_eq_ok_iff :
    data.table? name = .ok table ↔ data.tables.lookup name = some table := by
  rw [StoreData.table?]
  cases data.tables.lookup name with
  | none => simp
  | some found => rw [Except.ok.injEq, Option.some_inj]

theorem Reached.table? (reached : data.Reached) (found : data.table? name = .ok table) :
    table.Reached :=
  reached (name, table) (mem_of_lookup (table?_eq_ok_iff.mp found))

theorem eq_of_table?_eq_error {failure : EngineError} (absent : data.table? name = .error failure) :
    failure = .tableNotFound name := by
  unfold StoreData.table? at absent
  split at absent <;> cases absent
  rfl

/-- A call on a table of the data that fails to read or write a row fails on a table. -/
theorem exists_of_bind_eq_codec {α : Type} {call : Table → Except EngineError α}
    {cause : CodecError}
    (failed : (data.table? name >>= call) = .error (.codec cause)) :
    ∃ table, data.table? name = .ok table ∧ call table = .error (.codec cause) := by
  rcases eq_error_of_bind failed with absent | ⟨table, found, stopped⟩
  · cases eq_of_table?_eq_error absent
  · exact ⟨table, found, stopped⟩

@[simp]
theorem table?_setTable : (data.setTable name table).table? name = .ok table :=
  table?_eq_ok_iff.mpr lookup_assign_self

@[simp]
theorem table?_setTable_of_ne {other : String} (different : other ≠ name) :
    (data.setTable name table).table? other = data.table? other := by
  rw [StoreData.table?, setTable, lookup_assign_other different, ← StoreData.table?]

@[simp]
theorem setTable_setTable {table' : Table} :
    (data.setTable name table).setTable name table' = data.setTable name table' := by
  simp [setTable]

@[simp]
theorem setTable_of_table? (found : data.table? name = .ok table) :
    data.setTable name table = data := by
  rw [setTable, assign_of_lookup (table?_eq_ok_iff.mp found)]

theorem Reached.setTable (reached : data.Reached) (reachedTable : table.Reached) :
    (data.setTable name table).Reached := by
  intro entry member
  rcases mem_assign member with rfl | before
  · exact reachedTable
  · exact reached entry before

@[simp]
theorem onTable_of_table? {α : Type} {call : Table → Except EngineError α × Table}
    (found : data.table? name = .ok table) :
    data.onTable name call = ((call table).1, data.setTable name (call table).2) := by
  rw [onTable, found]

@[simp]
theorem onTable_of_error {α : Type} {call : Table → Except EngineError α × Table}
    {failure : EngineError} (absent : data.table? name = .error failure) :
    data.onTable name call = (.error failure, data) := by
  rw [onTable, absent]

/-- A call on a table is made if the table is there. The table stays as the call has left it. -/
theorem onTable_cases {α : Type} {call : Table → Except EngineError α × Table}
    {result : Except EngineError α} (called : data.onTable name call = (result, changed)) :
    (result = .error (.tableNotFound name) ∧ changed = data) ∨
      ∃ table after, data.table? name = .ok table ∧ call table = (result, after) ∧
        changed = data.setTable name after := by
  cases found : data.table? name with
  | error failure =>
    rw [onTable_of_error found, eq_of_table?_eq_error found] at called
    cases called
    exact .inl ⟨rfl, rfl⟩
  | ok table =>
    rw [onTable_of_table? found] at called
    cases called
    exact .inr ⟨table, _, rfl, rfl, rfl⟩

theorem createTable_cases {autoIncrement : Bool} {result : Except EngineError Unit}
    (called : data.createTable name field autoIncrement = (result, changed)) :
    (result = .error (.alreadyExists ("table " ++ name)) ∧ changed = data) ∨
      (data.tables.lookup name = none ∧ result = .ok () ∧
        changed = data.setTable name { name, keyField := field, autoIncrement }) := by
  unfold createTable hasTable at called
  split at called
  · cases called
    exact .inl ⟨rfl, rfl⟩
  · rename_i absent
    cases called
    exact .inr ⟨Option.not_isSome_iff_eq_none.mp absent, rfl, rfl⟩

theorem Reached.createTable (reached : data.Reached) {autoIncrement : Bool}
    {result : Except EngineError Unit}
    (called : data.createTable name field autoIncrement = (result, changed)) :
    changed.Reached := by
  rcases createTable_cases called with ⟨-, rfl⟩ | ⟨-, -, rfl⟩
  · exact reached
  · exact reached.setTable (.empty rfl rfl)

theorem Reached.createIndex (reached : data.Reached) {options : IndexOptions}
    {result : Except EngineError Unit}
    (called : data.createIndex name field options = (result, changed)) : changed.Reached := by
  rcases onTable_cases called with ⟨-, rfl⟩ | ⟨table, after, found, created, rfl⟩
  · exact reached
  · exact reached.setTable (.createIndex (reached.table? found) created)

end StoreData

/-! ### Transactions -/

namespace Transaction

variable {transaction changed : Transaction} {table : String} {content : Table}

@[simp]
theorem scanIndex_of_table? {field : String} {range : KeyRange}
    (found : transaction.data.table? table = .ok content) :
    transaction.scanIndex table field range = content.scanIndex field range := by
  simp [scanIndex, found]

@[simp]
theorem scanPrimary_of_table? {range : Option KeyRange}
    (found : transaction.data.table? table = .ok content) :
    transaction.scanPrimary table range = content.scanPrimary range := by
  simp [scanPrimary, found]

@[simp]
theorem change_of_readWrite {α : Type} {call : Table → Except EngineError α × Table}
    (writes : transaction.mode = .readWrite) :
    transaction.change table call = ((transaction.data.onTable table call).1,
      { transaction with data := (transaction.data.onTable table call).2, isDirty := true }) := by
  rw [change, writes]

@[simp]
theorem change_of_readOnly {α : Type} {call : Table → Except EngineError α × Table}
    (reads : transaction.mode = .readOnly) :
    transaction.change table call = (.error .readOnly, transaction) := by
  rw [change, reads]

/-- If a call leads to a table that calls lead to, a transaction that makes it does so too. -/
theorem reached_change {α : Type} {call : Table → Except EngineError α × Table}
    {result : Except EngineError α} (reached : transaction.data.Reached)
    (leads : ∀ content after, content.Reached → call content = (result, after) → after.Reached)
    (called : transaction.change table call = (result, changed)) :
    changed.data.Reached := by
  cases mode : transaction.mode with
  | readOnly =>
    rw [change_of_readOnly mode] at called
    cases called
    exact reached
  | readWrite =>
    rw [change_of_readWrite mode] at called
    cases called
    rcases StoreData.onTable_cases rfl with ⟨-, same⟩ | ⟨content, after, found, called, same⟩
    · exact same ▸ reached
    · exact same ▸ reached.setTable (leads content after (reached.table? found) called)

theorem reached_write (reached : transaction.data.Reached) {row : Row} {mode : WriteMode}
    {result : Except EngineError Value}
    (written : transaction.write table row mode = (result, changed)) : changed.data.Reached :=
  reached_change reached (fun _ _ before called => before.put called) written

theorem reached_delete (reached : transaction.data.Reached) {key : Value}
    (deleted : transaction.delete table key = (.ok (), changed)) : changed.data.Reached :=
  reached_change reached (fun _ _ before called => before.delete called) deleted

end Transaction

/-! ### The registry -/

namespace Registry

variable {registry : Registry} {handle : HandleId} {transaction : Transaction} {data : StoreData}

/-- Every table of every store is one that calls lead to. -/
def Reached (registry : Registry) : Prop := ∀ record ∈ registry.stores, record.data.Reached

theorem Reached.modifyStore (reached : registry.Reached) (store : StoreId)
    {change : StoreRecord → StoreRecord}
    (keeps : ∀ record, record.data.Reached → (change record).data.Reached) :
    (registry.modifyStore store change).Reached := by
  intro record member
  obtain ⟨position, here⟩ := List.mem_iff_getElem?.mp member
  by_cases same : position = store
  · subst same
    rw [getElem?_modifyStore, Option.map_eq_some_iff] at here
    obtain ⟨before, found, rfl⟩ := here
    exact keeps before (reached before (List.mem_of_getElem? found))
  · rw [getElem?_modifyStore_of_ne same] at here
    exact reached record (List.mem_of_getElem? here)

theorem Reached.register (reached : registry.Reached) (name : String) :
    (registry.register name).2.1.data.Reached ∧ (registry.register name).2.2.Reached := by
  unfold Registry.register
  split
  · rename_i id record _ found
    obtain ⟨_, -, here⟩ := Option.bind_eq_some_iff.mp found
    exact ⟨reached record (List.mem_of_getElem? here), reached⟩
  · refine ⟨nofun, fun record member => ?_⟩
    rcases List.mem_append.mp member with before | isNew
    · exact reached record before
    · rw [List.mem_singleton.mp isNew]
      exact nofun

theorem Reached.addHandle (reached : registry.Reached) (store : StoreId) (version : Nat) :
    (registry.addHandle store version).2.Reached :=
  reached.modifyStore store fun _ => id

/-- Opening a store keeps the tables if the upgrade does. -/
theorem Reached.openStore {ρ : Type} {upgrade : Upgrade ρ} (reached : registry.Reached)
    (keeps : ∀ old new (data : StoreData), data.Reached → (upgrade old new data).data.Reached)
    (name : String) (version : Nat) :
    (registry.openStore name version upgrade).2.2.Reached := by
  obtain ⟨data, registered⟩ := reached.register name
  cases opened : registry.openStore name version upgrade with
  | mk outcome rest =>
    obtain ⟨report, after⟩ := rest
    rcases openStore_cases opened rfl with
      ⟨-, rfl | rfl, -⟩ | ⟨-, -, -, rfl⟩ | ⟨_, _, -, -, -, ⟨-, rfl⟩, rfl, -, -, rfl⟩
    · exact reached
    · exact registered
    · exact registered.addHandle _ version
    · refine (registered.modifyStore _ fun _ _ => ?_).addHandle _ version
      exact keeps _ version _ data

theorem Reached.close (reached : registry.Reached) (handle : HandleId) :
    (registry.close handle).Reached := by
  unfold Registry.close
  split
  · split
    · exact reached
    · exact reached.modifyStore _ fun _ => id
  · exact reached

theorem Reached.of_state? {store : StoreId} {state : StoreState} (reached : registry.Reached)
    (known : registry.state? store = some state) : state.data.Reached := by
  obtain ⟨record, found, rfl⟩ := Option.map_eq_some_iff.mp known
  exact reached record (List.mem_of_getElem? found)

/-- What a transaction begins to work on is published. -/
theorem Reached.begin (reached : registry.Reached) {mode : TransactionMode}
    {outcome : Outcome EngineError Transaction} {changed : Registry}
    (began : registry.begin handle mode = (outcome, changed)) :
    changed.Reached ∧ ∀ transaction, outcome = .done transaction → transaction.data.Reached := by
  rcases begin_cases began with ⟨nothing, rfl⟩ | ⟨entry, state, -, -, known, rfl, taken⟩
  · refine ⟨reached, ?_⟩
    rintro transaction rfl
    cases nothing
  · constructor
    · rcases taken with ⟨-, rfl⟩ | ⟨-, -, rfl⟩
      · exact reached
      · exact reached.modifyStore _ fun _ => id
    · intro transaction isDone
      cases isDone
      exact reached.of_state? known

theorem Reached.beginRead (reached : registry.Reached)
    (began : registry.beginRead handle = .ok transaction) : transaction.data.Reached := by
  have done : registry.begin handle .readOnly = (.done transaction, registry) := by
    rw [Registry.begin, began]
    rfl
  exact (reached.begin done).2 transaction rfl

theorem Reached.discard (reached : registry.Reached) (transaction : Transaction) :
    (registry.discard transaction).Reached := by
  unfold Registry.discard
  split
  · exact reached
  · exact reached.modifyStore _ fun _ => id

theorem Reached.commit (reached : registry.Reached) (data : transaction.data.Reached) :
    (registry.commit transaction).2.Reached := by
  unfold Registry.commit
  have released := reached.discard transaction
  split
  · split
    · exact released.modifyStore _ fun _ _ => data
    · exact released
  · exact released

/-! ### Published data -/

/-- The data that a handle sees: what its store has published, as long as the handle is open. -/
def published (registry : Registry) (handle : HandleId) : Option StoreData :=
  registry.handles[handle]?.bind fun entry =>
    if entry.isClosed then none else registry.stores[entry.store]?.map StoreRecord.data

theorem beginRead_eq_ok_iff : (∃ transaction, registry.beginRead handle = .ok transaction ∧
    transaction.data = data) ↔ registry.published handle = some data := by
  rw [beginRead, published]
  cases registry.handles[handle]? with
  | none => simp
  | some entry =>
    dsimp only [Option.bind_some]
    cases entry.isClosed with
    | true => simp
    | false =>
      cases registry.stores[entry.store]? with
      | none => simp
      | some record =>
        constructor
        · rintro ⟨transaction, began, same⟩
          cases began
          exact congrArg some same
        · intro same
          exact ⟨_, rfl, Option.some.inj same⟩

/-- Changing a record beside its data changes nothing that is published. -/
theorem published_modifyStore {store : StoreId} {change : StoreRecord → StoreRecord}
    (keeps : ∀ record, (change record).data = record.data) :
    (registry.modifyStore store change).published = registry.published := by
  funext handle
  simp only [published, handles_modifyStore, map_modifyStore_of_keeps keeps]

@[simp]
theorem published_discard (transaction : Transaction) :
    (registry.discard transaction).published = registry.published := by
  unfold discard
  split
  · rfl
  · exact published_modifyStore fun _ => rfl

/-- A transaction is the writer of an open handle. -/
structure Writer (registry : Registry) (handle : HandleId) (transaction : Transaction) : Prop where
  /-- It may write. -/
  mode : transaction.mode = .readWrite
  /-- The handle began it. -/
  handle_eq : transaction.handle = handle
  /-- The handle is open, and its store is the one that the transaction works on. -/
  isOpen : ∃ entry record, registry.handles[handle]? = some entry ∧ entry.isClosed = false ∧
    entry.store = transaction.store ∧ registry.stores[transaction.store]? = some record

/-- Beginning to write publishes nothing. The writer works on what the handle sees. -/
theorem beginWrite_cases {outcome : Outcome EngineError Transaction} {changed : Registry}
    (began : registry.beginWrite handle = (outcome, changed)) :
    changed.published = registry.published ∧ ∀ transaction, outcome = .done transaction →
      changed.Writer handle transaction ∧ registry.published handle = some transaction.data := by
  have begun : registry.begin handle .readWrite = (outcome, changed) := began
  rcases begin_cases begun with ⟨nothing, rfl⟩ |
    ⟨entry, state, here, isOpen, known, rfl, ⟨absurd, -⟩ | ⟨-, -, rfl⟩⟩
  · refine ⟨rfl, ?_⟩
    rintro transaction rfl
    cases nothing
  · cases absurd
  · obtain ⟨record, found, rfl⟩ := Option.map_eq_some_iff.mp known
    refine ⟨published_modifyStore fun _ => rfl, fun transaction isDone => ?_⟩
    cases isDone
    refine ⟨⟨rfl, rfl, entry, { record with hasWriter := true }, here, isOpen, rfl, ?_⟩, ?_⟩
    · simp [Transaction.begun, found]
    · simp [published, here, isOpen, found, Transaction.begun, StoreRecord.state]

/-- The commit of a writer that has changed something succeeds, and its handle sees the changed
data. -/
theorem published_commit (writer : registry.Writer handle transaction)
    (isDirty : transaction.isDirty) :
    (registry.commit transaction).1 = .ok () ∧
      (registry.commit transaction).2.published handle = some transaction.data := by
  obtain ⟨entry, record, here, isOpen, same, found⟩ := writer.isOpen
  have opened : registry.isOpen transaction.handle := by
    rw [Registry.isOpen, writer.handle_eq, here]
    exact congrArg not isOpen
  rw [commit, if_pos opened, if_pos isDirty, discard, writer.mode]
  exact ⟨rfl, by simp [published, here, isOpen, same, found]⟩

end Registry

end IndexedStore
