/-
This file defines the registry of stores. Stores are opened by name at a version;
each opening gives a handle, and handles begin transactions. A transaction works on
the data that was published when it began. At most one transaction of a store may
write at a time, and what it has written becomes visible all at once when it
commits.

A store that is deleted loses its name only: transactions that were begun on it
still refer to its record, and a new store of that name gets a record of its own.
An operation that has to wait for a writer is given up, and changes nothing more.
-/

import IndexedStore.Outcome
import IndexedStore.Storage.Data

namespace IndexedStore

/-- The position of a store's record in the registry. -/
abbrev StoreId := Nat

/-- The position of a handle in the registry. -/
abbrev HandleId := Nat

/-- What the registry keeps of a store. -/
structure StoreRecord where
  /-- The name under which the store was created. -/
  name : String
  /-- The version on record, zero until the first upgrade has succeeded. -/
  version : Nat := 0
  /-- The published data. -/
  data : StoreData := {}
  /-- The number of open handles. -/
  handles : Nat := 0
  /-- Whether a writing transaction is under way. -/
  hasWriter : Bool := false

/-- An opened store. -/
structure Handle where
  /-- The store. -/
  store : StoreId
  /-- The version at which the store was opened. -/
  version : Nat
  /-- Whether the handle has been closed. -/
  isClosed : Bool := false

/-- What a transaction may do. -/
inductive TransactionMode where
  | readOnly
  | readWrite
deriving DecidableEq

/-- A transaction that is under way. -/
structure Transaction where
  /-- What it may do. -/
  mode : TransactionMode
  /-- The store it works on. -/
  store : StoreId
  /-- The handle that began it. -/
  handle : HandleId
  /-- Its own copy of the data. -/
  data : StoreData
  /-- Whether it has tried to change anything. -/
  isDirty : Bool := false

/-- The stores, their names and the handles to them. -/
structure Registry where
  /-- The records of all stores that were ever created. -/
  stores : List StoreRecord := []
  /-- The stores that have a name. -/
  names : List (String × StoreId) := []
  /-- All handles that were ever opened. -/
  handles : List Handle := []

/-! ### Work inside a transaction -/

namespace Transaction

/-- Scans the index on a field of a table. -/
def scanIndex (transaction : Transaction) (table field : String) (range : KeyRange) :
    Except EngineError (List Row) := do
  (← transaction.data.table? table).scanIndex field range

/-- Scans a table by primary key. -/
def scanPrimary (transaction : Transaction) (table : String) (range : Option KeyRange) :
    Except EngineError (List Row) := do
  (← transaction.data.table? table).scanPrimary range

/-- Makes a call that may change a table. -/
def change {α : Type} (transaction : Transaction) (table : String)
    (call : Table → Except EngineError α × Table) : Except EngineError α × Transaction :=
  match transaction.mode with
  | .readOnly => (.error .readOnly, transaction)
  | .readWrite =>
    let (result, data) := transaction.data.onTable table call
    (result, { transaction with data, isDirty := true })

/-- Writes a row and gives its key. -/
def write (transaction : Transaction) (table : String) (row : Row) (mode : WriteMode) :
    Except EngineError Value × Transaction :=
  transaction.change table fun content => content.put row mode

/-- Deletes a row. -/
def delete (transaction : Transaction) (table : String) (key : Value) :
    Except EngineError Unit × Transaction :=
  transaction.change table fun content => content.delete key

end Transaction

namespace Registry

/-! ### Names -/

/-- The record of a store that has a name. -/
def find? (registry : Registry) (name : String) : Option StoreRecord :=
  (registry.names.lookup name).bind fun id => registry.stores[id]?

/-- The version on record of a store. -/
def version? (registry : Registry) (name : String) : Option Nat :=
  (registry.find? name).map StoreRecord.version

/-- The names of all stores in ascending order. -/
def storeNames (registry : Registry) : List String :=
  (registry.names.map Prod.fst).mergeSort fun first second => (compare first second).isLE

/-- Changes the record of a store. -/
def modifyStore (registry : Registry) (id : StoreId) (change : StoreRecord → StoreRecord) :
    Registry :=
  { registry with stores := registry.stores.modify id change }

/-- The store of a name, which is created if there is none. -/
def register (registry : Registry) (name : String) : StoreId × StoreRecord × Registry :=
  match registry.names.lookup name, registry.find? name with
  | some id, some record => (id, record, registry)
  | _, _ =>
    let id := registry.stores.length
    let record : StoreRecord := { name }
    (id, record, { registry with
      stores := registry.stores ++ [record], names := assign name id registry.names })

/-- Deletes a store, unless handles to it are open. -/
def deleteStore (registry : Registry) (name : String) : Except EngineError Unit × Registry :=
  match registry.find? name with
  | some record =>
    if 0 < record.handles then (.error (.blocked name), registry)
    else (.ok (), { registry with names := unassign name registry.names })
  | none => (.ok (), registry)

/-! ### Handles -/

/-- Adds a handle to a store. -/
def addHandle (registry : Registry) (id : StoreId) (version : Nat) : HandleId × Registry :=
  let registry := registry.modifyStore id fun record =>
    { record with handles := record.handles + 1 }
  (registry.handles.length,
    { registry with handles := registry.handles ++ [{ store := id, version }] })

/-- Opens a store at a version. If the version on record is older, the upgrade runs
first: it needs that no handle is open, and its result is published only if it
succeeds. The report of an upgrade that was run is given in any case. -/
def openStore {ρ : Type} (registry : Registry) (name : String) (version : Nat)
    (upgrade : Upgrade ρ) : Outcome EngineError HandleId × Option ρ × Registry :=
  if version = 0 then (.failed (.invalidVersion version), none, registry)
  else
    let (id, record, registry) := registry.register name
    if version < record.version then
      (.failed (.versionMismatch name version record.version), none, registry)
    else if version = record.version then
      let (handle, registry) := registry.addHandle id version
      (.done handle, none, registry)
    else if 0 < record.handles then (.failed (.blocked name), none, registry)
    else if record.hasWriter then (.waiting, none, registry)
    else
      let outcome := upgrade record.version version record.data
      match outcome.result with
      | .error failure => (.failed failure, some outcome.report, registry)
      | .ok () =>
        let registry := registry.modifyStore id fun record =>
          { record with data := outcome.data, version }
        let (handle, registry) := registry.addHandle id version
        (.done handle, some outcome.report, registry)

/-- Whether a handle is open. -/
def isOpen (registry : Registry) (handle : HandleId) : Bool :=
  match registry.handles[handle]? with
  | some entry => !entry.isClosed
  | none => false

/-- Closes a handle. Closing it again does nothing. -/
def close (registry : Registry) (handle : HandleId) : Registry :=
  match registry.handles[handle]? with
  | some entry =>
    if entry.isClosed then registry
    else
      let registry := registry.modifyStore entry.store fun record =>
        { record with handles := record.handles - 1 }
      { registry with handles := registry.handles.set handle { entry with isClosed := true } }
  | none => registry

/-! ### Transactions -/

/-- Begins a transaction that reads. It never waits. -/
def beginRead (registry : Registry) (handle : HandleId) : Except EngineError Transaction :=
  match registry.handles[handle]? with
  | some entry =>
    match entry.isClosed, registry.stores[entry.store]? with
    | false, some record =>
      .ok { mode := .readOnly, store := entry.store, handle, data := record.data }
    | _, _ => .error .closed
  | none => .error .closed

/-- Begins a transaction that writes, which has to wait for the writer before it. -/
def beginWrite (registry : Registry) (handle : HandleId) :
    Outcome EngineError Transaction × Registry :=
  match registry.handles[handle]? with
  | some entry =>
    match entry.isClosed, registry.stores[entry.store]? with
    | false, some record =>
      if record.hasWriter then (.waiting, registry)
      else
        (.done { mode := .readWrite, store := entry.store, handle, data := record.data },
          registry.modifyStore entry.store fun record => { record with hasWriter := true })
    | _, _ => (.failed .closed, registry)
  | none => (.failed .closed, registry)

/-- Begins a transaction. -/
def begin (registry : Registry) (handle : HandleId) (mode : TransactionMode) :
    Outcome EngineError Transaction × Registry :=
  match mode with
  | .readOnly => (.ofExcept (registry.beginRead handle), registry)
  | .readWrite => registry.beginWrite handle

/-- Ends a transaction without effect. A writer makes room for the next one. -/
def discard (registry : Registry) (transaction : Transaction) : Registry :=
  match transaction.mode with
  | .readOnly => registry
  | .readWrite =>
    registry.modifyStore transaction.store fun record => { record with hasWriter := false }

/-- Ends a transaction and publishes its data, if it has changed any. That fails when
its handle was closed meanwhile. -/
def commit (registry : Registry) (transaction : Transaction) :
    Except EngineError Unit × Registry :=
  let released := registry.discard transaction
  if registry.isOpen transaction.handle then
    if transaction.isDirty then
      (.ok (), released.modifyStore transaction.store fun record =>
        { record with data := transaction.data })
    else (.ok (), released)
  else (.error .closed, released)

end Registry

end IndexedStore
