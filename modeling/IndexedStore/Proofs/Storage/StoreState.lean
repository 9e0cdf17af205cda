/-
This file says what the operations of the registry do to a store: to the data that it has
published, and to the lock that its writer holds. Beginning to write takes the lock, the end
of a writer gives it back, and only a commit or an upgrade touches the data. Everything else
that an operation changes, names, versions and handles, leaves both as they are.
-/

import IndexedStore.Storage.Registry
import Mathlib.Logic.Function.Basic

namespace IndexedStore

theorem getElem?_concat {α : Type} (items : List α) (last : α) (position : Nat) :
    (items ++ [last])[position]? = if position = items.length then some last
      else items[position]? := by
  rw [List.getElem?_append, List.getElem?_singleton]
  by_cases isLast : position = items.length
  · simp [isLast]
  · by_cases before : position < items.length
    · simp [isLast, before]
    · rw [if_neg before, if_neg (by omega), if_neg isLast,
        List.getElem?_eq_none (Nat.le_of_not_lt before)]

/-- What a store has published, and whether its writer's lock is taken. -/
structure StoreState where
  /-- The published data. -/
  data : StoreData := {}
  /-- Whether a writer holds the lock. -/
  isLocked : Bool := false

/-- The state of a store that has a record. -/
def StoreRecord.state (record : StoreRecord) : StoreState := ⟨record.data, record.hasWriter⟩

/-- A transaction as it begins on a store that has published the data. -/
def Transaction.begun (mode : TransactionMode) (store : StoreId) (handle : HandleId)
    (data : StoreData) : Transaction := { mode, store, handle, data }

namespace Transaction

variable {mode : TransactionMode} {store : StoreId} {handle : HandleId} {data : StoreData}

@[simp]
theorem mode_begun : (begun mode store handle data).mode = mode := by rw [begun]

@[simp]
theorem store_begun : (begun mode store handle data).store = store := by rw [begun]

@[simp]
theorem handle_begun : (begun mode store handle data).handle = handle := by rw [begun]

@[simp]
theorem data_begun : (begun mode store handle data).data = data := by rw [begun]

@[simp]
theorem isDirty_begun : (begun mode store handle data).isDirty = false := by rw [begun]

end Transaction

namespace Registry

variable {registry after : Registry} {store : StoreId} {handle : HandleId}
  {transaction : Transaction}

/-- The state of a store. -/
def state? (registry : Registry) (store : StoreId) : Option StoreState :=
  registry.stores[store]?.map StoreRecord.state

/-! ### A change of a record -/

@[simp]
theorem names_modifyStore {change : StoreRecord → StoreRecord} :
    (registry.modifyStore store change).names = registry.names := rfl

@[simp]
theorem handles_modifyStore {change : StoreRecord → StoreRecord} :
    (registry.modifyStore store change).handles = registry.handles := rfl

@[simp]
theorem isOpen_modifyStore {change : StoreRecord → StoreRecord} :
    (registry.modifyStore store change).isOpen handle = registry.isOpen handle := rfl

@[simp]
theorem getElem?_modifyStore {change : StoreRecord → StoreRecord} :
    (registry.modifyStore store change).stores[store]? = registry.stores[store]?.map change :=
  List.getElem?_modify_eq ..

theorem getElem?_modifyStore_of_ne {change : StoreRecord → StoreRecord} {other : StoreId}
    (different : other ≠ store) :
    (registry.modifyStore store change).stores[other]? = registry.stores[other]? :=
  List.getElem?_modify_ne _ _ different.symm

/-- What a change makes of the other records makes no difference. -/
theorem modifyStore_congr {record : StoreRecord} {change change' : StoreRecord → StoreRecord}
    (here : registry.stores[store]? = some record) (same : change record = change' record) :
    registry.modifyStore store change = registry.modifyStore store change' := by
  unfold modifyStore
  congr 1
  refine List.ext_getElem? fun other => ?_
  rw [List.getElem?_modify, List.getElem?_modify]
  by_cases isStore : store = other
  · subst isStore
    simp [here, same]
  · simp [isStore]

theorem modifyStore_of_eq {record : StoreRecord} {change : StoreRecord → StoreRecord}
    (here : registry.stores[store]? = some record) (same : change record = record) :
    registry.modifyStore store change = registry := by
  refine (modifyStore_congr here (show change record = id record from same)).trans ?_
  unfold modifyStore
  rw [List.modify_id]

@[simp]
theorem modifyStore_modifyStore {change change' : StoreRecord → StoreRecord} :
    (registry.modifyStore store change).modifyStore store change' =
      registry.modifyStore store (change' ∘ change) := by
  unfold modifyStore
  rw [List.modify_modify_eq]

/-- A change of a record acts on what is seen of that store alone. -/
theorem map_modifyStore {α : Type} {view : StoreRecord → α} {change : StoreRecord → StoreRecord}
    (alter : α → α) (alters : ∀ record, view (change record) = alter (view record)) :
    (fun other => (registry.modifyStore store change).stores[other]?.map view) =
      Function.update (fun other => registry.stores[other]?.map view) store
        ((registry.stores[store]?.map view).map alter) := by
  funext other
  by_cases same : other = store
  · subst same
    simp [Function.comp_def, alters]
  · simp [getElem?_modifyStore_of_ne same, same]

/-- What a change does not touch is seen as before. -/
theorem map_modifyStore_of_keeps {α : Type} {view : StoreRecord → α}
    {change : StoreRecord → StoreRecord} (keeps : ∀ record, view (change record) = view record)
    (other : StoreId) :
    (registry.modifyStore store change).stores[other]?.map view =
      registry.stores[other]?.map view := by
  rw [congrFun (map_modifyStore id keeps) other]
  simp

/-- A change of a record acts on the state of that store alone. -/
theorem state?_modifyStore {change : StoreRecord → StoreRecord}
    (alter : StoreState → StoreState)
    (alters : ∀ record, (change record).state = alter record.state) :
    (registry.modifyStore store change).state? =
      Function.update registry.state? store ((registry.state? store).map alter) :=
  map_modifyStore alter alters

theorem state?_modifyStore_of_keeps {change : StoreRecord → StoreRecord}
    (keeps : ∀ record, (change record).state = record.state) :
    (registry.modifyStore store change).state? = registry.state? :=
  funext (map_modifyStore_of_keeps keeps)

/-! ### Names and handles -/

/-- Stores may have been created. Nothing has happened to the others. -/
def Grows (before after : Registry) : Prop :=
  ∀ store, after.state? store = before.state? store ∨
    before.state? store = none ∧ after.state? store = some {}

/-- What registering a name comes to. The name has a store, and nothing happens, or it gets a new
one. -/
theorem register_cases {name : String} {record : StoreRecord} {registered : Registry}
    (entered : registry.register name = (store, record, registered)) :
    (registry.names.lookup name = some store ∧ registry.stores[store]? = some record ∧
        registered = registry) ∨
      (registry.find? name = none ∧ store = registry.stores.length ∧ record = { name } ∧
        registered = { registry with
          stores := registry.stores ++ [{ name }]
          names := assign name store registry.names }) := by
  unfold register at entered
  split at entered
  · rename_i id known named found
    cases entered
    rw [find?, named, Option.bind_some] at found
    exact .inl ⟨named, found, rfl⟩
  · rename_i unknown
    cases entered
    refine .inr ⟨?_, rfl, rfl, rfl⟩
    cases found : registry.find? name with
    | none => rfl
    | some known =>
      obtain ⟨id, named, -⟩ := Option.bind_eq_some_iff.mp found
      exact absurd found (unknown id known named)

theorem getElem?_of_register {name : String} {record : StoreRecord} {registered : Registry}
    (entered : registry.register name = (store, record, registered)) :
    registered.stores[store]? = some record := by
  rcases register_cases entered with ⟨-, found, rfl⟩ | ⟨-, rfl, rfl, rfl⟩
  · exact found
  · simp

theorem register_spec (name : String) :
    (registry.register name).2.2.state? (registry.register name).1 =
        some (registry.register name).2.1.state ∧
      registry.Grows (registry.register name).2.2 ∧
      (registry.register name).2.2.handles = registry.handles := by
  cases entered : registry.register name with
  | mk store rest =>
    obtain ⟨record, registered⟩ := rest
    refine ⟨by rw [state?, getElem?_of_register entered, Option.map_some], ?_⟩
    rcases register_cases entered with ⟨-, -, rfl⟩ | ⟨-, rfl, rfl, rfl⟩
    · exact ⟨fun _ => .inl rfl, rfl⟩
    · refine ⟨fun store => ?_, rfl⟩
      rw [state?, getElem?_concat]
      by_cases isNew : store = registry.stores.length
      · subst isNew
        exact .inr (by simp [state?, StoreRecord.state])
      · rw [if_neg isNew]
        exact .inl rfl

@[simp]
theorem state?_addHandle (version : Nat) :
    (registry.addHandle store version).2.state? = registry.state? :=
  state?_modifyStore_of_keeps fun _ => rfl

/-- What opening a store comes to. It is refused, or given up, or the upgrade has run and failed,
and no more has happened than that the name may have got a store. Or the version is the one on
record, and the store has one more handle. Or the upgrade has run and succeeded, and its result is
published. No upgrade runs while somebody holds a handle or is writing. -/
theorem openStore_cases {ρ : Type} {name : String} {version : Nat} {upgrade : Upgrade ρ}
    {outcome : Outcome EngineError HandleId} {report : Option ρ} {record : StoreRecord}
    {registered : Registry}
    (opened : registry.openStore name version upgrade = (outcome, report, after))
    (entered : registry.register name = (store, record, registered)) :
    (outcome.result? = none ∧ (after = registry ∨ after = registered) ∧
        (outcome = .waiting → after = registered ∧ record.hasWriter) ∧
        ∀ given, report = some given → record.version < version ∧ record.handles = 0 ∧
          given = (upgrade record.version version record.data).report ∧ ∃ failure,
            (upgrade record.version version record.data).result = .error failure ∧
            outcome = .failed failure) ∨
      (version = record.version ∧ outcome = .done (registered.addHandle store version).1 ∧
        report = none ∧ after = (registered.addHandle store version).2) ∨
      ∃ data published, record.version < version ∧ record.handles = 0 ∧
        record.hasWriter = false ∧
        ((upgrade record.version version record.data).result = .ok () ∧
          (upgrade record.version version record.data).data = data) ∧
        published = registered.modifyStore store (fun record => { record with data, version }) ∧
        outcome = .done (published.addHandle store version).1 ∧
        report = some (upgrade record.version version record.data).report ∧
        after = (published.addHandle store version).2 := by
  unfold openStore at opened
  rw [entered] at opened
  dsimp only at opened
  split at opened
  · cases opened
    exact .inl ⟨rfl, .inl rfl, nofun, nofun⟩
  · split at opened
    · cases opened
      exact .inl ⟨rfl, .inr rfl, nofun, nofun⟩
    · rename_i notOlder
      split at opened
      · rename_i same
        cases opened
        exact .inr (.inl ⟨same, rfl, rfl, rfl⟩)
      · rename_i different
        split at opened
        · cases opened
          exact .inl ⟨rfl, .inr rfl, nofun, nofun⟩
        · rename_i noHandle
          split at opened
          · rename_i isLocked
            cases opened
            exact .inl ⟨rfl, .inr rfl, fun _ => ⟨rfl, isLocked⟩, nofun⟩
          · rename_i noWriter
            have isOlder : record.version < version := by omega
            split at opened
            · rename_i failure stopped
              cases opened
              refine .inl ⟨rfl, .inr rfl, nofun, fun given ran => ?_⟩
              exact ⟨isOlder, Nat.eq_zero_of_not_pos noHandle, (Option.some.inj ran).symm, failure,
                stopped, rfl⟩
            · rename_i ok
              cases opened
              exact .inr (.inr ⟨_, _, isOlder, Nat.eq_zero_of_not_pos noHandle,
                Bool.eq_false_iff.mpr noWriter, ⟨ok, rfl⟩, rfl, rfl, rfl, rfl⟩)

/-- An upgrade that has to wait for a writer is given up, and nothing has changed: a store that
has just been created has no writer. -/
theorem openStore_eq_waiting {ρ : Type} {name : String} {version : Nat} {upgrade : Upgrade ρ}
    {report : Option ρ}
    (waits : registry.openStore name version upgrade = (.waiting, report, after)) :
    after = registry := by
  cases entered : registry.register name with
  | mk store rest =>
    obtain ⟨record, registered⟩ := rest
    rcases openStore_cases waits entered with ⟨-, -, because, -⟩ | ⟨-, done, -⟩ |
      ⟨_, _, -, -, -, -, -, done, -⟩
    · obtain ⟨rfl, isLocked⟩ := because rfl
      unfold register at entered
      split at entered
      · cases entered
        rfl
      · cases entered
        cases isLocked
    · cases done
    · cases done

@[simp]
theorem state?_deleteStore (name : String) :
    (registry.deleteStore name).2.state? = registry.state? := by
  unfold deleteStore
  split
  · split <;> rfl
  · rfl

@[simp]
theorem state?_close : (registry.close handle).state? = registry.state? := by
  unfold close
  split
  · split
    · rfl
    · exact state?_modifyStore_of_keeps fun _ => rfl
  · rfl

/-! ### Transactions -/

/-- What beginning a transaction comes to. It fails, or is given up, and nothing has changed. Or
the handle is open, and the transaction works on what its store has published. A writer finds
the lock of the store free, and takes it. -/
theorem begin_cases {mode : TransactionMode} {outcome : Outcome EngineError Transaction}
    (began : registry.begin handle mode = (outcome, after)) :
    outcome.result? = none ∧ after = registry ∨
      ∃ entry state, registry.handles[handle]? = some entry ∧ entry.isClosed = false ∧
        registry.state? entry.store = some state ∧
        outcome = .done (.begun mode entry.store handle state.data) ∧
        (mode = .readOnly ∧ after = registry ∨
          mode = .readWrite ∧ state.isLocked = false ∧ after = registry.modifyStore entry.store
            fun record => { record with hasWriter := true }) := by
  cases mode with
  | readOnly =>
    rw [begin, beginRead] at began
    cases began
    split
    · rename_i entry here
      split
      · rename_i record isOpen found
        exact .inr ⟨entry, record.state, here, isOpen, congrArg (Option.map _) found, rfl,
          .inl ⟨rfl, rfl⟩⟩
      · exact .inl ⟨rfl, rfl⟩
    · exact .inl ⟨rfl, rfl⟩
  | readWrite =>
    rw [begin, beginWrite] at began
    split at began
    · rename_i entry here
      split at began
      · rename_i record isOpen found
        split at began
        · cases began
          exact .inl ⟨rfl, rfl⟩
        · rename_i isFree
          cases began
          exact .inr ⟨entry, record.state, here, isOpen, congrArg (Option.map _) found, rfl,
            .inr ⟨rfl, Bool.eq_false_iff.mpr isFree, rfl⟩⟩
      · cases began
        exact .inl ⟨rfl, rfl⟩
    · cases began
      exact .inl ⟨rfl, rfl⟩

theorem begin_eq_waiting {mode : TransactionMode}
    (waits : registry.begin handle mode = (.waiting, after)) : after = registry := by
  rcases begin_cases waits with ⟨-, same⟩ | ⟨_, _, -, -, -, done, -⟩
  · exact same
  · cases done

/-- A writer takes the lock. -/
theorem state?_lock {state : StoreState} (known : registry.state? store = some state) :
    (registry.modifyStore store fun record => { record with hasWriter := true }).state? =
      Function.update registry.state? store (some ⟨state.data, true⟩) := by
  rw [state?_modifyStore (fun state => ⟨state.data, true⟩) fun _ => rfl, known, Option.map_some]

/-- A handle that is open can begin to write whenever the lock of its store is free, and has to
wait otherwise. -/
theorem beginWrite_of_isOpen {entry : Handle} {state : StoreState}
    (here : registry.handles[handle]? = some entry) (isOpen : entry.isClosed = false)
    (known : registry.state? entry.store = some state) :
    (registry.beginWrite handle).1 =
      if state.isLocked then .waiting
      else .done (.begun .readWrite entry.store handle state.data) := by
  obtain ⟨record, found, rfl⟩ := Option.map_eq_some_iff.mp known
  cases locked : record.hasWriter <;>
    simp [beginWrite, here, isOpen, found, locked, StoreRecord.state, Transaction.begun]

theorem discard_of_readOnly (reads : transaction.mode = .readOnly) :
    registry.discard transaction = registry := by
  rw [discard, reads]

/-- The end of a writer gives the lock back. -/
theorem state?_discard (writes : transaction.mode = .readWrite) :
    (registry.discard transaction).state? =
      Function.update registry.state? transaction.store
        ((registry.state? transaction.store).map fun state => ⟨state.data, false⟩) := by
  rw [discard, writes]
  exact state?_modifyStore (fun state => ⟨state.data, false⟩) fun _ => rfl

theorem commit_of_readOnly (reads : transaction.mode = .readOnly)
    (isClean : transaction.isDirty = false) : (registry.commit transaction).2 = registry := by
  rw [commit, discard_of_readOnly reads, isClean]
  split <;> rfl

theorem isOk_commit :
    (registry.commit transaction).1.isOk = registry.isOpen transaction.handle := by
  unfold commit
  cases registry.isOpen transaction.handle with
  | false => rfl
  | true =>
    rw [if_pos rfl]
    split <;> rfl

/-- A commit gives the lock back. It publishes what the writer has made of the data, if the
commit succeeds and the writer has changed anything. -/
theorem state?_commit (writes : transaction.mode = .readWrite) :
    (registry.commit transaction).2.state? =
      Function.update registry.state? transaction.store
        ((registry.state? transaction.store).map fun state =>
          ⟨if (registry.commit transaction).1.isOk ∧ transaction.isDirty then transaction.data
            else state.data, false⟩) := by
  have released := @state?_discard registry transaction writes
  rw [isOk_commit]
  unfold commit
  cases registry.isOpen transaction.handle with
  | false => simpa using released
  | true =>
    cases transaction.isDirty with
    | false => simpa using released
    | true =>
      simp only [if_true]
      rw [state?_modifyStore (fun state => { state with data := transaction.data })
        fun _ => rfl, released]
      simp [Function.comp_def]

end Registry

end IndexedStore
