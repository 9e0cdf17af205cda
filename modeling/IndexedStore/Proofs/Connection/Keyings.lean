/-
This file proves that a table is keyed for good. Which field holds the primary keys, and whether
missing keys are generated, is laid down when the table is created. No connection changes that
later: a write or a deletion keeps it, and an upgrade creates only what is missing, so that it does
not even look at the tables that are there.
-/

import IndexedStore.Proofs.Connection.Posting
import IndexedStore.Proofs.Connection.Upgrades
import IndexedStore.Proofs.Storage.Handles
import Mathlib.Logic.Relation

namespace IndexedStore

/-- How the rows of a table are keyed. -/
structure Keying where
  /-- The field that holds the primary key. -/
  field : String
  /-- Whether missing keys are generated. -/
  isGenerated : Bool
deriving DecidableEq

/-- How the rows of a stored table are keyed. -/
def Table.keying (table : Table) : Keying := ⟨table.keyField, table.autoIncrement⟩

/-- How a schema says that the rows of its table are keyed. -/
def TableSchema.keying (table : TableSchema) : Keying := ⟨table.keyColumn, table.autoIncrement⟩

/-! ### Tables -/

namespace Table

variable {table changed : Table}

theorem keying_put {row : Row} {mode : WriteMode} {key : Value}
    (ok : table.put row mode = (.ok key, changed)) : changed.keying = table.keying := by
  obtain ⟨_, _, _, -, -, -, -, rfl⟩ := put_eq_ok_iff.mp ok
  rfl

theorem keying_delete {key : Value} : (table.delete key).2.keying = table.keying := by
  unfold delete
  split
  · rfl
  · split <;> rfl

theorem Gains.keying {asked : String → IndexOptions → Prop} (gains : table.Gains changed asked) :
    changed.keying = table.keying := by
  rw [gains.same]
  rfl

end Table

/-! ### The data of a store -/

namespace StoreData

variable {data before after : StoreData} {name : String} {table content : Table}

/-- How the rows of the table of a name are keyed. -/
def keying? (data : StoreData) (name : String) : Option Keying :=
  (data.tables.lookup name).map Table.keying

theorem keying?_of_table? (found : data.table? name = .ok table) :
    data.keying? name = some table.keying := by
  rw [keying?, table?_eq_ok_iff.mp found, Option.map_some]

/-- All tables are still there, and they are keyed as they were. -/
def Keeps (before after : StoreData) : Prop :=
  ∀ name keying, before.keying? name = some keying → after.keying? name = some keying

theorem Keeps.refl : data.Keeps data := fun _ _ => id

theorem Keeps.trans (first : before.Keeps data) (second : data.Keeps after) : before.Keeps after :=
  fun name keying known => second name keying (first name keying known)

/-- A table is replaced by one that is keyed like it. -/
theorem keeps_setTable (found : data.table? name = .ok content)
    (same : table.keying = content.keying) : data.Keeps (data.setTable name table) := by
  intro other keying known
  by_cases isName : other = name
  · subst isName
    rw [← known, keying?_of_table? found, keying?_of_table? table?_setTable, same]
  · rw [← known, keying?, setTable, lookup_assign_other isName, keying?]

theorem Gains.keeps {made : List UpgradeAction} (gains : before.Gains after made) :
    before.Keeps after := by
  intro name keying known
  obtain ⟨table, found, rfl⟩ := Option.map_eq_some_iff.mp known
  obtain ⟨grown, here, gained⟩ := gains.grown name table (.inl found)
  rw [keying?, here, Option.map_some, gained.keying]

end StoreData

/-! ### The registry -/

namespace Registry

variable {registry after last : Registry} {store : StoreId} {handle : HandleId} {name : String}

/-- One registry may come after another. All tables are still there, and they are keyed as they
were. -/
structure Keeps (before after : Registry) : Prop extends before.Ages after where
  /-- The tables of every store. -/
  tables : ∀ store state, before.state? store = some state →
    ∃ later, after.state? store = some later ∧ state.data.Keeps later.data

namespace Keeps

theorem of_state? (ages : registry.Ages after) (same : after.state? = registry.state?) :
    registry.Keeps after where
  toAges := ages
  tables _ state known := ⟨state, same ▸ known, .refl⟩

theorem refl : registry.Keeps registry := of_state? .refl rfl

theorem trans (first : registry.Keeps after) (second : after.Keeps last) :
    registry.Keeps last where
  toAges := first.toAges.trans second.toAges
  tables store state known := by
    obtain ⟨between, known', keeps⟩ := first.tables store state known
    obtain ⟨later, known'', keeps'⟩ := second.tables store between known'
    exact ⟨later, known'', keeps.trans keeps'⟩

/-- New stores do not touch the old ones. -/
theorem of_grows (ages : registry.Ages after) (grows : registry.Grows after) :
    registry.Keeps after where
  toAges := ages
  tables store state known := by
    rcases grows store with kept | ⟨unknown, -⟩
    · exact ⟨state, kept.trans known, .refl⟩
    · cases unknown.symm.trans known

/-- The data of a store is replaced by data that keeps its tables. -/
theorem modifyStore {change : StoreRecord → StoreRecord}
    (ages : registry.Ages (registry.modifyStore store change)) (alter : StoreState → StoreState)
    (alters : ∀ record, (change record).state = alter record.state)
    (keeps : ∀ state, registry.state? store = some state → state.data.Keeps (alter state).data) :
    registry.Keeps (registry.modifyStore store change) where
  toAges := ages
  tables other state known := by
    rw [state?_modifyStore alter alters, Function.update_apply]
    split
    · rename_i same
      rw [same] at known
      rw [known, Option.map_some]
      exact ⟨_, rfl, keeps state known⟩
    · exact ⟨state, known, .refl⟩

theorem publish {record : StoreRecord} {content table : Table}
    (here : registry.stores[store]? = some record) (found : record.data.table? name = .ok content)
    (same : table.keying = content.keying) :
    registry.Keeps (registry.publish store name table) := by
  refine modifyStore (.modifyStore fun _ _ => Nat.le_refl _)
    (fun state => { state with data := state.data.setTable name table }) (fun _ => rfl) ?_
  intro state known
  obtain ⟨_, here', rfl⟩ := Option.map_eq_some_iff.mp known
  cases here.symm.trans here'
  exact StoreData.keeps_setTable found same

theorem openStore {ρ : Type} {version : Nat} {upgrade : Upgrade ρ}
    {outcome : Outcome EngineError HandleId} {report : Option ρ}
    (keeps : ∀ old new (data : StoreData),
      (upgrade old new data).result = .ok () → data.Keeps (upgrade old new data).data)
    (opened : registry.openStore name version upgrade = (outcome, report, after)) :
    registry.Keeps after := by
  have ages := Ages.openStore opened
  have registering : registry.Keeps (registry.register name).2.2 :=
    of_grows (.register name) (register_spec name).2.1
  cases entered : registry.register name with
  | mk target rest =>
    obtain ⟨record, registered⟩ := rest
    have here := getElem?_of_register entered
    rw [entered] at registering
    rcases openStore_cases opened entered with
      ⟨-, rfl | rfl, -⟩ | ⟨-, -, -, rfl⟩ |
        ⟨data, published, isOlder, -, -, ⟨ok, rfl⟩, rfl, -, -, rfl⟩
    · exact refl
    · exact registering
    · exact registering.trans (of_state? (.addHandle target version) (state?_addHandle version))
    · refine (registering.trans (modifyStore (.modifyStore fun other there => ?_)
        (fun state => { state with data := (upgrade record.version version record.data).data })
        (fun _ => rfl) fun state known => ?_)).trans
          (of_state? (.addHandle target version) (state?_addHandle version))
      · cases here.symm.trans there
        exact Nat.le_of_lt isOlder
      · obtain ⟨_, there, rfl⟩ := Option.map_eq_some_iff.mp known
        cases here.symm.trans there
        exact keeps _ version _ ok

theorem close (handle : HandleId) : registry.Keeps (registry.close handle) :=
  of_state? (.close handle) state?_close

/-- What a handle sees keeps the tables that it saw. -/
theorem published {data data' : StoreData} (keeps : registry.Keeps after)
    (sees : registry.published handle = some data) (sees' : after.published handle = some data') :
    data.Keeps data' := by
  unfold Registry.published at sees sees'
  obtain ⟨entry, here, sees⟩ := Option.bind_eq_some_iff.mp sees
  obtain ⟨entry', here', sees'⟩ := Option.bind_eq_some_iff.mp sees'
  obtain ⟨_, there, same, -⟩ := keeps.handles handle entry here
  cases here'.symm.trans there
  split at sees
  · cases sees
  split at sees'
  · cases sees'
  obtain ⟨record, found, rfl⟩ := Option.map_eq_some_iff.mp sees
  obtain ⟨record', found', rfl⟩ := Option.map_eq_some_iff.mp sees'
  obtain ⟨later, known, kept⟩ :=
    keeps.tables entry.store record.state (congrArg (Option.map StoreRecord.state) found)
  rw [state?, ← same, found'] at known
  cases known
  exact kept

end Keeps

end Registry

/-! ### Operations of connections -/

namespace TableSchema

variable {table : TableSchema} {engine : Engine} {handle : HandleId} {α : Type}
  {call : Table → Except EngineError α × Table} {ended : Reply α × Engine}

theorem Posts.keeps (posts : table.Posts engine.registry handle call ended)
    (same : ∀ content result changed, call content = (.ok result, changed) →
      changed.keying = content.keying) : engine.registry.Keeps ended.2.registry := by
  cases posts with
  | done lends found ok published => exact published ▸ .publish lends.here found (same _ _ _ ok)
  | failed unchanged => exact unchanged ▸ .refl

theorem keeps_addRow (idle : engine.registry.Idle) (row : Row) (mode : WriteMode) :
    engine.registry.Keeps (table.addRow engine handle row mode).2.registry :=
  (posts_addRow idle row mode).keeps fun _ _ _ => Table.keying_put

theorem keeps_deleteKey (idle : engine.registry.Idle) (key : Value) :
    engine.registry.Keeps (table.deleteKey engine handle key).2.registry :=
  (posts_deleteKey idle key).keeps fun content _ _ deleted =>
    (congrArg (Table.keying ·.2) deleted).symm.trans content.keying_delete

end TableSchema

/-- An operation on several items keeps the tables if each of its operations does, as long as nobody
is writing between them. -/
theorem keeps_runItems {α β : Type} {operate : Engine → α → Reply β × Engine}
    (idles : ∀ (engine : Engine) item, engine.registry.Idle →
      (operate engine item).2.registry.Idle)
    (keeps : ∀ (engine : Engine) item, engine.registry.Idle →
      engine.registry.Keeps (operate engine item).2.registry)
    {engine : Engine} (idle : engine.registry.Idle) (items : List α) :
    engine.registry.Keeps (runItems operate engine items).2.registry := by
  induction items generalizing engine with
  | nil => exact .refl
  | cons item rest inductionHypothesis =>
    exact (keeps engine item idle).trans (inductionHypothesis (idles engine item idle))

namespace Connection

variable {connection : Connection} {engine : Engine}

theorem keeps_openStore (database : DatabaseSchema) (config : Config) :
    engine.registry.Keeps (openStore engine database config).2.2.registry := by
  refine .openStore (fun old new data ok => ?_) rfl
  obtain ⟨made, becomes, -⟩ := becomes_applyTables old new ok
  exact (becomes.gains .refl).keeps

theorem keeps_close : engine.registry.Keeps (connection.close engine).2.registry := by
  unfold close
  split
  · exact .close _
  · exact .refl

theorem keeps_add (idle : engine.registry.Idle) (table : String) (row : Row) (mode : WriteMode) :
    engine.registry.Keeps (connection.add engine table row mode).2.registry := by
  unfold add
  split
  · exact .refl
  · exact TableSchema.keeps_addRow idle row mode

theorem keeps_addMany (idle : engine.registry.Idle) (table : String) (rows : List Row)
    (mode : WriteMode) (schedule : Schedule) :
    engine.registry.Keeps (connection.addMany engine table rows mode schedule).2.registry := by
  unfold addMany
  split
  · exact .refl
  · exact keeps_runItems (fun _ row free => TableSchema.idle_addRow free row mode)
      (fun _ row free => TableSchema.keeps_addRow free row mode) idle _

theorem keeps_delete (idle : engine.registry.Idle) (table : String) (query : Query)
    (schedule : Schedule) :
    engine.registry.Keeps (connection.delete engine table query schedule).2.2.registry := by
  unfold delete
  split
  · exact .refl
  · rename_i handle schema _
    have same := @registry_find connection engine handle schema query
    split <;> rename_i found <;> rw [found] at same
    · exact same ▸ .refl
    · exact same ▸ keeps_runItems (fun _ key free => TableSchema.idle_deleteKey free key)
        (fun _ key free => TableSchema.keeps_deleteKey free key) (same ▸ idle) _

end Connection

/-! ### Every sequence of operations -/

/-- One operation of a connection, or faults that are laid down. -/
inductive Engine.Step : Engine → Engine → Prop where
  | arm {engine : Engine} (faults : Faults) : Step engine { engine with faults }
  | openStore {engine : Engine} (database : DatabaseSchema) (config : Config) :
    Step engine (Connection.openStore engine database config).2.2
  | close {engine : Engine} (connection : Connection) : Step engine (connection.close engine).2
  | add {engine : Engine} (connection : Connection) (table : String) (row : Row)
    (mode : WriteMode) : Step engine (connection.add engine table row mode).2
  | addMany {engine : Engine} (connection : Connection) (table : String) (rows : List Row)
    (mode : WriteMode) (schedule : Schedule) :
    Step engine (connection.addMany engine table rows mode schedule).2
  | delete {engine : Engine} (connection : Connection) (table : String) (query : Query)
    (schedule : Schedule) : Step engine (connection.delete engine table query schedule).2.2
  | select {engine : Engine} (connection : Connection) (table : String) (query : Query) :
    Step engine (connection.select engine table query).2

namespace Engine

variable {engine after later : Engine}

/-- One engine may come after another. -/
def Leads : Engine → Engine → Prop := Relation.ReflTransGen Step

theorem Reached.step (reached : engine.Reached) (step : engine.Step after) : after.Reached := by
  cases step with
  | arm faults => exact .arm reached faults
  | openStore database config => exact .openStore reached database config
  | close connection => exact .close reached connection
  | add connection table row mode => exact .add reached connection table row mode
  | addMany connection table rows mode schedule =>
    exact .addMany reached connection table rows mode schedule
  | delete connection table query schedule =>
    exact .delete reached connection table query schedule
  | select connection table query => exact .select reached connection table query

/-- Connections lead to exactly the engines that come after one without stores. -/
theorem reached_iff_leads : later.Reached ↔ ∃ faults : Faults, Leads { faults } later := by
  constructor
  · intro reached
    induction reached with
    | start faults => exact ⟨faults, .refl⟩
    | arm before faults inductionHypothesis =>
      exact inductionHypothesis.imp fun _ leads => .tail leads (.arm faults)
    | openStore before database config inductionHypothesis =>
      exact inductionHypothesis.imp fun _ leads => .tail leads (.openStore database config)
    | close before connection inductionHypothesis =>
      exact inductionHypothesis.imp fun _ leads => .tail leads (.close connection)
    | add before connection table row mode inductionHypothesis =>
      exact inductionHypothesis.imp fun _ leads => .tail leads (.add connection table row mode)
    | addMany before connection table rows mode schedule inductionHypothesis =>
      exact inductionHypothesis.imp fun _ leads =>
        .tail leads (.addMany connection table rows mode schedule)
    | delete before connection table query schedule inductionHypothesis =>
      exact inductionHypothesis.imp fun _ leads =>
        .tail leads (.delete connection table query schedule)
    | select before connection table query inductionHypothesis =>
      exact inductionHypothesis.imp fun _ leads => .tail leads (.select connection table query)
  · rintro ⟨faults, leads⟩
    induction leads with
    | refl => exact .start faults
    | tail _ step inductionHypothesis => exact inductionHypothesis.step step

theorem Step.keeps (step : engine.Step after) (idle : engine.registry.Idle) :
    engine.registry.Keeps after.registry := by
  cases step with
  | arm faults => exact .refl
  | openStore database config => exact Connection.keeps_openStore database config
  | close connection => exact Connection.keeps_close
  | add connection table row mode => exact Connection.keeps_add idle table row mode
  | addMany connection table rows mode schedule =>
    exact Connection.keeps_addMany idle table rows mode schedule
  | delete connection table query schedule =>
    exact Connection.keeps_delete idle table query schedule
  | select connection table query =>
    simpa using Registry.Keeps.refl

/-- Whatever connections do, all tables stay and are keyed as they were. -/
theorem Reached.leads (reached : engine.Reached) (leads : engine.Leads later) :
    later.Reached ∧ engine.registry.Keeps later.registry := by
  induction leads with
  | refl => exact ⟨reached, .refl⟩
  | tail _ step inductionHypothesis =>
    obtain ⟨reached', keeps⟩ := inductionHypothesis
    exact ⟨reached'.step step, keeps.trans (step.keeps reached'.idle)⟩

end Engine

end IndexedStore
