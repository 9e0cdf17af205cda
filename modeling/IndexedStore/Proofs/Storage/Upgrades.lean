/-
This file proves that upgrades are atomic and lose nothing. An upgrade asks and creates one thing
after the other, each time depending on the answers that it has got, and may go on when something
could not be created. What it works on is a copy: if it fails, the store stays as it was, and if it
succeeds, the store has exactly the tables and indexes in addition whose creation has succeeded.

Nothing is asked of the data here, so that also a store with bytes that cannot be read keeps them.
-/

import IndexedStore.Proofs.Storage.Registry

namespace IndexedStore

/-- An index is complete over rows: its keys are owned exactly by the rows that have them, and if
it is unique, by one row each. -/
structure Index.Complete (index : Index) (field : String) (rows : KeyMap (List UInt8)) : Prop where
  /-- The keys and owners stand in order. -/
  wellFormed : index.WellFormed
  /-- All rows could be read. -/
  readable : ∀ entry ∈ rows.entries, ∃ row, Row.decode entry.2 = .ok row
  /-- The owners of a key are the rows that have it. -/
  owns : ∀ key owner, index.Owns key owner ↔ ∃ entry ∈ rows.entries, owner == entry.1 ∧
    ∃ row, Row.decode entry.2 = .ok row ∧ row.HasKey field index.options.multiEntry key
  /-- No key of a unique index has two owners. -/
  single : index.options.unique → index.SingleOwners

theorem lookup_cons_eq {α : Type} {name other : String} {content : α}
    {rest : List (String × α)} : ((name, content) :: rest).lookup other =
      if other = name then some content else rest.lookup other := by
  rw [List.lookup_cons]
  by_cases same : other = name
  · rw [if_pos same, beq_iff_eq.mpr same]
  · rw [if_neg same, beq_false_of_ne same]

/-! ### Tables -/

namespace Table

variable {table current changed grown : Table} {asked asked' : String → IndexOptions → Prop}
  {field : String} {options : IndexOptions}

/-- A table has got exactly the indexes that were asked for, and is otherwise what it was. -/
structure Gains (table grown : Table) (asked : String → IndexOptions → Prop) : Prop where
  /-- Everything but the indexes stays: the key field, the generated keys and the rows. -/
  same : grown = { table with indexes := grown.indexes }
  /-- The indexes that were there stay, with their options. -/
  kept : ∀ field index, table.indexes.lookup field = some index →
    grown.indexes.lookup field = some index
  /-- The indexes that are new are those that were asked for. -/
  gained : ∀ field options, asked field options ↔ table.indexes.lookup field = none ∧
    ∃ index, grown.indexes.lookup field = some index ∧ index.options = options
  /-- They are complete. -/
  complete : ∀ field index, table.indexes.lookup field = none →
    grown.indexes.lookup field = some index → index.Complete field table.rows

theorem Gains.refl (none : ∀ field options, ¬asked field options) : table.Gains table asked where
  same := rfl
  kept _ _ here := here
  gained field options := by
    refine iff_of_false (none field options) ?_
    rintro ⟨absent, index, here, -⟩
    cases absent.symm.trans here
  complete field index absent here := nomatch absent.symm.trans here

theorem Gains.congr (gains : table.Gains grown asked)
    (same : ∀ field options, asked' field options ↔ asked field options) :
    table.Gains grown asked' where
  same := gains.same
  kept := gains.kept
  gained field options := (same field options).trans (gains.gained field options)
  complete := gains.complete

theorem lookup_insertIndex {index : Index} {indexes : List (String × Index)}
    (absent : indexes.lookup field = none) (other : String) :
    (insertIndex field index indexes).lookup other =
      if other = field then some index else indexes.lookup other := by
  induction indexes with
  | nil => exact lookup_cons_eq
  | cons head rest inductionHypothesis =>
    obtain ⟨name, old⟩ := head
    have different : field ≠ name := by
      rintro rfl
      rw [lookup_cons_eq, if_pos rfl] at absent
      cases absent
    rw [lookup_cons_eq, if_neg different] at absent
    rw [insertIndex]
    split
    · exact lookup_cons_eq
    · rw [lookup_cons_eq, inductionHypothesis absent, lookup_cons_eq]
      by_cases same : other = name
      · rw [if_pos same, if_pos same, if_neg (same ▸ Ne.symm different)]
      · rw [if_neg same, if_neg same]

theorem complete_of_fillIndex {filled : Index}
    (ok : table.fillIndex field { options } table.rows.entries = .ok filled) :
    filled.Complete field table.rows := by
  obtain ⟨kept, wellFormed, single, readable, owns⟩ := fillIndex_eq_ok ok Index.wellFormed_empty
    fun _ _ _ _ owned => absurd owned Index.not_owns_of_empty
  refine ⟨wellFormed, readable, fun key owner => ?_, single⟩
  rw [owns, kept]
  exact or_iff_right Index.not_owns_of_empty

/-- Creating one more index. -/
theorem Gains.createIndex (gains : table.Gains current asked)
    (ok : current.createIndex field options = (.ok (), changed)) :
    table.Gains changed fun other options' =>
      asked other options' ∨ other = field ∧ options' = options := by
  obtain ⟨isNew, filled, filling, rfl⟩ := createIndex_eq_ok ok
  have absent : current.indexes.lookup field = none := by
    rw [hasIndex, indexOptions?, Option.isSome_map] at isNew
    exact Option.not_isSome_iff_eq_none.mp isNew
  have absentBefore : table.indexes.lookup field = none := by
    cases here : table.indexes.lookup field with
    | none => rfl
    | some index => cases absent.symm.trans (gains.kept field index here)
  have complete : filled.Complete field current.rows := complete_of_fillIndex filling
  have filledOptions : filled.options = options :=
    (fillIndex_eq_ok filling Index.wellFormed_empty
      fun _ _ _ _ owned => absurd owned Index.not_owns_of_empty).1
  have sameRows : current.rows = table.rows := by rw [gains.same]
  refine ⟨?_, fun other index here => ?_, fun other options' => ?_, fun other index none here => ?_⟩
  · rw [gains.same]
  · rw [lookup_insertIndex absent, if_neg]
    · exact gains.kept other index here
    · rintro rfl
      cases absentBefore.symm.trans here
  · rw [lookup_insertIndex absent, gains.gained]
    by_cases same : other = field
    · subst same
      simp [absent, absentBefore, filledOptions, eq_comm]
    · simp [same]
  · rw [lookup_insertIndex absent] at here
    split at here
    · rename_i same
      cases here
      exact same ▸ sameRows ▸ complete
    · exact gains.complete other index none here

end Table

/-! ### The tables of a store -/

namespace StoreData

variable {before data changed after : StoreData} {made more : List UpgradeAction}
  {action : UpgradeAction} {old new : Nat} {answer : UpgradeAnswer} {name : String}

/-- The indexes that were made on a table. -/
def IndexMade (made : List UpgradeAction) (name field : String) (options : IndexOptions) : Prop :=
  .createIndex name field options ∈ made

/-- What a table began with: it was there, or it was created without rows. -/
def BeginsWith (before : StoreData) (made : List UpgradeAction) (name : String) (table : Table) :
    Prop :=
  before.tables.lookup name = some table ∨
    before.tables.lookup name = none ∧ ∃ keyField autoIncrement,
      .createTable name keyField autoIncrement ∈ made ∧ table = { name, keyField, autoIncrement }

/-- The data has got exactly the tables and indexes that were made, and is otherwise what it
was. -/
structure Gains (before after : StoreData) (made : List UpgradeAction) : Prop where
  /-- The tables that were there and those that were created have the indexes that were made. -/
  grown : ∀ name table, before.BeginsWith made name table → ∃ grown,
    after.tables.lookup name = some grown ∧ table.Gains grown (IndexMade made name)
  /-- There are no others. -/
  only : ∀ name, (after.tables.lookup name).isSome → ∃ table, before.BeginsWith made name table
  /-- No table was created that was there. -/
  isNew : ∀ name keyField autoIncrement, .createTable name keyField autoIncrement ∈ made →
    before.tables.lookup name = none
  /-- An index is one of a table. -/
  indexed : ∀ name field options, IndexMade made name field options →
    (after.tables.lookup name).isSome

theorem Gains.refl : before.Gains before [] where
  grown name table begins := by
    rcases begins with here | ⟨-, _, _, nothing, -⟩
    · exact ⟨table, here, .refl fun _ _ => List.not_mem_nil⟩
    · cases nothing
  only name here := by
    obtain ⟨table, here⟩ := Option.isSome_iff_exists.mp here
    exact ⟨table, .inl here⟩
  isNew _ _ _ nothing := nomatch nothing
  indexed _ _ _ nothing := nomatch nothing

theorem beginsWith_concat {table : Table}
    (other : ∀ keyField autoIncrement, action ≠ .createTable name keyField autoIncrement) :
    before.BeginsWith (made ++ [action]) name table ↔ before.BeginsWith made name table := by
  have same (keyField : String) (autoIncrement : Bool) :
      .createTable name keyField autoIncrement ∈ made ++ [action] ↔
        .createTable name keyField autoIncrement ∈ made := by
    rw [List.mem_append, List.mem_singleton, or_iff_left (Ne.symm (other _ _))]
  simp only [BeginsWith, same]

theorem indexMade_concat {field : String} {options : IndexOptions}
    (other : ∀ field options, action ≠ .createIndex name field options) :
    IndexMade (made ++ [action]) name field options ↔ IndexMade made name field options := by
  rw [IndexMade, List.mem_append, List.mem_singleton, or_iff_left (Ne.symm (other _ _)), IndexMade]

/-- An action that creates nothing changes nothing. -/
theorem Gains.pass (gains : before.Gains data made)
    (noTable : ∀ name keyField autoIncrement, action ≠ .createTable name keyField autoIncrement)
    (noIndex : ∀ name field options, action ≠ .createIndex name field options) :
    before.Gains data (made ++ [action]) where
  grown name table begins := by
    obtain ⟨grown, here, gained⟩ :=
      gains.grown name table ((beginsWith_concat (noTable name)).mp begins)
    exact ⟨grown, here, gained.congr fun _ _ => indexMade_concat (noIndex name)⟩
  only name here := by
    obtain ⟨table, begins⟩ := gains.only name here
    exact ⟨table, (beginsWith_concat (noTable name)).mpr begins⟩
  isNew name keyField autoIncrement member := by
    refine (List.mem_append.mp member).elim (gains.isNew name keyField autoIncrement)
      fun isLast => ?_
    exact absurd (List.mem_singleton.mp isLast).symm (noTable _ _ _)
  indexed name field options asked :=
    gains.indexed name field options ((indexMade_concat (noIndex name)).mp asked)

/-- An action that changes one table. -/
theorem Gains.setTable {table : Table} (gains : before.Gains data made)
    (noTable : ∀ other ≠ name, ∀ keyField autoIncrement,
      action ≠ .createTable other keyField autoIncrement)
    (noIndex : ∀ other ≠ name, ∀ field options, action ≠ .createIndex other field options)
    (isNew : ∀ keyField autoIncrement, action = .createTable name keyField autoIncrement →
      before.tables.lookup name = none)
    (begun : ∃ start, before.BeginsWith (made ++ [action]) name start)
    (grows : ∀ start, before.BeginsWith (made ++ [action]) name start →
      start.Gains table (IndexMade (made ++ [action]) name)) :
    before.Gains (data.setTable name table) (made ++ [action]) := by
  have lookup_self : (data.setTable name table).tables.lookup name = some table :=
    lookup_assign_self
  have lookup_other {other : String} (different : other ≠ name) :
      (data.setTable name table).tables.lookup other = data.tables.lookup other :=
    lookup_assign_other different
  refine ⟨fun other start begins => ?_, fun other here => ?_, fun other key flag member => ?_,
    fun other field options asked => ?_⟩
  · by_cases same : other = name
    · subst same
      exact ⟨table, lookup_self, grows start begins⟩
    · obtain ⟨grown, here, gained⟩ :=
        gains.grown other start ((beginsWith_concat (noTable other same)).mp begins)
      refine ⟨grown, (lookup_other same).trans here, gained.congr fun _ _ => ?_⟩
      exact indexMade_concat (noIndex other same)
  · by_cases same : other = name
    · exact same ▸ begun
    · rw [lookup_other same] at here
      obtain ⟨start, begins⟩ := gains.only other here
      exact ⟨start, (beginsWith_concat (noTable other same)).mpr begins⟩
  · rcases List.mem_append.mp member with earlier | isLast
    · exact gains.isNew other key flag earlier
    · have created := (List.mem_singleton.mp isLast).symm
      by_cases same : other = name
      · subst same
        exact isNew key flag created
      · exact absurd created (noTable other same key flag)
  · by_cases same : other = name
    · rw [same, lookup_self]
      rfl
    · rw [lookup_other same]
      exact gains.indexed other field options ((indexMade_concat (noIndex other same)).mp asked)

theorem Gains.createTable {keyField : String} {autoIncrement : Bool}
    (gains : before.Gains data made)
    (ok : data.createTable name keyField autoIncrement = (.ok (), changed)) :
    before.Gains changed (made ++ [.createTable name keyField autoIncrement]) := by
  obtain ⟨failed, -⟩ | ⟨absent, -, rfl⟩ := createTable_cases ok
  · cases failed
  have fresh (start : Table) : ¬before.BeginsWith made name start := fun begins => by
    obtain ⟨grown, here, -⟩ := gains.grown name start begins
    cases absent.symm.trans here
  have absentBefore : before.tables.lookup name = none := by
    cases here : before.tables.lookup name with
    | none => rfl
    | some table => exact absurd (.inl here) (fresh table)
  refine gains.setTable (fun other different _ _ same => ?_) (fun _ _ _ _ => nofun)
    (fun _ _ _ => absentBefore) ?_ fun start begins => ?_
  · cases same
    exact different rfl
  · exact ⟨_, .inr ⟨absentBefore, keyField, autoIncrement,
      List.mem_append_right _ List.mem_cons_self, rfl⟩⟩
  · have isNew : start = { name, keyField, autoIncrement } := by
      rcases begins with here | ⟨-, field, flag, member, rfl⟩
      · exact absurd (.inl here) (fresh start)
      · rcases List.mem_append.mp member with earlier | isLast
        · exact absurd (.inr ⟨absentBefore, field, flag, earlier, rfl⟩) (fresh _)
        · cases List.mem_singleton.mp isLast
          rfl
    refine isNew ▸ .refl fun field options asked => ?_
    have there := gains.indexed name field options ((indexMade_concat (by nofun)).mp asked)
    rw [absent] at there
    cases there

theorem Gains.createIndex {field : String} {options : IndexOptions}
    (gains : before.Gains data made)
    (ok : data.createIndex name field options = (.ok (), changed)) :
    before.Gains changed (made ++ [.createIndex name field options]) := by
  obtain ⟨failed, -⟩ | ⟨content, indexed, found, created, rfl⟩ := onTable_cases ok
  · cases failed
  have here := table?_eq_ok_iff.mp found
  have noTable (other keyField : String) (autoIncrement : Bool) :
      UpgradeAction.createIndex name field options ≠
        .createTable other keyField autoIncrement := by
    intro same
    cases same
  refine gains.setTable (fun other _ => noTable other) (fun other different _ _ same => ?_)
    (fun keyField autoIncrement same => absurd same (noTable name keyField autoIncrement)) ?_
    fun start begins => ?_
  · cases same
    exact different rfl
  · obtain ⟨start, begins⟩ := gains.only name (by rw [here]; rfl)
    exact ⟨start, (beginsWith_concat (noTable name)).mpr begins⟩
  · obtain ⟨grown, there, gained⟩ :=
      gains.grown name start ((beginsWith_concat (noTable name)).mp begins)
    cases here.symm.trans there
    refine (gained.createIndex created).congr fun field' options' => ?_
    simp [IndexMade]

/-- An action that succeeds makes what it is asked to make. -/
theorem Gains.act (gains : before.Gains data made)
    (ran : action.run old new data = (.ok answer, changed)) :
    before.Gains changed (made ++ [action]) := by
  cases action with
  | createTable table keyField autoIncrement =>
    obtain ⟨made, rfl⟩ := Prod.mk.inj ran
    obtain ⟨_, ok, -⟩ := exists_of_map_eq_ok made
    exact gains.createTable (Prod.ext ok rfl)
  | createIndex table field options =>
    obtain ⟨made, rfl⟩ := Prod.mk.inj ran
    obtain ⟨_, ok, -⟩ := exists_of_map_eq_ok made
    exact gains.createIndex (Prod.ext ok rfl)
  | hasTable | hasIndex | indexOptions | versions =>
    cases ran
    exact gains.pass nofun nofun
  | fail message => cases ran

theorem createTable_eq_error {keyField : String} {autoIncrement : Bool} {failure : EngineError}
    (failed : data.createTable name keyField autoIncrement = (.error failure, changed)) :
    changed = data := by
  rcases createTable_cases failed with ⟨-, same⟩ | ⟨-, impossible, -⟩
  · exact same
  · cases impossible

theorem createIndex_eq_error {field : String} {options : IndexOptions} {failure : EngineError}
    (failed : data.createIndex name field options = (.error failure, changed)) :
    changed = data := by
  rcases onTable_cases failed with ⟨-, same⟩ | ⟨content, after, found, called, rfl⟩
  · exact same
  · rw [Table.createIndex_eq_error called, setTable_of_table? found]

/-- An action that fails changes nothing. -/
theorem act_eq_error {failure : EngineError}
    (ran : action.run old new data = (.error failure, changed)) : changed = data := by
  cases action with
  | createTable table keyField autoIncrement =>
    obtain ⟨stopped, rfl⟩ := Prod.mk.inj ran
    exact createTable_eq_error (Prod.ext (eq_error_of_map stopped) rfl)
  | createIndex table field options =>
    obtain ⟨stopped, rfl⟩ := Prod.mk.inj ran
    exact createIndex_eq_error (Prod.ext (eq_error_of_map stopped) rfl)
  | hasTable | hasIndex | indexOptions | versions => cases ran
  | fail message =>
    cases ran
    rfl

/-- The data becomes other data by actions that succeed. -/
inductive Becomes (old new : Nat) : StoreData → List UpgradeAction → StoreData → Prop
  | refl {data : StoreData} : Becomes old new data [] data
  | step {data changed after : StoreData} {action : UpgradeAction} {answer : UpgradeAnswer}
    {made : List UpgradeAction} (ran : action.run old new data = (.ok answer, changed))
    (rest : Becomes old new changed made after) : Becomes old new data (action :: made) after

theorem Becomes.trans (first : Becomes old new before made data)
    (second : Becomes old new data more after) : Becomes old new before (made ++ more) after := by
  induction first with
  | refl => exact second
  | step ran _ inductionHypothesis => exact .step ran (inductionHypothesis second)

theorem Becomes.gains (becomes : Becomes old new data more after)
    (gains : before.Gains data made) : before.Gains after (made ++ more) := by
  induction becomes generalizing made with
  | refl => rwa [List.append_nil]
  | step ran _ inductionHypothesis =>
    rw [List.append_cons]
    exact inductionHypothesis (gains.act ran)

end StoreData

/-! ### Upgrades -/

/-- An upgrade as it decides what to do: it performs one action after the other, each depending on
the answers so far, and ends with a success or a failure of its own. -/
inductive UpgradeProgram (ρ : Type) where
  | finish (result : Except EngineError Unit) (report : ρ)
  | perform (action : UpgradeAction) (next : Except EngineError UpgradeAnswer → UpgradeProgram ρ)

namespace UpgradeProgram

variable {ρ : Type} {old new : Nat} {data : StoreData}

/-- Runs an upgrade on a copy of the data. -/
def run (old new : Nat) (data : StoreData) : UpgradeProgram ρ → UpgradeOutcome ρ
  | finish result report => ⟨result, data, report⟩
  | perform action next =>
    let (result, changed) := action.run old new data
    (next result).run old new changed

/-- The actions that succeed, in order. -/
def performed (old new : Nat) (data : StoreData) : UpgradeProgram ρ → List UpgradeAction
  | finish _ _ => []
  | perform action next =>
    match action.run old new data with
    | (.ok answer, changed) => action :: (next (.ok answer)).performed old new changed
    | (.error failure, changed) => (next (.error failure)).performed old new changed

/-- The upgrade of a store. -/
def upgrade (program : UpgradeProgram ρ) : Upgrade ρ := fun old new data => program.run old new data

theorem becomes_run {program : UpgradeProgram ρ} : StoreData.Becomes old new data
    (program.performed old new data) (program.run old new data).data := by
  induction program generalizing data with
  | finish result report => exact .refl
  | perform action next inductionHypothesis =>
    rw [run, performed]
    rcases ran : action.run old new data with ⟨failure | answer, changed⟩
    · cases StoreData.act_eq_error ran
      exact inductionHypothesis _
    · exact .step ran (inductionHypothesis _)

/-- An upgrade leaves the data with exactly what its successful actions have made. -/
theorem gains_run {program : UpgradeProgram ρ} :
    data.Gains (program.run old new data).data (program.performed old new data) :=
  becomes_run.gains .refl

/-- The upgrade that performs given actions, as it decides what to do. -/
def ofSteps (answers : UpgradeLog) : List UpgradeStep → UpgradeProgram UpgradeLog
  | [] => finish (.ok ()) answers
  | step :: rest =>
    perform step.action fun
      | .ok answer => ofSteps (answers ++ [.ok answer]) rest
      | .error failure =>
        if step.ignoresFailure then ofSteps (answers ++ [.error failure]) rest
        else finish (.error failure) (answers ++ [.error failure])

theorem run_ofSteps {answers : UpgradeLog} {steps : List UpgradeStep} :
    (ofSteps answers steps).run old new data = ⟨(runUpgradeSteps old new data steps).result,
      (runUpgradeSteps old new data steps).data,
      answers ++ (runUpgradeSteps old new data steps).report⟩ := by
  induction steps generalizing answers data with
  | nil => rw [runUpgradeSteps, List.append_nil, ofSteps, run]
  | cons step rest inductionHypothesis =>
    rw [ofSteps, run, runUpgradeSteps]
    rcases step.action.run old new data with ⟨failure | answer, changed⟩
    · dsimp only
      split
      · rw [inductionHypothesis, List.append_assoc, List.singleton_append]
      · rw [run]
    · dsimp only
      rw [inductionHypothesis, List.append_assoc, List.singleton_append]

theorem upgrade_ofSteps (steps : List UpgradeStep) :
    Upgrade.ofSteps steps = (ofSteps [] steps).upgrade := by
  funext old new data
  rw [upgrade, run_ofSteps, List.nil_append, Upgrade.ofSteps]

end UpgradeProgram

/-! ### Stores -/

namespace Registry

variable {ρ : Type} {registry after : Registry} {name : String} {version : Nat}
  {upgrade : Upgrade ρ}

/-- Nothing has changed, except that a name without a store may have got an empty one. -/
structure Spares (before after : Registry) (name : String) : Prop where
  /-- No handle was added, or closed. -/
  handles : after.handles = before.handles
  /-- Every record stays, with its data, version and count of handles. -/
  stores : ∀ store : StoreId, after.stores[store]? = before.stores[store]? ∨
    before.stores[store]? = none ∧ after.stores[store]? = some { name }
  /-- The other names keep their stores. -/
  names : ∀ other ≠ name, after.names.lookup other = before.names.lookup other
  /-- The name has the store that it had, or an empty one without version. -/
  found : after.find? name = before.find? name ∨
    before.find? name = none ∧ after.find? name = some { name }

/-- The record of a name, or the one that it gets when it is opened. -/
def recordOf (registry : Registry) (name : String) : StoreRecord :=
  (registry.find? name).getD { name }

/-- One store has got new data and a version together with its first handle, and nothing else has
changed. -/
structure Upgrades (before after : Registry) (name : String) (version : Nat) (data : StoreData)
    (store : StoreId) (handle : HandleId) : Prop where
  /-- The store has the name. -/
  named : after.names.lookup name = some store
  /-- The data, the version and the count of handles are new, and nothing else of the record. -/
  record : after.stores[store]? = some { before.recordOf name with data, version, handles := 1 }
  /-- There is one handle more. -/
  handle : handle = before.handles.length ∧
    after.handles = before.handles ++ [⟨store, version, false⟩]
  /-- The other stores keep their records. -/
  stores : ∀ other ≠ store, after.stores[other]? = before.stores[other]?
  /-- The other names keep their stores. -/
  names : ∀ other ≠ name, after.names.lookup other = before.names.lookup other

theorem spares_of_register {store : StoreId} {record : StoreRecord}
    (entered : registry.register name = (store, record, after)) : registry.Spares after name := by
  rcases register_cases entered with ⟨-, -, rfl⟩ | ⟨unknown, rfl, rfl, rfl⟩
  · exact ⟨rfl, fun _ => .inl rfl, fun _ _ => rfl, .inl rfl⟩
  · refine ⟨rfl, fun store => ?_, fun other different => lookup_assign_other different,
      .inr ⟨unknown, ?_⟩⟩
    · rw [getElem?_concat]
      split
      · rename_i isNew
        exact .inr ⟨List.getElem?_eq_none (Nat.le_of_eq isNew.symm), rfl⟩
      · exact .inl rfl
    · simp [find?]

/-- If a store could not be opened, everything is as before. -/
theorem spares_of_openStore {outcome : Outcome EngineError HandleId} {report : Option ρ}
    (opened : registry.openStore name version upgrade = (outcome, report, after))
    (nothing : outcome.result? = none) : registry.Spares after name := by
  rcases openStore_cases opened rfl with
    ⟨-, rfl | rfl, -⟩ | ⟨-, rfl, -⟩ | ⟨_, _, -, -, -, -, -, rfl, -⟩
  · exact ⟨rfl, fun _ => .inl rfl, fun _ _ => rfl, .inl rfl⟩
  · exact spares_of_register rfl
  · cases nothing
  · cases nothing

theorem record_of_register {store : StoreId} {record : StoreRecord}
    (entered : registry.register name = (store, record, after)) :
    record = registry.recordOf name ∧ after.names.lookup name = some store ∧
      ∀ other ≠ store, after.stores[other]? = registry.stores[other]? := by
  rcases register_cases entered with ⟨named, found, rfl⟩ | ⟨unknown, rfl, rfl, rfl⟩
  · refine ⟨?_, named, fun _ _ => rfl⟩
    simp [recordOf, find?, named, found]
  · refine ⟨by simp [recordOf, unknown], lookup_assign_self, fun other different => ?_⟩
    rw [getElem?_concat, if_neg different]

/-- A store that could be opened has been upgraded if its version was older. -/
theorem isSome_report_iff {handle : HandleId} {report : Option ρ}
    (opened : registry.openStore name version upgrade = (.done handle, report, after)) :
    report.isSome ↔ (registry.recordOf name).version < version := by
  have same : (registry.register name).2.1 = registry.recordOf name := (record_of_register rfl).1
  rcases openStore_cases opened rfl with
    ⟨nothing, -⟩ | ⟨isRecorded, -, rfl, -⟩ | ⟨_, _, isOlder, -, -, -, -, -, rfl, -⟩
  · cases nothing
  · rw [isRecorded, ← same]
    exact iff_of_false nofun (Nat.lt_irrefl _)
  · exact iff_of_true rfl (same ▸ isOlder)

/-- If an upgrade has run and succeeded, its result is published, with the version and the
handle. -/
theorem upgrades_of_openStore {handle : HandleId} {report : Option ρ}
    (opened : registry.openStore name version upgrade = (.done handle, report, after))
    (isOlder : (registry.recordOf name).version < version) :
    ∃ store data, (registry.recordOf name).handles = 0 ∧
      ((upgrade (registry.recordOf name).version version (registry.recordOf name).data).result =
          .ok () ∧
        (upgrade (registry.recordOf name).version version (registry.recordOf name).data).data =
          data) ∧
      registry.Upgrades after name version data store handle := by
  have ran := (isSome_report_iff opened).mpr isOlder
  cases entered : registry.register name with
  | mk store rest =>
    obtain ⟨record, registered⟩ := rest
    obtain ⟨rfl, named, others⟩ := record_of_register entered
    rcases openStore_cases opened entered with ⟨nothing, -⟩ | ⟨-, -, rfl, -⟩ |
      ⟨data, published, -, noHandle, -, ok, rfl, isHandle, -, rfl⟩
    · cases nothing
    · cases ran
    · have here := getElem?_of_register entered
      have spares := spares_of_register entered
      refine ⟨store, data, noHandle, ok, named, ?_, ⟨?_, ?_⟩, fun other different => ?_,
        spares.names⟩
      · simp [addHandle, here, noHandle]
      · cases isHandle
        exact congrArg List.length spares.handles
      · exact congrArg (· ++ [_]) spares.handles
      · simp [addHandle, getElem?_modifyStore_of_ne different, others other different]

/-- The handle that an upgrade gives sees its result. -/
theorem Upgrades.published {data : StoreData} {store : StoreId} {handle : HandleId}
    (upgrades : registry.Upgrades after name version data store handle) :
    after.published handle = some data := by
  simp [Registry.published, upgrades.handle.2, upgrades.handle.1, upgrades.record]

end Registry

end IndexedStore
