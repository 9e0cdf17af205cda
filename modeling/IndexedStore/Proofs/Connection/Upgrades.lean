/-
This file proves what opening a connection does to a store of an older version: everything that
was in the store is still there, and everything that the schema asks for is there too. The schema
creates only what is missing, so a table or an index that was there stays as it was created, even
if the schema describes it differently.
-/

import IndexedStore.Proofs.Connection.Select
import IndexedStore.Proofs.Storage.Upgrades

namespace IndexedStore

/-! ### What stays, and what is made -/

namespace StoreData

variable {before after : StoreData} {made : List UpgradeAction} {name field : String}
  {options : IndexOptions}

theorem Gains.table? {table : Table} (gains : before.Gains after made)
    (found : before.table? name = .ok table) :
    ∃ grown, after.table? name = .ok grown ∧ table.Gains grown (IndexMade made name) := by
  obtain ⟨grown, here, gained⟩ := gains.grown name table (.inl (table?_eq_ok_iff.mp found))
  exact ⟨grown, table?_eq_ok_iff.mpr here, gained⟩

theorem Gains.hasTable (gains : before.Gains after made) (here : before.hasTable name) :
    after.hasTable name := by
  obtain ⟨table, here⟩ := Option.isSome_iff_exists.mp here
  obtain ⟨grown, there, -⟩ := gains.grown name table (.inl here)
  exact Option.isSome_iff_exists.mpr ⟨grown, there⟩

/-- An index stays, with the options that it was created with. -/
theorem Gains.indexOptions? (gains : before.Gains after made)
    (here : before.indexOptions? name field = some options) :
    after.indexOptions? name field = some options := by
  obtain ⟨table, found, here⟩ := Option.bind_eq_some_iff.mp here
  obtain ⟨index, there, same⟩ := Option.map_eq_some_iff.mp here
  obtain ⟨grown, found', gained⟩ := gains.grown name table (.inl found)
  rw [StoreData.indexOptions?, found', Option.bind_some, Table.indexOptions?,
    gained.kept field index there, Option.map_some, same]

/-- An index that was made has the options that it was made with. -/
theorem Gains.indexOptions?_of_made (gains : before.Gains after made)
    (asked : IndexMade made name field options) :
    after.indexOptions? name field = some options := by
  obtain ⟨table, begins⟩ := gains.only name (gains.indexed name field options asked)
  obtain ⟨grown, found, gained⟩ := gains.grown name table begins
  obtain ⟨-, index, there, same⟩ := (gained.gained field options).mp asked
  rw [StoreData.indexOptions?, found, Option.bind_some, Table.indexOptions?, there,
    Option.map_some, same]

end StoreData

/-! ### What a schema makes -/

namespace TableSchema

variable {table : TableSchema} {data changed : StoreData}

/-- A table of a schema asks for a creation. -/
def Asks (table : TableSchema) : UpgradeAction → Prop
  | .createTable name keyField autoIncrement =>
    name = table.name ∧ keyField = table.keyColumn ∧ autoIncrement = table.autoIncrement
  | .createIndex name field options =>
    name = table.name ∧ field ≠ table.keyColumn ∧ ⟨field, options⟩ ∈ table.columns
  | _ => False

/-- The data holds what a table of a schema asks for. -/
structure IsServed (table : TableSchema) (data : StoreData) : Prop where
  /-- The table is there. -/
  hasTable : data.hasTable table.name
  /-- It has an index on each column. -/
  indexed : ∀ column ∈ table.columns, column.name ≠ table.keyColumn →
    (data.indexOptions? table.name column.name).isSome

theorem IsServed.gains {made : List UpgradeAction} (served : table.IsServed data)
    (gains : data.Gains changed made) : table.IsServed changed where
  hasTable := gains.hasTable served.hasTable
  indexed column member different := by
    obtain ⟨options, here⟩ := Option.isSome_iff_exists.mp (served.indexed column member different)
    rw [gains.indexOptions? here]
    rfl

theorem becomes_applyTable (old new : Nat) (ok : applyTable table data = (.ok (), changed)) :
    ∃ made, StoreData.Becomes old new data made changed ∧ (∀ action ∈ made, table.Asks action) ∧
      changed.hasTable table.name := by
  rw [applyTable] at ok
  split at ok
  · rename_i here
    cases ok
    exact ⟨[], .refl, List.forall_mem_nil _, here⟩
  · have ran : (UpgradeAction.createTable table.name table.keyColumn table.autoIncrement).run
        old new data = (.ok .done, changed) := by
      rw [UpgradeAction.run, ok]
      rfl
    refine ⟨_, .step ran .refl, List.forall_mem_singleton.mpr ⟨rfl, rfl, rfl⟩, ?_⟩
    rcases StoreData.createTable_cases ok with ⟨impossible, -⟩ | ⟨-, -, rfl⟩
    · cases impossible
    · rw [StoreData.hasTable, StoreData.setTable, lookup_assign_self]
      rfl

/-- The columns that are still to come get their indexes, and nothing else is made. -/
theorem becomes_applyColumns (old new : Nat) {columns : List Column}
    (isPart : ∀ column ∈ columns, column ∈ table.columns)
    (ok : (applyColumns table data columns).result = .ok ()) :
    ∃ made, StoreData.Becomes old new data made (applyColumns table data columns).data ∧
      (∀ action ∈ made, table.Asks action) ∧
      ∀ column ∈ columns, column.name ≠ table.keyColumn →
        ((applyColumns table data columns).data.indexOptions? table.name column.name).isSome := by
  induction columns generalizing data with
  | nil => exact ⟨[], .refl, nofun, nofun⟩
  | cons column rest inductionHypothesis =>
    rw [List.forall_mem_cons] at isPart
    rw [applyColumns] at ok ⊢
    split at ok
    · rename_i isKey
      rw [if_pos isKey]
      obtain ⟨made, becomes, asked, indexed⟩ := inductionHypothesis isPart.2 ok
      refine ⟨made, becomes, asked, List.forall_mem_cons.mpr ⟨fun different => ?_, indexed⟩⟩
      exact absurd (beq_iff_eq.mp isKey).symm different
    · rename_i notKey
      rw [if_neg notKey]
      have different : column.name ≠ table.keyColumn := fun same => by
        simp [isKey, same] at notKey
      split at ok <;> rename_i here
      · split at ok
        · rename_i indexed created
          obtain ⟨made, becomes, asked, others⟩ := inductionHypothesis isPart.2 ok
          have ran : (UpgradeAction.createIndex table.name column.name column.options).run
              old new data = (.ok .done, indexed) := by
            rw [UpgradeAction.run, created]
            rfl
          have becomes := StoreData.Becomes.step ran becomes
          refine ⟨_, becomes, List.forall_mem_cons.mpr ⟨?_, asked⟩,
            List.forall_mem_cons.mpr ⟨fun _ => ?_, others⟩⟩
          · exact ⟨rfl, different, isPart.1⟩
          · rw [(becomes.gains .refl).indexOptions?_of_made List.mem_cons_self]
            rfl
        · cases ok
      · obtain ⟨made, becomes, asked, others⟩ := inductionHypothesis isPart.2 ok
        refine ⟨made, becomes, asked, List.forall_mem_cons.mpr ⟨fun _ => ?_, others⟩⟩
        rw [(becomes.gains .refl).indexOptions? here]
        rfl

end TableSchema

theorem becomes_applyTables (old new : Nat) {tables : List TableSchema} {data : StoreData}
    (ok : (applyTables data tables).result = .ok ()) :
    ∃ made, StoreData.Becomes old new data made (applyTables data tables).data ∧
      (∀ action ∈ made, ∃ table ∈ tables, table.Asks action) ∧
      ∀ table ∈ tables, table.IsServed (applyTables data tables).data := by
  induction tables generalizing data with
  | nil => exact ⟨[], .refl, nofun, nofun⟩
  | cons table rest inductionHypothesis =>
    rw [applyTables] at ok ⊢
    split at ok
    · cases ok
    · rename_i there applied
      dsimp only at ok ⊢
      split at ok <;> rename_i columns
      · cases ok
      · obtain ⟨created, first, askedFirst, hasTable⟩ :=
          TableSchema.becomes_applyTable old new applied
        obtain ⟨indexes, second, askedSecond, hasIndexes⟩ :=
          TableSchema.becomes_applyColumns old new (fun _ => id) columns
        obtain ⟨more, others, askedOthers, served⟩ := inductionHypothesis ok
        have own : table.IsServed (applyColumns table there table.columns).data :=
          ⟨(second.gains .refl).hasTable hasTable, hasIndexes⟩
        refine ⟨created ++ (indexes ++ more), first.trans (second.trans others), ?_,
          List.forall_mem_cons.mpr ⟨own.gains (others.gains .refl), served⟩⟩
        intro action member
        rcases List.mem_append.mp member with inFirst | member
        · exact ⟨table, List.mem_cons_self, askedFirst action inFirst⟩
        · rcases List.mem_append.mp member with inSecond | inOthers
          · exact ⟨table, List.mem_cons_self, askedSecond action inSecond⟩
          · obtain ⟨other, inRest, asked⟩ := askedOthers action inOthers
            exact ⟨other, List.mem_cons_of_mem _ inRest, asked⟩

/-! ### Opening a store of an older version -/

/-- A connection that was opened to a store of an older version has applied its schema, and what
has come of it is published. -/
theorem Connection.upgrades_of_openStore {engine after : Engine} {database : DatabaseSchema}
    {config : Config} {connection : Connection} {warnings : List Warning}
    (opened : openStore engine database config = (.done connection, warnings, after))
    (isOlder : (engine.registry.recordOf database.name).version < config.version) :
    ∃ store handle data made, connection = { handle := some handle, database, config } ∧
      engine.registry.Upgrades after.registry database.name config.version data store handle ∧
      (engine.registry.recordOf database.name).data.Gains data made ∧
      (∀ action ∈ made, ∃ table ∈ database.tables, table.Asks action) ∧
      ∀ table ∈ database.tables, table.IsServed data := by
  unfold openStore at opened
  cases ran : engine.registry.openStore database.name config.version database.upgrade with
  | mk outcome rest =>
    obtain ⟨report, registry⟩ := rest
    rw [ran] at opened
    cases outcome with
    | failed failure => cases opened
    | waiting => cases opened
    | done handle =>
      cases opened
      obtain ⟨store, data, -, ⟨ok, rfl⟩, upgrades⟩ := Registry.upgrades_of_openStore ran isOlder
      obtain ⟨made, becomes, asked, served⟩ := becomes_applyTables
        (engine.registry.recordOf database.name).version config.version ok
      exact ⟨store, handle, _, made, rfl, upgrades, becomes.gains .refl, asked, served⟩

/-- Upgrades are atomic and lose nothing. -/
theorem upgrades_lose_nothing :
    -- An upgrade may perform any actions, also after one of them has failed. If the store cannot be
    -- opened, nothing has changed. If it can, and was older, then the upgrade has run, and what is
    -- published is the old data with exactly what was made.
    (∀ (ρ : Type) (program : UpgradeProgram ρ) (registry after : Registry) name version outcome
      report,
      registry.openStore name version program.upgrade = (outcome, report, after) →
      (outcome.result? = none → registry.Spares after name) ∧
      ∀ handle, outcome = .done handle →
        let record := registry.recordOf name
        (report.isSome ↔ record.version < version) ∧
        (record.version < version → ∃ store data,
          (program.run record.version version record.data).result = .ok () ∧
          (program.run record.version version record.data).data = data ∧
          record.handles = 0 ∧ registry.Upgrades after name version data store handle ∧
          record.data.Gains data (program.performed record.version version record.data))) ∧
    -- A connection to a store of an older version finds there what its schema asks for, and nothing
    -- else is new. Every table that was there gives the same rows, in the same order.
    ∀ (engine after : Engine) database config connection warnings,
      Connection.openStore engine database config = (.done connection, warnings, after) →
      let record := engine.registry.recordOf database.name
      record.version < config.version → ∃ store handle data made,
        connection = { handle := some handle, database, config } ∧
        engine.registry.Upgrades after.registry database.name config.version data store handle ∧
        after.registry.published handle = some data ∧ record.data.Gains data made ∧
        (∀ action ∈ made, ∃ table ∈ database.tables, table.Asks action) ∧
        (∀ table ∈ database.tables, table.IsServed data) ∧
        ∀ name table, record.data.table? name = .ok table → ∃ grown,
          data.table? name = .ok grown ∧ grown.scanPrimary none = table.scanPrimary none := by
  constructor
  · intro ρ program registry after name version outcome report opened
    refine ⟨fun nothing => Registry.spares_of_openStore opened nothing, fun handle done => ?_⟩
    subst done
    refine ⟨Registry.isSome_report_iff opened, fun isOlder => ?_⟩
    obtain ⟨store, _, noHandle, ⟨ok, rfl⟩, upgrades⟩ :=
      Registry.upgrades_of_openStore opened isOlder
    exact ⟨store, _, ok, rfl, noHandle, upgrades, UpgradeProgram.gains_run⟩
  · intro engine after database config connection warnings opened record isOlder
    obtain ⟨store, handle, data, made, same, upgrades, gains, asked, served⟩ :=
      Connection.upgrades_of_openStore opened isOlder
    refine ⟨store, handle, data, made, same, upgrades, upgrades.published, gains, asked, served,
      fun name table found => ?_⟩
    obtain ⟨grown, here, gained⟩ := gains.table? found
    refine ⟨grown, here, ?_⟩
    rw [gained.same]
    rfl

namespace People

/-- A later schema, with a table of places, and with an index on the homes of people. -/
def withPlaces : DatabaseSchema where
  name := "people"
  tables := [
    { people with columns := [{ name := "home" }] }, { name := "Places", keyColumn := "id" }]
  named := database.named
  distinct := by decide

/-- The two people are still there when their database is opened with the later schema. -/
theorem two_after_upgrade : ∃ connection warnings after handle data grown,
    Connection.openStore (two.connection.close two.engine).2 withPlaces { version := 2 } =
        (.done connection, warnings, after) ∧
      connection.handle = some handle ∧ after.registry.published handle = some data ∧
      data.hasTable "Places" ∧ (data.indexOptions? people.name "home").isSome ∧
      data.table? people.name = .ok grown ∧
      (grown.scanPrimary none).toOption.map List.length = some 2 := by
  have opens : (Connection.openStore (two.connection.close two.engine).2 withPlaces
      { version := 2 }).1.result?.isSome := by decide +kernel
  have isOlder : ((two.connection.close two.engine).2.registry.recordOf "people").version < 2 := by
    decide +kernel
  have rows : (((two.connection.close two.engine).2.registry.recordOf "people").data.table?
      people.name).toOption.map (fun table => (table.scanPrimary none).toOption.map List.length) =
        some (some 2) := by decide +kernel
  cases opened : Connection.openStore (two.connection.close two.engine).2 withPlaces
      { version := 2 } with
  | mk reply rest =>
    obtain ⟨warnings, after⟩ := rest
    rw [opened] at opens
    cases reply with
    | failed failure => cases opens
    | waiting => cases opens
    | done connection =>
      obtain ⟨store, handle, data, made, rfl, -, sees, -, -, served, kept⟩ :=
        upgrades_lose_nothing.2 _ after withPlaces { version := 2 } connection warnings opened
          isOlder
      cases found : ((two.connection.close two.engine).2.registry.recordOf "people").data.table?
          people.name with
      | error failure =>
        rw [found] at rows
        cases rows
      | ok table =>
        rw [found] at rows
        obtain ⟨grown, there, same⟩ := kept people.name table found
        have places := served _ (List.mem_cons_of_mem _ List.mem_cons_self)
        have homes := served _ List.mem_cons_self
        exact ⟨_, warnings, after, handle, data, grown, rfl, rfl, sees, places.hasTable,
          homes.indexed { name := "home" } List.mem_cons_self (by decide), there,
          same ▸ Option.some.inj rows⟩

end People

end IndexedStore
