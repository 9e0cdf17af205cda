/-
This file says what becomes of a table that is opened with another schema. A schema says how the
rows of a table are keyed, but the table stays keyed as it was created, and nobody compares the two.
Queries and deletions look for keys where the schema says that they are. So they are about the rows
that are meant as long as the table agrees with the schema, which it does if it is new or was
created under the same key column.

Where they disagree, a clause on the key column of the schema still asks for the keys under which
rows are stored, whatever field these are in.
-/

import IndexedStore.Proofs.Connection.FaultyDeletion
import IndexedStore.Proofs.Connection.Keyings
import IndexedStore.Proofs.Schema.Changes

namespace IndexedStore

/-! ### Rows that are selected -/

namespace Table

variable {table : Table} {stored : List Row} {row : Row} {key : Value}

/-- A row with the bytes of a stored one may stand for it. -/
theorem Holds.exists_mem (holds : table.Holds stored) (writable : row.Writable)
    (within : row.bytes ∈ stored.map Row.bytes) :
    ∃ stored', table.Holds stored' ∧ row ∈ stored' := by
  obtain ⟨writableStored, contents⟩ := holds_iff.mp holds
  obtain ⟨own, inside, same⟩ := List.mem_map.mp within
  refine ⟨stored.map fun other => if other.bytes = row.bytes then row else other,
    holds_iff.mpr ⟨List.forall_mem_map.mpr fun other member => ?_, ?_⟩,
    List.mem_map.mpr ⟨own, inside, if_pos same⟩⟩
  · split
    · exact writable
    · exact writableStored other member
  · rw [← contents, List.map_map]
    refine List.map_congr_left fun other _ => ?_
    rw [Function.comp_apply]
    split
    · rename_i equal
      exact equal.symm
    · rfl

/-- A row that was read is stored under its own key, and under no other. -/
theorem Reads.hasOwnKey_iff (reads : table.Reads row) (sound : table.Sound) :
    row.HasOwnKey table.keyField key ↔ table.rows.Stores key row := by
  obtain ⟨_, kept, read⟩ := reads
  obtain ⟨entry, isEntry, rfl⟩ := List.mem_map.mp kept
  obtain ⟨stored, _, written, -⟩ := sound.keyed entry isEntry
  have ofRow := Row.encode_of_decode written read
  obtain ⟨own, found, under⟩ := sound.exists_key isEntry ofRow
  constructor
  · rintro ⟨_, isOwn, same⟩
    cases found.symm.trans isOwn
    exact ⟨entry.2, get?_of_entry sound isEntry (BEq.trans same under), ofRow⟩
  · rintro ⟨bytes, here, ofRow'⟩
    cases ofRow.symm.trans ofRow'
    obtain ⟨entry', isEntry', same, equal⟩ := KeyMap.exists_entry_of_lookup here
    have one := sound.key_beq_of_bytes_eq isEntry' isEntry equal
    exact ⟨own, found, BEq.trans same (BEq.trans one (BEq.symm under))⟩

/-- Every row that was read is stored. -/
theorem Reads.exists_stores (reads : table.Reads row) (sound : table.Sound) :
    ∃ key, table.rows.Stores key row := by
  obtain ⟨_, kept, read⟩ := id reads
  obtain ⟨entry, isEntry, rfl⟩ := List.mem_map.mp kept
  obtain ⟨stored, _, written, -⟩ := sound.keyed entry isEntry
  obtain ⟨own, found, -⟩ := sound.exists_key isEntry (Row.encode_of_decode written read)
  exact ⟨own, (reads.hasOwnKey_iff sound).mp ⟨own, found, BEq.rfl⟩⟩

end Table

/-- What is left where no deletion of a key has failed. -/
theorem Table.Leaves.loses {table altered : Table} {keys : List Value}
    (leaves : table.Leaves altered keys []) :
    table.Loses altered fun key => ∃ own ∈ keys, key == own where
  same := leaves.same
  options := leaves.options
  lost key isGone := by
    obtain ⟨own, member, same⟩ := isGone
    obtain ⟨index, here⟩ := List.mem_iff_getElem?.mp member
    rw [KeyMap.get?_congr same, leaves.asked index own here, if_neg List.not_mem_nil]
  kept key notGone := leaves.others key fun own member same => notGone ⟨own, member, same⟩

namespace Connection

variable {connection : Connection} {engine between after : Engine} {name : String} {query : Query}
  {table table' : TableSchema} {content content' : Table} {rows : List Row} {n : Nat}
  {warnings : List Warning} {schedule : Schedule}

theorem Sees.unique (sees : connection.Sees engine name table content)
    (sees' : connection.Sees engine name table' content') :
    table = table' ∧ content = content' := by
  obtain ⟨_, _, resolved, began, found⟩ := sees
  obtain ⟨_, _, resolved', began', found'⟩ := sees'
  cases resolved.symm.trans resolved'
  cases began.symm.trans began'
  cases found.symm.trans found'
  exact ⟨rfl, rfl⟩

theorem Sees.congr (sees : connection.Sees engine name table content)
    (same : after.registry = engine.registry) : connection.Sees after name table content := by
  unfold Sees
  rw [same]
  exact sees

/-- What a connection sees later is keyed as what it saw. -/
theorem Sees.keeps (sees : connection.Sees engine name table content)
    (sees' : connection.Sees after name table' content')
    (keeps : engine.registry.Keeps after.registry) :
    table' = table ∧ content'.keying = content.keying := by
  obtain ⟨handle, data, resolved, published, found⟩ := sees_iff.mp sees
  obtain ⟨handle', data', resolved', published', found'⟩ := sees_iff.mp sees'
  cases resolved.symm.trans resolved'
  have kept := keeps.published published published' _ _ (StoreData.keying?_of_table? found)
  exact ⟨rfl, Option.some.inj ((StoreData.keying?_of_table? found').symm.trans kept)⟩

theorem Sees.exists_of_select (sees : connection.Sees engine name table content)
    (reached : after.Reached) (keeps : engine.registry.Keeps after.registry)
    (ok : (connection.select after name query).1 = .ok rows) :
    ∃ current, connection.Sees after name table current ∧ current.keying = content.keying := by
  rcases @select_cases connection after name query reached with
    ⟨failure, failed, -⟩ | ⟨other, current, _, -, sees', -⟩
  · cases ok.symm.trans failed
  · obtain ⟨rfl, same⟩ := sees.keeps sees' keeps
    exact ⟨current, sees', same⟩

/-- A selection gives rows that its plan asks for. -/
theorem meets_of_select (reached : engine.Reached)
    (sees : connection.Sees engine name table content)
    (ok : (connection.select engine name query).1 = .ok rows) :
    ∀ row ∈ rows, table.Meets content query.plan row := by
  rcases @select_cases connection engine name query reached with
    ⟨failure, failed, -⟩ | ⟨table', content', rows', ok', sees', collects⟩
  · cases ok.symm.trans failed
  · cases ok.symm.trans ok'
    obtain ⟨rfl, rfl⟩ := sees.unique sees'
    intro row member
    obtain ⟨stored, holds⟩ := Table.exists_holds (sound_of_sees reached sees)
    have collected := (collects stored holds).1
    -- The row itself may be taken for the stored one.
    obtain ⟨own, holdsOwn, inside⟩ :=
      holds.exists_mem (collected.writable row member) (collected.within row member)
    exact ((collects own holdsOwn).1.exact row inside).mp (List.mem_map_of_mem member)

/-- A deletion that is done has found rows. -/
theorem select_of_delete_eq_done
    (deleted : connection.delete engine name query schedule = (.done n, warnings, after)) :
    ∃ rows, (connection.select engine name query).1 = .ok rows := by
  cases selected : (connection.select engine name query).1 with
  | error failure => cases (delete_of_select_eq_error selected deleted).1
  | ok rows => exact ⟨rows, rfl⟩

/-- Where the table has the key column of the schema, a deletion that is done takes out the rows
that the selection before it has given, and no others. -/
theorem loses_of_delete (reached : engine.Reached)
    (selected : connection.select engine name query = (.ok rows, between))
    (sees : connection.Sees engine name table content) (named : content.keyField = table.keyColumn)
    (deleted : connection.delete between name query schedule = (.done n, warnings, after)) :
    ∃ altered, connection.Sees after name table altered ∧
      content.Loses altered fun key => ∃ row ∈ rows, content.rows.Stores key row := by
  have ok : (connection.select engine name query).1 = .ok rows := by rw [selected]
  have same := @registry_select connection engine name query
  rw [selected] at same
  have reached' : between.Reached := by
    have reached' := reached.select connection name query
    rwa [selected] at reached'
  have sees' : connection.Sees between name table content := sees.congr same
  -- The deletion finds the rows again.
  obtain ⟨rows', ok'⟩ := select_of_delete_eq_done deleted
  have calm := @select_of_quiet connection engine { engine with faults := {} } query rows name
    (fun _ => rfl) rfl ok
  have calm' := @select_of_quiet connection between { engine with faults := {} } query rows' name
    (fun _ => rfl) same.symm ok'
  cases calm.symm.trans calm'
  obtain ⟨keys, failures, store, altered, listed, -, reports, leaves, sees'', -⟩ :=
    leaves_of_delete reached' ok' sees' named deleted
  have none : failures = [] := by
    by_contra some
    cases reports.failed some
  subst none
  have sound := sound_of_sees reached sees
  refine ⟨altered, sees'', leaves.loses.congr fun key => ?_⟩
  rw [listed.exact, ← named]
  exact exists_congr fun row => and_congr_right fun member =>
    ((reads_of_select reached sees ok row member).hasOwnKey_iff sound).symm

end Connection

/-! ### Opening -/

theorem getD_eq_default_iff {α : Type} {known : Option α} {default : α} :
    known.getD default = default ↔ ∀ value, known = some value → value = default := by
  cases known <;> simp

/-- A table of the schema is keyed as it was, and as the schema says if it was not there. -/
theorem StoreData.Gains.keying_of_asks {database : DatabaseSchema} {table : TableSchema}
    {before after : StoreData} {made : List UpgradeAction} (gains : before.Gains after made)
    (asked : ∀ action ∈ made, ∃ table ∈ database.tables, table.Asks action)
    (member : table ∈ database.tables) (served : table.IsServed after) :
    ∃ content, after.table? table.name = .ok content ∧
      content.keying = (before.keying? table.name).getD table.keying := by
  obtain ⟨start, begins⟩ := gains.only table.name served.hasTable
  obtain ⟨content, here, gained⟩ := gains.grown table.name start begins
  refine ⟨content, table?_eq_ok_iff.mpr here, gained.keying.trans ?_⟩
  rcases begins with there | ⟨absent, keyField, autoIncrement, isMade, rfl⟩
  · rw [keying?, there, Option.map_some, Option.getD_some]
  · obtain ⟨other, inside, named, isKey, isFlag⟩ := asked _ isMade
    cases List.inj_on_of_nodup_map database.distinct inside member named.symm
    rw [keying?, absent, Option.map_none, Option.getD_none]
    exact congrArg₂ Keying.mk isKey isFlag

namespace Connection

variable {connection : Connection} {engine after : Engine} {database : DatabaseSchema}
  {config : Config} {warnings : List Warning}

/-- A table of a schema to which an upgrade has brought its store, in every engine that may come
later. While its keys are where the schema says, a selection gives rows that the query accepts, and
a deletion takes out exactly the rows that a selection just before it has given. -/
theorem reopened_table_stays_keyed (reached : engine.Reached)
    (opened : openStore engine database config = (.done connection, warnings, after))
    (isOlder : (engine.registry.recordOf database.name).version < config.version)
    {table : TableSchema} (member : table ∈ database.tables) :
    let stored := (engine.registry.recordOf database.name).data.keying? table.name
    ∃ content, connection.Sees after table.name table content ∧
      -- The table is keyed as it was created. So it agrees with the schema exactly if it is new, or
      -- was created as the schema says.
      content.keying = stored.getD table.keying ∧
      (content.keying = table.keying ↔ ∀ keying, stored = some keying → keying = table.keying) ∧
      ∀ later, after.Leads later → ∀ query rows between,
        connection.select later table.name query = (.ok rows, between) → ∃ current,
          connection.Sees later table.name table current ∧ current.keying = content.keying ∧
          -- A clause on the key column of the schema asks for the keys of the stored rows.
          (∀ row ∈ rows, ∀ clause ∈ query.plan.inclusions, table.isKey clause.field →
            row.HasKeyIn content.keyField false clause.range) ∧
          (∀ row ∈ rows, ∃ key, current.rows.Stores key row) ∧
          (content.keyField = table.keyColumn →
            -- A query on the key column alone never searches arrays by their items.
            ((∀ clause ∈ query.plan.clauses, table.FindsOnce current clause) →
              ∀ row ∈ rows, query.accepts row) ∧
            ∀ schedule n warnings last,
              connection.delete between table.name query schedule = (.done n, warnings, last) →
              ∃ altered, connection.Sees last table.name table altered ∧
                current.Loses altered fun key => ∃ row ∈ rows, current.rows.Stores key row) := by
  intro stored
  obtain ⟨store, handle, data, made, same, upgrades, gains, asked, served⟩ :=
    upgrades_of_openStore opened isOlder
  obtain ⟨content, found, keyed⟩ := gains.keying_of_asks asked member (served table member)
  have resolved : connection.resolve table.name = .ok (handle, table) := by
    simp only [same, resolve, DatabaseSchema.table?_of_mem member]
  have sees : connection.Sees after table.name table content :=
    sees_iff.mpr ⟨handle, data, resolved, upgrades.published, found⟩
  have reachedAfter : after.Reached := by
    have reached' := reached.openStore database config
    rwa [opened] at reached'
  refine ⟨content, sees, keyed, keyed ▸ getD_eq_default_iff,
    fun later leads query rows between selected => ?_⟩
  obtain ⟨reachedLater, keeps⟩ := reachedAfter.leads leads
  have ok : (connection.select later table.name query).1 = .ok rows := by rw [selected]
  obtain ⟨current, seesLater, kept⟩ := sees.exists_of_select reachedLater keeps ok
  have meets := meets_of_select reachedLater seesLater ok
  have keyField : current.keyField = content.keyField := congrArg Keying.field kept
  have sound := sound_of_sees reachedLater seesLater
  refine ⟨current, seesLater, kept, fun row isRow clause isClause isKey => ?_,
    fun row isRow => (reads_of_select reachedLater seesLater ok row isRow).exists_stores sound,
    fun named => ⟨?_, ?_⟩⟩
  · have finds := (meets row isRow).1 clause isClause
    rwa [TableSchema.Finds, if_pos isKey, keyField] at finds
  · intro once row isRow
    exact (TableSchema.meets_iff_accepts (keyField.trans named) once).mp (meets row isRow)
  · intro schedule n warnings last deleted
    exact loses_of_delete reachedLater selected seesLater (keyField.trans named) deleted

end Connection

namespace People

/-- The table of people, as one that is keyed by their age. -/
def peopleByAge : TableSchema where
  name := people.name
  keyColumn := "age"

/-- A later schema with that table. -/
def byAge : DatabaseSchema where
  name := "people"
  tables := [peopleByAge]
  named := database.named
  distinct := by decide

/-- The query for everybody who is one year old. -/
def oneYearOld : Query := Query.withEqual {} "age" (.integer 1)

/-- Opened with the later schema, the table of people is still keyed by their numbers, and whoever
asks for the age of one gets the person with the number one, who is older. -/
theorem number_one_is_found_by_age : ∃ connection warnings after content rows between,
    Connection.openStore (two.connection.close two.engine).2 byAge { version := 2 } =
        (.done connection, warnings, after) ∧
      connection.Sees after people.name peopleByAge content ∧ content.keying = people.keying ∧
      connection.select after people.name oneYearOld = (.ok rows, between) ∧ rows.length = 1 ∧
      ∀ row ∈ rows, row.HasKeyIn "id" false (.only (.integer 1)) ∧ ¬oneYearOld.accepts row := by
  have isOlder : ((two.connection.close two.engine).2.registry.recordOf "people").version < 2 := by
    decide +kernel
  have created : ((two.connection.close two.engine).2.registry.recordOf "people").data.keying?
      people.name = some people.keying := by decide +kernel
  have found : ((Connection.openStore (two.connection.close two.engine).2 byAge
      { version := 2 }).1.result?.bind fun connection =>
        (connection.select (Connection.openStore (two.connection.close two.engine).2 byAge
          { version := 2 }).2.2 people.name oneYearOld).1.toOption.map
            (List.map oneYearOld.accepts)) = some [false] := by decide +kernel
  have reached : (two.connection.close two.engine).2.Reached := .close reached_two _
  cases opened : Connection.openStore (two.connection.close two.engine).2 byAge
      { version := 2 } with
  | mk reply rest =>
    obtain ⟨warnings, after⟩ := rest
    rw [opened] at found
    cases reply with
    | failed failure => cases found
    | waiting => cases found
    | done connection =>
      cases selected : connection.select after people.name oneYearOld with
      | mk result between =>
        change (connection.select after people.name oneYearOld).1.toOption.map _ = _ at found
        rw [selected] at found
        cases result with
        | error failure => cases found
        | ok rows =>
          obtain ⟨content, sees, keyed, -, later⟩ :=
            Connection.reopened_table_stays_keyed reached opened isOlder List.mem_cons_self
          have keying : content.keying = people.keying :=
            keyed.trans (congrArg (fun known => Option.getD known _) created)
          obtain ⟨current, -, -, ranges, -⟩ := later after .refl oneYearOld rows between selected
          have accepted : rows.map oneYearOld.accepts = [false] := Option.some.inj found
          have named : content.keyField = "id" := congrArg Keying.field keying
          refine ⟨connection, warnings, after, content, rows, between, rfl, sees, keying, selected,
            ?_, fun row member => ⟨?_, ?_⟩⟩
          · rw [← List.length_map oneYearOld.accepts, accepted]
            rfl
          · have inRange := ranges row member _ List.mem_cons_self rfl
            rw [named] at inRange
            exact inRange
          · have inside := List.mem_map_of_mem (f := oneYearOld.accepts) member
            rw [accepted, List.mem_singleton] at inside
            rw [inside]
            exact Bool.false_ne_true

end People

end IndexedStore
