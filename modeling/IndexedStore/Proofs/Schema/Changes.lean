/-
This file proves that the tables of a database are found by their names, whatever changes have
led to it.

A database has its tables in a list, their names beside it, and for every name the place of its
table. A table that is added is entered after all others, which are entered anew; when a table is
left out, those behind it move up, and the places are collected from the tables that are left. As
the names are distinct, both ways give the places that the list of tables has, so a database is
given by its name and its tables alone.
-/

import IndexedStore.People.Basic
import IndexedStore.Proofs.Row.Extensional
import IndexedStore.Proofs.Storage.Error

namespace IndexedStore

theorem enterTables_append (places : List (String × Nat)) (start : Nat)
    (tables others : List TableSchema) :
    enterTables places start (tables ++ others) =
      enterTables places start tables >>= fun entered =>
        enterTables entered (start + tables.length) others := by
  induction tables generalizing places start with
  | nil => rfl
  | cons table rest inductionHypothesis =>
    rw [List.cons_append, enterTables, enterTables]
    cases places.lookup table.name with
    | some place => rfl
    | none =>
      rw [List.length_cons, Nat.add_comm rest.length, ← Nat.add_assoc]
      exact inductionHypothesis _ _

namespace DatabaseSchema

variable {database after : DatabaseSchema} {table : TableSchema} {tables : List TableSchema}
  {name : String} {failure : SchemaError}

/-! ### Looking up -/

theorem names_places : database.places.map Prod.fst = database.tableNames := by
  rw [database.placed, names_placesFrom, database.listed]

/-- The place of a name is where a table of that name stands. -/
theorem lookup_places_eq_some_iff {place : Nat} :
    database.places.lookup name = some place ↔
      (database.tables[place]?).map TableSchema.name = some name := by
  have distinct : (database.places.map Prod.fst).Nodup := by
    rw [names_places, database.listed]
    exact database.distinct
  rw [lookup_eq_some_iff_mem distinct, database.placed, placesFrom, List.mem_map,
    Option.map_eq_some_iff]
  constructor
  · rintro ⟨⟨table, _⟩, member, same⟩
    cases same
    exact ⟨table, List.mem_zipIdx_iff_getElem?.mp member, rfl⟩
  · rintro ⟨table, stands, rfl⟩
    exact ⟨(table, place), List.mem_zipIdx_iff_getElem?.mpr stands, rfl⟩

theorem table?_eq_some_iff :
    database.table? name = some table ↔ table ∈ database.tables ∧ table.name = name := by
  rw [table?, Option.bind_eq_some_iff]
  simp only [lookup_places_eq_some_iff, Option.map_eq_some_iff, List.mem_iff_getElem?]
  constructor
  · rintro ⟨place, ⟨other, stands, named⟩, found⟩
    cases stands.symm.trans found
    exact ⟨⟨place, stands⟩, named⟩
  · rintro ⟨⟨place, stands⟩, named⟩
    exact ⟨place, ⟨table, stands, named⟩, stands⟩

theorem table?_of_mem (member : table ∈ database.tables) :
    database.table? table.name = some table :=
  table?_eq_some_iff.mpr ⟨member, rfl⟩

theorem table?_eq_none_iff : database.table? name = none ↔ name ∉ database.tableNames := by
  rw [database.listed, List.mem_map, Option.eq_none_iff_forall_ne_some]
  simp only [ne_eq, table?_eq_some_iff, not_exists]

/-! ### Adding and leaving out -/

/-- The name and the tables of a database give the rest of it. -/
theorem eq_of_tables {first second : DatabaseSchema} (sameName : first.name = second.name)
    (sameTables : first.tables = second.tables) : first = second := by
  obtain ⟨name, tables, names, places, named, distinct, rfl, rfl⟩ := first
  obtain ⟨name', tables', names', places', named', distinct', rfl, rfl⟩ := second
  cases sameName
  cases sameTables
  rfl

theorem placeTables_eq_ok_iff {named : name ≠ ""} :
    placeTables name named tables = .ok database ↔
      database.name = name ∧ database.tables = tables := by
  rw [placeTables]
  constructor
  · intro placed
    split at placed
    · cases placed
    · cases placed
      exact ⟨rfl, rfl⟩
  · rintro ⟨rfl, rfl⟩
    split
    · rename_i entering
      exact nomatch entering.symm.trans (enterTables_eq_ok_iff.mpr ⟨database.distinct, nofun, rfl⟩)
    · exact congrArg Except.ok (eq_of_tables rfl rfl)

theorem ofTables_eq_ok_iff :
    ofTables name tables = .ok database ↔ database.name = name ∧ database.tables = tables := by
  rw [ofTables]
  split
  · exact iff_of_false nofun fun ⟨same, _⟩ => database.named (same.trans ‹_›)
  · exact placeTables_eq_ok_iff

/-- There is a database of some tables exactly if it has a name and the tables have distinct
names. -/
theorem exists_ofTables_iff :
    (∃ database, ofTables name tables = .ok database) ↔
      name ≠ "" ∧ (tables.map TableSchema.name).Nodup := by
  simp only [ofTables_eq_ok_iff]
  constructor
  · rintro ⟨database, rfl, rfl⟩
    exact ⟨database.named, database.distinct⟩
  · rintro ⟨named, distinct⟩
    exact ⟨{ name, tables, named, distinct }, rfl, rfl⟩

theorem withTable_eq_ok_iff :
    database.withTable table = .ok after ↔
      after.name = database.name ∧ after.tables = database.tables ++ [table] :=
  placeTables_eq_ok_iff

theorem placeTables_eq_error_iff {named : name ≠ ""} :
    placeTables name named tables = .error failure ↔
      ∃ repeated, enterTables [] 0 tables = .error repeated ∧
        failure = .tableRepeated name repeated := by
  rw [placeTables]
  split
  · rename_i repeated entering
    rw [entering]
    constructor
    · rintro same
      cases same
      exact ⟨repeated, rfl, rfl⟩
    · rintro ⟨other, same, rfl⟩
      cases same
      rfl
  · rename_i entering
    refine iff_of_false nofun ?_
    rintro ⟨repeated, stopped, -⟩
    exact nomatch entering.symm.trans stopped

/-- A table is refused exactly if its name is there, and the failure gives the name. -/
theorem withTable_eq_error_iff :
    database.withTable table = .error failure ↔
      table.name ∈ database.tableNames ∧ failure = .tableRepeated database.name table.name := by
  have others : enterTables [] 0 database.tables = .ok database.places :=
    enterTables_eq_ok_iff.mpr ⟨database.distinct, nofun, database.placed⟩
  have entering : enterTables [] 0 (database.tables ++ [table]) =
      enterTables database.places (0 + database.tables.length) [table] := by
    rw [enterTables_append, others]
    rfl
  rw [withTable, placeTables_eq_error_iff, entering, enterTables, ← names_places,
    ← isSome_lookup_iff_mem_names]
  cases database.places.lookup table.name with
  | none =>
    refine iff_of_false ?_ ?_
    · rintro ⟨repeated, stopped, -⟩
      cases stopped
    · rintro ⟨there, -⟩
      cases there
  | some place =>
    constructor
    · rintro ⟨repeated, stopped, rfl⟩
      cases stopped
      exact ⟨rfl, rfl⟩
    · rintro ⟨-, rfl⟩
      exact ⟨table.name, rfl, rfl⟩

/-- A table is accepted if its name is new. -/
theorem exists_withTable (new : table.name ∉ database.tableNames) :
    ∃ after, database.withTable table = .ok after := by
  cases added : database.withTable table with
  | ok after => exact ⟨after, rfl⟩
  | error failure => exact absurd (withTable_eq_error_iff.mp added).1 new

/-- Leaving out the table that was added last gives back the database from before. -/
theorem withoutTable_of_withTable (added : database.withTable table = .ok after) :
    after.withoutTable table.name = database := by
  obtain ⟨sameName, grown⟩ := withTable_eq_ok_iff.mp added
  refine eq_of_tables sameName ?_
  have distinct := after.distinct
  rw [grown, List.map_append, List.map_singleton, List.nodup_append] at distinct
  have stays : ∀ other ∈ database.tables, (other.name != table.name) = true := fun other member =>
    bne_iff_ne.mpr (distinct.2.2 _ (List.mem_map_of_mem member) _ (List.mem_singleton_self _))
  show after.tables.filter (fun other => other.name != table.name) = database.tables
  rw [grown, List.filter_append, List.filter_eq_self.mpr stays, List.filter_singleton,
    bne_self_eq_false]
  exact List.append_nil _

/-! ### Runs of changes -/

/-- A change of the tables of a database. -/
inductive Change where
  /-- Adds a table. -/
  | withTable (table : TableSchema)
  /-- Leaves out the table of a name. -/
  | withoutTable (name : String)

/-- Makes a change. -/
def change (database : DatabaseSchema) : Change → Except SchemaError DatabaseSchema
  | .withTable table => database.withTable table
  | .withoutTable name => .ok (database.withoutTable name)

/-- What a change makes of a list of tables. -/
def Change.apply (tables : List TableSchema) : Change → List TableSchema
  | withTable table => tables ++ [table]
  | withoutTable name => tables.filter fun table => table.name != name

theorem tables_change {step : Change} (changed : database.change step = .ok after) :
    after.name = database.name ∧ after.tables = step.apply database.tables := by
  cases step with
  | withTable table => exact withTable_eq_ok_iff.mp changed
  | withoutTable name =>
    cases changed
    exact ⟨rfl, rfl⟩

/-- After a run of changes there are the tables that the changes make one after the other. -/
theorem tables_run {steps : List Change} (changed : steps.foldlM change database = .ok after) :
    after.name = database.name ∧ after.tables = steps.foldl Change.apply database.tables := by
  induction steps generalizing database with
  | nil =>
    cases changed
    exact ⟨rfl, rfl⟩
  | cons step rest inductionHypothesis =>
    rw [List.foldlM_cons] at changed
    obtain ⟨between, first, others⟩ := exists_of_bind_eq_ok changed
    obtain ⟨sameName, tables⟩ := tables_change first
    obtain ⟨sameName', tables'⟩ := inductionHypothesis others
    exact ⟨sameName'.trans sameName, by rw [tables', tables, List.foldl_cons]⟩

/-- Tables are found by their names. Tables with distinct names make a database, and however it is
changed then, it has the tables that the changes have left, their names in the same order, and for
each name the place of its table, which is always one in the list. So every name of a table leads
to that table, and no other name leads anywhere. A table is refused exactly if its name is there;
otherwise it can be added, and leaving it out again gives back the same database. -/
theorem tables_are_found_by_name :
    (∀ name tables, (∃ start, ofTables name tables = .ok start) ↔
      name ≠ "" ∧ (tables.map TableSchema.name).Nodup) ∧
    ∀ name tables start (steps : List Change) database, ofTables name tables = .ok start →
      steps.foldlM change start = .ok database →
      database.name = name ∧ database.tables = steps.foldl Change.apply tables ∧
      database.tableNames = database.tables.map TableSchema.name ∧ database.tableNames.Nodup ∧
      (∀ asked place, database.places.lookup asked = some place ↔
        ∃ inList : place < database.tables.length, database.tables[place].name = asked) ∧
      (∀ asked table, database.table? asked = some table ↔
        table ∈ database.tables ∧ table.name = asked) ∧
      (∀ asked, database.table? asked = none ↔ asked ∉ database.tableNames) ∧
      (∀ table failure, database.withTable table = .error failure ↔
        table.name ∈ database.tableNames ∧ failure = .tableRepeated name table.name) ∧
      ∀ table, table.name ∉ database.tableNames → ∃ after,
        database.withTable table = .ok after ∧ after.tables = database.tables ++ [table] ∧
          after.withoutTable table.name = database := by
  refine ⟨fun name tables => exists_ofTables_iff,
    fun name tables start steps database built changed => ?_⟩
  obtain ⟨rfl, rfl⟩ := ofTables_eq_ok_iff.mp built
  obtain ⟨sameName, run⟩ := tables_run changed
  refine ⟨sameName, run, database.listed, database.listed ▸ database.distinct,
    fun asked place => ?_, fun asked table => table?_eq_some_iff, fun asked => table?_eq_none_iff,
    fun table failure => sameName ▸ withTable_eq_error_iff, fun table new => ?_⟩
  · rw [lookup_places_eq_some_iff, Option.map_eq_some_iff]
    simp only [List.getElem?_eq_some_iff]
    exact ⟨fun ⟨_, ⟨inList, same⟩, named⟩ => ⟨inList, same ▸ named⟩,
      fun ⟨inList, named⟩ => ⟨_, ⟨inList, rfl⟩, named⟩⟩
  · obtain ⟨after, added⟩ := exists_withTable new
    exact ⟨after, added, (withTable_eq_ok_iff.mp added).2, withoutTable_of_withTable added⟩

end DatabaseSchema

namespace People

/-- A table of homes. -/
def homes : TableSchema where
  name := "Homes"
  keyColumn := "id"

/-- The homes move up to the second place when the people are left out, and a second table of notes
is refused. -/
theorem homes_move_up : ∃ later,
    ([.withTable homes, .withoutTable "People"] : List DatabaseSchema.Change).foldlM
        DatabaseSchema.change database = .ok later ∧
      later.tables = [notes, homes] ∧ later.places.lookup "Homes" = some 1 ∧
      later.table? "Homes" = some homes ∧ later.table? "People" = none ∧
      later.withTable notes = .error (.tableRepeated "people" "Notes") := by
  have built : DatabaseSchema.ofTables "people" [people, notes] = .ok database :=
    DatabaseSchema.ofTables_eq_ok_iff.mpr ⟨rfl, rfl⟩
  have changed : ([.withTable homes, .withoutTable "People"] : List DatabaseSchema.Change).foldlM
      DatabaseSchema.change database =
        .ok { name := "people", tables := [notes, homes], named := by decide,
              distinct := by decide } := rfl
  obtain ⟨-, -, -, -, places, found, absent, refused, -⟩ :=
    DatabaseSchema.tables_are_found_by_name.2 _ _ _ _ _ built changed
  exact ⟨_, changed, rfl, (places "Homes" 1).mpr ⟨Nat.lt_add_one 1, rfl⟩,
    (found "Homes" homes).mpr ⟨List.mem_cons_of_mem _ List.mem_cons_self, rfl⟩,
    (absent "People").mpr (by decide), (refused notes _).mpr ⟨List.mem_cons_self, rfl⟩⟩

end People

end IndexedStore
