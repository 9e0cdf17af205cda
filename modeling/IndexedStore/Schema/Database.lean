/-
This file defines the schema of a database: its name and its tables, no two of one
name. Beside the tables stand their names, and where the table of each name stands.
That the three agree is part of the type, so looking up a table by its name finds the
only one.
-/

import IndexedStore.Schema.Table

namespace IndexedStore

/-! ### Places of tables -/

/-- Where the table of each name stands, when the first one stands at the given place. -/
def placesFrom (start : Nat) (tables : List TableSchema) : List (String × Nat) :=
  (tables.zipIdx start).map fun (table, place) => (table.name, place)

/-- Enters tables under their names, the first one at the given place, up to the first
whose name is taken. -/
def enterTables (places : List (String × Nat)) (start : Nat) :
    List TableSchema → Except String (List (String × Nat))
  | [] => .ok places
  | table :: rest =>
    match places.lookup table.name with
    | some _ => .error table.name
    | none => enterTables (assign table.name start places) (start + 1) rest

/-- Enters tables under their names. Of those with one name the last one stays. -/
def collectPlaces (tables : List TableSchema) : List (String × Nat) :=
  tables.zipIdx.foldl (fun places (table, place) => assign table.name place places) []

theorem placesFrom_cons (start : Nat) (table : TableSchema) (rest : List TableSchema) :
    placesFrom start (table :: rest) = (table.name, start) :: placesFrom (start + 1) rest := rfl

theorem names_placesFrom (start : Nat) (tables : List TableSchema) :
    (placesFrom start tables).map Prod.fst = tables.map TableSchema.name := by
  induction tables generalizing start with
  | nil => rfl
  | cons table rest inductionHypothesis =>
    rw [placesFrom_cons, List.map_cons, inductionHypothesis, List.map_cons]

/-- Tables can be entered exactly if their names are distinct and not taken yet. -/
theorem enterTables_eq_ok_iff {places entered : List (String × Nat)} {start : Nat}
    {tables : List TableSchema} : enterTables places start tables = .ok entered ↔
      (tables.map TableSchema.name).Nodup ∧
        (∀ table ∈ tables, table.name ∉ places.map Prod.fst) ∧
        entered = places ++ placesFrom start tables := by
  induction tables generalizing places start with
  | nil => simp [enterTables, placesFrom, eq_comm]
  | cons table rest inductionHypothesis =>
    rw [enterTables]
    cases found : places.lookup table.name with
    | some place =>
      have taken : table.name ∈ places.map Prod.fst :=
        List.mem_map_of_mem (f := Prod.fst) (mem_of_lookup found)
      exact iff_of_false nofun fun entering => entering.2.1 table List.mem_cons_self taken
    | none =>
      have fresh : table.name ∉ places.map Prod.fst := by
        rintro taken
        obtain ⟨⟨name, place⟩, member, rfl⟩ := List.mem_map.mp taken
        simpa using List.lookup_eq_none_iff.mp found _ member
      have others : (∀ other ∈ rest,
          other.name ∉ (places ++ [(table.name, start)]).map Prod.fst) ↔
            table.name ∉ rest.map TableSchema.name ∧
              ∀ other ∈ rest, other.name ∉ places.map Prod.fst := by
        grind
      rw [inductionHypothesis, assign_of_not_mem fresh, others, List.append_assoc,
        List.singleton_append, ← placesFrom_cons, List.map_cons, List.nodup_cons,
        List.forall_mem_cons, and_assoc, and_iff_right fresh, and_assoc, and_left_comm]

/-- Tables that can be entered one by one are collected as they are entered. -/
theorem foldl_assign_of_enterTables {places entered : List (String × Nat)} {start : Nat}
    {tables : List TableSchema} (entering : enterTables places start tables = .ok entered) :
    (tables.zipIdx start).foldl (fun places (table, place) => assign table.name place places)
      places = entered := by
  induction tables generalizing places start with
  | nil => exact Except.ok.inj entering
  | cons table rest inductionHypothesis =>
    rw [enterTables] at entering
    split at entering
    · cases entering
    · exact inductionHypothesis entering

/-- The names of tables being distinct, it is the same whether they are entered or collected. -/
theorem collectPlaces_eq {tables : List TableSchema}
    (distinct : (tables.map TableSchema.name).Nodup) :
    collectPlaces tables = placesFrom 0 tables :=
  foldl_assign_of_enterTables (enterTables_eq_ok_iff.mpr ⟨distinct, nofun, rfl⟩)

/-! ### Databases -/

/-- The schema of a database. -/
structure DatabaseSchema where
  /-- The name of the store. -/
  name : String
  /-- The tables in the order of their declaration. -/
  tables : List TableSchema
  /-- The names of the tables in the order of their declaration. -/
  tableNames : List String := tables.map TableSchema.name
  /-- Where the table of each name stands among the tables. -/
  places : List (String × Nat) := placesFrom 0 tables
  /-- There is a name. -/
  named : name ≠ ""
  /-- No two tables have one name. -/
  distinct : (tables.map TableSchema.name).Nodup
  /-- The names are those of the tables. -/
  listed : tableNames = tables.map TableSchema.name := by rfl
  /-- The places are those of the tables. -/
  placed : places = placesFrom 0 tables := by rfl

namespace DatabaseSchema

/-- The database of some tables, if their names are distinct. -/
def placeTables (name : String) (named : name ≠ "") (tables : List TableSchema) :
    Except SchemaError DatabaseSchema :=
  match entering : enterTables [] 0 tables with
  | .error table => .error (.tableRepeated name table)
  | .ok places =>
    .ok { name, tables, places, named
          distinct := (enterTables_eq_ok_iff.mp entering).1
          placed := (enterTables_eq_ok_iff.mp entering).2.2 }

/-- Accepts tables with distinct names. -/
def ofTables (name : String) (tables : List TableSchema) : Except SchemaError DatabaseSchema :=
  if named : name = "" then .error .databaseWithoutName
  else placeTables name named tables

/-- The table of a name. -/
def table? (database : DatabaseSchema) (name : String) : Option TableSchema :=
  (database.places.lookup name).bind fun place => database.tables[place]?

/-- Adds a table at the end. -/
def withTable (database : DatabaseSchema) (table : TableSchema) :
    Except SchemaError DatabaseSchema :=
  placeTables database.name database.named (database.tables ++ [table])

/-- The tables that are left without the one of a name have distinct names too. -/
theorem distinct_filter (database : DatabaseSchema) (keep : TableSchema → Bool) :
    ((database.tables.filter keep).map TableSchema.name).Nodup :=
  database.distinct.sublist (List.filter_sublist.map TableSchema.name)

/-- Leaves out the table of a name, if there is one. -/
def withoutTable (database : DatabaseSchema) (name : String) : DatabaseSchema where
  name := database.name
  tables := database.tables.filter fun table => table.name != name
  places := collectPlaces (database.tables.filter fun table => table.name != name)
  named := database.named
  distinct := database.distinct_filter _
  placed := collectPlaces_eq (database.distinct_filter _)

/-- Builds declared tables one after the other, up to the first that is not accepted,
and gives the warnings about those that are. -/
def buildTables : List TableDeclaration → Except SchemaError (List TableSchema) × List Warning
  | [] => (.ok [], [])
  | declaration :: rest =>
    match declaration.build with
    | .error failure => (.error failure, [])
    | .ok table =>
      let (tables, warnings) := buildTables rest
      (tables.map (table :: ·), table.warnings ++ warnings)

/-- Builds a database from declared tables. -/
def declare (name : String) (declarations : List TableDeclaration) :
    Except SchemaError DatabaseSchema × List Warning :=
  let (tables, warnings) := buildTables declarations
  (tables.bind (ofTables name), warnings)

/-- Adds a declared table. -/
def declareTable (database : DatabaseSchema) (declaration : TableDeclaration) :
    Except SchemaError DatabaseSchema × List Warning :=
  match declaration.build with
  | .error failure => (.error failure, [])
  | .ok table => (database.withTable table, table.warnings)

end DatabaseSchema

end IndexedStore
