/-
This file proves that the database of people and the record beside it never come apart. The record
is a map from keys to the rows as they were handed over. The database keeps their canonical bytes,
finds them by its indexes, and changes them in transactions. Whatever is written, deleted and asked
for, both hold the same rows under the same keys, and the database answers what the record means.

Every row has to be one that a reader can take, and no query may search arrays by their items, since
the record means the whole array.
-/

import IndexedStore.People.Tracked
import IndexedStore.Proofs.Connection.QuietChanges

namespace IndexedStore

theorem Table.options_reindex {key : Value} {previous : Option Row} {row : Row} {field : String}
    {index : Index} : (reindex key previous row field index).options = index.options := by
  cases previous with
  | none => exact Index.options_addOwners
  | some previous => exact Index.options_addOwners.trans Index.options_dropOwners

/-- The options of an index do not depend on the keys that it has. -/
theorem Table.indexOptions?_eq {table : Table} {field : String} : table.indexOptions? field =
    (table.indexes.map fun entry => (entry.1, entry.2.options)).lookup field := by
  rw [indexOptions?]
  induction table.indexes with
  | nil => rfl
  | cons head rest inductionHypothesis =>
    rw [List.map_cons, List.lookup_cons, List.lookup_cons]
    split
    · rfl
    · exact inductionHypothesis

/-! ### Rows in the order of their keys -/

namespace Table

variable {table : Table} {bytes bytes' : List UInt8}

/-- Wherever a table keeps two rows, the key of the first does not come after that of the second. -/
def InOrder (table : Table) (bytes bytes' : List UInt8) : Prop :=
  ∀ entry ∈ table.rows.entries, ∀ entry' ∈ table.rows.entries, entry.2 = bytes →
    entry'.2 = bytes' → (entry.1.compareKey entry'.1).isLE

theorem InOrder.antisymm (near : table.InOrder bytes bytes') (sound : table.Sound)
    (member : bytes ∈ table.rows.contents) (member' : bytes' ∈ table.rows.contents)
    (far : table.InOrder bytes' bytes) : bytes = bytes' := by
  obtain ⟨entry, inside, rfl⟩ := List.mem_map.mp member
  obtain ⟨entry', inside', rfl⟩ := List.mem_map.mp member'
  have equal := Std.OrientedCmp.isLE_antisymm (near entry inside entry' inside' rfl rfl)
    (far entry' inside' entry inside rfl rfl)
  rw [KeyMap.eq_of_mem_of_beq sound.sorted inside inside' (Value.beq_iff.mpr equal)]

/-- A table keeps its rows in order. -/
theorem pairwise_inOrder (sound : table.Sound) : table.rows.contents.Pairwise table.InOrder := by
  refine List.pairwise_map.mpr (sound.sorted.imp_of_mem fun member member' less => ?_)
  intro entry inside entry' inside' same same'
  rw [Std.TransCmp.congr_left (Value.beq_iff.mp (sound.key_beq_of_bytes_eq inside member same)),
    Std.TransCmp.congr_right (Value.beq_iff.mp (sound.key_beq_of_bytes_eq inside' member' same')),
    less]
  rfl

/-- Rows are in order if their keys are. -/
theorem inOrder_of_isLE (sound : table.Sound) {row row' : Row}
    (ordered : (People.Tracked.compareIds (row.get? table.keyField)
      (row'.get? table.keyField)).isLE)
    (writable : row.Writable) (writable' : row'.Writable) :
    table.InOrder row.bytes row'.bytes := by
  intro entry inside entry' inside' same same'
  obtain ⟨key, found, under⟩ := sound.exists_key inside (writable.trans (congrArg _ same.symm))
  obtain ⟨key', found', under'⟩ :=
    sound.exists_key inside' (writable'.trans (congrArg _ same'.symm))
  rw [found, found'] at ordered
  rw [← Std.TransCmp.congr_left (Value.beq_iff.mp under),
    ← Std.TransCmp.congr_right (Value.beq_iff.mp under')]
  exact ordered

end Table

namespace People

namespace Tracked

theorem isLE_compareIds_trans {first second third : Option Value}
    (near : (compareIds first second).isLE) (far : (compareIds second third).isLE) :
    (compareIds first third).isLE := by
  cases first with
  | none => cases third <;> rfl
  | some key =>
    cases second with
    | none => cases near
    | some key' =>
      cases third with
      | none => cases far
      | some key'' => exact @Std.TransCmp.isLE_trans _ Value.compareKey _ _ _ _ near far

theorem isLE_compareIds_total {first second : Option Value} :
    ((compareIds first second).isLE || (compareIds second first).isLE) = true := by
  cases first with
  | none => cases second <;> rfl
  | some key =>
    cases second with
    | none => rfl
    | some key' =>
      show ((key.compareKey key').isLE || (key'.compareKey key).isLE) = true
      rw [@Std.OrientedCmp.eq_swap _ Value.compareKey _ key]
      cases key'.compareKey key <;> rfl

theorem pairwise_sortById (rows : List Row) : (sortById rows).Pairwise fun first second =>
    (compareIds (first.get? people.keyColumn) (second.get? people.keyColumn)).isLE :=
  @List.pairwise_mergeSort _
    (fun first second => (compareIds (first.get? "id") (second.get? "id")).isLE)
    (fun _ _ _ => isLE_compareIds_trans) (fun _ _ => isLE_compareIds_total) rows

variable {content : Table} {stored rows : List Row}

/-- Of the stored rows with a property, each found once, sorting makes what the table has. -/
theorem map_bytes_sortById (sound : content.Sound) (named : content.keyField = people.keyColumn)
    (holds : content.Holds stored) {accepts : Row → Bool}
    (collects : Collects stored (fun row => accepts row) rows)
    (once : (rows.map Row.bytes).Nodup) :
    (sortById rows).map Row.bytes = (stored.filter accepts).map Row.bytes := by
  have contents := (Table.holds_iff.mp holds).2
  have perm : (sortById rows).Perm rows := List.mergeSort_perm rows _
  have found := (perm.map Row.bytes).trans
    (collects.perm_filter (contents ▸ sound.contents_nodup) once)
  have part : ((stored.filter accepts).map Row.bytes).Sublist content.rows.contents :=
    contents ▸ List.filter_sublist.map Row.bytes
  refine @List.Perm.eq_of_pairwise _ content.InOrder _ _ ?_ ?_ ?_ found
  · exact fun bytes bytes' member member' near far => near.antisymm sound
      (part.subset (found.mem_iff.mp member)) (part.subset member') far
  · refine List.pairwise_map.mpr ((pairwise_sortById rows).imp_of_mem fun member member' ordered =>
      ?_)
    exact Table.inOrder_of_isLE sound (named ▸ ordered)
      (collects.writable _ (perm.mem_iff.mp member)) (collects.writable _ (perm.mem_iff.mp member'))
  · exact (Table.pairwise_inOrder sound).sublist part

end Tracked

/-! ### Steps -/

/-- A use of the database. -/
inductive Step where
  /-- A person is written. -/
  | put (row : Row)
  /-- The people that a query finds are deleted, in the order of a schedule. -/
  | delete (query : Query) (schedule : Schedule)
  /-- The people that a query finds are asked for. -/
  | select (query : Query)

/-- The fields of people that can be asked for and are not searched by items. -/
def plainFields : List String := ["id", "firstName", "lastName", "age", "email"]

namespace Step

/-- A row that a reader can take, or a query on plain fields. -/
def Plain : Step → Prop
  | put row => row.Readable
  | delete query _ | select query => ∀ entry ∈ query.conditions, entry.1 ∈ plainFields

/-- What a step makes of a map from keys to rows. -/
def record (rows : KeyMap Row) : Step → KeyMap Row
  | put row =>
    match row.get? people.keyColumn with
    | some key => rows.insert key row
    | none => rows
  | delete query _ => rows.keep fun row => !query.accepts row
  | select _ => rows

end Step

namespace Tracked

/-- Takes a step on the database and on the record. -/
def step (tracked : Tracked) : Step → Except Disagreement Tracked
  | .put row => tracked.put row
  | .delete query schedule => (tracked.delete query schedule).map Prod.snd
  | .select query => (tracked.select query).map Prod.snd

/-- Takes several steps, up to the first disagreement. -/
def run (tracked : Tracked) (steps : List Step) : Except Disagreement Tracked :=
  steps.foldlM step tracked

/-- The table of people holds the rows on record, under the same keys. -/
def Agrees (tracked : Tracked) : Prop :=
  ∃ content, tracked.store.connection.Sees tracked.store.engine people.name people content ∧
    content.Holds tracked.rows.contents ∧
    ∀ key, content.rows.get? key = (tracked.rows.get? key).map Row.bytes

/-- The database answers a step as the record does: a person gets the key in its key column, as many
rows are deleted as are meant on record, and those are found that are meant, in any order. -/
def Answers (tracked : Tracked) : Step → Prop
  | .put row =>
    ∃ key, (tracked.store.add row .put).1 = .done key ∧ row.get? people.keyColumn = some key
  | .delete query schedule =>
    (tracked.store.delete query schedule).1 = .done (query.filter tracked.rows.contents).length
  | .select query => ∃ rows, (tracked.store.select query).1 = .ok rows ∧
    sortById rows == query.filter tracked.rows.contents

/-! ### What every step keeps -/

/-- The indexes on people. -/
def indexOptions : List (String × IndexOptions) := [("age", {}), ("email", { unique := true }),
  ("firstName", {}), ("lastName", {}), ("tags", { multiEntry := true })]

/-- The database and the record are in step. -/
structure InStep (tracked : Tracked) (content : Table) : Prop where
  /-- The connection is the one with which the database was opened. -/
  connection : tracked.store.connection = Store.empty.connection
  /-- The engine is one that connections lead to. -/
  reached : tracked.store.engine.Reached
  /-- No call is struck. -/
  quiet : tracked.store.engine.Quiet
  /-- This is the table of people. -/
  sees : tracked.store.connection.Sees tracked.store.engine people.name people content
  /-- It has the key column of the schema. -/
  keyField : content.keyField = people.keyColumn
  /-- It has its indexes. -/
  options : content.indexes.map (fun entry => (entry.1, entry.2.options)) = indexOptions
  /-- The keys on record stand in order. -/
  sorted : tracked.rows.Sorted
  /-- The rows on record have bytes that can be read. -/
  readable : ∀ key row, tracked.rows.get? key = some row → row.Writable ∧ row.Readable
  /-- The table has the bytes of the rows on record. -/
  same : ∀ key, content.rows.get? key = (tracked.rows.get? key).map Row.bytes

namespace InStep

variable {tracked : Tracked} {content : Table} {query : Query} {row : Row} {key : Value}

/-- At the outset there are no people, neither in the table nor on record. -/
theorem exists_start : ∃ content, ({} : Tracked).InStep content :=
  ⟨{ name := people.name, keyField := people.keyColumn, autoIncrement := false,
      indexes := indexOptions.map fun entry => (entry.1, { options := entry.2 }) },
    rfl, .openStore (.start {}) database {}, fun _ => rfl, ⟨0, _, rfl, rfl, rfl⟩, rfl, rfl, .nil,
    nofun, fun _ => rfl⟩

theorem writable (inStep : tracked.InStep content) :
    ∀ row ∈ tracked.rows.contents, row.Writable ∧ row.Readable := by
  intro row member
  obtain ⟨entry, inside, rfl⟩ := List.mem_map.mp member
  exact inStep.readable entry.1 entry.2 (KeyMap.get?_of_mem inStep.sorted inside)

theorem sound (inStep : tracked.InStep content) : content.Sound :=
  Connection.sound_of_sees inStep.reached inStep.sees

theorem holds (inStep : tracked.InStep content) : content.Holds tracked.rows.contents :=
  Table.holds_iff.mpr ⟨fun row member => (inStep.writable row member).1,
    (KeyMap.contents_eq_map inStep.sorted inStep.sound.sorted inStep.same).symm⟩

theorem allReadable (inStep : tracked.InStep content) : content.AllReadable := by
  intro bytes member
  rw [← (Table.holds_iff.mp inStep.holds).2] at member
  obtain ⟨row, isRow, rfl⟩ := List.mem_map.mp member
  obtain ⟨writable, readable⟩ := inStep.writable row isRow
  exact (Row.readable_iff writable).mp readable

theorem agrees (inStep : tracked.InStep content) : tracked.Agrees :=
  ⟨content, inStep.sees, inStep.holds, inStep.same⟩

/-! ### Queries -/

theorem indexOptions?_eq (inStep : tracked.InStep content) (field : String) :
    content.indexOptions? field = indexOptions.lookup field := by
  rw [Table.indexOptions?_eq, inStep.options]

theorem mem_plainFields (plain : (Step.select query).Plain) :
    ∀ clause ∈ query.plan.clauses, clause.field ∈ plainFields := by
  intro clause member
  obtain ⟨entry, isEntry, same⟩ := List.mem_map.mp (Query.field_mem_of_mem_clauses member)
  exact same ▸ plain entry isEntry

/-- No clause on a plain field searches arrays by their items. -/
theorem findsOnce (inStep : tracked.InStep content) (plain : (Step.select query).Plain) :
    ∀ clause ∈ query.plan.clauses, people.FindsOnce content clause := by
  have single : ∀ field ∈ plainFields, people.isKey field ∨
      (indexOptions.lookup field).any IndexOptions.multiEntry = false := by decide
  intro clause member
  rw [TableSchema.FindsOnce, Table.splitsItems, inStep.indexOptions?_eq]
  exact single clause.field (mem_plainFields plain clause member)

/-- Every clause on a plain field can be scanned. -/
theorem runs (inStep : tracked.InStep content) (plain : (Step.select query).Plain) :
    people.Runs content query.plan := by
  have declared : ∀ field ∈ plainFields, people.hasIndex field := by decide
  have present : ∀ field ∈ plainFields,
      people.isKey field ∨ (indexOptions.lookup field).isSome := by decide
  refine inStep.allReadable.runs
    (fun clause member => declared _ (mem_plainFields plain clause member)) ?_
  intro clause member
  rw [Table.hasIndex, inStep.indexOptions?_eq]
  exact present clause.field (mem_plainFields plain clause member)

/-- A query on plain fields finds each row that it means on record once, and no other. -/
theorem exists_select (inStep : tracked.InStep content) (plain : (Step.select query).Plain) :
    ∃ rows, tracked.store.connection.select tracked.store.engine people.name query =
        (.ok rows, tracked.store.engine) ∧
      Collects tracked.rows.contents (fun row => query.accepts row) rows ∧
      (rows.map Row.bytes).Nodup := by
  have permitted : tracked.store.connection.Permits query := by
    rw [Connection.Permits, inStep.connection]
    rintro ⟨-, refused⟩
    cases refused
  obtain ⟨rows, selected⟩ :=
    Connection.exists_select inStep.quiet inStep.reached inStep.sees permitted (inStep.runs plain)
  rcases @Connection.select_cases tracked.store.connection tracked.store.engine people.name query
    inStep.reached with ⟨failure, failed, -⟩ | ⟨table, content', rows', ok, sees, collects⟩
  · rw [selected] at failed
    cases failed
  · rw [selected] at ok
    cases ok
    obtain ⟨rfl, rfl⟩ := inStep.sees.unique sees
    obtain ⟨collected, distinct⟩ := collects _ inStep.holds
    have once := inStep.findsOnce plain
    exact ⟨rows, selected,
      collected.congr fun row _ => TableSchema.meets_iff_accepts inStep.keyField once,
      distinct fun clause member => once clause (List.mem_append_left _ member)⟩

/-- What is found is what is meant on record, once it is sorted. -/
theorem sortById_beq (inStep : tracked.InStep content) {rows : List Row}
    (collects : Collects tracked.rows.contents (fun row => query.accepts row) rows)
    (once : (rows.map Row.bytes).Nodup) :
    sortById rows == query.filter tracked.rows.contents := by
  refine Row.beq_of_map_bytes_eq (fun row member => ?_) (fun row member => ?_)
    (map_bytes_sortById inStep.sound inStep.keyField inStep.holds collects once)
  · exact collects.writable row ((List.mergeSort_perm rows _).mem_iff.mp member)
  · exact (inStep.writable row (List.mem_filter.mp member).1).1

/-- A query changes nothing, and what it finds is what is meant on record. -/
theorem select (inStep : tracked.InStep content) (plain : (Step.select query).Plain) :
    (∃ rows, (tracked.store.select query).1 = .ok rows ∧
      sortById rows == query.filter tracked.rows.contents) ∧
    ∃ found, tracked.select query = .ok (found, tracked) := by
  obtain ⟨rows, selected, collects, once⟩ := inStep.exists_select plain
  have same := inStep.sortById_beq collects once
  have answered : tracked.store.select query = (.ok rows, tracked.store) := by
    rw [Store.select, selected]
  refine ⟨⟨rows, congrArg Prod.fst answered, same⟩, sortById rows, ?_⟩
  rw [Tracked.select, answered]
  exact if_pos same

/-! ### Changes -/

/-- Where people are added, each has a key, and the table gets the bytes of the row under it. -/
theorem exists_add (inStep : tracked.InStep content) {after : Engine}
    (added : tracked.store.connection.add tracked.store.engine people.name row .put =
      (.done key, after)) :
    row.get? people.keyColumn = some key ∧ row.Writable ∧ after.Quiet ∧ ∃ altered,
      tracked.store.connection.Sees after people.name people altered ∧
      altered.keyField = content.keyField ∧
      altered.indexes.map (fun entry => (entry.1, entry.2.options)) =
        content.indexes.map (fun entry => (entry.1, entry.2.options)) ∧
      altered.rows = content.rows.insert key row.bytes := by
  obtain ⟨calm, admits, altered, put, sees⟩ :=
    Connection.add_of_quiet inStep.reached inStep.quiet inStep.sees added
  obtain ⟨full, previous, bytes, assigned, -, written, -, rfl⟩ := Table.put_eq_ok_iff.mp put
  -- No key is generated, so the row has one and is stored as it stands.
  obtain ⟨own, given⟩ : ∃ own, row.get? people.keyColumn = some own :=
    Option.ne_none_iff_exists'.mp fun none => admits ⟨by rw [none]; rfl, rfl⟩
  rw [Table.assignKey, inStep.keyField, given] at assigned
  dsimp only at assigned
  split at assigned
  · cases assigned
    obtain ⟨writable, rfl⟩ := Row.encode_eq_ok_iff.mp written
    refine ⟨given, writable, calm, _, sees, rfl, ?_, rfl⟩
    simp [Function.comp_def, Table.options_reindex]
  · cases assigned

/-- A person that is written is put on record. -/
theorem put (inStep : tracked.InStep content) (readable : row.Readable)
    (accepted : (tracked.store.add row .put).1 = .done key) :
    row.get? people.keyColumn = some key ∧ ∃ next content', tracked.put row = .ok next ∧
      next.InStep content' ∧ next.rows = tracked.rows.insert key row := by
  cases added : tracked.store.connection.add tracked.store.engine people.name row .put with
  | mk reply after =>
    rw [Store.add, added] at accepted
    cases accepted
    obtain ⟨given, writable, calm, altered, sees, keyField, options, rows⟩ :=
      inStep.exists_add added
    have reached := inStep.reached.add tracked.store.connection people.name row .put
    rw [added] at reached
    refine ⟨given, ⟨{ tracked.store with engine := after }, tracked.rows.insert key row⟩, altered,
      by rw [Tracked.put, Store.add, added], ?_, rfl⟩
    refine ⟨inStep.connection, reached, calm, sees, keyField.trans inStep.keyField,
      options.trans inStep.options, KeyMap.insert_sorted inStep.sorted, fun other row' => ?_,
      fun other => ?_⟩
    · rw [KeyMap.get?_insert]
      split
      · rintro ⟨⟩
        exact ⟨writable, readable⟩
      · exact inStep.readable other row'
    · cases same : other == key <;> simp [rows, same, inStep.same]

/-- The keys of the rows that a query finds are those under which it means a row on record. -/
theorem exists_stores_iff (inStep : tracked.InStep content) {rows : List Row}
    (collects : Collects tracked.rows.contents (fun row => query.accepts row) rows) :
    (∃ row ∈ rows, content.rows.Stores key row) ↔
      ∃ own, tracked.rows.get? key = some own ∧ query.accepts own := by
  constructor
  · rintro ⟨row, member, bytes, here, written⟩
    rw [inStep.same] at here
    obtain ⟨own, onRecord, rfl⟩ := Option.map_eq_some_iff.mp here
    refine ⟨own, onRecord, (collects.exact own (KeyMap.mem_contents_of_get? onRecord)).mp ?_⟩
    rw [← (Row.encode_eq_ok_iff.mp written).2]
    exact List.mem_map_of_mem member
  · rintro ⟨own, onRecord, accepted⟩
    obtain ⟨row, member, same⟩ := List.mem_map.mp
      ((collects.exact own (KeyMap.mem_contents_of_get? onRecord)).mpr accepted)
    exact ⟨row, member, own.bytes, by simp [inStep.same, onRecord],
      same ▸ collects.writable row member⟩

/-- What a deletion leaves in the table is what is kept on record. -/
theorem get?_of_loses (inStep : tracked.InStep content) {rows : List Row} {altered : Table}
    (collects : Collects tracked.rows.contents (fun row => query.accepts row) rows)
    (loses : content.Loses altered fun key => ∃ row ∈ rows, content.rows.Stores key row)
    (key : Value) : altered.rows.get? key =
      ((tracked.rows.keep fun row => !query.accepts row).get? key).map Row.bytes := by
  rw [KeyMap.get?_keep inStep.sorted]
  have lost := @exists_stores_iff tracked content query key inStep rows collects
  have before := inStep.same key
  cases onRecord : tracked.rows.get? key with
  | none =>
    rw [onRecord] at before lost
    refine (loses.kept key (mt lost.mp ?_)).trans before
    rintro ⟨own, found, -⟩
    cases found
  | some own =>
    rw [onRecord] at before lost
    rw [Option.filter_some]
    cases accepted : query.accepts own with
    | true => exact loses.lost key (lost.mpr ⟨own, rfl, accepted⟩)
    | false =>
      refine (loses.kept key (mt lost.mp ?_)).trans before
      rintro ⟨other, isOther, accepts⟩
      rw [← Option.some.inj isOther, accepted] at accepts
      cases accepts

/-- People that are deleted are taken off the record. -/
theorem delete (inStep : tracked.InStep content) {schedule : Schedule}
    (plain : (Step.delete query schedule).Plain) :
    (tracked.store.delete query schedule).1 = .done (query.filter tracked.rows.contents).length ∧
    ∃ deleted next content', tracked.delete query schedule = .ok (deleted, next) ∧
      next.InStep content' ∧ next.rows = tracked.rows.keep fun row => !query.accepts row := by
  obtain ⟨rows, selected, collects, -⟩ := inStep.exists_select plain
  obtain ⟨warnings, after, altered, deleted, calm, sees, loses⟩ :=
    Connection.exists_delete schedule inStep.reached inStep.quiet inStep.sees inStep.keyField
      selected
  rw [length_keysToDelete inStep.sound inStep.holds inStep.keyField collects] at deleted
  have answered : tracked.store.delete query schedule =
      (.done (query.filter tracked.rows.contents).length,
        { tracked.store with engine := after }) := by
    simp [Store.delete, deleted, Query.filter]
  have sizes : (tracked.rows.entries.filter fun entry => query.accepts entry.2).length =
      (query.filter tracked.rows.contents).length := by
    simp [Query.filter, KeyMap.contents, List.filter_map, Function.comp_def]
  have reached := inStep.reached.delete tracked.store.connection people.name query schedule
  rw [deleted] at reached
  let next : Tracked :=
    ⟨{ tracked.store with engine := after }, tracked.rows.keep fun row => !query.accepts row⟩
  refine ⟨congrArg Prod.fst answered, (query.filter tracked.rows.contents).length, next, altered,
    ?_, ?_, rfl⟩
  · simp [Tracked.delete, answered, sizes, KeyMap.foldl_erase_eq_keep inStep.sorted, next]
  · refine ⟨inStep.connection, reached, calm, sees, ?_, loses.options.trans inStep.options,
      KeyMap.keep_sorted inStep.sorted _, fun key row => ?_, fun key => ?_⟩
    · rw [loses.same]
      exact inStep.keyField
    · rw [KeyMap.get?_keep inStep.sorted]
      exact fun found => inStep.readable key row (Option.filter_eq_some_iff.mp found).1
    · exact inStep.get?_of_loses collects loses key

/-- A step is answered as the record does, and leaves the two in step. -/
theorem step (inStep : tracked.InStep content) {step : Step} (plain : step.Plain)
    (accepted : ∀ row, step = .put row → ∃ key, (tracked.store.add row .put).1 = .done key) :
    tracked.Answers step ∧ ∃ next content', tracked.step step = .ok next ∧
      next.InStep content' ∧ next.rows = step.record tracked.rows := by
  cases step with
  | put row =>
    obtain ⟨key, added⟩ := accepted row rfl
    obtain ⟨given, next, content', ok, inStep', rows⟩ := inStep.put plain added
    refine ⟨⟨key, added, given⟩, next, content', ok, inStep', ?_⟩
    rw [rows, Step.record, given]
  | delete query schedule =>
    obtain ⟨number, deleted, next, content', ok, inStep', rows⟩ := inStep.delete plain
    exact ⟨number, next, content', by simp [Tracked.step, ok], inStep', rows⟩
  | select query =>
    obtain ⟨answer, found, ok⟩ := inStep.select plain
    exact ⟨answer, tracked, content, by simp [Tracked.step, ok], inStep, rfl⟩

/-- So does any number of steps, if every person is accepted. -/
theorem exists_run {steps : List Step} (plain : ∀ step ∈ steps, step.Plain)
    (accepted : ∀ before row after, steps = before ++ .put row :: after →
      ∀ tracked, run {} before = .ok tracked →
        ∃ key, (tracked.store.add row .put).1 = .done key) :
    ∀ before after, steps = before ++ after → ∃ tracked content, run {} before = .ok tracked ∧
      tracked.InStep content ∧ tracked.rows = before.foldl Step.record {} := by
  intro before
  induction before using List.reverseRecOn with
  | nil =>
    intro after _
    obtain ⟨content, inStep⟩ := exists_start
    exact ⟨{}, content, rfl, inStep, rfl⟩
  | append_singleton earlier last inductionHypothesis =>
    intro after split
    rw [List.append_assoc, List.singleton_append] at split
    obtain ⟨tracked, content, ran, inStep, rows⟩ := inductionHypothesis _ split
    have member : last ∈ steps := split ▸ List.mem_append_right _ List.mem_cons_self
    obtain ⟨-, next, content', ok, inStep', rows'⟩ :=
      inStep.step (plain last member) fun row isPut =>
        accepted earlier row after (isPut ▸ split) tracked ran
    refine ⟨next, content', ?_, inStep', ?_⟩
    · rw [run, List.foldlM_append, ← run, ran]
      show List.foldlM Tracked.step tracked [last] = _
      rw [List.foldlM_cons, ok]
      rfl
    · rw [List.foldl_append, ← rows, rows']
      rfl

end InStep

/-- The database of people refines a map from keys to rows. Take any steps, beginning without
people, whose rows a reader can take, whose queries are on plain fields, and each of whose people is
accepted when the turn comes to it. None of them ends the work. At any time the record is what the
steps so far make of a map, the table holds exactly the rows on record, and the next step is
answered as the record does. -/
theorem database_refines_record {steps : List Step} (plain : ∀ step ∈ steps, step.Plain)
    (accepted : ∀ before row after, steps = before ++ .put row :: after →
      ∀ tracked, run {} before = .ok tracked →
        ∃ key, (tracked.store.add row .put).1 = .done key) :
    ∀ before after, steps = before ++ after → ∃ tracked, run {} before = .ok tracked ∧
      tracked.rows = before.foldl Step.record {} ∧ tracked.Agrees ∧
      ∀ step rest, after = step :: rest → tracked.Answers step := by
  intro before after split
  obtain ⟨tracked, content, ran, inStep, rows⟩ :=
    InStep.exists_run plain accepted before after split
  refine ⟨tracked, ran, rows, inStep.agrees, ?_⟩
  rintro step rest rfl
  have member : step ∈ steps := split ▸ List.mem_append_right _ List.mem_cons_self
  exact (inStep.step (plain step member) fun row isPut =>
    accepted before row rest (isPut ▸ split) tracked ran).1

/-- A person, the same one later, with a float as key, and another one. -/
def visitors : List Row :=
  [person 1 "Ann" "Lee" 12, (person 1 "Ann" "Lee" 13).set "id" (.float ⟨0x3ff0000000000000⟩),
    person 2 "John" "Smith" 40]

/-- The visitors are written, those who are older than twenty deleted, and all asked for. -/
def visit : List Step := visitors.map .put ++ [.delete older .inOrder, .select {}]

/-- Whether a row can be written after the given steps, if the next step writes one. -/
def isAccepted (before : List Step) : Step → Bool
  | .put row => (run {} before).toOption.all fun tracked =>
    (tracked.store.add row .put).1.result?.isSome
  | _ => true

theorem readable_visitors : ∀ row ∈ visitors, row.Readable := by
  intro row member
  have read : ∀ row ∈ visitors,
      (row.encode.toOption.bind fun bytes => (Row.decode bytes).toOption).isSome := by
    decide +kernel
  have isRead := read row member
  cases written : row.encode with
  | error cause =>
    rw [written] at isRead
    cases isRead
  | ok bytes =>
    rw [written] at isRead
    change (Row.decode bytes).toOption.isSome at isRead
    cases decoded : Row.decode bytes with
    | error cause =>
      rw [decoded] at isRead
      cases isRead
    | ok found => exact (Row.readable_iff written).mpr ⟨found, decoded⟩

/-- In the end one person is left, and is found. -/
theorem visit_leaves_one : ∃ tracked, run {} (visit.take 4) = .ok tracked ∧
    tracked.rows.size = 1 ∧ tracked.Agrees ∧ tracked.Answers (.select {}) := by
  have plain : ∀ step ∈ visit, step.Plain := by
    refine List.forall_mem_append.mpr ⟨List.forall_mem_map.mpr readable_visitors, ?_⟩
    have asked : ∀ entry ∈ older.conditions, entry.1 ∈ plainFields := by decide
    exact List.forall_mem_cons.mpr ⟨asked, List.forall_mem_singleton.mpr (List.forall_mem_nil _)⟩
  have accepts : (List.range visit.length).all fun position =>
      visit[position]?.all (isAccepted (visit.take position)) := by decide +kernel
  have left : ((visit.take 4).foldl Step.record {}).size = 1 := by decide +kernel
  obtain ⟨tracked, ran, rows, agrees, answers⟩ := database_refines_record plain
    (fun before row after split tracked ran => by
      have bound : before.length < visit.length := by simp [split]
      have accepted := List.all_eq_true.mp accepts before.length (List.mem_range.mpr bound)
      rw [show visit[before.length]? = some (.put row) by simp [split],
        show visit.take before.length = before by simp [split], Option.all_some, isAccepted,
        ran] at accepted
      change (tracked.store.add row .put).1.result?.isSome at accepted
      cases added : (tracked.store.add row .put).1 with
      | done key => exact ⟨key, rfl⟩
      | _ =>
        rw [added] at accepted
        cases accepted)
    (visit.take 4) (visit.drop 4) (List.take_append_drop 4 visit).symm
  exact ⟨tracked, ran, rows ▸ left, agrees, answers _ _ rfl⟩

end Tracked

end People

end IndexedStore
