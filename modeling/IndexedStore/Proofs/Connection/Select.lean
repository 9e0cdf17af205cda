/-
This file proves that a query finds what it means: the rows that a selection returns are
those that every inclusion clause of the plan finds and that are not found by every
exclusion clause, and where no array is searched by its items these are exactly the rows
that the query accepts, each of them once.

The stored rows are fixed up to equality by the bytes that the table keeps. So the rows
that a selection returns, which are read back from the store, equal the stored ones but
need not be written the same way.
-/

import IndexedStore.People.Basic
import IndexedStore.Proofs.Connection.Mutation
import IndexedStore.Proofs.Connection.Reached
import IndexedStore.Proofs.Query.Merge
import IndexedStore.Proofs.Query.Plan
import IndexedStore.Proofs.Storage.Scan

namespace IndexedStore

/-- Whether arrays are searched by their items in the index on a field. -/
def Table.splitsItems (table : Table) (field : String) : Bool :=
  (table.indexOptions? field).any IndexOptions.multiEntry

namespace TableSchema

/-- A clause finds a row of a table: its primary key lies in the range, if the clause is on the
key column of the schema, and one of its index keys for the field does otherwise. -/
def Finds (table : TableSchema) (content : Table) (clause : Clause) (row : Row) : Prop :=
  if table.isKey clause.field then row.HasKeyIn content.keyField false clause.range
  else row.FoundBy clause (content.splitsItems clause.field)

/-- No array is searched by its items for a clause. -/
def FindsOnce (table : TableSchema) (content : Table) (clause : Clause) : Prop :=
  table.isKey clause.field ∨ content.splitsItems clause.field = false

/-- A clause finds a row at most once: among the keys it looks at, at most one of the row lies in
the range. -/
def FindsRowOnce (table : TableSchema) (content : Table) (clause : Clause) (row : Row) : Prop :=
  table.isKey clause.field ∨
    row.HasOneKeyIn clause.field (content.splitsItems clause.field) clause.range

variable {table : TableSchema} {content : Table} {clause : Clause} {row : Row}
  {stored rows : List Row} {engine changed : Engine} {transaction : Transaction}

theorem FindsOnce.findsRowOnce (once : table.FindsOnce content clause) :
    table.FindsRowOnce content clause row := by
  refine Or.imp_right (fun single => ?_) once
  rw [single]
  exact Row.hasOneKeyIn_single

/-- Where the table has the key column of the schema and no array is searched by its items, a
clause finds the rows whose value lies in the range. -/
theorem finds_iff_foundBy (same : content.keyField = table.keyColumn)
    (once : table.FindsOnce content clause) :
    table.Finds content clause row ↔ row.FoundBy clause false := by
  unfold Finds
  split
  · rename_i isKey
    rw [same, beq_iff_eq.mp isKey]
    rfl
  · rename_i notKey
    rw [once.resolve_left notKey]

/-! ### One scan -/

theorem scanPrimary_eq_ok {name : String} {range : Option KeyRange}
    (ok : (engine.scanPrimary transaction name range).1 = .ok rows) :
    ∃ content, transaction.data.table? name = .ok content ∧
      content.scanPrimary range = .ok rows := by
  exact exists_of_bind_eq_ok (Engine.eq_ok_of_read ok)

theorem scanIndex_eq_ok {name field : String} {range : KeyRange}
    (ok : (engine.scanIndex transaction name field range).1 = .ok rows) :
    ∃ content, transaction.data.table? name = .ok content ∧
      content.scanIndex field range = .ok rows := by
  exact exists_of_bind_eq_ok (Engine.eq_ok_of_read ok)

/-- A scan that succeeds is one of the table. -/
theorem scanClause_eq_ok (ok : (table.scanClause engine transaction clause).1 = .ok rows) :
    ∃ content, transaction.data.table? table.name = .ok content ∧
      if table.isKey clause.field then content.scanPrimary (some clause.range) = .ok rows
      else content.scanIndex clause.field clause.range = .ok rows := by
  unfold scanClause at ok
  by_cases isKey : table.isKey clause.field
  · simp only [if_pos isKey]
    rw [target?, if_pos isKey] at ok
    exact scanPrimary_eq_ok (eq_ok_of_mapError ok)
  · simp only [if_neg isKey]
    rw [target?, if_neg isKey] at ok
    cases declared : table.column? clause.field with
    | none =>
      rw [declared] at ok
      cases ok
    | some column =>
      have named := List.find?_some declared
      rw [beq_iff_eq] at named
      rw [declared, Option.map_some] at ok
      exact named ▸ scanIndex_eq_ok (eq_ok_of_mapError ok)

/-- A scan collects the rows that its clause finds, and gives each of them once exactly if the
clause finds none twice. -/
theorem collects_scanClause (ok : (table.scanClause engine transaction clause).1 = .ok rows)
    (found : transaction.data.table? table.name = .ok content) (sound : content.Sound)
    (holds : content.Holds stored) :
    Collects stored (table.Finds content clause) rows ∧
      ((rows.map Row.bytes).Nodup ↔ ∀ row ∈ stored, table.FindsRowOnce content clause row) := by
  obtain ⟨other, found', scanned⟩ := scanClause_eq_ok ok
  cases found.symm.trans found'
  by_cases isKey : table.isKey clause.field
  · rw [if_pos isKey] at scanned
    obtain ⟨collects, once⟩ := Table.scanPrimary_eq_ok sound holds scanned
    refine ⟨collects.congr fun row _ => ?_, iff_of_true once fun _ _ => .inl isKey⟩
    rw [Finds, if_pos isKey]
  · rw [if_neg isKey] at scanned
    obtain ⟨options, present, collects, once⟩ := Table.scanIndex_eq_ok sound holds scanned
    have splits : content.splitsItems clause.field = options.multiEntry := by
      rw [Table.splitsItems, present]
      rfl
    refine ⟨collects.congr fun row _ => ?_, once.trans (forall₂_congr fun row _ => ?_)⟩
    · rw [Finds, if_neg isKey, splits]
      rfl
    · rw [FindsRowOnce, splits, or_iff_right isKey]

/-! ### Several scans -/

/-- Batches answer clauses: a stored row is in all of them exactly if every clause finds it. -/
structure Answers (table : TableSchema) (content : Table) (stored : List Row)
    (clauses : List Clause) (batches : List (List Row)) : Prop where
  /-- Each batch consists of stored rows. -/
  collects : ∀ batch ∈ batches, ∃ property, Collects stored property batch
  /-- The batches have in common what every clause finds. -/
  exact : ∀ row ∈ stored, (∀ batch ∈ batches, row.bytes ∈ batch.map Row.bytes) ↔
    ∀ clause ∈ clauses, table.Finds content clause row
  /-- No batch has a row twice where no array is searched by its items. -/
  once : (∀ clause ∈ clauses, table.FindsOnce content clause) →
    ∀ batch ∈ batches, (batch.map Row.bytes).Nodup

variable {clauses : List Clause} {batches : List (List Row)}

theorem Answers.writable (answers : table.Answers content stored clauses batches) :
    ∀ batch ∈ batches, ∀ row ∈ batch, row.Writable := by
  intro batch member
  obtain ⟨_, collects⟩ := answers.collects batch member
  exact collects.writable

/-- Scans that succeed together succeed one by one. -/
theorem scanClauses_cons_eq_ok
    (ok : (table.scanClauses engine transaction (clause :: clauses)).1 = .ok batches) :
    ∃ rows others after, (table.scanClause engine transaction clause).1 = .ok rows ∧
      (table.scanClauses after transaction clauses).1 = .ok others ∧ batches = rows :: others := by
  rw [scanClauses] at ok
  split at ok
  · cases ok
  · rename_i rows after scanned
    split at ok
    · cases ok
    · rename_i others _ scanned'
      cases ok
      exact ⟨rows, others, after, by rw [scanned], by rw [scanned'], rfl⟩

theorem answers_scanClauses (ok : (table.scanClauses engine transaction clauses).1 = .ok batches)
    (found : transaction.data.table? table.name = .ok content) (sound : content.Sound)
    (holds : content.Holds stored) :
    table.Answers content stored clauses batches ∧ (batches = [] ↔ clauses = []) := by
  induction clauses generalizing engine batches with
  | nil =>
    cases ok
    exact ⟨⟨nofun, fun _ _ => iff_of_true nofun nofun, fun _ => nofun⟩, iff_of_true rfl rfl⟩
  | cons clause rest inductionHypothesis =>
    obtain ⟨rows, others, after, first, remaining, rfl⟩ := scanClauses_cons_eq_ok ok
    obtain ⟨collects, once⟩ := collects_scanClause first found sound holds
    obtain ⟨answers, -⟩ := inductionHypothesis remaining
    refine ⟨⟨?_, fun row member => ?_, fun single => ?_⟩, iff_of_false nofun nofun⟩
    · exact List.forall_mem_cons.mpr ⟨⟨_, collects⟩, answers.collects⟩
    · rw [List.forall_mem_cons, List.forall_mem_cons, collects.exact row member,
        answers.exact row member]
    · rw [List.forall_mem_cons] at single
      exact List.forall_mem_cons.mpr
        ⟨once.mpr fun _ _ => single.1.findsRowOnce, answers.once single.2⟩

/-- The scans for the inclusion clauses answer them, also if there are none. -/
theorem answers_scanInclusions
    (ok : (table.scanInclusions engine transaction clauses).1 = .ok batches)
    (reached : transaction.data.Reached) :
    ∃ content, transaction.data.table? table.name = .ok content ∧ batches ≠ [] ∧
      ∀ stored, content.Holds stored → table.Answers content stored clauses batches := by
  unfold scanInclusions at ok
  split at ok
  · rename_i empty
    rw [List.isEmpty_iff.mp empty]
    obtain ⟨rows, scanned, rfl⟩ := exists_of_map_eq_ok (eq_ok_of_mapError ok)
    obtain ⟨content, found, all⟩ := scanPrimary_eq_ok scanned
    refine ⟨content, found, List.cons_ne_nil _ _, fun stored holds => ?_⟩
    obtain ⟨collects, once⟩ :=
      Table.scanPrimary_all_eq_ok (reached.table? found).sound holds all
    refine ⟨List.forall_mem_singleton.mpr ⟨_, collects⟩, fun row member => ?_,
      fun _ => List.forall_mem_singleton.mpr once⟩
    rw [List.forall_mem_singleton, collects.exact row member]
    exact iff_of_true trivial (List.forall_mem_nil _)
  · rename_i notEmpty
    cases clauses with
    | nil => exact absurd rfl notEmpty
    | cons clause rest =>
      obtain ⟨rows, others, after, first, -, isCons⟩ := scanClauses_cons_eq_ok ok
      obtain ⟨content, found, -⟩ := scanClause_eq_ok first
      refine ⟨content, found, isCons ▸ List.cons_ne_nil _ _, fun stored holds => ?_⟩
      exact (answers_scanClauses ok found (reached.table? found).sound holds).1

/-! ### Plans -/

/-- What a plan asks of a row of a table. -/
def Meets (table : TableSchema) (content : Table) (plan : Plan) (row : Row) : Prop :=
  (∀ clause ∈ plan.inclusions, table.Finds content clause row) ∧
    ¬(plan.exclusions ≠ [] ∧ ∀ clause ∈ plan.exclusions, table.Finds content clause row)

/-- Once the scans have succeeded the merge does too, and it gives the rows that the plan asks
for. -/
theorem exists_merge {plan : Plan} {after : Engine} {inclusions exclusions : List (List Row)}
    (reached : transaction.data.Reached)
    (included : (table.scanInclusions engine transaction plan.inclusions).1 = .ok inclusions)
    (excluded : (table.scanClauses after transaction plan.exclusions).1 = .ok exclusions) :
    ∃ content rows, transaction.data.table? table.name = .ok content ∧
      merge inclusions exclusions = .ok rows ∧
      ∀ stored, content.Holds stored → Collects stored (table.Meets content plan) rows ∧
        ((∀ clause ∈ plan.inclusions, table.FindsOnce content clause) →
          (rows.map Row.bytes).Nodup) := by
  obtain ⟨content, found, asked, answers⟩ := answers_scanInclusions included reached
  have sound := (reached.table? found).sound
  have answers' : ∀ stored, content.Holds stored →
      table.Answers content stored plan.exclusions exclusions ∧
        (exclusions = [] ↔ plan.exclusions = []) :=
    fun stored holds => answers_scanClauses excluded found sound holds
  obtain ⟨own, holdsOwn⟩ := Table.exists_holds sound
  obtain ⟨rows, merged, ofFirst, exact, once⟩ := merge_eq_ok asked
    (answers own holdsOwn).writable (answers' own holdsOwn).1.writable
  refine ⟨content, rows, found, merged, fun stored holds => ?_⟩
  obtain ⟨exclusion, none⟩ := answers' stored holds
  have inclusion := answers stored holds
  -- The rows are part of the first inclusion batch.
  obtain ⟨first, isFirst⟩ : ∃ first, inclusions.head? = some first :=
    Option.ne_none_iff_exists'.mp (mt List.head?_eq_none_iff.mp asked)
  have part := ofFirst first isFirst
  have inside := List.mem_of_head? isFirst
  obtain ⟨_, collects⟩ := inclusion.collects first inside
  refine ⟨⟨fun row member => collects.writable row (part.subset member),
    fun row member => collects.within row (part.subset member), fun row member => ?_⟩,
    fun single => once fun batch isSingle _ => ?_⟩
  · rw [exact, inclusion.exact row member, exclusion.exact row member, Ne, none]
    rfl
  · exact inclusion.once single batch (isSingle ▸ List.mem_singleton_self batch)

/-! ### Failures -/

/-- A failure is not one of the merge, and if it goes back to bytes that could not be read, the
table keeps these bytes. -/
def Blames (table : TableSchema) (transaction : Transaction) (failure : DatabaseError) : Prop :=
  ∀ cause, failure.HasCodec cause → failure ≠ .codec cause ∧ ∃ content,
    transaction.data.table? table.name = .ok content ∧
    ∃ bytes ∈ content.rows.contents, Row.decode bytes = .error cause

theorem scanPrimary_eq_error {name : String} {range : Option KeyRange} {cause : CodecError}
    (failed : (engine.scanPrimary transaction name range).1 = .error (.codec cause)) :
    ∃ content, transaction.data.table? name = .ok content ∧
      ∃ bytes ∈ content.rows.contents, Row.decode bytes = .error cause := by
  obtain ⟨content, found, stopped⟩ :=
    StoreData.exists_of_bind_eq_codec (Engine.eq_codec_of_read failed)
  exact ⟨content, found, Table.exists_of_scanPrimary_eq_error stopped⟩

theorem scanIndex_eq_error {name field : String} {range : KeyRange} {cause : CodecError}
    (failed : (engine.scanIndex transaction name field range).1 = .error (.codec cause)) :
    ∃ content, transaction.data.table? name = .ok content ∧
      ∃ bytes ∈ content.rows.contents, Row.decode bytes = .error cause := by
  obtain ⟨content, found, stopped⟩ :=
    StoreData.exists_of_bind_eq_codec (Engine.eq_codec_of_read failed)
  exact ⟨content, found, Table.exists_of_scanIndex_eq_error stopped⟩

/-- The failure of a scan. -/
theorem blames_scan {name clause : String} {problem : EngineError}
    (stopped : ∀ cause, problem = .codec cause → ∃ content,
      transaction.data.table? table.name = .ok content ∧
      ∃ bytes ∈ content.rows.contents, Row.decode bytes = .error cause) :
    table.Blames transaction (.scan name clause problem) := by
  intro cause isCodec
  cases isCodec
  refine ⟨fun same => ?_, stopped cause rfl⟩
  cases same

theorem blames_scanClause {failure : DatabaseError}
    (failed : (table.scanClause engine transaction clause).1 = .error failure) :
    table.Blames transaction failure := by
  unfold scanClause at failed
  split at failed
  · cases failed
    intro cause isCodec
    cases isCodec
  · rename_i target _
    cases target with
    | primary =>
      obtain ⟨problem, scanned, rfl⟩ := exists_of_mapError_eq_error failed
      exact blames_scan fun cause isCodec => scanPrimary_eq_error (isCodec ▸ scanned)
    | column column =>
      obtain ⟨problem, scanned, rfl⟩ := exists_of_mapError_eq_error failed
      exact blames_scan fun cause isCodec => scanIndex_eq_error (isCodec ▸ scanned)

theorem blames_scanClauses {failure : DatabaseError}
    (failed : (table.scanClauses engine transaction clauses).1 = .error failure) :
    table.Blames transaction failure := by
  induction clauses generalizing engine with
  | nil => cases failed
  | cons clause rest inductionHypothesis =>
    rw [scanClauses] at failed
    split at failed
    · rename_i scanned
      cases failed
      exact blames_scanClause (by rw [scanned])
    · split at failed
      · rename_i scanned
        cases failed
        exact inductionHypothesis (by rw [scanned])
      · cases failed

theorem blames_scanInclusions {failure : DatabaseError}
    (failed : (table.scanInclusions engine transaction clauses).1 = .error failure) :
    table.Blames transaction failure := by
  unfold scanInclusions at failed
  split at failed
  · obtain ⟨problem, scanned, rfl⟩ := exists_of_mapError_eq_error failed
    exact blames_scan fun cause isCodec =>
      scanPrimary_eq_error (isCodec ▸ eq_error_of_map scanned)
  · exact blames_scanClauses failed

/-- A plan that is run gives the rows that it asks for, or the failure of a scan. -/
theorem runPlan_cases (reached : transaction.data.Reached) (plan : Plan) :
    (∃ failure, (table.runPlan engine transaction plan).1 = .error failure ∧
      table.Blames transaction failure) ∨
    ∃ content rows, (table.runPlan engine transaction plan).1 = .ok rows ∧
      transaction.data.table? table.name = .ok content ∧
      ∀ stored, content.Holds stored → Collects stored (table.Meets content plan) rows ∧
        ((∀ clause ∈ plan.inclusions, table.FindsOnce content clause) →
          (rows.map Row.bytes).Nodup) := by
  unfold runPlan
  split
  · rename_i failure _ scanned
    exact .inl ⟨failure, rfl, blames_scanInclusions (by rw [scanned])⟩
  · rename_i inclusions after scanned
    split
    · rename_i failure _ scanned'
      exact .inl ⟨failure, rfl, blames_scanClauses (by rw [scanned'])⟩
    · rename_i exclusions _ scanned'
      obtain ⟨content, rows, found, merged, collects⟩ :=
        exists_merge reached (by rw [scanned]) (by rw [scanned'])
      exact .inr ⟨content, rows, by rw [merged]; rfl, found, collects⟩

/-- Where no array is searched by its items, a plan asks for the rows that its query accepts. -/
theorem meets_iff_accepts {query : Query} (same : content.keyField = table.keyColumn)
    (once : ∀ clause ∈ query.plan.clauses, table.FindsOnce content clause) :
    table.Meets content query.plan row ↔ query.accepts row := by
  have finds : ∀ clause ∈ query.plan.clauses,
      (table.Finds content clause row ↔ row.FoundBy clause false) :=
    fun clause member => finds_iff_foundBy same (once clause member)
  obtain ⟨inclusions, exclusions⟩ := List.forall_mem_append.mp finds
  rw [Query.accepts_iff, Meets]
  refine and_congr ?_ (not_congr (and_congr_right' ?_))
  · exact forall₂_congr inclusions
  · exact forall₂_congr exclusions

end TableSchema

/-! ### Selections -/

namespace Connection

variable {connection : Connection} {engine : Engine} {name : String} {query : Query}

/-- A connection sees a table: this is its schema, and this is its content as it is published to
those who begin to read now. -/
def Sees (connection : Connection) (engine : Engine) (name : String) (table : TableSchema)
    (content : Table) : Prop :=
  ∃ handle transaction, connection.resolve name = .ok (handle, table) ∧
    engine.registry.beginRead handle = .ok transaction ∧
    transaction.data.table? table.name = .ok content

/-- What is computed from the content of the table that a connection sees, if it sees one. -/
def inspect? {α : Type} (connection : Connection) (engine : Engine) (name : String)
    (compute : Table → α) : Option α :=
  match connection.resolve name with
  | .error _ => none
  | .ok (handle, table) => (engine.registry.beginRead handle).toOption.bind fun transaction =>
    (transaction.data.table? table.name).toOption.map compute

theorem inspect?_of_sees {α : Type} {compute : Table → α} {table : TableSchema} {content : Table}
    (sees : connection.Sees engine name table content) :
    connection.inspect? engine name compute = some (compute content) := by
  obtain ⟨handle, transaction, resolved, began, found⟩ := sees
  rw [inspect?, resolved]
  dsimp only
  rw [began]
  change (transaction.data.table? table.name).toOption.map compute = _
  rw [found]
  rfl

theorem sound_of_sees {table : TableSchema} {content : Table} (reached : engine.Reached)
    (sees : connection.Sees engine name table content) : content.Sound := by
  obtain ⟨_, _, -, began, found⟩ := sees
  exact ((reached.registry.beginRead began).table? found).sound

theorem beginRead_of_engine {handle : HandleId} {transaction : Transaction} {after : Engine}
    (began : engine.beginRead handle = (.ok transaction, after)) :
    engine.registry.beginRead handle = .ok transaction :=
  Engine.eq_ok_of_read (congrArg Prod.fst began)

theorem not_hasCodec_of_resolve {failure : DatabaseError} {cause : CodecError}
    (refused : connection.resolve name = .error failure) : ¬failure.HasCodec cause := by
  unfold resolve at refused
  split at refused
  · cases refused
    exact nofun
  · split at refused <;> cases refused
    exact nofun

/-- A query finds the rows that its plan asks for, or it fails otherwise than by the merge. A row
that could not be read is one that the table keeps. -/
theorem find_cases (reached : engine.Reached) {handle : HandleId} {table : TableSchema}
    (resolved : connection.resolve name = .ok (handle, table)) :
    (∃ failure, (connection.find engine handle table query).1 = .error failure ∧
      ∀ cause, failure.HasCodec cause → failure ≠ .codec cause ∧ ∃ content,
        connection.Sees engine name table content ∧
        ∃ bytes ∈ content.rows.contents, Row.decode bytes = .error cause) ∨
    ∃ content rows, (connection.find engine handle table query).1 = .ok rows ∧
      connection.Sees engine name table content ∧
      ∀ stored, content.Holds stored → Collects stored (table.Meets content query.plan) rows ∧
        ((∀ clause ∈ query.plan.inclusions, table.FindsOnce content clause) →
          (rows.map Row.bytes).Nodup) := by
  rw [find]
  split
  · exact .inl ⟨_, rfl, fun cause isCodec => by cases isCodec⟩
  · split
    · rename_i failure refused
      refine .inl ⟨failure, rfl, fun cause isCodec => ?_⟩
      rw [TableSchema.checkColumns] at refused
      split at refused <;> cases refused
      cases isCodec
    · split
      · exact .inl ⟨_, rfl, fun cause isCodec => by cases isCodec⟩
      · rename_i transaction after began
        have readable := beginRead_of_engine began
        rcases TableSchema.runPlan_cases (reached.registry.beginRead readable) query.plan with
          ⟨failure, failed, blames⟩ | ⟨content, rows, ok, found, collects⟩
        · refine .inl ⟨failure, failed, fun cause isCodec => ?_⟩
          obtain ⟨notMerge, content, found, stopped⟩ := blames cause isCodec
          exact ⟨notMerge, content, ⟨handle, transaction, resolved, readable, found⟩, stopped⟩
        · exact .inr ⟨content, rows, ok, ⟨handle, transaction, resolved, readable, found⟩, collects⟩

theorem select_cases (reached : engine.Reached) :
    (∃ failure, (connection.select engine name query).1 = .error failure ∧
      ∀ cause, failure.HasCodec cause → failure ≠ .codec cause ∧ ∃ table content,
        connection.Sees engine name table content ∧
        ∃ bytes ∈ content.rows.contents, Row.decode bytes = .error cause) ∨
    ∃ table content rows, (connection.select engine name query).1 = .ok rows ∧
      connection.Sees engine name table content ∧
      ∀ stored, content.Holds stored → Collects stored (table.Meets content query.plan) rows ∧
        ((∀ clause ∈ query.plan.inclusions, table.FindsOnce content clause) →
          (rows.map Row.bytes).Nodup) := by
  unfold select
  split
  · rename_i failure refused
    exact .inl ⟨failure, rfl, fun cause isCodec => absurd isCodec (not_hasCodec_of_resolve refused)⟩
  · rename_i handle table resolved
    rcases find_cases reached resolved with ⟨failure, failed, blames⟩ | ⟨content, found⟩
    · refine .inl ⟨failure, failed, fun cause isCodec => ?_⟩
      obtain ⟨notMerge, content, sees⟩ := blames cause isCodec
      exact ⟨notMerge, table, content, sees⟩
    · exact .inr ⟨table, content, found⟩

/-- In an engine that connections lead to, a selection that succeeds gives exactly the stored rows
that the scans of every inclusion clause find and those of every exclusion clause, if there are
any, do not. Where the table has the key column of the schema and no array is searched by its
items, these are the rows that the query means, row by row, and each of them is given once. The
merge of the scans never fails. -/
theorem select_answers_query (reached : engine.Reached) (connection : Connection) (name : String)
    (query : Query) :
    (∀ cause, (connection.select engine name query).1 ≠ .error (.codec cause)) ∧
    ∀ rows, (connection.select engine name query).1 = .ok rows →
      ∃ table content, connection.Sees engine name table content ∧
        (∃ stored, content.Holds stored) ∧ ∀ stored, content.Holds stored →
          (∀ found ∈ rows, ∃ row ∈ stored, found == row) ∧
          (∀ row ∈ stored, (∃ found ∈ rows, found == row) ↔
            table.Meets content query.plan row) ∧
          (content.keyField = table.keyColumn →
            (∀ clause ∈ query.plan.clauses, table.FindsOnce content clause) →
            (rows.map Row.encode).Perm ((query.filter stored).map Row.encode) ∧
              rows.Pairwise fun first second => ¬(first == second)) := by
  rcases @select_cases connection engine name query reached with
    ⟨failure, failed, blames⟩ | ⟨table, content, rows, ok, sees, collects⟩
  · constructor
    · intro cause isCodec
      rw [failed] at isCodec
      exact (blames cause (Except.error.inj isCodec ▸ .codec)).1 (Except.error.inj isCodec)
    · intro rows ok
      rw [failed] at ok
      cases ok
  · constructor
    · intro cause isCodec
      rw [ok] at isCodec
      cases isCodec
    · intro rows' ok'
      rw [ok] at ok'
      cases ok'
      obtain ⟨_, transaction, -, readable, found⟩ := id sees
      have sound := ((reached.registry.beginRead readable).table? found).sound
      refine ⟨table, content, sees, Table.exists_holds sound, fun stored holds => ?_⟩
      obtain ⟨exact, once⟩ := collects stored holds
      obtain ⟨writable, contents⟩ := Table.holds_iff.mp holds
      refine ⟨fun found member => exact.exists_stored writable member,
        fun row member => exact.exists_beq_iff writable member, fun same single => ?_⟩
      have distinct := once fun clause member => single clause (List.mem_append_left _ member)
      refine ⟨?_, Collects.pairwise_of_nodup exact.writable distinct⟩
      have accepted := exact.congr fun row _ => TableSchema.meets_iff_accepts same single
      have kept := accepted.perm_filter (contents ▸ sound.contents_nodup) distinct
      show (rows.map Row.encode).Perm ((stored.filter query.accepts).map Row.encode)
      rw [Row.map_encode accepted.writable, Row.map_encode fun row member =>
        writable row (List.mem_filter.mp member).1]
      exact kept.map _

end Connection

/-! ### Two people -/

namespace People

/-- Two people, one of them a child. -/
def couple : List Row := [person 1 "Ann" "Lee" 12, person 2 "John" "Smith" 40]

/-- The database with these two. -/
def two : Store := (Store.empty.addMany couple .insert).2

theorem reached_two : two.engine.Reached :=
  .addMany (.openStore (.start {}) database {}) Store.empty.connection people.name couple .insert
    .inOrder

/-- The query for people older than twenty. -/
def older : Query := Query.withGreater {} "age" (.integer 20)

/-- Of two people the one who is older than twenty is found, and nobody else. -/
theorem select_older_of_two : ∃ rows table content stored,
    (two.connection.select two.engine people.name older).1 = .ok rows ∧ rows.length = 1 ∧
      two.connection.Sees two.engine people.name table content ∧ content.Holds stored ∧
      (rows.map Row.encode).Perm ((older.filter stored).map Row.encode) := by
  have size : ((two.connection.select two.engine people.name older).1.map
      List.length).toOption = some 1 := by decide +kernel
  have facts : (two.connection.inspect? two.engine people.name fun content =>
      (content.keyField, content.splitsItems "age")) = some ("id", false) := by
    decide +kernel
  have answers := (Connection.select_answers_query reached_two two.connection people.name older).2
  cases ok : (two.connection.select two.engine people.name older).1 with
  | error failure =>
    rw [ok] at size
    cases size
  | ok rows =>
    rw [ok] at size
    obtain ⟨table, content, sees, ⟨stored, holds⟩, exact⟩ := answers rows ok
    rw [Connection.inspect?_of_sees sees] at facts
    obtain ⟨key, splits⟩ := Prod.mk.inj (Option.some.inj facts)
    obtain ⟨handle, transaction, resolved, -, -⟩ := id sees
    cases resolved
    refine ⟨rows, people, content, stored, rfl, Option.some.inj size, sees, holds, ?_⟩
    refine ((exact stored holds).2.2 key fun clause member => ?_).1
    rw [List.mem_singleton.mp member]
    exact .inr splits

end People

end IndexedStore
