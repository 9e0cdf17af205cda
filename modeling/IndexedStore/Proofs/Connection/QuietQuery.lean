/-
This file says when a query succeeds. Its fields have to be declared, and every scan of its plan
has to succeed on the table: the bytes that the scan visits can be read, and the index is there.
Whenever a query has succeeded these conditions are met, and where no call is struck any more they
are enough, since the merge never fails.
-/

import IndexedStore.Proofs.Connection.FaultyQuery

namespace IndexedStore

namespace TableSchema

variable {table : TableSchema} {engine : Engine} {transaction : Transaction} {content : Table}
  {clause : Clause} {clauses : List Clause} {plan : Plan} {rows : List Row}

/-- The scan of a clause succeeds on a table. -/
def Scans (table : TableSchema) (content : Table) (clause : Clause) : Prop :=
  if table.isKey clause.field then ∃ rows, content.scanPrimary (some clause.range) = .ok rows
  else ∃ rows, content.scanIndex clause.field clause.range = .ok rows

/-- What the scans of a plan need of a table. -/
structure Runs (table : TableSchema) (content : Table) (plan : Plan) : Prop where
  /-- The fields can be asked for. -/
  declared : ∀ clause ∈ plan.clauses, table.hasIndex clause.field
  /-- Without inclusion clauses the whole table can be read. -/
  whole : plan.inclusions = [] → ∃ rows, content.scanPrimary none = .ok rows
  /-- Every clause can be scanned. -/
  scans : ∀ clause ∈ plan.clauses, table.Scans content clause

theorem checkColumns_eq_ok_iff :
    table.checkColumns plan = .ok () ↔ ∀ clause ∈ plan.clauses, table.hasIndex clause.field := by
  rw [checkColumns]
  cases missing : plan.clauses.find? fun clause => !table.hasIndex clause.field with
  | none =>
    refine iff_of_true rfl fun clause member => ?_
    simpa using List.find?_eq_none.mp missing clause member
  | some clause =>
    refine iff_of_false (by simp) fun all => ?_
    have absent := List.find?_some missing
    rw [all clause (List.mem_of_find?_eq_some missing)] at absent
    cases absent

/-! ### Scans that have succeeded -/

theorem scans_of_scanClause (found : transaction.data.table? table.name = .ok content)
    (ok : (table.scanClause engine transaction clause).1 = .ok rows) :
    table.Scans content clause := by
  obtain ⟨other, found', scanned⟩ := scanClause_eq_ok ok
  cases found.symm.trans found'
  unfold Scans
  split
  · rename_i isKey
    exact ⟨rows, by simpa only [if_pos isKey] using scanned⟩
  · rename_i notKey
    exact ⟨rows, by simpa only [if_neg notKey] using scanned⟩

theorem scans_of_scanClauses {batches : List (List Row)}
    (found : transaction.data.table? table.name = .ok content)
    (ok : (table.scanClauses engine transaction clauses).1 = .ok batches) :
    ∀ clause ∈ clauses, table.Scans content clause := by
  induction clauses generalizing engine batches with
  | nil => exact nofun
  | cons clause rest inductionHypothesis =>
    obtain ⟨_, _, _, first, remaining, -⟩ := scanClauses_cons_eq_ok ok
    exact List.forall_mem_cons.mpr ⟨scans_of_scanClause found first, inductionHypothesis remaining⟩

theorem allScans_of_runPlan (found : transaction.data.table? table.name = .ok content)
    (ok : (table.runPlan engine transaction plan).1 = .ok rows) :
    (plan.inclusions = [] → ∃ rows, content.scanPrimary none = .ok rows) ∧
      ∀ clause ∈ plan.clauses, table.Scans content clause := by
  obtain ⟨inclusions, exclusions, after, included, excluded, -⟩ := scans_of_runPlan ok
  have excludedScans := scans_of_scanClauses found excluded
  unfold scanInclusions at included
  split at included
  · rename_i empty
    obtain ⟨rows, scanned, -⟩ := exists_of_map_eq_ok (eq_ok_of_mapError included)
    obtain ⟨other, found', all⟩ := scanPrimary_eq_ok scanned
    cases found.symm.trans found'
    refine ⟨fun _ => ⟨rows, all⟩, List.forall_mem_append.mpr ⟨?_, excludedScans⟩⟩
    rw [List.isEmpty_iff.mp empty]
    exact nofun
  · rename_i some
    exact ⟨fun none => absurd (List.isEmpty_iff.mpr none) some,
      List.forall_mem_append.mpr ⟨scans_of_scanClauses found included, excludedScans⟩⟩

/-! ### Scans that succeed -/

theorem exists_scanClause (quiet : engine.Quiet)
    (found : transaction.data.table? table.name = .ok content)
    (declared : table.hasIndex clause.field) (scans : table.Scans content clause) :
    ∃ rows, table.scanClause engine transaction clause = (.ok rows, engine) := by
  unfold Scans at scans
  rw [hasIndex, target?] at declared
  rw [scanClause, target?]
  by_cases isKey : table.isKey clause.field
  · rw [if_pos isKey] at scans ⊢
    obtain ⟨rows, scanned⟩ := scans
    exact ⟨rows, by simp [Engine.scanPrimary, quiet .scanPrimary, found, scanned]⟩
  · rw [if_neg isKey] at declared scans ⊢
    obtain ⟨rows, scanned⟩ := scans
    cases isColumn : table.column? clause.field with
    | none =>
      rw [isColumn] at declared
      cases declared
    | some column =>
      have named := List.find?_some isColumn
      rw [beq_iff_eq] at named
      exact ⟨rows, by simp [named, Engine.scanIndex, quiet .scanIndex, found, scanned]⟩

theorem exists_scanClauses (quiet : engine.Quiet)
    (found : transaction.data.table? table.name = .ok content)
    (declared : ∀ clause ∈ clauses, table.hasIndex clause.field)
    (scans : ∀ clause ∈ clauses, table.Scans content clause) :
    ∃ batches, table.scanClauses engine transaction clauses = (.ok batches, engine) := by
  induction clauses with
  | nil => exact ⟨[], rfl⟩
  | cons clause rest inductionHypothesis =>
    rw [List.forall_mem_cons] at declared scans
    obtain ⟨rows, first⟩ := exists_scanClause quiet found declared.1 scans.1
    obtain ⟨batches, others⟩ := inductionHypothesis declared.2 scans.2
    exact ⟨rows :: batches, by simp [scanClauses, first, others]⟩

theorem exists_scanInclusions (quiet : engine.Quiet)
    (found : transaction.data.table? table.name = .ok content)
    (runs : table.Runs content plan) :
    ∃ batches, table.scanInclusions engine transaction plan.inclusions = (.ok batches, engine) := by
  unfold scanInclusions
  split
  · rename_i empty
    obtain ⟨rows, scanned⟩ := runs.whole (List.isEmpty_iff.mp empty)
    exact ⟨[rows], by simp [Engine.scanPrimary, quiet .scanPrimary, found, scanned]⟩
  · exact exists_scanClauses quiet found (List.forall_mem_append.mp runs.declared).1
      (List.forall_mem_append.mp runs.scans).1

/-- A plan that meets the conditions can be run. -/
theorem exists_runPlan (quiet : engine.Quiet) (reached : transaction.data.Reached)
    (found : transaction.data.table? table.name = .ok content) (runs : table.Runs content plan) :
    ∃ rows, table.runPlan engine transaction plan = (.ok rows, engine) := by
  obtain ⟨inclusions, included⟩ := exists_scanInclusions quiet found runs
  obtain ⟨exclusions, excluded⟩ := exists_scanClauses quiet found
    (List.forall_mem_append.mp runs.declared).2 (List.forall_mem_append.mp runs.scans).2
  obtain ⟨_, rows, -, merged, -⟩ :=
    exists_merge reached (congrArg Prod.fst included) (congrArg Prod.fst excluded)
  exact ⟨rows, by simp [runPlan, included, excluded, merged]⟩

end TableSchema

/-! ### Tables that can be read -/

namespace Table

variable {table : Table}

/-- Every row that is kept can be read. -/
def AllReadable (table : Table) : Prop :=
  ∀ bytes ∈ table.rows.contents, ∃ row, Row.decode bytes = .ok row

theorem exists_readRows {found : List (List UInt8)}
    (readable : ∀ bytes ∈ found, ∃ row, Row.decode bytes = .ok row) :
    ∃ rows, readRows found = .ok rows := by
  simp only [readRows_eq_ok_iff]
  induction found with
  | nil => exact ⟨[], .nil⟩
  | cons bytes rest inductionHypothesis =>
    rw [List.forall_mem_cons] at readable
    obtain ⟨row, read⟩ := readable.1
    obtain ⟨others, remaining⟩ := inductionHypothesis readable.2
    exact ⟨row :: others, .cons read remaining⟩

theorem AllReadable.exists_scanPrimary (readable : table.AllReadable) (range : Option KeyRange) :
    ∃ rows, table.scanPrimary range = .ok rows := by
  cases range with
  | none => exact exists_readRows readable
  | some range =>
    rw [scanPrimary_some]
    exact exists_readRows fun bytes member =>
      readable bytes ((List.filter_sublist.map Prod.snd).subset member)

theorem AllReadable.exists_scanIndex (readable : table.AllReadable) {field : String}
    (present : table.hasIndex field) (range : KeyRange) :
    ∃ rows, table.scanIndex field range = .ok rows := by
  rw [hasIndex, indexOptions?, Option.isSome_map] at present
  obtain ⟨index, found⟩ := Option.isSome_iff_exists.mp present
  rw [scanIndex_of_lookup found]
  refine exists_readRows fun bytes member => readable bytes ?_
  obtain ⟨owner, -, here⟩ := List.mem_filterMap.mp member
  exact KeyMap.mem_contents_of_get? here

/-- All scans of a plan succeed where every row can be read and the indexes are there. -/
theorem AllReadable.runs (readable : table.AllReadable) {schema : TableSchema} {plan : Plan}
    (declared : ∀ clause ∈ plan.clauses, schema.hasIndex clause.field)
    (present : ∀ clause ∈ plan.clauses, schema.isKey clause.field ∨ table.hasIndex clause.field) :
    schema.Runs table plan where
  declared := declared
  whole _ := readable.exists_scanPrimary none
  scans clause member := by
    unfold TableSchema.Scans
    split
    · exact readable.exists_scanPrimary _
    · rename_i notKey
      exact readable.exists_scanIndex ((present clause member).resolve_left notKey) _

end Table

namespace Connection

variable {connection : Connection} {engine : Engine} {name : String} {query : Query}
  {table : TableSchema} {content : Table} {rows : List Row}

/-- A connection answers queries that ask for nothing, unless they are to be refused. -/
def Permits (connection : Connection) (query : Query) : Prop :=
  ¬(query.plan.isEmpty ∧ connection.config.emptyQuery = .reject)

/-- A query that has succeeded meets the conditions, whatever faults there were. -/
theorem runs_of_select (sees : connection.Sees engine name table content)
    (ok : (connection.select engine name query).1 = .ok rows) :
    connection.Permits query ∧ table.Runs content query.plan := by
  obtain ⟨handle, transaction, opened, -, isFind, -, found, ran⟩ := runPlan_of_select sees ok
  obtain ⟨whole, scans⟩ := TableSchema.allScans_of_runPlan found ran
  unfold find at isFind
  dsimp only at isFind
  split at isFind
  · cases isFind
  · rename_i permitted
    split at isFind
    · cases isFind
    · rename_i checked
      exact ⟨permitted, TableSchema.checkColumns_eq_ok_iff.mp checked, whole, scans⟩

/-- A query that meets the conditions succeeds where no call is struck. -/
theorem exists_select (quiet : engine.Quiet) (reached : engine.Reached)
    (sees : connection.Sees engine name table content) (permitted : connection.Permits query)
    (runs : table.Runs content query.plan) :
    ∃ rows, connection.select engine name query = (.ok rows, engine) := by
  obtain ⟨handle, transaction, resolved, began, found⟩ := sees
  obtain ⟨rows, ran⟩ :=
    TableSchema.exists_runPlan quiet (reached.registry.beginRead began) found runs
  have asks : connection.find engine handle table query = (.ok rows, engine) := by
    unfold find
    dsimp only
    rw [if_neg permitted, TableSchema.checkColumns_eq_ok_iff.mpr runs.declared]
    simpa [Engine.beginRead, quiet .begin, began] using ran
  exact ⟨rows, by simpa [select, resolved] using asks⟩

end Connection

end IndexedStore
