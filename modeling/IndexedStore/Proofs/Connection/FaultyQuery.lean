/-
This file says what faults do to queries. A scan that is struck ends the query, and no scan before
or after it is affected. So whenever a query succeeds among faults, it finds what it would find
without them, and when it fails, it reports a single failure.
-/

import IndexedStore.Proofs.Connection.Count

namespace IndexedStore

/-- No call is struck any more. -/
def Engine.Quiet (engine : Engine) : Prop := ∀ call, engine.faults.gaps call = []

namespace TableSchema

variable {table : TableSchema} {engine calm : Engine} {transaction : Transaction}
  {clauses : List Clause}

/-- A scan that has succeeded among faults succeeds without them, and gives the same. -/
theorem scanClause_of_quiet {clause : Clause} {rows : List Row} (quiet : calm.Quiet)
    (ok : (table.scanClause engine transaction clause).1 = .ok rows) :
    table.scanClause calm transaction clause = (.ok rows, calm) := by
  unfold scanClause at ok ⊢
  split at ok
  · cases ok
  · rename_i target _
    cases target with
    | primary =>
      dsimp only at ok ⊢
      have answered := Engine.eq_ok_of_read (eq_ok_of_mapError ok)
      simp [Engine.scanPrimary, quiet .scanPrimary, answered]
    | column column =>
      dsimp only at ok ⊢
      have answered := Engine.eq_ok_of_read (eq_ok_of_mapError ok)
      simp [Engine.scanIndex, quiet .scanIndex, answered]

theorem scanClauses_of_quiet {batches : List (List Row)} (quiet : calm.Quiet)
    (ok : (table.scanClauses engine transaction clauses).1 = .ok batches) :
    table.scanClauses calm transaction clauses = (.ok batches, calm) := by
  induction clauses generalizing engine batches with
  | nil =>
    cases ok
    rfl
  | cons clause rest inductionHypothesis =>
    obtain ⟨rows, others, after, first, remaining, rfl⟩ := scanClauses_cons_eq_ok ok
    have scanned : (table.scanClause engine transaction clause).1 = .ok rows := by rw [first]
    simp [scanClauses, scanClause_of_quiet quiet scanned, inductionHypothesis remaining]

theorem scanInclusions_of_quiet {batches : List (List Row)} (quiet : calm.Quiet)
    (ok : (table.scanInclusions engine transaction clauses).1 = .ok batches) :
    table.scanInclusions calm transaction clauses = (.ok batches, calm) := by
  unfold scanInclusions at ok ⊢
  split at ok
  · rename_i none
    obtain ⟨rows, found, rfl⟩ := exists_of_map_eq_ok (eq_ok_of_mapError ok)
    have answered := Engine.eq_ok_of_read found
    simp [none, Engine.scanPrimary, quiet .scanPrimary, answered]
  · rename_i some
    rw [if_neg some]
    exact scanClauses_of_quiet quiet ok

theorem runPlan_of_quiet {plan : Plan} {rows : List Row} (quiet : calm.Quiet)
    (ok : (table.runPlan engine transaction plan).1 = .ok rows) :
    (table.runPlan calm transaction plan).1 = .ok rows := by
  obtain ⟨inclusions, exclusions, after, included, excluded, merged⟩ := scans_of_runPlan ok
  simp [runPlan, scanInclusions_of_quiet quiet included, scanClauses_of_quiet quiet excluded,
    merged]

end TableSchema

namespace Connection

variable {connection : Connection} {engine calm : Engine} {handle : HandleId} {table : TableSchema}
  {query : Query} {rows : List Row} {name : String}

/-- A query that has succeeded among faults succeeds without them, and finds the same. -/
theorem select_of_quiet (quiet : calm.Quiet) (same : calm.registry = engine.registry)
    (ok : (connection.select engine name query).1 = .ok rows) :
    (connection.select calm name query).1 = .ok rows := by
  obtain ⟨handle, table, resolved, isFind⟩ := select_eq_ok ok
  rw [isFind] at ok
  obtain ⟨transaction, opened, began, ran⟩ := find_eq_ok ok
  rw [select, resolved]
  dsimp only
  unfold find at ok ⊢
  dsimp only at ok ⊢
  split at ok
  · cases ok
  · rename_i asks
    rw [if_neg asks]
    split at ok
    · cases ok
    · simpa [Engine.beginRead, quiet .begin, same, began] using TableSchema.runPlan_of_quiet quiet ran

end Connection

/-! ### Failures -/

/-- A failure is the report of several. -/
def DatabaseError.IsBatch : DatabaseError → Prop
  | batch _ _ _ => True
  | _ => False

namespace TableSchema

variable {table : TableSchema} {engine : Engine} {transaction : Transaction}
  {failure : DatabaseError}

theorem not_isBatch_of_scanClause {clause : Clause}
    (failed : (table.scanClause engine transaction clause).1 = .error failure) :
    ¬failure.IsBatch := by
  unfold scanClause at failed
  split at failed
  · cases failed
    exact id
  · obtain ⟨cause, -, rfl⟩ := exists_of_mapError_eq_error failed
    exact id

theorem not_isBatch_of_scanClauses {clauses : List Clause}
    (failed : (table.scanClauses engine transaction clauses).1 = .error failure) :
    ¬failure.IsBatch := by
  induction clauses generalizing engine with
  | nil => cases failed
  | cons clause rest inductionHypothesis =>
    rw [scanClauses] at failed
    split at failed
    · rename_i scanned
      cases failed
      exact not_isBatch_of_scanClause (congrArg Prod.fst scanned)
    · split at failed
      · rename_i scanned
        cases failed
        exact inductionHypothesis (congrArg Prod.fst scanned)
      · cases failed

theorem not_isBatch_of_runPlan {plan : Plan}
    (failed : (table.runPlan engine transaction plan).1 = .error failure) : ¬failure.IsBatch := by
  unfold runPlan at failed
  split at failed
  · rename_i scanned
    cases failed
    have first := congrArg Prod.fst scanned
    unfold scanInclusions at first
    split at first
    · obtain ⟨cause, -, rfl⟩ := exists_of_mapError_eq_error first
      exact id
    · exact not_isBatch_of_scanClauses first
  · split at failed
    · rename_i scanned
      cases failed
      exact not_isBatch_of_scanClauses (congrArg Prod.fst scanned)
    · obtain ⟨cause, -, rfl⟩ := exists_of_mapError_eq_error failed
      exact id

end TableSchema

/-- A query never fails with a report of several failures. -/
theorem Connection.not_isBatch_of_select {connection : Connection} {engine : Engine}
    {name : String} {query : Query} {failure : DatabaseError}
    (failed : (connection.select engine name query).1 = .error failure) : ¬failure.IsBatch := by
  unfold select at failed
  split at failed
  · rename_i refused
    cases failed
    unfold resolve at refused
    split at refused
    · cases refused
      exact id
    · split at refused <;> cases refused
      exact id
  · unfold find at failed
    dsimp only at failed
    split at failed
    · cases failed
      exact id
    · split at failed
      · rename_i refused
        cases failed
        rw [TableSchema.checkColumns] at refused
        split at refused <;> cases refused
        exact id
      · split at failed
        · cases failed
          exact id
        · exact TableSchema.not_isBatch_of_runPlan failed

end IndexedStore
