/-
This file proves that queries cannot tell two engines apart that lend alike to readers: transactions
that find the same in every scan, and have the same keys to generate next. Whatever is selected or
counted through any connection is then the same, and so are the failures. A scan that is struck is
struck on both sides, so that the faults to come stay the same too.
-/

import IndexedStore.Connection.Select

namespace IndexedStore

/-- Two transactions find the same in every scan of every table, and go on with the same generated
keys. -/
structure Transaction.Alike (transaction other : Transaction) : Prop where
  /-- The same in every range of an index. -/
  scanIndex : ∀ table field range,
    other.scanIndex table field range = transaction.scanIndex table field range
  /-- The same in every range of primary keys. -/
  scanPrimary : ∀ table range,
    other.scanPrimary table range = transaction.scanPrimary table range
  /-- The same next keys. -/
  nextKey : ∀ table, (other.data.table? table).map Table.nextKey =
    (transaction.data.table? table).map Table.nextKey

/-- Two attempts to begin reading come to the same. -/
inductive BeginAlike : Except EngineError Transaction → Except EngineError Transaction → Prop
  | refused (failure : EngineError) : BeginAlike (.error failure) (.error failure)
  | begun {transaction other : Transaction} (alike : transaction.Alike other) :
    BeginAlike (.ok transaction) (.ok other)

/-- Whoever reads cannot tell two engines apart. -/
structure Engine.Alike (engine other : Engine) : Prop where
  /-- The same calls are going to be struck. -/
  faults : other.faults = engine.faults
  /-- Every handle lends alike. -/
  begins : ∀ handle,
    BeginAlike (engine.registry.beginRead handle) (other.registry.beginRead handle)

theorem Transaction.Alike.refl (transaction : Transaction) : transaction.Alike transaction :=
  ⟨fun _ _ _ => rfl, fun _ _ => rfl, fun _ => rfl⟩

theorem Engine.Alike.refl (engine : Engine) : engine.Alike engine where
  faults := rfl
  begins handle := by
    cases engine.registry.beginRead handle with
    | error failure => exact .refused failure
    | ok transaction => exact .begun (.refl transaction)

/-- Two engines have given the same answer, and go on with the same faults. -/
inductive SameAnswer {α : Type} : α × Engine → α × Engine → Prop
  | same (answer : α) {after after' : Engine} (faults : after'.faults = after.faults) :
    SameAnswer (answer, after) (answer, after')

theorem SameAnswer.answer_eq {α : Type} {answer answer' : α × Engine}
    (same : SameAnswer answer answer') : answer'.1 = answer.1 := by
  cases same with
  | same result faults => rfl

theorem SameAnswer.map {α β : Type} {answer answer' : α × Engine}
    (same : SameAnswer answer answer') (change : α → β) :
    SameAnswer (change answer.1, answer.2) (change answer'.1, answer'.2) := by
  cases same with
  | same result faults => exact .same _ faults

/-- Among the same faults, a call with the same answer is answered alike. -/
theorem sameAnswer_read {α : Type} {engine other : Engine} {call : EngineCall}
    {answer answer' : Except EngineError α} (faults : other.faults = engine.faults)
    (same : answer' = answer) : SameAnswer (engine.read call answer) (other.read call answer') := by
  rw [Engine.read, Engine.read, Engine.strike, Engine.strike, faults, same]
  exact .same _ rfl

namespace TableSchema

variable {table : TableSchema} {engine other : Engine} {transaction transaction' : Transaction}

theorem sameAnswer_scanPrimary (faults : other.faults = engine.faults)
    (alike : transaction.Alike transaction') (name : String) (range : Option KeyRange) :
    SameAnswer (engine.scanPrimary transaction name range)
      (other.scanPrimary transaction' name range) :=
  sameAnswer_read faults (alike.scanPrimary name range)

theorem sameAnswer_scanIndex (faults : other.faults = engine.faults)
    (alike : transaction.Alike transaction') (name field : String) (range : KeyRange) :
    SameAnswer (engine.scanIndex transaction name field range)
      (other.scanIndex transaction' name field range) :=
  sameAnswer_read faults (alike.scanIndex name field range)

theorem sameAnswer_scanClause (faults : other.faults = engine.faults)
    (alike : transaction.Alike transaction') (clause : Clause) :
    SameAnswer (table.scanClause engine transaction clause)
      (table.scanClause other transaction' clause) := by
  unfold scanClause
  split
  · exact .same _ faults
  · rename_i target _
    cases target with
    | primary => exact (sameAnswer_scanPrimary faults alike _ _).map (Except.mapError _)
    | column column => exact (sameAnswer_scanIndex faults alike _ _ _).map (Except.mapError _)

theorem sameAnswer_scanClauses (faults : other.faults = engine.faults)
    (alike : transaction.Alike transaction') (clauses : List Clause) :
    SameAnswer (table.scanClauses engine transaction clauses)
      (table.scanClauses other transaction' clauses) := by
  induction clauses generalizing engine other with
  | nil => exact .same _ faults
  | cons clause rest inductionHypothesis =>
    have first := @sameAnswer_scanClause table _ _ _ _ faults alike clause
    rw [scanClauses, scanClauses]
    generalize table.scanClause engine transaction clause = answer at first ⊢
    generalize table.scanClause other transaction' clause = answer' at first ⊢
    obtain ⟨result, kept⟩ := first
    cases result with
    | error failure => exact .same _ kept
    | ok rows =>
      have others := inductionHypothesis kept
      dsimp only
      generalize table.scanClauses _ transaction rest = answer at others ⊢
      generalize table.scanClauses _ transaction' rest = answer' at others ⊢
      obtain ⟨result, kept⟩ := others
      cases result <;> exact .same _ kept

theorem sameAnswer_scanInclusions (faults : other.faults = engine.faults)
    (alike : transaction.Alike transaction') (clauses : List Clause) :
    SameAnswer (table.scanInclusions engine transaction clauses)
      (table.scanInclusions other transaction' clauses) := by
  unfold scanInclusions
  split
  · exact (sameAnswer_scanPrimary faults alike table.name none).map fun result =>
      (result.map fun rows => [rows]).mapError (DatabaseError.scan table.name "*")
  · exact sameAnswer_scanClauses faults alike clauses

theorem sameAnswer_runPlan (faults : other.faults = engine.faults)
    (alike : transaction.Alike transaction') (plan : Plan) :
    SameAnswer (table.runPlan engine transaction plan)
      (table.runPlan other transaction' plan) := by
  have included := @sameAnswer_scanInclusions table _ _ _ _ faults alike plan.inclusions
  unfold runPlan
  generalize table.scanInclusions engine transaction plan.inclusions = answer at included ⊢
  generalize table.scanInclusions other transaction' plan.inclusions = answer' at included ⊢
  obtain ⟨result, kept⟩ := included
  cases result with
  | error failure => exact .same _ kept
  | ok inclusions =>
    have excluded := @sameAnswer_scanClauses table _ _ _ _ kept alike plan.exclusions
    dsimp only
    generalize table.scanClauses _ transaction plan.exclusions = answer at excluded ⊢
    generalize table.scanClauses _ transaction' plan.exclusions = answer' at excluded ⊢
    obtain ⟨result, kept⟩ := excluded
    cases result <;> exact .same _ kept

end TableSchema

namespace Connection

variable {engine other : Engine}

theorem sameAnswer_find (alike : engine.Alike other) (connection : Connection) (handle : HandleId)
    (table : TableSchema) (query : Query) :
    SameAnswer (connection.find engine handle table query)
      (connection.find other handle table query) := by
  unfold find
  dsimp only
  split
  · exact .same _ alike.faults
  · split
    · exact .same _ alike.faults
    · have begins := alike.begins handle
      unfold Engine.beginRead Engine.read Engine.strike
      rw [alike.faults]
      obtain ⟨struck, faults⟩ := engine.faults.strike .begin
      cases struck with
      | true => exact .same _ rfl
      | false =>
        simp only [Bool.false_eq_true, if_false]
        generalize engine.registry.beginRead handle = began at begins ⊢
        generalize other.registry.beginRead handle = began' at begins ⊢
        cases begins with
        | refused failure => exact .same _ rfl
        | begun alike =>
          exact @TableSchema.sameAnswer_runPlan table ⟨engine.registry, faults⟩
            ⟨other.registry, faults⟩ _ _ rfl alike query.plan

/-- Whatever is selected through a connection is the same on both sides. -/
theorem sameAnswer_select (alike : engine.Alike other) (connection : Connection) (table : String)
    (query : Query) :
    SameAnswer (connection.select engine table query) (connection.select other table query) := by
  unfold select
  split
  · exact .same _ alike.faults
  · exact sameAnswer_find alike connection _ _ query

/-- Whatever is counted through a connection is the same on both sides. -/
theorem sameAnswer_count (alike : engine.Alike other) (connection : Connection) (table : String)
    (query : Query) :
    SameAnswer (connection.count engine table query) (connection.count other table query) :=
  (sameAnswer_select alike connection table query).map (Except.map List.length)

end Connection

end IndexedStore
