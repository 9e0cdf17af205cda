/-
This file proves that the plan of a query asks of a row what the query means. The up to
four bounds of a condition collapse into one range, and the keys in that range are
exactly those that are within every bound.
-/

import IndexedStore.Proofs.Storage.IndexKeys
import IndexedStore.Proofs.Storage.KeyRange
import IndexedStore.Query.Meaning
import IndexedStore.Query.Plan

namespace IndexedStore

/-! ### Bounds -/

namespace Operators

variable {operators : Operators} {key : Value}

/-- The lower bound leaves the keys that are within both bounds it was made of. -/
theorem admitsFromBelow_lower :
    operators.lower.all (fun bound => (Edge.ofBound bound.1 bound.2).admitsFromBelow key) =
      (operators.gt.all (fun bound => (key.compareKey bound).isGT) &&
        operators.gte.all fun bound => (key.compareKey bound).isGE) := by
  rw [lower]
  cases operators.gt with
  | none => cases operators.gte <;> rfl
  | some outer =>
    cases operators.gte with
    | none => exact (Bool.and_true _).symm
    | some inner =>
      rw [tighter]
      show _ = ((key.compareKey outer).isGT && (key.compareKey inner).isGE)
      split
      · rename_i looser
        show (key.compareKey inner).isGE = _
        rw [Bool.eq_iff_iff, Bool.and_eq_true]
        refine ⟨fun above => ⟨?_, above⟩, fun both => both.2⟩
        rw [Std.TransCmp.gt_of_isGE_of_gt above (Std.OrientedCmp.gt_of_lt looser)]
        rfl
      · rename_i notLooser
        show (key.compareKey outer).isGT = _
        rw [Bool.eq_iff_iff, Bool.and_eq_true]
        refine ⟨fun above => ⟨above, ?_⟩, fun both => both.1⟩
        rw [Std.TransCmp.gt_of_gt_of_isGE (Ordering.isGT_iff_eq_gt.mp above)
          (Ordering.isGE_iff_ne_lt.mpr notLooser)]
        rfl

/-- The upper bound leaves the keys that are within both bounds it was made of. -/
theorem admitsFromAbove_upper :
    operators.upper.all (fun bound => (Edge.ofBound bound.1 bound.2).admitsFromAbove key) =
      (operators.lt.all (fun bound => (key.compareKey bound).isLT) &&
        operators.lte.all fun bound => (key.compareKey bound).isLE) := by
  rw [upper]
  cases operators.lt with
  | none => cases operators.lte <;> rfl
  | some outer =>
    cases operators.lte with
    | none => exact (Bool.and_true _).symm
    | some inner =>
      rw [tighter]
      show _ = ((key.compareKey outer).isLT && (key.compareKey inner).isLE)
      split
      · rename_i looser
        show (key.compareKey inner).isLE = _
        rw [Bool.eq_iff_iff, Bool.and_eq_true]
        refine ⟨fun below => ⟨?_, below⟩, fun both => both.2⟩
        rw [Std.TransCmp.lt_of_isLE_of_lt below (Std.OrientedCmp.lt_of_gt looser)]
        rfl
      · rename_i notLooser
        show (key.compareKey outer).isLT = _
        rw [Bool.eq_iff_iff, Bool.and_eq_true]
        refine ⟨fun below => ⟨below, ?_⟩, fun both => both.1⟩
        rw [Std.TransCmp.lt_of_lt_of_isLE (Ordering.isLT_iff_eq_lt.mp below)
          (Ordering.isLE_iff_ne_gt.mpr notLooser)]
        rfl

theorem isBounded_eq :
    operators.isBounded = (operators.lower.isSome || operators.upper.isSome) := by
  have made : ∀ (exclusive inclusive : Option Value) (loose : Ordering),
      (tighter exclusive inclusive loose).isSome = (exclusive.isSome || inclusive.isSome) := by
    intro exclusive inclusive loose
    cases exclusive with
    | none => cases inclusive <;> rfl
    | some outer =>
      cases inclusive with
      | none => rfl
      | some inner =>
        rw [tighter]
        split <;> rfl
  rw [lower, upper, made, made, isBounded, Bool.or_assoc, Bool.or_comm]

theorem admits_eq : operators.admits key =
    (operators.lower.all (fun bound => (Edge.ofBound bound.1 bound.2).admitsFromBelow key) &&
      operators.upper.all fun bound => (Edge.ofBound bound.1 bound.2).admitsFromAbove key) := by
  rw [admitsFromBelow_lower, admitsFromAbove_upper, admits]
  simp only [Bool.and_assoc]

/-- Operators have a clause if they set a bound. The clause is on the field of the operators, and
the keys in its range are those that the operators admit. -/
theorem boundClause?_eq (field : String) :
    (operators.boundClause? field = none ∧ operators.isBounded = false) ∨
    ∃ clause, operators.boundClause? field = some clause ∧ operators.isBounded ∧
      clause.field = field ∧ ∀ key, clause.range.contains key = operators.admits key := by
  simp only [admits_eq]
  rw [boundClause?, isBounded_eq]
  cases operators.lower with
  | none =>
    cases operators.upper with
    | none => exact .inl ⟨rfl, rfl⟩
    | some high =>
      exact .inr ⟨_, rfl, rfl, rfl, fun key => KeyRange.contains_below high.1 high.2⟩
  | some low =>
    cases operators.upper with
    | none =>
      refine .inr ⟨_, rfl, rfl, rfl, fun key => ?_⟩
      exact (KeyRange.contains_above low.1 low.2).trans (Bool.and_true _).symm
    | some high =>
      exact .inr ⟨_, rfl, rfl, rfl, fun key =>
        KeyRange.contains_between low.1 high.1 low.2 high.2⟩

end Operators

/-! ### Queries -/

namespace Row

variable {row : Row} {field : String}

/-- A row is found by a clause: one of its keys for the field lies in the range. -/
def FoundBy (row : Row) (clause : Clause) (multiEntry : Bool) : Prop :=
  row.HasKeyIn clause.field multiEntry clause.range

/-- Where an array is one key, the only key of a row is the value that a query looks at. -/
@[simp]
theorem indexKeys_single : row.indexKeys field false = (row.indexable? field).toList := by
  rw [indexKeys, indexable?]
  cases row.get? field with
  | none => rfl
  | some value => cases indexable : value.isIndexable <;> simp [indexable, Option.filter_some]

@[simp]
theorem foundBy_single {clause : Clause} :
    row.FoundBy clause false ↔ (row.indexable? clause.field).any clause.range.contains := by
  rw [FoundBy, HasKeyIn, indexKeys_single]
  cases row.indexable? clause.field <;> simp

end Row

namespace Condition

variable {condition : Condition} {field : String} {row : Row}

/-- A condition admits the rows that its inclusion clause finds, or all rows if it has none. -/
theorem admits_iff : condition.admits (row.indexable? field) ↔
    ∀ clause, condition.inclusion? field = some clause → row.FoundBy clause false := by
  cases condition with
  | equals wanted =>
    simp [inclusion?, admits]
  | satisfies operators =>
    rw [admits, inclusion?]
    rcases operators.boundClause?_eq field with ⟨absent, free⟩ | ⟨clause, made, bounded, on, within⟩
    · rw [absent, free]
      exact iff_of_true rfl fun clause isClause => by cases isClause
    · rw [made, bounded, Bool.not_true, Bool.false_or]
      simp only [Option.some.injEq, forall_eq', Row.foundBy_single, on]
      rw [show clause.range.contains = operators.admits from funext within]

theorem exclusion?_eq : condition.exclusion? field =
    condition.avoided?.map fun value => ⟨field, .notEqual, .only value⟩ := by
  cases condition <;> rfl

theorem field_of_inclusion? {clause : Clause} (made : condition.inclusion? field = some clause) :
    clause.field = field := by
  cases condition with
  | equals wanted =>
    cases made
    rfl
  | satisfies operators =>
    change operators.boundClause? field = some clause at made
    rcases operators.boundClause?_eq field with ⟨absent, -⟩ | ⟨other, made', -, on, -⟩
    · cases absent.symm.trans made
    · cases made.symm.trans made'
      exact on

end Condition

namespace Query

variable {query : Query} {row : Row}

theorem includes_iff : query.includes row ↔
    ∀ clause ∈ query.plan.inclusions, row.FoundBy clause false := by
  rw [includes, List.all_eq_true]
  simp only [Condition.admits_iff, plan, List.mem_filterMap]
  exact ⟨fun all clause ⟨entry, member, made⟩ => all entry member clause made,
    fun all entry member clause made => all clause ⟨entry, member, made⟩⟩

/-- The clauses of a plan are on the fields of the query. -/
theorem field_mem_of_mem_clauses {clause : Clause} (member : clause ∈ query.plan.clauses) :
    clause.field ∈ query.conditions.map Prod.fst := by
  rcases List.mem_append.mp member with included | excluded
  · obtain ⟨entry, isEntry, made⟩ := List.mem_filterMap.mp included
    exact Condition.field_of_inclusion? made ▸ List.mem_map_of_mem isEntry
  · obtain ⟨entry, isEntry, made⟩ := List.mem_filterMap.mp excluded
    rw [Condition.exclusion?_eq] at made
    obtain ⟨value, -, rfl⟩ := Option.map_eq_some_iff.mp made
    exact List.mem_map_of_mem isEntry

theorem exclusions_eq : query.plan.exclusions =
    query.avoided.map fun entry => ⟨entry.1, .notEqual, .only entry.2⟩ := by
  rw [avoided, List.map_filterMap]
  show query.conditions.filterMap _ = _
  congr 1
  funext entry
  rw [Condition.exclusion?_eq, Option.map_map]
  rfl

theorem excludes_iff : query.excludes row ↔ query.plan.exclusions ≠ [] ∧
    ∀ clause ∈ query.plan.exclusions, row.FoundBy clause false := by
  rw [excludes, exclusions_eq, Bool.and_eq_true, List.all_eq_true, List.forall_mem_map]
  simp only [Row.foundBy_single]
  simp only [KeyRange.contains_only]
  simp

/-- A query means the rows that every inclusion clause of its plan finds and that are not found
by every exclusion clause, provided that no array is searched by its items. -/
theorem accepts_iff : query.accepts row ↔
    (∀ clause ∈ query.plan.inclusions, row.FoundBy clause false) ∧
      ¬(query.plan.exclusions ≠ [] ∧
        ∀ clause ∈ query.plan.exclusions, row.FoundBy clause false) := by
  rw [accepts, Bool.and_eq_true, Bool.not_eq_true', ← Bool.not_eq_true, includes_iff, excludes_iff]

end Query

end IndexedStore
