/-
This file proves that the plan of a query asks what the query asks, clause by clause. In the
order of the conditions, each one that asks for a value or sets a bound gives one inclusion
clause, and each value to be avoided gives one exclusion clause. What a clause asks is the
values in its range, and they are told apart by nothing but the key order, so that values of
every type are covered.

Bounds that contradict each other are not dropped. They give a clause in whose range there is
no value.
-/

import IndexedStore.Proofs.Query.Plan
import Mathlib.Data.List.Forall2

namespace IndexedStore

/-! ### Bounds -/

namespace Operators

/-- A value is within every bound that is set. -/
structure Encloses (operators : Operators) (value : Value) : Prop where
  /-- It is above the lower bound that leaves its value out. -/
  gt : ∀ bound, operators.gt = some bound → value.compareKey bound = .gt
  /-- It is not below the lower bound. -/
  gte : ∀ bound, operators.gte = some bound → value.compareKey bound ≠ .lt
  /-- It is below the upper bound that leaves its value out. -/
  lt : ∀ bound, operators.lt = some bound → value.compareKey bound = .lt
  /-- It is not above the upper bound. -/
  lte : ∀ bound, operators.lte = some bound → value.compareKey bound ≠ .gt

/-- Two of the bounds leave no room: the lower one is above the upper one, or they are equal and
one of them leaves its value out. -/
def Contradicts (operators : Operators) : Prop :=
  ∃ lower upper, (operators.gt = some lower ∨ operators.gte = some lower) ∧
    (operators.lt = some upper ∨ operators.lte = some upper) ∧
    (lower.compareKey upper = .gt ∨
      lower.compareKey upper = .eq ∧ (operators.gt = some lower ∨ operators.lt = some upper))

variable {operators : Operators} {value : Value}

theorem admits_iff_encloses : operators.admits value ↔ operators.Encloses value := by
  simp only [admits, Bool.and_eq_true, Option.all_eq_true, Ordering.isGT_iff_eq_gt,
    Ordering.isGE_iff_ne_lt, Ordering.isLT_iff_eq_lt, Ordering.isLE_iff_ne_gt]
  constructor
  · rintro ⟨⟨⟨gt, gte⟩, lt⟩, lte⟩
    exact ⟨gt, gte, lt, lte⟩
  · rintro ⟨gt, gte, lt, lte⟩
    exact ⟨⟨⟨gt, gte⟩, lt⟩, lte⟩

/-- No value is within bounds that contradict each other. -/
theorem Contradicts.not_encloses (contradicts : operators.Contradicts) :
    ¬operators.Encloses value := by
  obtain ⟨lower, upper, isLower, isUpper, apart⟩ := contradicts
  intro encloses
  have above : (value.compareKey lower).isGE := by
    rcases isLower with isLower | isLower
    · rw [encloses.gt lower isLower]
      rfl
    · exact Ordering.isGE_iff_ne_lt.mpr (encloses.gte lower isLower)
  have below : value.compareKey upper ≠ .gt := by
    rcases isUpper with isUpper | isUpper
    · rw [encloses.lt upper isUpper]
      nofun
    · exact encloses.lte upper isUpper
  rcases apart with inverted | ⟨same, isOpen⟩
  · exact below (Std.TransCmp.gt_of_isGE_of_gt above inverted)
  · have equal := @Std.TransCmp.congr_right _ Value.compareKey _ value _ _ same
    rcases isOpen with isLower | isUpper
    · exact below (equal ▸ encloses.gt lower isLower)
    · rw [equal, encloses.lt upper isUpper] at above
      cases above

theorem Contradicts.isBounded (contradicts : operators.Contradicts) : operators.isBounded := by
  obtain ⟨lower, -, isLower | isLower, -⟩ := contradicts <;> simp [Operators.isBounded, isLower]

end Operators

namespace Condition

/-- A condition that rows are looked up by asks for a value or sets a bound. -/
def isSought : Condition → Bool
  | equals _ => true
  | satisfies operators => operators.isBounded

/-- A value is what a condition asks for. Values to be avoided are not looked at. -/
def Wants (condition : Condition) (value : Value) : Prop :=
  match condition with
  | equals wanted => value.compareKey wanted = .eq
  | satisfies operators => operators.Encloses value

/-- Exactly the conditions that rows are looked up by have an inclusion clause. It is on the field
of the condition, and its range has the values that the condition asks for. -/
theorem inclusion?_spec (condition : Condition) (field : String) :
    (condition.inclusion? field).isSome = condition.isSought ∧
    ∀ clause, condition.inclusion? field = some clause →
      clause.field = field ∧ ∀ value, clause.range.contains value ↔ condition.Wants value := by
  cases condition with
  | equals wanted =>
    refine ⟨rfl, fun clause made => ?_⟩
    cases made
    exact ⟨rfl, fun value => by rw [KeyRange.contains_only, Wants, Value.beq_iff]⟩
  | satisfies operators =>
    rw [inclusion?, isSought]
    rcases operators.boundClause?_eq field with ⟨absent, free⟩ | ⟨clause, made, bounded, on, within⟩
    · rw [absent, free]
      refine ⟨rfl, fun clause impossible => ?_⟩
      cases impossible
    · rw [made, bounded]
      refine ⟨rfl, fun other isClause => ?_⟩
      cases isClause
      exact ⟨on, fun value => by rw [within, Wants, Operators.admits_iff_encloses]⟩

end Condition

/-! ### Clauses of queries -/

/-- What is made of the entries of a list goes in pairs with the entries of which something is
made. -/
theorem forall₂_filterMap {α β : Type} {make : α → Option β} {isMade : α → Bool}
    {relation : α → β → Prop} (decides : ∀ entry, (make entry).isSome = isMade entry)
    (relates : ∀ entry made, make entry = some made → relation entry made) (entries : List α) :
    List.Forall₂ relation (entries.filter isMade) (entries.filterMap make) := by
  induction entries with
  | nil => exact .nil
  | cons entry rest inductionHypothesis =>
    have decided := decides entry
    cases made : make entry with
    | none =>
      rw [made] at decided
      rw [List.filterMap_cons_none made, List.filter_cons_of_neg (by rw [← decided]; nofun)]
      exact inductionHypothesis
    | some clause =>
      rw [made] at decided
      rw [List.filterMap_cons_some made, List.filter_cons_of_pos decided.symm]
      exact .cons (relates entry clause made) inductionHypothesis

namespace Query

/-- The plan of a query asks what the query asks. -/
theorem plan_asks_what_query_asks (query : Query) :
    -- In the order of the conditions, each one that asks for a value or sets a bound has one
    -- inclusion clause, with exactly the values that are asked for in its range.
    List.Forall₂ (fun entry clause => clause.field = entry.1 ∧
        ∀ value, clause.range.contains value ↔ entry.2.Wants value)
      (query.conditions.filter fun entry => entry.2.isSought) query.plan.inclusions ∧
    -- Each one that avoids a value has one exclusion clause, with exactly the values equal to it.
    List.Forall₂ (fun entry clause => clause.field = entry.1 ∧
        ∀ value, clause.range.contains value ↔ value.compareKey entry.2 = .eq)
      query.avoided query.plan.exclusions ∧
    -- Bounds that contradict each other give a clause with no value in its range.
    ∀ field operators, (field, .satisfies operators) ∈ query.conditions → operators.Contradicts →
      ∃ clause ∈ query.plan.inclusions, operators.boundClause? field = some clause ∧
        ∀ value, ¬clause.range.contains value := by
  refine ⟨forall₂_filterMap (fun entry => (entry.2.inclusion?_spec entry.1).1)
    (fun entry clause => (entry.2.inclusion?_spec entry.1).2 clause) query.conditions, ?_,
    fun field operators member contradicts => ?_⟩
  · rw [exclusions_eq, List.forall₂_map_right_iff, List.forall₂_same]
    exact fun entry _ => ⟨rfl, fun value => by rw [KeyRange.contains_only, Value.beq_iff]⟩
  · obtain ⟨isSought, spec⟩ := (Condition.satisfies operators).inclusion?_spec field
    obtain ⟨clause, made⟩ :=
      Option.isSome_iff_exists.mp (isSought.trans contradicts.isBounded)
    refine ⟨clause, List.mem_filterMap.mpr ⟨_, member, made⟩, made, fun value inside => ?_⟩
    exact contradicts.not_encloses (((spec clause made).2 value).mp inside)

/-- A query that asks for ages from 5 on and, in binary64, below 5, and for a name. -/
def withCrossedBounds : Query :=
  ⟨[("age", .satisfies { gte := some (.integer 5), lt := some (.float ⟨0x4014000000000000⟩) }),
    ("name", .equals (.text "Ada"))]⟩

/-- The clause on the age is there and has no value in its range. -/
theorem plan_of_crossed_bounds :
    ∃ clause ∈ withCrossedBounds.plan.inclusions,
      clause.field = "age" ∧ ∀ value, ¬clause.range.contains value := by
  obtain ⟨-, -, contradicting⟩ := plan_asks_what_query_asks withCrossedBounds
  obtain ⟨clause, member, made, empty⟩ := contradicting "age" _ List.mem_cons_self
    ⟨.integer 5, .float ⟨0x4014000000000000⟩, .inr rfl, .inl rfl,
      .inr ⟨by decide +kernel, .inr rfl⟩⟩
  obtain ⟨-, spec⟩ := Condition.inclusion?_spec
    (.satisfies { gte := some (.integer 5), lt := some (.float ⟨0x4014000000000000⟩) }) "age"
  exact ⟨clause, member, (spec clause made).1, empty⟩

end Query

end IndexedStore
