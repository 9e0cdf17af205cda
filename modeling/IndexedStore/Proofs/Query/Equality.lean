/-
This file says what the equality of queries is worth. Queries are compared by their size and by
whether each condition of the first is among those of the second. That is reflexive and
transitive, and it is symmetric as long as the fields of the first query are distinct, as they are
in a query that was built. A query that was read from a map may ask twice for one field, and then
the second query may have a condition that the first has not.

Queries that are equal both ways have the same conditions up to order and repetitions, and so
their plans have the same clauses, up to the way in which the bounds are written.
-/

import IndexedStore.Proofs.Query.Plan
import Mathlib.Data.List.Nodup
import Mathlib.Data.List.Perm.Subperm

namespace IndexedStore

/-! ### Conditions -/

section Options

variable {first second : Option Value}

theorem isSome_eq_of_beq (same : first == second) : first.isSome = second.isSome := by
  cases first <;> cases second <;> first | rfl | cases same

/-- What is checked of a value that may be missing depends on it only up to equality, if that is
so for values. -/
theorem all_eq_of_beq {property : Value → Bool}
    (respects : ∀ value value' : Value, value == value' → property value = property value')
    (same : first == second) : first.all property = second.all property := by
  cases first <;> cases second <;> first | rfl | cases same | exact respects _ _ same

end Options

namespace Operators

variable {first second third : Operators}

theorem beq_iff : first == second ↔ first.lt == second.lt ∧ first.lte == second.lte ∧
    first.gt == second.gt ∧ first.gte == second.gte ∧ first.ne == second.ne := by
  show (first.lt == second.lt && first.lte == second.lte && first.gt == second.gt &&
    first.gte == second.gte && first.ne == second.ne) = true ↔ _
  simp only [Bool.and_eq_true, and_assoc]

instance : EquivBEq Operators where
  rfl := beq_iff.mpr ⟨BEq.rfl, BEq.rfl, BEq.rfl, BEq.rfl, BEq.rfl⟩
  symm same := by
    obtain ⟨lt, lte, gt, gte, ne⟩ := beq_iff.mp same
    exact beq_iff.mpr ⟨BEq.symm lt, BEq.symm lte, BEq.symm gt, BEq.symm gte, BEq.symm ne⟩
  trans near far := by
    obtain ⟨lt, lte, gt, gte, ne⟩ := beq_iff.mp near
    obtain ⟨lt', lte', gt', gte', ne'⟩ := beq_iff.mp far
    exact beq_iff.mpr ⟨BEq.trans lt lt', BEq.trans lte lte', BEq.trans gt gt',
      BEq.trans gte gte', BEq.trans ne ne'⟩

theorem isBounded_eq_of_beq (same : first == second) : first.isBounded = second.isBounded := by
  obtain ⟨lt, lte, gt, gte, -⟩ := beq_iff.mp same
  rw [isBounded, isBounded, isSome_eq_of_beq lt, isSome_eq_of_beq lte, isSome_eq_of_beq gt,
    isSome_eq_of_beq gte]

theorem admits_eq_of_beq (same : first == second) : first.admits = second.admits := by
  obtain ⟨lt, lte, gt, gte, -⟩ := beq_iff.mp same
  funext key
  have compared : ∀ value value' : Value, value == value' →
      key.compareKey value = key.compareKey value' :=
    fun _ _ same => @Std.TransCmp.congr_right _ Value.compareKey _ _ _ _ (Value.beq_iff.mp same)
  rw [admits, admits,
    all_eq_of_beq (fun value value' same => by rw [compared value value' same]) gt,
    all_eq_of_beq (fun value value' same => by rw [compared value value' same]) gte,
    all_eq_of_beq (fun value value' same => by rw [compared value value' same]) lt,
    all_eq_of_beq (fun value value' same => by rw [compared value value' same]) lte]

end Operators

namespace Condition

instance : EquivBEq Condition where
  rfl {condition} := by
    cases condition with
    | equals value => exact @BEq.rfl Value _ _ value
    | satisfies operators => exact @BEq.rfl Operators _ _ operators
  symm {first second} same := by
    cases first with
    | equals value =>
      cases second with
      | equals value' => exact @BEq.symm Value _ _ _ _ same
      | satisfies _ => cases same
    | satisfies operators =>
      cases second with
      | equals _ => cases same
      | satisfies operators' => exact @BEq.symm Operators _ _ _ _ same
  trans {first second third} near far := by
    cases first with
    | equals value =>
      cases second with
      | equals value' =>
        cases third with
        | equals value'' => exact @BEq.trans Value _ _ _ _ _ near far
        | satisfies _ => cases far
      | satisfies _ => cases near
    | satisfies operators =>
      cases second with
      | equals _ => cases near
      | satisfies operators' =>
        cases third with
        | equals _ => cases far
        | satisfies operators'' => exact @BEq.trans Operators _ _ _ _ _ near far

end Condition

/-! ### Queries -/

namespace Query

variable {first second third query : Query}

/-- A query has a condition, up to the values that are the same. -/
def Asks (query : Query) (wanted : String × Condition) : Prop :=
  ∃ offered ∈ query.conditions, offered.1 = wanted.1 ∧ offered.2 == wanted.2

/-- Every condition of a query is among those of another. -/
def Within (first second : Query) : Prop := ∀ wanted ∈ first.conditions, second.Asks wanted

theorem beq_iff : first == second ↔ first.size = second.size ∧ first.Within second := by
  show (first.size == second.size && first.conditions.all fun wanted =>
    second.conditions.any fun offered => offered.1 == wanted.1 && offered.2 == wanted.2) = true ↔ _
  simp only [Bool.and_eq_true, beq_iff_eq, List.all_eq_true, List.any_eq_true, Within, Asks]

theorem Within.refl (query : Query) : query.Within query :=
  fun wanted member => ⟨wanted, member, rfl, BEq.rfl⟩

theorem Within.trans (near : first.Within second) (far : second.Within third) :
    first.Within third := by
  intro wanted member
  obtain ⟨offered, offers, named, same⟩ := near wanted member
  obtain ⟨last, isLast, named', same'⟩ := far offered offers
  exact ⟨last, isLast, named'.trans named, BEq.trans same' same⟩

theorem beq_refl (query : Query) : query == query := beq_iff.mpr ⟨rfl, Within.refl query⟩

theorem beq_trans (near : first == second) (far : second == third) : first == third := by
  obtain ⟨size, within⟩ := beq_iff.mp near
  obtain ⟨size', within'⟩ := beq_iff.mp far
  exact beq_iff.mpr ⟨size.trans size', within.trans within'⟩

/-- A query asks for no field twice. -/
def Distinct (query : Query) : Prop := (query.conditions.map Prod.fst).Nodup

/-- Where no field is asked for twice, queries of one size have all their conditions in common as
soon as those of the first are among those of the second: by their fields they are paired off. -/
theorem Within.symm_of_distinct (within : first.Within second) (size : first.size = second.size)
    (distinct : first.Distinct) : second.Within first := by
  have part : (first.conditions.map Prod.fst).Subperm (second.conditions.map Prod.fst) := by
    refine distinct.subperm fun name isName => ?_
    obtain ⟨wanted, member, rfl⟩ := List.mem_map.mp isName
    obtain ⟨offered, offers, named, -⟩ := within wanted member
    exact named ▸ List.mem_map_of_mem offers
  have names : (first.conditions.map Prod.fst).Perm (second.conditions.map Prod.fst) := by
    refine part.perm_of_length_le (Nat.le_of_eq ?_)
    rw [List.length_map, List.length_map]
    exact size.symm
  have distinct' : second.Distinct := names.nodup_iff.mp distinct
  intro offered offers
  obtain ⟨wanted, member, named⟩ :=
    List.mem_map.mp (names.mem_iff.mpr (List.mem_map_of_mem offers))
  obtain ⟨other, isOther, named', same⟩ := within wanted member
  cases List.inj_on_of_nodup_map distinct' isOther offers (named'.trans named)
  exact ⟨wanted, member, named, BEq.symm same⟩

theorem beq_symm_of_distinct (same : first == second) (distinct : first.Distinct) :
    second == first := by
  obtain ⟨size, within⟩ := beq_iff.mp same
  exact beq_iff.mpr ⟨size.symm, within.symm_of_distinct size distinct⟩

/-- Queries that are built one condition after another. Every way of building puts a condition on
a field in place of the one it has. -/
inductive Built : Query → Prop
  /-- Nothing is asked at first. -/
  | start : Built {}
  /-- One more condition is put on a field. -/
  | withCondition {query : Query} (built : Built query) (name : String) (condition : Condition) :
    Built (query.withCondition name condition)

namespace Built

theorem withEqual (built : query.Built) (name : String) (value : Value) :
    (query.withEqual name value).Built := built.withCondition _ _

theorem withOperators (built : query.Built) (name : String) (operators : Operators) :
    (query.withOperators name operators).Built := built.withCondition _ _

theorem withOperator (built : query.Built) (name : String) (set : Operators → Operators) :
    (query.withOperator name set).Built := built.withOperators _ _

theorem distinct (built : query.Built) : query.Distinct := by
  induction built with
  | start => exact .nil
  | withCondition built name condition inductionHypothesis =>
    exact assign_distinct inductionHypothesis

end Built

/-- A query that was read from a map asks for no field twice exactly if the map does not repeat a
field. -/
theorem distinct_ofFields {fields : List (String × Value)} :
    (ofFields fields).Distinct ↔ (fields.map Prod.fst).Nodup := by
  rw [Distinct, ofFields, List.map_map]
  rfl

end Query

/-! ### Plans -/

/-- Clauses visit the same: they are on one field, and their ranges have the same keys. -/
structure Clause.Alike (first second : Clause) : Prop where
  /-- The fields are the same. -/
  field : first.field = second.field
  /-- The keys in the ranges are the same. -/
  range : first.range.contains = second.range.contains

/-- Every clause of a list has one like it in another list. -/
def Clause.Covered (clauses others : List Clause) : Prop :=
  ∀ clause ∈ clauses, ∃ other ∈ others, clause.Alike other

namespace Clause.Covered

variable {clauses others : List Clause}

theorem eq_nil (covered : Covered clauses others) (none : others = []) : clauses = [] := by
  refine List.eq_nil_iff_forall_not_mem.mpr fun clause member => ?_
  obtain ⟨_, inside, -⟩ := covered clause member
  rw [none] at inside
  cases inside

/-- What holds of all clauses of a list holds of the clauses that it covers, if it holds of clauses
that are alike together. -/
theorem forall_mem {property : Clause → Prop} (covered : Covered clauses others)
    (respects : ∀ clause other, clause.Alike other → property other → property clause)
    (all : ∀ other ∈ others, property other) : ∀ clause ∈ clauses, property clause := by
  intro clause member
  obtain ⟨other, inside, alike⟩ := covered clause member
  exact respects clause other alike (all other inside)

end Clause.Covered

/-- The clauses of a plan are covered by those of another, inclusions and exclusions apart. -/
structure Plan.Covered (plan other : Plan) : Prop where
  /-- The inclusions are covered. -/
  inclusions : Clause.Covered plan.inclusions other.inclusions
  /-- The exclusions are covered. -/
  exclusions : Clause.Covered plan.exclusions other.exclusions

theorem Plan.Covered.clauses {plan other : Plan} (covered : plan.Covered other) :
    Clause.Covered plan.clauses other.clauses := by
  refine List.forall_mem_append.mpr ⟨fun clause member => ?_, fun clause member => ?_⟩
  · obtain ⟨other, inside, alike⟩ := covered.inclusions clause member
    exact ⟨other, List.mem_append_left _ inside, alike⟩
  · obtain ⟨other, inside, alike⟩ := covered.exclusions clause member
    exact ⟨other, List.mem_append_right _ inside, alike⟩

namespace Condition

variable {first second : Condition} {field : String} {clause : Clause}

theorem alike_only {kind : ClauseKind} {value value' : Value} (same : value == value') :
    Clause.Alike ⟨field, kind, .only value⟩ ⟨field, kind, .only value'⟩ := by
  refine ⟨rfl, ?_⟩
  rw [KeyRange.contains_only, KeyRange.contains_only]
  funext key
  exact BEq.congr_right same

theorem exists_inclusion?_of_beq (same : first == second)
    (made : first.inclusion? field = some clause) :
    ∃ other, second.inclusion? field = some other ∧ clause.Alike other := by
  cases first with
  | equals value =>
    cases second with
    | satisfies _ => cases same
    | equals value' =>
      cases made
      exact ⟨_, rfl, alike_only same⟩
  | satisfies operators =>
    cases second with
    | equals _ => cases same
    | satisfies operators' =>
      change operators.boundClause? field = some clause at made
      show ∃ other, operators'.boundClause? field = some other ∧ _
      change (operators == operators') = true at same
      rcases operators.boundClause?_eq field with ⟨absent, -⟩ | ⟨_, made', bounded, on, within⟩
      · rw [absent] at made
        cases made
      · cases made.symm.trans made'
        rcases operators'.boundClause?_eq field with
          ⟨-, free⟩ | ⟨other, isOther, -, on', within'⟩
        · rw [Operators.isBounded_eq_of_beq same, free] at bounded
          cases bounded
        · refine ⟨other, isOther, on.trans on'.symm, funext fun key => ?_⟩
          rw [within, within', Operators.admits_eq_of_beq same]

theorem exists_exclusion?_of_beq (same : first == second)
    (made : first.exclusion? field = some clause) :
    ∃ other, second.exclusion? field = some other ∧ clause.Alike other := by
  cases first with
  | equals _ => cases made
  | satisfies operators =>
    cases second with
    | equals _ => cases same
    | satisfies operators' =>
      obtain ⟨-, -, -, -, avoided⟩ := Operators.beq_iff.mp same
      obtain ⟨value, isAvoided, rfl⟩ := Option.map_eq_some_iff.mp made
      rw [isAvoided] at avoided
      cases isAvoided' : operators'.ne with
      | none =>
        rw [isAvoided'] at avoided
        cases avoided
      | some value' =>
        rw [isAvoided'] at avoided
        refine ⟨⟨field, .notEqual, .only value'⟩, ?_, alike_only avoided⟩
        show operators'.ne.map _ = _
        rw [isAvoided']
        rfl

end Condition

namespace Query

variable {first second : Query}

/-- The clauses of a query are covered by those of a query that has its conditions. -/
theorem Within.covered (within : first.Within second) : first.plan.Covered second.plan where
  inclusions := by
    intro clause member
    obtain ⟨wanted, isWanted, made⟩ := List.mem_filterMap.mp member
    obtain ⟨offered, offers, named, same⟩ := within wanted isWanted
    obtain ⟨other, made', alike⟩ := Condition.exists_inclusion?_of_beq (BEq.symm same) made
    exact ⟨other, List.mem_filterMap.mpr ⟨offered, offers, named ▸ made'⟩, alike⟩
  exclusions := by
    intro clause member
    obtain ⟨wanted, isWanted, made⟩ := List.mem_filterMap.mp member
    obtain ⟨offered, offers, named, same⟩ := within wanted isWanted
    obtain ⟨other, made', alike⟩ := Condition.exists_exclusion?_of_beq (BEq.symm same) made
    exact ⟨other, List.mem_filterMap.mpr ⟨offered, offers, named ▸ made'⟩, alike⟩

end Query

end IndexedStore
