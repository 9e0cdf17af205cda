/-
This file proves that rows are finite maps from names to values. Whatever a row has come from,
each of its names stands once, and has the value that was given to it last. Two rows are equal
exactly if they agree on every name, whatever the order of their fields.

Equality sorts the fields of both rows by name and compares them one by one. The names of a row
are distinct, so rows with the same names have them in the same order once they are sorted, and
the comparison never sets one name against another.
-/

import IndexedStore.Proofs.Row.Encoding
import IndexedStore.Proofs.Value.Comparison

namespace IndexedStore

/-! ### Lists with distinct names -/

section Names

variable {α β : Type} {entries : List (String × α)} {entries' : List (String × β)}

/-- Where names are distinct, every entry is the one that is found under its name. -/
theorem lookup_eq_some_iff_mem (distinct : (entries.map Prod.fst).Nodup) {name : String}
    {content : α} : entries.lookup name = some content ↔ (name, content) ∈ entries := by
  refine ⟨mem_of_lookup, fun member => ?_⟩
  cases found : entries.lookup name with
  | none => simpa using List.lookup_eq_none_iff.mp found _ member
  | some other =>
    cases List.inj_on_of_nodup_map distinct member (mem_of_lookup found) rfl
    rfl

theorem isSome_iff_of_rel {related : α → β → Prop} {found : Option α} {found' : Option β}
    (agree : Option.Rel related found found') : found.isSome ↔ found'.isSome := by
  cases agree with
  | none => exact .rfl
  | some => exact iff_of_true rfl rfl

theorem isSome_lookup_iff_mem_names {name : String} :
    (entries.lookup name).isSome ↔ name ∈ entries.map Prod.fst := by
  rw [List.lookup_isSome_iff, List.mem_map]
  exact exists_congr fun entry => and_congr_right fun _ => beq_iff_eq.trans eq_comm

/-- Entries that are related one by one, name by name, are related by what is found in them. -/
theorem rel_lookup_of_forall₂ (related : α → β → Prop)
    (pairs : List.Forall₂ (fun entry entry' => entry.1 = entry'.1 ∧ related entry.2 entry'.2)
      entries entries') (name : String) :
    Option.Rel related (entries.lookup name) (entries'.lookup name) := by
  induction pairs with
  | nil => exact .none
  | @cons entry entry' _ _ pair _ inductionHypothesis =>
    rw [List.lookup_cons, List.lookup_cons, ← pair.1]
    cases name == entry.1 with
    | true => exact .some pair.2
    | false => exact inductionHypothesis

/-- If the names are the same and distinct, what is found in the entries relates them one by
one. -/
theorem forall₂_of_rel_lookup (related : α → β → Prop)
    (names : entries.map Prod.fst = entries'.map Prod.fst)
    (distinct : (entries.map Prod.fst).Nodup)
    (agree : ∀ name, Option.Rel related (entries.lookup name) (entries'.lookup name)) :
    List.Forall₂ (fun entry entry' => entry.1 = entry'.1 ∧ related entry.2 entry'.2)
      entries entries' := by
  induction entries generalizing entries' with
  | nil =>
    rw [List.map_eq_nil_iff.mp names.symm]
    exact .nil
  | cons entry rest inductionHypothesis =>
    cases entries' with
    | nil => cases names
    | cons entry' rest' =>
      obtain ⟨named, restNames⟩ := List.cons.inj names
      obtain ⟨fresh, restDistinct⟩ := List.nodup_cons.mp distinct
      have here := agree entry.1
      rw [List.lookup_cons_self, List.lookup_cons, named, beq_self_eq_true] at here
      refine .cons ⟨named, Option.rel_some_some.mp here⟩
        (inductionHypothesis restNames restDistinct fun name => ?_)
      by_cases isHead : name = entry.1
      · -- The first name does not stand again.
        have absent : rest.lookup name = none := by
          rw [← Option.not_isSome_iff_eq_none, isSome_lookup_iff_mem_names, isHead]
          exact fresh
        have absent' : rest'.lookup name = none := by
          rw [← Option.not_isSome_iff_eq_none, isSome_lookup_iff_mem_names, ← restNames, isHead]
          exact fresh
        rw [absent, absent']
        exact .none
      · have other := agree name
        rwa [List.lookup_cons, List.lookup_cons, ← named, beq_eq_false_iff_ne.mpr isHead] at other

end Names

namespace Value

/-! ### Sorted fields -/

variable {fields fields' : List (String × Value)}

theorem sortByName_cons (field : String × Value) :
    sortByName (field :: fields) = insertField field (sortByName fields) :=
  (insertField_eq_orderedInsert field (sortByName fields)).symm

theorem sortByName_perm : (sortByName fields).Perm fields := List.perm_insertionSort _ fields

theorem sortByName_sorted : FieldsSorted (sortByName fields) := by
  induction fields with
  | nil => exact .nil
  | cons field rest inductionHypothesis =>
    rw [sortByName_cons]
    exact insertField_sorted inductionHypothesis

@[simp]
theorem lookup_sortByName (name : String) :
    (sortByName fields).lookup name = fields.lookup name := by
  induction fields with
  | nil => rfl
  | cons field rest inductionHypothesis =>
    rw [sortByName_cons, lookup_insertField, List.lookup_cons, List.lookup_cons,
      inductionHypothesis]

theorem eq_of_compareNames {first second : String} (same : compareNames first second = .eq) :
    first = second :=
  Std.LawfulEqOrd.eq_of_compare (Ordering.then_eq_eq.mp same).2

/-- Distinct names have one order. -/
theorem names_sortByName (distinct : (fields.map Prod.fst).Nodup)
    (distinct' : (fields'.map Prod.fst).Nodup)
    (same : ∀ name, name ∈ fields.map Prod.fst ↔ name ∈ fields'.map Prod.fst) :
    (sortByName fields).map Prod.fst = (sortByName fields').map Prod.fst := by
  have perm : ((sortByName fields).map Prod.fst).Perm ((sortByName fields').map Prod.fst) :=
    (sortByName_perm.map Prod.fst).trans
      (((List.perm_ext_iff_of_nodup distinct distinct').mpr same).trans
        (sortByName_perm.map Prod.fst).symm)
  have sorted : ∀ fields, ((sortByName fields).map Prod.fst).Pairwise
      fun first second => (compareNames first second).isLE := fun fields =>
    List.pairwise_map.mpr sortByName_sorted
  refine perm.eq_of_pairwise (fun first second _ _ before after => ?_) (sorted fields)
    (sorted fields')
  exact eq_of_compareNames (Std.OrientedCmp.isLE_antisymm before after)

theorem compareField_eq_iff {field field' : String × Value} :
    compareField field field' = .eq ↔ field.1 = field'.1 ∧ field.2.compareKey field'.2 = .eq := by
  rw [compareField, Ordering.then_eq_eq, Std.LawfulEqOrd.compare_eq_iff_eq]

theorem compareLex_eq_iff_forall₂ :
    List.compareLex compareField fields fields' = .eq ↔
      List.Forall₂ (fun field field' => compareField field field' = .eq) fields fields' := by
  induction fields generalizing fields' with
  | nil =>
    cases fields' with
    | nil => exact iff_of_true rfl .nil
    | cons => exact iff_of_false nofun nofun
  | cons field rest inductionHypothesis =>
    cases fields' with
    | nil => exact iff_of_false nofun nofun
    | cons field' rest' =>
      rw [List.compareLex_cons_cons, Ordering.then_eq_eq, inductionHypothesis, List.forall₂_cons]

/-- Maps that repeat no name are equal exactly if they agree on every name. -/
theorem compareKey_map_eq_iff (distinct : (fields.map Prod.fst).Nodup)
    (distinct' : (fields'.map Prod.fst).Nodup) :
    (map fields).compareKey (map fields') = .eq ↔ ∀ name,
      Option.Rel (fun value value' => value.compareKey value' = .eq) (fields.lookup name)
        (fields'.lookup name) := by
  rw [compareKey_map, compareLex_eq_iff_forall₂]
  simp only [compareField_eq_iff]
  constructor
  · intro pairs name
    have found :=
      rel_lookup_of_forall₂ (fun value value' => compareKey value value' = .eq) pairs name
    rwa [lookup_sortByName, lookup_sortByName] at found
  · intro agree
    refine forall₂_of_rel_lookup (fun value value' => compareKey value value' = .eq)
      (names_sortByName distinct distinct' fun name => ?_)
      ((sortByName_perm.map Prod.fst).nodup_iff.mpr distinct) fun name => ?_
    · rw [← isSome_lookup_iff_mem_names, ← isSome_lookup_iff_mem_names]
      exact isSome_iff_of_rel (agree name)
    · rw [lookup_sortByName, lookup_sortByName]
      exact agree name

end Value

namespace Row

variable {row first second : Row} {fields fields' : List (String × Value)} {name : String}

/-! ### What a row is built by -/

/-- One step in building a row. -/
inductive Edit where
  /-- Begins anew with fields. -/
  | ofFields (fields : List (String × Value))
  /-- Begins anew with a value. One that is no map makes no row, and the row stays. -/
  | ofValue (value : Value)
  /-- Sets a field. -/
  | set (name : String) (value : Value)
  /-- Removes a field. -/
  | erase (name : String)

/-- Takes a step. -/
def edit (row : Row) : Edit → Row
  | .ofFields fields => ofFields fields
  | .ofValue value => (ofValue value).toOption.getD row
  | .set name value => row.set name value
  | .erase name => row.erase name

/-- What a step makes of the value of a name. Of fields with one name the last one counts. -/
def Edit.value? (name : String) (before : Option Value) : Edit → Option Value
  | ofFields fields => fields.reverse.lookup name
  | ofValue (.map fields) => fields.reverse.lookup name
  | ofValue _ => before
  | set other value => if name = other then some value else before
  | erase other => if name = other then none else before

@[simp]
theorem get?_set_self (value : Value) : (row.set name value).get? name = some value :=
  lookup_assign_self

@[simp]
theorem get?_set_other (value : Value) {other : String} (different : other ≠ name) :
    (row.set name value).get? other = row.get? other :=
  lookup_assign_other different

@[simp]
theorem get?_ofFields : (ofFields fields).get? name = fields.reverse.lookup name := by
  -- The row that the fields are set on is what is found where they have nothing.
  have onRow : ∀ row : Row,
      (fields.foldl (fun row field => row.set field.1 field.2) row).get? name =
        (fields.reverse.lookup name).or (row.get? name) := by
    induction fields with
    | nil => exact fun row => rfl
    | cons field rest inductionHypothesis =>
      intro row
      rw [List.foldl_cons, inductionHypothesis, List.reverse_cons, List.lookup_append,
        Option.or_assoc]
      by_cases isField : name = field.1
      · rw [isField, get?_set_self, List.lookup_cons_self, Option.some_or]
      · rw [get?_set_other _ isField, List.lookup_cons, beq_eq_false_iff_ne.mpr isField,
          List.lookup_nil, Option.none_or]
  rw [ofFields, onRow]
  exact Option.or_none

theorem get?_edit (step : Edit) : (row.edit step).get? name = step.value? name (row.get? name) := by
  cases step with
  | ofFields fields => exact get?_ofFields
  | ofValue value =>
    cases value with
    | map fields => exact get?_ofFields
    | _ => rfl
  | set other value =>
    by_cases same : name = other
    · simp [edit, Edit.value?, same]
    · simp [edit, Edit.value?, same]
  | erase other => exact lookup_unassign

/-- The value of a name after some steps is what they make of it one after the other. -/
theorem get?_foldl_edit (steps : List Edit) :
    (steps.foldl edit row).get? name = steps.foldl (Edit.value? name) (row.get? name) := by
  induction steps generalizing row with
  | nil => rfl
  | cons step rest inductionHypothesis =>
    rw [List.foldl_cons, List.foldl_cons, inductionHypothesis, get?_edit]

/-! ### Equality -/

theorem beq_iff_get? : first == second ↔ ∀ name,
    Option.Rel (fun value value' => value.compareKey value' = .eq) (first.get? name)
      (second.get? name) :=
  Value.beq_iff.trans (Value.compareKey_map_eq_iff first.distinct second.distinct)

/-- Fields of distinct names may come in any order. -/
theorem ofFields_beq_of_perm (perm : fields.Perm fields')
    (distinct : (fields.map Prod.fst).Nodup) : ofFields fields == ofFields fields' := by
  have distinct' := (perm.map Prod.fst).nodup_iff.mp distinct
  rw [beq_iff_get?]
  intro name
  have same : (ofFields fields).get? name = (ofFields fields').get? name := by
    rw [get?, get?, fields_ofFields distinct, fields_ofFields distinct']
    refine Option.ext fun value => ?_
    rw [lookup_eq_some_iff_mem distinct, lookup_eq_some_iff_mem distinct', perm.mem_iff]
  rw [same]
  cases (ofFields fields').get? name with
  | none => exact .none
  | some value => exact .some Std.ReflCmp.compare_self

/-- Every row is built by some steps. -/
theorem exists_steps (row : Row) : ∃ steps : List Edit, steps.foldl edit empty = row :=
  ⟨[.ofFields row.fields], row.ofFields_fields⟩

/-- Rows are finite maps. Whatever steps have built a row, each of its names stands once and has
the value that was given to it last, and no row is built otherwise. Two rows are equal exactly if
every name is in neither of them, or in both with values that are equal in key order; the order of
the fields plays no part. So setting a field changes the value of its name alone, and fields of
distinct names make the same row in any order. -/
theorem equality_is_extensional :
    (∀ steps : List Edit,
      ((steps.foldl edit empty).fields.map Prod.fst).Nodup ∧
      ∀ name, (steps.foldl edit empty).get? name = steps.foldl (Edit.value? name) none) ∧
    (∀ row : Row, ∃ steps : List Edit, steps.foldl edit empty = row) ∧
    (∀ first second : Row, first == second ↔ ∀ name,
      Option.Rel (fun value value' => value.compareKey value' = .eq) (first.get? name)
        (second.get? name)) ∧
    (∀ (row : Row) name value, (row.set name value).get? name = some value ∧
      ∀ other ≠ name, (row.set name value).get? other = row.get? other) ∧
    ∀ fields fields' : List (String × Value), fields.Perm fields' →
      (fields.map Prod.fst).Nodup → ofFields fields == ofFields fields' :=
  ⟨fun steps => ⟨(steps.foldl edit empty).distinct, fun _ => get?_foldl_edit steps⟩, exists_steps,
    fun _ _ => beq_iff_get?,
    fun _ _ value => ⟨get?_set_self value, fun _ => get?_set_other value⟩,
    fun _ _ => ofFields_beq_of_perm⟩

/-- A row that is built by steps, and one with the same fields in another order and with an
integer in place of a float. -/
theorem equal_rows_in_any_order :
    ([.ofFields [("b", .null), ("a", .bool true), ("b", .float ⟨0x3ff0000000000000⟩)],
        .set "c" .null, .erase "a", .ofValue .null] : List Edit).foldl edit empty ==
      ofFields [("c", .null), ("b", .integer 1)] ∧
    ofFields [("b", .integer 1), ("c", .null)] == ofFields [("c", .null), ("b", .integer 1)] := by
  obtain ⟨built, -, extensional, -, reordered⟩ := equality_is_extensional
  refine ⟨(extensional _ _).mpr fun name => ?_, reordered _ _ (.swap _ _ _) (by decide)⟩
  rw [(built _).2 name]
  by_cases isB : name = "b"
  · subst isB
    exact .some (show (Value.float ⟨0x3ff0000000000000⟩).compareKey (.integer 1) = .eq by
      decide +kernel)
  · by_cases isC : name = "c"
    · subst isC
      exact .some rfl
    · have notB : (name == "b") = false := beq_eq_false_iff_ne.mpr isB
      have notC : (name == "c") = false := beq_eq_false_iff_ne.mpr isC
      rw [get?_ofFields]
      by_cases isA : name = "a"
      · subst isA
        exact .none
      · simp only [List.foldl_cons, List.foldl_nil, Edit.value?, List.reverse_cons,
          List.reverse_nil, List.nil_append, List.cons_append, List.lookup_cons, List.lookup_nil,
          if_neg isA, if_neg isC, notB, notC, beq_eq_false_iff_ne.mpr isA]
        exact .none

end Row

end IndexedStore
