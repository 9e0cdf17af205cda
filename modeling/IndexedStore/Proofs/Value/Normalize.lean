/-
This file proves what normalizing a value keeps, and that it is done once and for all:
the canonical form of a canonical form is itself.

Arranging and settling numbers do not disturb each other, and each of them is
idempotent. For arranging this rests on the order of field names: sorted fields are
arranged where they stand.
-/

import IndexedStore.NamedList
import IndexedStore.Proofs.Cbor.ReadBack
import IndexedStore.Proofs.Value.CanonicalForm

namespace IndexedStore

/-! ### Sorted fields -/

instance : Std.TransCmp compareNames :=
  transCmp_of_consistent
    (fun first second => by
      rw [compareNames, compareNames, Ordering.swap_then, ← Std.OrientedOrd.eq_swap,
        ← Std.OrientedOrd.eq_swap])
    fun first second third =>
      (Consistent.of_transCmp Ord.compare first.utf8ByteSize second.utf8ByteSize
        third.utf8ByteSize).next fun _ _ => Consistent.of_transCmp Ord.compare _ _ _

/-- The names stand in their order. -/
def FieldsSorted (fields : List (String × Value)) : Prop :=
  fields.Pairwise fun first second => (compareNames first.1 second.1).isLE

theorem insertField_perm (field : String × Value) (fields : List (String × Value)) :
    (insertField field fields).Perm (field :: fields) := by
  induction fields with
  | nil => exact .refl _
  | cons head rest inductionHypothesis =>
    rw [insertField]
    split
    · exact .refl _
    · exact (inductionHypothesis.cons head).trans (.swap field head rest)

theorem insertField_sorted {field : String × Value} {fields : List (String × Value)}
    (sorted : FieldsSorted fields) : FieldsSorted (insertField field fields) := by
  induction fields with
  | nil => exact List.pairwise_singleton _ _
  | cons head rest inductionHypothesis =>
    obtain ⟨least, restSorted⟩ := List.pairwise_cons.mp sorted
    rw [insertField]
    split
    · rename_i before
      refine List.pairwise_cons.mpr ⟨fun other member => ?_, sorted⟩
      rcases List.mem_cons.mp member with rfl | inRest
      · exact before
      · exact Std.TransCmp.isLE_trans before (least other inRest)
    · rename_i after
      refine List.pairwise_cons.mpr ⟨fun other member => ?_, inductionHypothesis restSorted⟩
      rcases List.mem_cons.mp ((insertField_perm field rest).mem_iff.mp member) with rfl | inRest
      · exact Ordering.isLE_of_eq_lt (Std.OrientedCmp.lt_of_not_isLE after)
      · exact least other inRest

/-- Changing the values of fields does not move the fields. -/
theorem insertField_map (change : Value → Value) (name : String) (value : Value)
    (fields : List (String × Value)) :
    insertField (name, change value) (fields.map fun field => (field.1, change field.2)) =
      (insertField (name, value) fields).map fun field => (field.1, change field.2) := by
  induction fields with
  | nil => rfl
  | cons head rest inductionHypothesis =>
    rw [List.map_cons, insertField, insertField, inductionHypothesis]
    split <;> rfl

/-- A field stands in front of the others of its name, so it is the one that is found. -/
@[simp]
theorem lookup_insertField (name : String) (field : String × Value)
    (fields : List (String × Value)) :
    (insertField field fields).lookup name = (field :: fields).lookup name := by
  induction fields with
  | nil => rfl
  | cons head rest inductionHypothesis =>
    rw [insertField]
    split
    · rfl
    · rename_i after
      have different : field.1 ≠ head.1 := fun same =>
        after (by rw [same, @Std.ReflCmp.compare_self _ compareNames]; rfl)
      rw [List.lookup_cons, inductionHypothesis, List.lookup_cons, List.lookup_cons,
        List.lookup_cons]
      cases isHead : name == head.1 with
      | false => rfl
      | true =>
        have notField : (name == field.1) = false := by
          rw [eq_of_beq isHead]
          simpa using different.symm
        rw [notField]

namespace Value

/-! ### Arranged values -/

theorem arrangeItems_eq_map (items : List Value) : arrangeItems items = items.map arrange := by
  induction items with
  | nil => rfl
  | cons item rest inductionHypothesis => simp [inductionHypothesis]

theorem arrangeFields_sorted (fields : List (String × Value)) :
    FieldsSorted (arrangeFields fields) := by
  induction fields with
  | nil => exact .nil
  | cons field rest inductionHypothesis => exact insertField_sorted inductionHypothesis

theorem arrangeFields_perm (fields : List (String × Value)) :
    (arrangeFields fields).Perm (fields.map fun field => (field.1, field.2.arrange)) := by
  induction fields with
  | nil => exact .refl _
  | cons field rest inductionHypothesis =>
    exact (insertField_perm _ _).trans (inductionHypothesis.cons _)

/-- Sorted fields stay where they are. -/
theorem arrangeFields_of_sorted {fields : List (String × Value)} (sorted : FieldsSorted fields) :
    arrangeFields fields = fields.map fun field => (field.1, field.2.arrange) := by
  induction fields with
  | nil => rfl
  | cons field rest inductionHypothesis =>
    obtain ⟨least, restSorted⟩ := List.pairwise_cons.mp sorted
    rw [arrangeFields, inductionHypothesis restSorted]
    cases rest with
    | nil => rfl
    | cons head rest =>
      rw [List.map_cons, insertField, if_pos (least head List.mem_cons_self)]
      rfl

@[simp]
theorem lookup_arrangeFields (name : String) (fields : List (String × Value)) :
    (arrangeFields fields).lookup name = (fields.lookup name).map arrange := by
  induction fields with
  | nil => rfl
  | cons field rest inductionHypothesis =>
    obtain ⟨other, value⟩ := field
    simp only [arrangeFields, lookup_insertField, List.lookup_cons, inductionHypothesis]
    cases name == other <;> rfl

mutual

@[simp]
theorem arrange_arrange : ∀ value : Value, value.arrange.arrange = value.arrange
  | .array items => by
    rw [arrange, arrange, arrangeItems_eq_map (arrangeItems items)]
    rw [List.map_congr_left (arrangeItems_fixed items), List.map_id']
  | .map fields => by
    rw [arrange, arrange, arrangeFields_of_sorted (arrangeFields_sorted fields)]
    rw [List.map_congr_left (arrangeFields_fixed fields), List.map_id']
  | .null | .bool _ | .integer _ | .float _ | .text _ | .bytes _ => rfl

theorem arrangeItems_fixed : ∀ items : List Value, ∀ item ∈ arrangeItems items,
    item.arrange = item
  | first :: rest, item, member => by
    rcases List.mem_cons.mp member with rfl | inRest
    · exact arrange_arrange first
    · exact arrangeItems_fixed rest item inRest

theorem arrangeFields_fixed : ∀ fields : List (String × Value), ∀ field ∈ arrangeFields fields,
    (field.1, field.2.arrange) = field
  | (name, value) :: rest, field, member => by
    rcases List.mem_cons.mp ((insertField_perm _ _).mem_iff.mp member) with rfl | inRest
    · rw [arrange_arrange value]
    · exact arrangeFields_fixed rest field inRest

end

/-! ### Settled values -/

theorem settleItems_eq_map (items : List Value) :
    settleItems items = items.map settleNumbers := by
  induction items with
  | nil => rfl
  | cons item rest inductionHypothesis => simp [inductionHypothesis]

theorem settleFields_eq_map (fields : List (String × Value)) :
    settleFields fields = fields.map fun field => (field.1, field.2.settleNumbers) := by
  induction fields with
  | nil => rfl
  | cons field rest inductionHypothesis => simp [inductionHypothesis]

/-- A float is settled to an integer or stays as it is. -/
theorem settleNumbers_float (number : Double) :
    (∃ whole, number.toInt64? = some whole ∧ (float number).settleNumbers = integer whole) ∨
      number.toInt64? = none ∧ (float number).settleNumbers = float number := by
  rw [settleNumbers]
  cases number.toInt64? with
  | none => exact .inr ⟨rfl, rfl⟩
  | some whole => exact .inl ⟨whole, rfl, rfl⟩

mutual

@[simp]
theorem settleNumbers_settleNumbers : ∀ value : Value,
    value.settleNumbers.settleNumbers = value.settleNumbers
  | .array items => by simp [settleItems_settleItems items]
  | .map fields => by simp [settleFields_settleFields fields]
  | .float number => by
    rcases settleNumbers_float number with ⟨whole, -, settled⟩ | ⟨-, settled⟩
    · rw [settled]
      rfl
    · rw [settled, settled]
  | .null | .bool _ | .integer _ | .text _ | .bytes _ => rfl

@[simp]
theorem settleItems_settleItems : ∀ items : List Value,
    settleItems (settleItems items) = settleItems items
  | [] => rfl
  | item :: items => by simp [settleNumbers_settleNumbers item, settleItems_settleItems items]

@[simp]
theorem settleFields_settleFields : ∀ fields : List (String × Value),
    settleFields (settleFields fields) = settleFields fields
  | [] => rfl
  | (name, value) :: fields => by
    simp [settleNumbers_settleNumbers value, settleFields_settleFields fields]

end

mutual

/-- Arranging and settling numbers do not disturb each other. -/
theorem arrange_settleNumbers : ∀ value : Value,
    value.settleNumbers.arrange = value.arrange.settleNumbers
  | .array items => by simp [arrangeItems_settleItems items]
  | .map fields => by simp [arrangeFields_settleFields fields]
  | .float number => by
    show (float number).settleNumbers.arrange = (float number).settleNumbers
    rcases settleNumbers_float number with ⟨whole, -, settled⟩ | ⟨-, settled⟩ <;>
      rw [settled] <;> rfl
  | .null | .bool _ | .integer _ | .text _ | .bytes _ => rfl

theorem arrangeItems_settleItems : ∀ items : List Value,
    arrangeItems (settleItems items) = settleItems (arrangeItems items)
  | [] => rfl
  | item :: items => by simp [arrange_settleNumbers item, arrangeItems_settleItems items]

theorem arrangeFields_settleFields : ∀ fields : List (String × Value),
    arrangeFields (settleFields fields) = settleFields (arrangeFields fields)
  | [] => rfl
  | (name, value) :: fields => by
    rw [settleFields, arrangeFields, arrangeFields, arrange_settleNumbers value,
      arrangeFields_settleFields fields, settleFields_eq_map, settleFields_eq_map, insertField_map]

end

/-! ### Canonical forms -/

/-- A canonical form is its own canonical form. -/
@[simp]
theorem normalize_normalize (value : Value) : value.normalize.normalize = value.normalize := by
  simp [normalize, arrange_settleNumbers]

mutual

@[simp]
theorem containsNaN_settleNumbers : ∀ value : Value,
    value.settleNumbers.containsNaN = value.containsNaN
  | .array items => by simp [itemsContainNaN_settleItems items]
  | .map fields => by simp [fieldsContainNaN_settleFields fields]
  | .float number => by
    rcases settleNumbers_float number with ⟨whole, integral, settled⟩ | ⟨-, settled⟩
    · rw [settled]
      simp [Double.isNaN_of_toInt64? integral]
    · rw [settled]
  | .null | .bool _ | .integer _ | .text _ | .bytes _ => rfl

@[simp]
theorem itemsContainNaN_settleItems : ∀ items : List Value,
    itemsContainNaN (settleItems items) = itemsContainNaN items
  | [] => rfl
  | item :: items => by
    simp [containsNaN_settleNumbers item, itemsContainNaN_settleItems items]

@[simp]
theorem fieldsContainNaN_settleFields : ∀ fields : List (String × Value),
    fieldsContainNaN (settleFields fields) = fieldsContainNaN fields
  | [] => rfl
  | (name, value) :: fields => by
    simp [containsNaN_settleNumbers value, fieldsContainNaN_settleFields fields]

end

@[simp]
theorem containsNaN_normalize (value : Value) :
    value.normalize.containsNaN = value.containsNaN := by
  simp [normalize]

/-- A value without NaN is the same as its canonical form. -/
theorem normalize_beq {value : Value} (number : value.containsNaN = false) :
    value.normalize == value := by
  rw [beq_iff, compareKey_eq_iff ((containsNaN_normalize value).trans number) number,
    normalize_normalize]

mutual

/-- A value is brought into canonical form unless it holds NaN, wherever that stands. -/
theorem canonicalize_eq : ∀ value : Value, value.canonicalize =
    if value.containsNaN then .error .nanForbidden else .ok value.normalize
  | .array items => by
    rw [canonicalize, canonicalizeItems_eq items, containsNaN, normalize, arrange, settleNumbers]
    split <;> rfl
  | .map fields => by
    rw [canonicalize, canonicalizeFields_eq fields, containsNaN, normalize, arrange, settleNumbers]
    split <;> rfl
  | .float number => by
    simp only [canonicalize, containsNaN, normalize, arrange, settleNumbers]
    cases number.toInt64? <;> rfl
  | .null | .bool _ | .integer _ | .text _ | .bytes _ => rfl

theorem canonicalizeItems_eq : ∀ items : List Value, canonicalizeItems items =
    if itemsContainNaN items then .error .nanForbidden else .ok (settleItems (arrangeItems items))
  | [] => rfl
  | item :: items => by
    rw [canonicalizeItems, canonicalize_eq item, canonicalizeItems_eq items, itemsContainNaN]
    cases item.containsNaN <;> cases itemsContainNaN items <;> rfl

theorem canonicalizeFields_eq : ∀ fields : List (String × Value), canonicalizeFields fields =
    if fieldsContainNaN fields then .error .nanForbidden
    else .ok (settleFields (arrangeFields fields))
  | [] => rfl
  | (name, value) :: fields => by
    -- Fields are sorted by their names, so it is the same whether that is done first or last.
    have sorted : insertField (name, value.normalize) (settleFields (arrangeFields fields)) =
        settleFields (arrangeFields ((name, value) :: fields)) := by
      rw [arrangeFields, settleFields_eq_map, settleFields_eq_map, normalize, insertField_map]
    rw [canonicalizeFields, canonicalize_eq value, canonicalizeFields_eq fields, fieldsContainNaN,
      ← sorted]
    cases value.containsNaN <;> cases fieldsContainNaN fields <;> rfl

end

/-! ### What normalizing keeps -/

@[simp]
theorem normalize_array (items : List Value) :
    (array items).normalize = array (items.map normalize) := by
  rw [normalize, arrange, settleNumbers, arrangeItems_eq_map, settleItems_eq_map, List.map_map]
  rfl

@[simp]
theorem normalize_map (fields : List (String × Value)) :
    (map fields).normalize = map (settleFields (arrangeFields fields)) := rfl

/-- The canonical fields are the fields in another order, with canonical values. -/
theorem settleFields_arrangeFields_perm (fields : List (String × Value)) :
    (settleFields (arrangeFields fields)).Perm
      (fields.map fun field => (field.1, field.2.normalize)) := by
  rw [settleFields_eq_map]
  have settled := (arrangeFields_perm fields).map fun field => (field.1, field.2.settleNumbers)
  rwa [List.map_map] at settled

@[simp]
theorem lookup_settleFields (name : String) (fields : List (String × Value)) :
    (settleFields fields).lookup name = (fields.lookup name).map settleNumbers := by
  rw [settleFields_eq_map, lookup_map]

/-- A number is normalized to a number, and other values without items stay as they are. -/
theorem normalize_float (number : Double) :
    (∃ whole, number.toInt64? = some whole ∧ (float number).normalize = integer whole) ∨
      (float number).normalize = float number := by
  rcases settleNumbers_float number with ⟨whole, integral, settled⟩ | ⟨-, settled⟩
  · exact .inl ⟨whole, integral, settled⟩
  · exact .inr settled

mutual

@[simp]
theorem isIndexable_normalize : ∀ value : Value, value.normalize.isIndexable = value.isIndexable
  | .array items => by
    simp [itemsIndexable_normalize items]
  | .float number => by
    rcases normalize_float number with ⟨whole, integral, canonical⟩ | canonical
    · simp [canonical, Double.isNaN_of_toInt64? integral]
    · rw [canonical]
  | .map _ => rfl
  | .null | .bool _ | .integer _ | .text _ | .bytes _ => rfl

@[simp]
theorem itemsIndexable_normalize : ∀ items : List Value,
    itemsIndexable (items.map normalize) = itemsIndexable items
  | [] => rfl
  | item :: items => by simp [isIndexable_normalize item, itemsIndexable_normalize items]

end

theorem fieldsNesting_perm {fields fields' : List (String × Value)} (same : fields.Perm fields') :
    fieldsNesting fields = fieldsNesting fields' := by
  induction same with
  | nil => rfl
  | cons _ _ inductionHypothesis => simp [inductionHypothesis]
  | swap _ _ _ => simp [Nat.max_left_comm]
  | trans _ _ first second => rw [first, second]

mutual

@[simp]
theorem nesting_normalize : ∀ value : Value, value.normalize.nesting = value.nesting
  | .array items => by simp [itemsNesting_normalize items]
  | .map fields => by
    simp [fieldsNesting_perm (settleFields_arrangeFields_perm fields),
      fieldsNesting_normalize fields]
  | .float number => by
    rcases normalize_float number with ⟨_, -, canonical⟩ | canonical
    · rw [canonical]
      rfl
    · rw [canonical]
  | .null | .bool _ | .integer _ | .text _ | .bytes _ => rfl

@[simp]
theorem itemsNesting_normalize : ∀ items : List Value,
    itemsNesting (items.map normalize) = itemsNesting items
  | [] => rfl
  | item :: items => by simp [nesting_normalize item, itemsNesting_normalize items]

@[simp]
theorem fieldsNesting_normalize : ∀ fields : List (String × Value),
    fieldsNesting (fields.map fun field => (field.1, field.2.normalize)) = fieldsNesting fields
  | [] => rfl
  | (name, value) :: fields => by
    simp [nesting_normalize value, fieldsNesting_normalize fields]

end

theorem fieldsFit_perm {fields fields' : List (String × Value)} (same : fields.Perm fields') :
    FieldsFit fields ↔ FieldsFit fields' := by
  induction same with
  | nil => exact .rfl
  | cons _ _ inductionHypothesis => simp [inductionHypothesis]
  | swap _ _ _ => simp [and_left_comm]
  | trans _ _ first second => exact first.trans second

mutual

@[simp]
theorem fits_normalize : ∀ value : Value, value.normalize.Fits ↔ value.Fits
  | .array items => by simp [itemsFit_normalize items]
  | .map fields => by
    have perm := settleFields_arrangeFields_perm fields
    simp [perm.length_eq, fieldsFit_perm perm, fieldsFit_normalize fields]
  | .float number => by
    rcases normalize_float number with ⟨_, -, canonical⟩ | canonical <;> rw [canonical]
    exact iff_of_true trivial trivial
  | .null | .bool _ | .integer _ | .text _ | .bytes _ => .rfl

@[simp]
theorem itemsFit_normalize : ∀ items : List Value, ItemsFit (items.map normalize) ↔ ItemsFit items
  | [] => .rfl
  | item :: items => by simp [fits_normalize item, itemsFit_normalize items]

@[simp]
theorem fieldsFit_normalize : ∀ fields : List (String × Value),
    FieldsFit (fields.map fun field => (field.1, field.2.normalize)) ↔ FieldsFit fields
  | [] => .rfl
  | (name, value) :: fields => by simp [fits_normalize value, fieldsFit_normalize fields]

end

end Value

end IndexedStore
