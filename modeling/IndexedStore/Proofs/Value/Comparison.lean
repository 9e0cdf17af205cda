/-
This file says what key order compares. Kinds come first. Numbers compare as the numbers that
their words denote, integers with floats included; arrays compare item by item, and maps field by
field once each of them is sorted by name.

Key order arranges all maps inside two values before it compares anything. That it may as well
sort the fields of two maps when it comes to them is what the equation for maps says, and the sort
has to be stable for it, since a map may repeat a name.
-/

import IndexedStore.Proofs.Number.Denotation
import IndexedStore.Proofs.Value.Normalize
import Mathlib.Data.List.Sort
import Mathlib.Tactic.NormNum

namespace IndexedStore.Value

variable {first second : Value} {number number' : NumberLine} {x : Double}

/-! ### Numbers -/

/-- The number that an integer or a float denotes. -/
def denoted? : Value → Option NumberLine
  | integer number => some (.rational number.toInt)
  | float number => some number.denoted
  | _ => none

theorem denoted?_eq (value : Value) : value.denoted? = value.place?.map Extended.denoted := by
  cases value with
  | integer number =>
    rw [denoted?, place?, Option.map_some, Double.denoted_extendedOfInt]
  | float number =>
    rw [denoted?, place?, Option.map_some, Double.denoted_extended]
  | _ => rfl

/-- What denotes a number is arranged as it is. -/
theorem arrange_of_denoted? (stands : first.denoted? = some number) : first.arrange = first := by
  cases first <;> first | rfl | cases stands

/-- Numbers compare as what they denote. -/
theorem compareKey_of_denoted? (stands : first.denoted? = some number)
    (stands' : second.denoted? = some number') :
    first.compareKey second = Ord.compare number number' := by
  rw [compareKey, arrange_of_denoted? stands, arrange_of_denoted? stands']
  rw [denoted?_eq] at stands stands'
  obtain ⟨place, at_place, rfl⟩ := Option.map_eq_some_iff.mp stands
  obtain ⟨place', at_place', rfl⟩ := Option.map_eq_some_iff.mp stands'
  rw [compareArranged_of_place? at_place at_place', Extended.compare_eq_compare_denoted]

theorem denoted_of_isNaN (isNaN : x.isNaN) : x.denoted = ⊤ := by
  obtain ⟨top, nonzero⟩ := Double.isNaN_iff.mp isNaN
  rw [Double.denoted, top, if_neg (Nat.lt_irrefl _), if_pos nonzero]

/-! ### Arrays and maps -/

/-- The fields of a map sorted by name, where the shorter of two names comes first. Fields of one
name keep their order. -/
def sortByName (fields : List (String × Value)) : List (String × Value) :=
  fields.insertionSort fun field field' => (compareNames field.1 field'.1).isLE

theorem insertField_eq_orderedInsert (field : String × Value) (fields : List (String × Value)) :
    insertField field fields =
      fields.orderedInsert (fun field field' => (compareNames field.1 field'.1).isLE) field := by
  induction fields with
  | nil => rfl
  | cons head rest inductionHypothesis => rw [insertField, List.orderedInsert, inductionHypothesis]

/-- Fields may be sorted before their values are arranged. -/
theorem arrangeFields_eq (fields : List (String × Value)) :
    arrangeFields fields = (sortByName fields).map fun field => (field.1, field.2.arrange) := by
  induction fields with
  | nil => rfl
  | cons field rest inductionHypothesis =>
    rw [arrangeFields, inductionHypothesis, insertField_map, insertField_eq_orderedInsert]
    rfl

/-- Arrays compare item by item. -/
theorem compareKey_array (items items' : List Value) :
    (array items).compareKey (array items') = List.compareLex compareKey items items' := by
  show compareItems (arrangeItems items) (arrangeItems items') = _
  induction items generalizing items' with
  | nil => cases items' <;> rfl
  | cons item rest inductionHypothesis =>
    cases items' with
    | nil => rfl
    | cons item' rest' =>
      simp only [arrangeItems, compareItems, inductionHypothesis, List.compareLex_cons_cons]
      rfl

/-- Compares fields by name and then by value. -/
def compareField (field field' : String × Value) : Ordering :=
  (Ord.compare field.1 field'.1).then (field.2.compareKey field'.2)

theorem compareFields_map_arrange (fields fields' : List (String × Value)) :
    compareFields (fields.map fun field => (field.1, field.2.arrange))
        (fields'.map fun field => (field.1, field.2.arrange)) =
      List.compareLex compareField fields fields' := by
  induction fields generalizing fields' with
  | nil => cases fields' <;> rfl
  | cons field rest inductionHypothesis =>
    cases fields' with
    | nil => rfl
    | cons field' rest' =>
      simp only [List.map_cons, compareFields, inductionHypothesis, List.compareLex_cons_cons]
      rfl

/-- Maps compare field by field, in the order of the names. -/
theorem compareKey_map (fields fields' : List (String × Value)) :
    (map fields).compareKey (map fields') =
      List.compareLex compareField (sortByName fields) (sortByName fields') := by
  simp only [compareKey, arrange, compareArranged, arrangeFields_eq, compareFields_map_arrange]

@[simp]
theorem rank_arrange (value : Value) : value.arrange.rank = value.rank := by
  cases value <;> rfl

/-- Values of different kinds compare as the kinds do. -/
theorem compareKey_of_rank_ne (different : first.rank ≠ second.rank) :
    first.compareKey second = Ord.compare first.rank second.rank := by
  rw [← rank_arrange first, ← rank_arrange second] at different ⊢
  exact compareArranged_of_rank_ne different

/-! ### The order of keys -/

/-- Key order is a total preorder of all values, and on numbers it is the order of what they
denote. -/
theorem key_order_is_total_and_exact :
    -- Any two values can be compared, and comparisons agree with each other.
    (∀ value : Value, value.compareKey value = .eq) ∧
    (∀ first second : Value, second.compareKey first = (first.compareKey second).swap) ∧
    (∀ first second third : Value, (first.compareKey second).isLE →
      (second.compareKey third).isLE → (first.compareKey third).isLE) ∧
    -- Values of different kinds compare as their kinds, arrays item by item, and maps field by
    -- field once their fields are sorted by name.
    (∀ first second : Value, first.rank ≠ second.rank →
      first.compareKey second = Ord.compare first.rank second.rank) ∧
    (∀ items items', (array items).compareKey (array items') =
      List.compareLex compareKey items items') ∧
    (∀ fields fields', (map fields).compareKey (map fields') =
      List.compareLex compareField (sortByName fields) (sortByName fields')) ∧
    -- Numbers compare exactly: no integer is rounded, since the whole part of a float is looked at
    -- first, and what it has after the point only if the whole part is the integer.
    (∀ (first second : Value) number number', first.denoted? = some number →
      second.denoted? = some number' → first.compareKey second = Ord.compare number number') ∧
    (∀ (n : Int64) (x : Double), x.isFinite → (integer n).compareKey (float x) =
      (Ord.compare n.toInt x.whole).then (Ord.compare 0 x.rest)) ∧
    -- The infinities are at the ends, the zeros are equal, and NaN is equal to itself and above
    -- every other number.
    (∀ (value : Value) number, value.denoted? = some (.rational number) →
      (float ⟨0xfff0000000000000⟩).compareKey value = .lt ∧
      (float ⟨0x7ff0000000000000⟩).compareKey value = .gt) ∧
    (float ⟨0x8000000000000000⟩).compareKey (integer 0) = .eq ∧
    (float ⟨0x8000000000000000⟩).compareKey (float ⟨0⟩) = .eq ∧
    (∀ x : Double, x.isNaN → (∀ y : Double, y.isNaN → (float x).compareKey (float y) = .eq) ∧
      ∀ (value : Value) number, value.denoted? = some number → number ≠ ⊤ →
        (float x).compareKey value = .gt) := by
  refine ⟨fun _ => Std.ReflCmp.compare_self, fun _ _ => Std.OrientedCmp.eq_swap,
    fun _ _ _ => Std.TransCmp.isLE_trans, fun _ _ => compareKey_of_rank_ne, compareKey_array,
    compareKey_map, fun _ _ _ _ => compareKey_of_denoted?,
    fun n x finite => ?_,
    fun value number stands => ?_, ?_, ?_,
    fun x isNaN => ⟨fun y isNaN' => ?_, fun value number stands notNaN => ?_⟩⟩
  · rw [← Double.compare_extendedOfInt_extended finite, ← Double.compareIntegerFloat_eq]
    rfl
  · have bottom : (⟨0xfff0000000000000⟩ : Double).denoted = .negativeInfinity := by decide +kernel
    have top : (⟨0x7ff0000000000000⟩ : Double).denoted = .positiveInfinity := by decide +kernel
    rw [compareKey_of_denoted? rfl stands, compareKey_of_denoted? rfl stands, bottom, top]
    exact ⟨compare_lt_iff_lt.mpr (NumberLine.negativeInfinity_lt number),
      compare_gt_iff_gt.mpr (NumberLine.lt_positiveInfinity number)⟩
  · have zero : (⟨0x8000000000000000⟩ : Double).denoted = .rational 0 := by decide +kernel
    rw [compareKey_of_denoted? rfl rfl, zero]
    exact compare_eq_iff_eq.mpr rfl
  · decide +kernel
  · rw [compareKey_of_denoted? rfl rfl, denoted_of_isNaN isNaN, denoted_of_isNaN isNaN']
    exact compare_eq_iff_eq.mpr rfl
  · rw [compareKey_of_denoted? rfl stands, denoted_of_isNaN isNaN]
    exact compare_gt_iff_gt.mpr (lt_top_iff_ne_top.mpr notNaN)

/-- An integer that no float has is between the two floats next to it. Rounding it would make it
equal to one of them. -/
theorem odd_integer_is_between_floats :
    (float ⟨0x4340000000000000⟩).compareKey (integer 9007199254740993) = .lt ∧
      (integer 9007199254740993).compareKey (float ⟨0x4340000000000001⟩) = .lt ∧
      ((float ⟨0x4340000000000000⟩).compareKey (float ⟨0x4340000000000001⟩)).isLE := by
  obtain ⟨-, -, chain, -, -, -, numbers, whole, -⟩ := key_order_is_total_and_exact
  have above : (float ⟨0x4340000000000000⟩).compareKey (integer 9007199254740993) = .lt := by
    rw [numbers _ _ (.rational 9007199254740992) (.rational 9007199254740993) (by decide +kernel)
      (by decide +kernel)]
    exact compare_lt_iff_lt.mpr (NumberLine.rational_lt_rational.mpr (by norm_num))
  have below : (integer 9007199254740993).compareKey (float ⟨0x4340000000000001⟩) = .lt := by
    rw [whole _ _ (by decide +kernel)]
    decide +kernel
  exact ⟨above, below, chain _ (integer 9007199254740993) _ (by rw [above]; rfl)
    (by rw [below]; rfl)⟩

end IndexedStore.Value
