/-
This file proves that the canonical form decides equality in key order: values without
NaN compare as equal exactly if their canonical forms are one value.

Key order arranges both values and compares the results; the canonical form arranges a
value and settles its numbers. So both sides speak about arranged values, and the proof
follows the comparison: numbers are settled to the same number exactly if they stand at
the same place on the line, and everything else is compared part by part.
-/

import IndexedStore.Proofs.Number.Double
import IndexedStore.Proofs.Value.KeyOrder
import IndexedStore.Value.Canonical

namespace IndexedStore.Value

/-! ### NaN inside values -/

/-- NaN occurs in a value: it is NaN, or NaN occurs in one of its items or fields. -/
inductive HoldsNaN : Value → Prop where
  | float {number : Double} (isNaN : number.isNaN) : HoldsNaN (float number)
  | item {item : Value} {items : List Value} (member : item ∈ items) (inside : HoldsNaN item) :
    HoldsNaN (array items)
  | field {name : String} {value : Value} {fields : List (String × Value)}
    (member : (name, value) ∈ fields) (inside : HoldsNaN value) : HoldsNaN (map fields)

theorem itemsContainNaN_iff {items : List Value} :
    itemsContainNaN items ↔ ∃ item ∈ items, item.containsNaN := by
  induction items with
  | nil => simp
  | cons item rest inductionHypothesis => simp [inductionHypothesis]

theorem fieldsContainNaN_iff {fields : List (String × Value)} :
    fieldsContainNaN fields ↔ ∃ field ∈ fields, field.2.containsNaN := by
  induction fields with
  | nil => simp
  | cons field rest inductionHypothesis => simp [inductionHypothesis]

theorem containsNaN_of_holdsNaN {value : Value} (holds : HoldsNaN value) : value.containsNaN := by
  induction holds with
  | float isNaN => exact isNaN
  | item member inside inductionHypothesis =>
    rw [containsNaN, itemsContainNaN_iff]
    exact ⟨_, member, inductionHypothesis⟩
  | field member inside inductionHypothesis =>
    rw [containsNaN, fieldsContainNaN_iff]
    exact ⟨_, member, inductionHypothesis⟩

mutual

theorem holdsNaN_of_containsNaN : ∀ {value : Value}, value.containsNaN → HoldsNaN value
  | .float _, contains => .float contains
  | .array items, contains => by
    obtain ⟨item, member, inside⟩ := @holdsNaN_of_itemsContainNaN items contains
    exact .item member inside
  | .map fields, contains => by
    obtain ⟨name, value, member, inside⟩ := @holdsNaN_of_fieldsContainNaN fields contains
    exact .field member inside

theorem holdsNaN_of_itemsContainNaN : ∀ {items : List Value}, itemsContainNaN items →
    ∃ item ∈ items, HoldsNaN item
  | item :: items, contains => by
    rw [itemsContainNaN, Bool.or_eq_true] at contains
    rcases contains with inFirst | inRest
    · exact ⟨item, List.mem_cons_self, holdsNaN_of_containsNaN inFirst⟩
    · obtain ⟨other, member, inside⟩ := holdsNaN_of_itemsContainNaN inRest
      exact ⟨other, List.mem_cons_of_mem _ member, inside⟩

theorem holdsNaN_of_fieldsContainNaN : ∀ {fields : List (String × Value)},
    fieldsContainNaN fields → ∃ name value, (name, value) ∈ fields ∧ HoldsNaN value
  | (name, value) :: fields, contains => by
    rw [fieldsContainNaN, Bool.or_eq_true] at contains
    rcases contains with inFirst | inRest
    · exact ⟨name, value, List.mem_cons_self, holdsNaN_of_containsNaN inFirst⟩
    · obtain ⟨name, value, member, inside⟩ := holdsNaN_of_fieldsContainNaN inRest
      exact ⟨name, value, List.mem_cons_of_mem _ member, inside⟩

end

theorem containsNaN_iff {value : Value} : value.containsNaN ↔ HoldsNaN value :=
  ⟨holdsNaN_of_containsNaN, containsNaN_of_holdsNaN⟩

/-! ### Arranging -/

@[simp]
theorem fieldsContainNaN_insertField (field : String × Value) (fields : List (String × Value)) :
    fieldsContainNaN (insertField field fields) =
      (field.2.containsNaN || fieldsContainNaN fields) := by
  induction fields with
  | nil => rfl
  | cons head rest inductionHypothesis =>
    rw [insertField]
    split
    · rfl
    · simp [inductionHypothesis, Bool.or_left_comm]

mutual

/-- Arranging a value keeps what it holds. -/
@[simp]
theorem containsNaN_arrange : ∀ value : Value, value.arrange.containsNaN = value.containsNaN
  | .array items => by simp [itemsContainNaN_arrangeItems items]
  | .map fields => by simp [fieldsContainNaN_arrangeFields fields]
  | .null | .bool _ | .integer _ | .float _ | .text _ | .bytes _ => rfl

@[simp]
theorem itemsContainNaN_arrangeItems : ∀ items : List Value,
    itemsContainNaN (arrangeItems items) = itemsContainNaN items
  | [] => rfl
  | item :: items => by simp [containsNaN_arrange item, itemsContainNaN_arrangeItems items]

@[simp]
theorem fieldsContainNaN_arrangeFields : ∀ fields : List (String × Value),
    fieldsContainNaN (arrangeFields fields) = fieldsContainNaN fields
  | [] => rfl
  | (name, value) :: fields => by
    simp [containsNaN_arrange value, fieldsContainNaN_arrangeFields fields]

end

/-! ### Settled numbers -/

/-- Settling numbers keeps every kind in its place. -/
@[simp]
theorem rank_settleNumbers (value : Value) : value.settleNumbers.rank = value.rank := by
  cases value with
  | float number =>
    rw [settleNumbers]
    split <;> rfl
  | _ => rfl

/-- A number is settled to the integer at its place, if there is one within 64 bits. -/
theorem settleNumbers_eq_integer_iff {value : Value} {place : Extended} {n : Int64}
    (number : value.place? = some place) :
    value.settleNumbers = integer n ↔ place = Double.extendedOfInt n.toInt := by
  cases value with
  | integer m =>
    rw [← Option.some_inj.mp number, Double.extendedOfInt_inj, Int64.toInt_inj]
    exact ⟨integer.inj, congrArg integer⟩
  | float x =>
    rw [← Option.some_inj.mp number, ← Double.toInt64?_eq_some_iff, settleNumbers]
    cases x.toInt64? <;> simp
  | _ => cases number

/-- A number that is not settled to an integer is settled to itself, a float. -/
theorem settleNumbers_eq_float {value : Value} {place : Extended}
    (number : value.place? = some place)
    (fractional : ∀ n, value.settleNumbers ≠ integer n) :
    ∃ x, value = float x ∧ x.toInt64? = none ∧ x.extended = place := by
  cases value with
  | integer m => exact absurd rfl (fractional m)
  | float x =>
    refine ⟨x, rfl, ?_, Option.some_inj.mp number⟩
    rw [settleNumbers] at fractional
    cases whole : x.toInt64? with
    | none => rfl
    | some n =>
      rw [whole] at fractional
      exact absurd rfl (fractional n)
  | _ => cases number

/-- Numbers stand at one place exactly if they are settled to the same number. -/
theorem place_eq_iff {first second : Value} {place place' : Extended}
    (firstAt : first.place? = some place) (secondAt : second.place? = some place')
    (number : first.containsNaN = false) :
    place = place' ↔ first.settleNumbers = second.settleNumbers := by
  by_cases whole : ∃ n, first.settleNumbers = integer n
  · obtain ⟨n, settled⟩ := whole
    rw [settled, (settleNumbers_eq_integer_iff firstAt).mp settled, eq_comm,
      ← settleNumbers_eq_integer_iff secondAt, eq_comm]
  · have fractional : ∀ n, first.settleNumbers ≠ integer n := fun n settled => whole ⟨n, settled⟩
    obtain ⟨x, rfl, none, rfl⟩ := settleNumbers_eq_float firstAt fractional
    have kept : (float x).settleNumbers = float x := by simp [none]
    constructor
    · intro same
      have fractional' : ∀ n, second.settleNumbers ≠ integer n := by
        intro n settled
        have stands := (settleNumbers_eq_integer_iff secondAt).mp settled
        exact fractional n ((settleNumbers_eq_integer_iff firstAt).mpr (same.trans stands))
      obtain ⟨y, rfl, -, equal⟩ := settleNumbers_eq_float secondAt fractional'
      rw [Double.eq_of_extended_eq number (same.trans equal.symm) none]
    · intro same
      rw [kept] at same
      cases second with
      | integer m => cases same
      | float y =>
        rw [settleNumbers] at same
        cases whole : y.toInt64? with
        | some n =>
          rw [whole] at same
          cases same
        | none =>
          rw [whole] at same
          cases same
          exact Option.some_inj.mp secondAt
      | _ => cases secondAt

/-! ### Comparing canonical forms -/

theorem compare_eq_iff_of_rank_ne {first second : Value} (different : first.rank ≠ second.rank) :
    compareArranged first second = .eq ↔ first.settleNumbers = second.settleNumbers := by
  rw [compareArranged_of_rank_ne different, Std.LawfulEqOrd.compare_eq_iff_eq]
  refine ⟨fun same => absurd same different, fun same => ?_⟩
  rw [← rank_settleNumbers first, same, rank_settleNumbers second]

theorem compare_eq_iff_of_place? {first second : Value} {place place' : Extended}
    (firstAt : first.place? = some place) (secondAt : second.place? = some place')
    (number : first.containsNaN = false) :
    compareArranged first second = .eq ↔ first.settleNumbers = second.settleNumbers := by
  rw [compareArranged_of_place? firstAt secondAt, Extended.compare_eq_iff,
    place_eq_iff firstAt secondAt number]

mutual

/-- Arranged values without NaN compare as equal exactly if settling their numbers gives the
same value. -/
theorem compareArranged_eq_iff : ∀ first second : Value, first.containsNaN = false →
    second.containsNaN = false →
    (compareArranged first second = .eq ↔ first.settleNumbers = second.settleNumbers)
  | .array items, second, number, number' => by
    cases second with
    | array items' =>
      rw [compareArranged, settleNumbers, settleNumbers, array.injEq]
      exact compareItems_eq_iff items items' number number'
    | _ => exact compare_eq_iff_of_rank_ne (of_decide_eq_false rfl)
  | .map fields, second, number, number' => by
    cases second with
    | map fields' =>
      rw [compareArranged, settleNumbers, settleNumbers, map.injEq]
      exact compareFields_eq_iff fields fields' number number'
    | _ => exact compare_eq_iff_of_rank_ne (of_decide_eq_false rfl)
  | .integer n, second, number, number' => by
    cases second with
    | integer _ | float _ => exact compare_eq_iff_of_place? rfl rfl number
    | _ => exact compare_eq_iff_of_rank_ne (of_decide_eq_false rfl)
  | .float x, second, number, number' => by
    cases second with
    | integer _ | float _ => exact compare_eq_iff_of_place? rfl rfl number
    | _ => exact compare_eq_iff_of_rank_ne (of_decide_eq_false rfl)
  | .null, second, number, number' => by
    cases second with
    | null => exact iff_of_true rfl rfl
    | _ => exact compare_eq_iff_of_rank_ne (of_decide_eq_false rfl)
  | .bool flag, second, number, number' => by
    cases second with
    | bool flag' =>
      rw [compareArranged, Std.LawfulEqOrd.compare_eq_iff_eq]
      exact ⟨congrArg bool, bool.inj⟩
    | _ => exact compare_eq_iff_of_rank_ne (of_decide_eq_false rfl)
  | .text content, second, number, number' => by
    cases second with
    | text content' =>
      rw [compareArranged, Std.LawfulEqOrd.compare_eq_iff_eq]
      exact ⟨congrArg text, text.inj⟩
    | _ => exact compare_eq_iff_of_rank_ne (of_decide_eq_false rfl)
  | .bytes content, second, number, number' => by
    cases second with
    | bytes content' =>
      rw [compareArranged, Std.LawfulEqOrd.compare_eq_iff_eq]
      exact ⟨congrArg bytes, bytes.inj⟩
    | _ => exact compare_eq_iff_of_rank_ne (of_decide_eq_false rfl)

theorem compareItems_eq_iff : ∀ first second : List Value, itemsContainNaN first = false →
    itemsContainNaN second = false →
    (compareItems first second = .eq ↔ settleItems first = settleItems second)
  | [], [], _, _ => iff_of_true rfl rfl
  | [], _ :: _, _, _ | _ :: _, [], _, _ => iff_of_false nofun nofun
  | first :: firstRest, second :: secondRest, number, number' => by
    rw [itemsContainNaN, Bool.or_eq_false_iff] at number number'
    rw [compareItems, Ordering.then_eq_eq, settleItems, settleItems, List.cons.injEq,
      compareArranged_eq_iff first second number.1 number'.1,
      compareItems_eq_iff firstRest secondRest number.2 number'.2]

theorem compareFields_eq_iff : ∀ first second : List (String × Value),
    fieldsContainNaN first = false → fieldsContainNaN second = false →
    (compareFields first second = .eq ↔ settleFields first = settleFields second)
  | [], [], _, _ => iff_of_true rfl rfl
  | [], _ :: _, _, _ | _ :: _, [], _, _ => iff_of_false nofun nofun
  | (firstName, first) :: firstRest, (secondName, second) :: secondRest, number, number' => by
    rw [fieldsContainNaN, Bool.or_eq_false_iff] at number number'
    rw [compareFields, Ordering.then_eq_eq, Ordering.then_eq_eq, settleFields, settleFields,
      List.cons.injEq, Prod.mk.injEq, Std.LawfulEqOrd.compare_eq_iff_eq,
      compareArranged_eq_iff first second number.1 number'.1,
      compareFields_eq_iff firstRest secondRest number.2 number'.2]

end

/-- Values without NaN compare as equal exactly if they have one canonical form. -/
theorem compareKey_eq_iff {first second : Value} (number : first.containsNaN = false)
    (number' : second.containsNaN = false) :
    first.compareKey second = .eq ↔ first.normalize = second.normalize := by
  exact compareArranged_eq_iff first.arrange second.arrange (by simpa using number)
    (by simpa using number')

end IndexedStore.Value
