/-
This file proves that key order is a total preorder: comparing the other way round
gives the reversed result, and comparisons along a chain agree with each other.

Transitivity is carried through arrays and maps as a statement about three
comparisons at once. "At most" alone does not survive a lexicographic step, because
the tail of two lists is only looked at once their heads compare as equal; what does
survive is `Consistent`, which says how the comparison of the outer two follows from
the two comparisons with the one between them.
-/

import IndexedStore.Proofs.Number.Comparison
import IndexedStore.Value.Order

namespace IndexedStore

/-! ### Three comparisons at once -/

/-- How three comparisons hang together in a total preorder: of a first thing with a
second, of the second with a third, and of the first with the third. -/
def Consistent (near far across : Ordering) : Prop :=
  (near = .eq → across = far) ∧ (far = .eq → across = near) ∧ (near = far → across = near)

namespace Consistent

theorem of_transCmp {α : Type} (order : α → α → Ordering) [Std.TransCmp order]
    (first second third : α) :
    Consistent (order first second) (order second third) (order first third) := by
  refine ⟨Std.TransCmp.congr_left, fun far => (Std.TransCmp.congr_right far).symm,
    fun same => ?_⟩
  cases near : order first second with
  | lt => exact Std.TransCmp.lt_trans near (same.symm.trans near)
  | eq => exact (Std.TransCmp.congr_left near).trans (same.symm.trans near)
  | gt => exact Std.TransCmp.gt_trans near (same.symm.trans near)

/-- Comparisons that are refined where they find no difference stay consistent. -/
theorem next {near far across near' far' across' : Ordering} (head : Consistent near far across)
    (tail : near = .eq → far = .eq → Consistent near' far' across') :
    Consistent (near.then near') (far.then far') (across.then across') := by
  revert head tail
  cases near <;> cases far <;> cases across <;> cases near' <;> cases far' <;> cases across' <;>
    simp [Consistent]

end Consistent

/-- Consistent comparisons that reverse with their arguments are a total preorder. -/
theorem transCmp_of_consistent {α : Type} {order : α → α → Ordering}
    (swapped : ∀ first second, order first second = (order second first).swap)
    (consistent : ∀ first second third,
      Consistent (order first second) (order second third) (order first third)) :
    Std.TransCmp order where
  eq_swap := swapped _ _
  isLE_trans {first second third} near far := by
    have rule := consistent first second third
    revert near far rule
    cases order first second <;> cases order second third <;> cases order first third <;>
      simp [Consistent]

/-! ### Places on the number line -/

namespace Extended

instance : Std.TransCmp Extended.compare :=
  transCmp_of_consistent
    (fun first second => by
      rw [Extended.compare, Extended.compare, Ordering.swap_then,
        ← Std.OrientedOrd.eq_swap, ← Std.OrientedOrd.eq_swap])
    fun first second third =>
      (Consistent.of_transCmp Ord.compare first.rank second.rank third.rank).next
        fun _ _ => Consistent.of_transCmp Ord.compare _ _ _

theorem compare_swap (first second : Extended) :
    first.compare second = (second.compare first).swap :=
  Std.OrientedCmp.eq_swap

theorem compare_eq_iff {first second : Extended} :
    first.compare second = .eq ↔ first = second := by
  rw [Extended.compare, Ordering.then_eq_eq, Std.LawfulEqOrd.compare_eq_iff_eq,
    Std.LawfulEqOrd.compare_eq_iff_eq]
  cases first <;> cases second <;> simp [rank, position]

end Extended

namespace Value

/-- The place of a number on the line, and none for values of other kinds. -/
def place? : Value → Option Extended
  | integer number => some (Double.extendedOfInt number.toInt)
  | float number => some number.extended
  | _ => none

/-- Numbers of either kind compare as their places do. -/
theorem compareArranged_of_place? {first second : Value} {place place' : Extended}
    (firstAt : first.place? = some place) (secondAt : second.place? = some place') :
    compareArranged first second = place.compare place' := by
  cases first <;> cases second <;> cases firstAt <;> cases secondAt
  case integer.integer n m => rw [compareArranged, compare_extendedOfInt, compare_int64]
  case integer.float n x => exact Double.compareIntegerFloat_eq n x
  case float.integer x n =>
    rw [compareArranged, Double.compareIntegerFloat_eq, ← Extended.compare_swap]
  case float.float x y => exact Double.compareFloats_eq x y

theorem compareArranged_of_rank_ne {first second : Value} (different : first.rank ≠ second.rank) :
    compareArranged first second = Ord.compare first.rank second.rank := by
  cases first <;> cases second <;> first | rfl | exact absurd rfl different

/-! ### Reversing -/

theorem compareArranged_swap_of_place? {first second : Value} {place place' : Extended}
    (firstAt : first.place? = some place) (secondAt : second.place? = some place') :
    compareArranged first second = (compareArranged second first).swap := by
  rw [compareArranged_of_place? firstAt secondAt, compareArranged_of_place? secondAt firstAt,
    ← Extended.compare_swap]

mutual

theorem compareArranged_swap : ∀ first second : Value,
    compareArranged first second = (compareArranged second first).swap
  | .array first, .array second => by
    simpa only [compareArranged] using compareItems_swap first second
  | .map first, .map second => by
    simpa only [compareArranged] using compareFields_swap first second
  | .array _, .null | .array _, .bool _ | .array _, .integer _ | .array _, .float _
  | .array _, .text _ | .array _, .bytes _ | .array _, .map _ => rfl
  | .map _, .null | .map _, .bool _ | .map _, .integer _ | .map _, .float _
  | .map _, .text _ | .map _, .bytes _ | .map _, .array _ => rfl
  | .null, second => by cases second <;> rfl
  | .bool _, second => by
    cases second <;> first | rfl | exact Std.OrientedOrd.eq_swap
  | .integer _, second | .float _, second => by
    cases second with
    | integer _ | float _ => exact compareArranged_swap_of_place? rfl rfl
    | _ => rfl
  | .text _, second => by
    cases second <;> first | rfl | exact Std.OrientedOrd.eq_swap
  | .bytes _, second => by
    cases second <;> first | rfl | exact Std.OrientedOrd.eq_swap

theorem compareItems_swap : ∀ first second : List Value,
    compareItems first second = (compareItems second first).swap
  | [], [] | [], _ :: _ | _ :: _, [] => rfl
  | first :: firstRest, second :: secondRest => by
    rw [compareItems, compareItems, Ordering.swap_then, ← compareArranged_swap first second,
      ← compareItems_swap firstRest secondRest]

theorem compareFields_swap : ∀ first second : List (String × Value),
    compareFields first second = (compareFields second first).swap
  | [], [] | [], _ :: _ | _ :: _, [] => rfl
  | (firstName, first) :: firstRest, (secondName, second) :: secondRest => by
    rw [compareFields, compareFields, Ordering.swap_then, Ordering.swap_then,
      ← compareArranged_swap first second, ← compareFields_swap firstRest secondRest,
      ← Std.OrientedOrd.eq_swap]

end

/-! ### Chains -/

/-- Kinds are decided first. -/
theorem compareArranged_eq_then (first second : Value) :
    compareArranged first second =
      (Ord.compare first.rank second.rank).then (compareArranged first second) := by
  by_cases same : first.rank = second.rank
  · rw [same, Std.ReflOrd.compare_self, Ordering.then]
  · rw [compareArranged_of_rank_ne same]
    cases Ord.compare first.rank second.rank <;> rfl

/-- Only values of one kind have to be looked at. -/
theorem consistent_of_same_rank {first second third : Value}
    (scalars : first.rank = second.rank → second.rank = third.rank →
      Consistent (compareArranged first second) (compareArranged second third)
        (compareArranged first third)) :
    Consistent (compareArranged first second) (compareArranged second third)
      (compareArranged first third) := by
  rw [compareArranged_eq_then first second, compareArranged_eq_then second third,
    compareArranged_eq_then first third]
  refine (Consistent.of_transCmp Ord.compare _ _ _).next fun near far => scalars ?_ ?_
  · exact Std.LawfulEqOrd.eq_of_compare near
  · exact Std.LawfulEqOrd.eq_of_compare far

theorem place?_of_rank_two {value : Value} (rank : value.rank = 2) :
    ∃ place, value.place? = some place := by
  cases value <;> first | exact ⟨_, rfl⟩ | cases rank

theorem numbers_consistent {first second third : Value} {place : Extended}
    (number : first.place? = some place) (near : second.rank = 2) (far : third.rank = 2) :
    Consistent (compareArranged first second) (compareArranged second third)
      (compareArranged first third) := by
  obtain ⟨secondPlace, second⟩ := place?_of_rank_two near
  obtain ⟨thirdPlace, third⟩ := place?_of_rank_two far
  rw [compareArranged_of_place? number second, compareArranged_of_place? second third,
    compareArranged_of_place? number third]
  exact Consistent.of_transCmp _ _ _ _

mutual

theorem compareArranged_consistent : ∀ first second third : Value,
    Consistent (compareArranged first second) (compareArranged second third)
      (compareArranged first third)
  | .null, second, third => consistent_of_same_rank fun near far => by
    cases second <;> cases near
    cases third <;> cases far
    exact Consistent.of_transCmp Ord.compare 0 0 0
  | .bool flag, second, third => consistent_of_same_rank fun near far => by
    cases second <;> cases near
    cases third <;> cases far
    exact Consistent.of_transCmp Ord.compare _ _ _
  | .integer number, second, third => consistent_of_same_rank fun near far =>
    numbers_consistent rfl near.symm (far.symm.trans near.symm)
  | .float number, second, third => consistent_of_same_rank fun near far =>
    numbers_consistent rfl near.symm (far.symm.trans near.symm)
  | .text content, second, third => consistent_of_same_rank fun near far => by
    cases second <;> cases near
    cases third <;> cases far
    exact Consistent.of_transCmp Ord.compare _ _ _
  | .bytes content, second, third => consistent_of_same_rank fun near far => by
    cases second <;> cases near
    cases third <;> cases far
    exact Consistent.of_transCmp Ord.compare _ _ _
  | .array items, second, third => consistent_of_same_rank fun near far => by
    cases second <;> cases near
    cases third <;> cases far
    simpa only [compareArranged] using compareItems_consistent items _ _
  | .map fields, second, third => consistent_of_same_rank fun near far => by
    cases second <;> cases near
    cases third <;> cases far
    simpa only [compareArranged] using compareFields_consistent fields _ _

theorem compareItems_consistent : ∀ first second third : List Value,
    Consistent (compareItems first second) (compareItems second third)
      (compareItems first third)
  | first :: firstRest, second :: secondRest, third :: thirdRest => by
    simp only [compareItems]
    exact (compareArranged_consistent first second third).next fun _ _ =>
      compareItems_consistent firstRest secondRest thirdRest
  | [], [], [] | [], [], _ :: _ | [], _ :: _, [] | [], _ :: _, _ :: _ | _ :: _, [], []
  | _ :: _, [], _ :: _ | _ :: _, _ :: _, [] => by
    simp +contextual [compareItems, Consistent]

theorem compareFields_consistent : ∀ first second third : List (String × Value),
    Consistent (compareFields first second) (compareFields second third)
      (compareFields first third)
  | (firstName, first) :: firstRest, (secondName, second) :: secondRest,
    (thirdName, third) :: thirdRest => by
    simp only [compareFields]
    have names := Consistent.of_transCmp Ord.compare firstName secondName thirdName
    have fields := names.next fun _ _ => compareArranged_consistent first second third
    exact fields.next fun _ _ => compareFields_consistent firstRest secondRest thirdRest
  | [], [], [] | [], [], _ :: _ | [], _ :: _, [] | [], _ :: _, _ :: _ | _ :: _, [], []
  | _ :: _, [], _ :: _ | _ :: _, _ :: _, [] => by
    simp +contextual [compareFields, Consistent]

end

/-! ### The order of keys -/

instance : Std.TransCmp compareArranged :=
  transCmp_of_consistent compareArranged_swap compareArranged_consistent

instance : Std.TransCmp compareKey where
  eq_swap := compareArranged_swap _ _
  isLE_trans near far := @Std.TransCmp.isLE_trans _ compareArranged _ _ _ _ near far

instance : Std.TransOrd Value := inferInstanceAs (Std.TransCmp compareKey)

theorem beq_iff {first second : Value} : first == second ↔ first.compareKey second = .eq := by
  show (compareKey first second).isEq ↔ _
  cases compareKey first second <;> simp

instance : EquivBEq Value where
  rfl := beq_iff.mpr (@Std.ReflCmp.compare_self _ compareKey _ _)
  symm same := beq_iff.mpr (Std.OrientedCmp.eq_symm (beq_iff.mp same))
  trans near far := beq_iff.mpr (Std.TransCmp.eq_trans (beq_iff.mp near) (beq_iff.mp far))

end Value
end IndexedStore
