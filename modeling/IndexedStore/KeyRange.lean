/-
This file defines ranges of keys: the keys that a scan of an index visits. A range
has up to two bounds, each of which may leave out the bound itself. A range whose
bounds leave no room has no edges, and a scan of it visits nothing.
-/

import IndexedStore.Proofs.Value.KeyOrder
import IndexedStore.Value.Display

namespace IndexedStore

/-- A range of keys. An open bound leaves out the bound itself. -/
inductive KeyRange where
  /-- Exactly one key. -/
  | only (value : Value)
  /-- The keys above a bound. -/
  | above (value : Value) (isOpen : Bool)
  /-- The keys below a bound. -/
  | below (value : Value) (isOpen : Bool)
  /-- The keys between two bounds. -/
  | between (lower upper : Value) (lowerOpen upperOpen : Bool)

/-- One end of a range. -/
inductive Edge where
  | unbounded
  | included (value : Value)
  | excluded (value : Value)

namespace Edge

/-- The edge at a bound. -/
def ofBound (value : Value) (isOpen : Bool) : Edge :=
  if isOpen then excluded value else included value

/-- Whether a key is on the inner side of a lower edge. -/
def admitsFromBelow (edge : Edge) (key : Value) : Bool :=
  match edge with
  | unbounded => true
  | included value => (key.compareKey value).isGE
  | excluded value => (key.compareKey value).isGT

/-- Whether a key is on the inner side of an upper edge. -/
def admitsFromAbove (edge : Edge) (key : Value) : Bool :=
  match edge with
  | unbounded => true
  | included value => (key.compareKey value).isLE
  | excluded value => (key.compareKey value).isLT

/-- The value at an edge, and whether it is left out. -/
def bound? : Edge → Option (Value × Bool)
  | unbounded => none
  | included value => some (value, false)
  | excluded value => some (value, true)

/-- Whether two edges can be the ends of a stretch of keys: the lower one is not
above the upper one, and edges at one value do not both leave it out. -/
def ordered (low high : Edge) : Bool :=
  match low.bound?, high.bound? with
  | some (lower, lowerOpen), some (upper, upperOpen) =>
    match lower.compareKey upper with
    | .lt => true
    | .eq => !(lowerOpen && upperOpen)
    | .gt => false
  | _, _ => true

end Edge

namespace KeyRange

/-- The edges of a range, or nothing if no key can lie in it: the bounds are the wrong
way round, or they are equal and one of them is left out. -/
def edges? : KeyRange → Option (Edge × Edge)
  | only value => some (.included value, .included value)
  | above value isOpen => some (.ofBound value isOpen, .unbounded)
  | below value isOpen => some (.unbounded, .ofBound value isOpen)
  | between lower upper lowerOpen upperOpen =>
    match lower.compareKey upper with
    | .gt => none
    | .eq =>
      if lowerOpen || upperOpen then none
      else some (.ofBound lower lowerOpen, .ofBound upper upperOpen)
    | .lt => some (.ofBound lower lowerOpen, .ofBound upper upperOpen)

theorem bound?_ofBound (value : Value) (isOpen : Bool) :
    (Edge.ofBound value isOpen).bound? = some (value, isOpen) := by
  cases isOpen <;> rfl

/-- The edges of a range are in order. -/
theorem ordered_of_edges? {range : KeyRange} {low high : Edge}
    (edges : range.edges? = some (low, high)) :
    Edge.ordered low high := by
  cases range with
  | only value =>
    cases edges
    simp only [Edge.ordered, Edge.bound?, @Std.ReflCmp.compare_self _ Value.compareKey]
    rfl
  | above value isOpen =>
    cases edges
    cases isOpen <;> rfl
  | below value isOpen =>
    cases edges
    rfl
  | between lower upper lowerOpen upperOpen =>
    rw [edges?] at edges
    split at edges
    · cases edges
    · rename_i same
      split at edges
      · cases edges
      · rename_i closed
        cases edges
        rw [Bool.or_eq_true, not_or] at closed
        simp only [Edge.ordered, bound?_ofBound, same]
        simp [closed]
    · rename_i before
      cases edges
      simp only [Edge.ordered, bound?_ofBound, before]

/-- Whether a key lies in the range. -/
def contains (range : KeyRange) (key : Value) : Bool :=
  match range.edges? with
  | some (low, high) => low.admitsFromBelow key && high.admitsFromAbove key
  | none => false

/-- The form of a range in messages. -/
def display : KeyRange → String
  | only value => "= " ++ value.display
  | above value isOpen => (if isOpen then "> " else ">= ") ++ value.display
  | below value isOpen => (if isOpen then "< " else "<= ") ++ value.display
  | between lower upper lowerOpen upperOpen =>
    (if lowerOpen then "(" else "[") ++ lower.display ++ ", " ++ upper.display ++
      (if upperOpen then ")" else "]")

/-- Ranges are the same when they are of one shape, with bounds that are the same. -/
instance : BEq KeyRange where
  beq
    | only first, only second => first == second
    | above first firstOpen, above second secondOpen =>
      first == second && firstOpen == secondOpen
    | below first firstOpen, below second secondOpen =>
      first == second && firstOpen == secondOpen
    | between lower upper lowerOpen upperOpen, between lower' upper' lowerOpen' upperOpen' =>
      lower == lower' && upper == upper' && lowerOpen == lowerOpen' && upperOpen == upperOpen'
    | _, _ => false

end KeyRange

end IndexedStore
