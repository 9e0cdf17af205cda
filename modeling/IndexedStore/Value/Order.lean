/-
This file defines the order of index keys. It ranks the kinds of value, compares
numbers exactly across integers and floats, texts and byte strings bytewise, and
arrays item by item. Maps are compared by their fields after sorting them by name,
so that the order in which a map was filled has no influence.

Sorting comes first and comparing second: `arrange` sorts the fields of every map
in a value once, and arranged values are compared structurally.
-/

import IndexedStore.Value.Basic

namespace IndexedStore

/-- The order of field names in an arranged map: shorter names first, names of one
length bytewise. -/
def compareNames (first second : String) : Ordering :=
  (compare first.utf8ByteSize second.utf8ByteSize).then (compare first second)

/-- Puts a field in front of the first field whose name does not come before its own. -/
def insertField (field : String × Value) : List (String × Value) → List (String × Value)
  | [] => [field]
  | head :: rest =>
    if (compareNames field.1 head.1).isLE then field :: head :: rest
    else head :: insertField field rest

namespace Value

/-! ### Arranging -/

mutual

/-- Sorts the fields of every map in a value. Fields of one name keep their order. -/
@[simp]
def arrange : Value → Value
  | array items => array (arrangeItems items)
  | map fields => map (arrangeFields fields)
  | value => value

/-- Arranges every item. -/
@[simp]
def arrangeItems : List Value → List Value
  | [] => []
  | item :: rest => item.arrange :: arrangeItems rest

/-- Arranges every field's value and sorts the fields. -/
@[simp]
def arrangeFields : List (String × Value) → List (String × Value)
  | [] => []
  | (name, value) :: rest => insertField (name, value.arrange) (arrangeFields rest)

end

/-! ### Comparing -/

/-- The place of a value's kind. Integers and floats share one. -/
@[simp]
def rank : Value → Nat
  | null => 0
  | bool _ => 1
  | integer _ | float _ => 2
  | text _ => 3
  | bytes _ => 4
  | array _ => 5
  | map _ => 6

mutual

/-- Compares two arranged values. -/
def compareArranged : Value → Value → Ordering
  | bool first, bool second => compare first second
  | integer first, integer second => compare first second
  | integer first, float second => Double.compareIntegerFloat first second
  | float first, integer second => (Double.compareIntegerFloat second first).swap
  | float first, float second => Double.compareFloats first second
  | text first, text second => compare first second
  | bytes first, bytes second => compare first second
  | array first, array second => compareItems first second
  | map first, map second => compareFields first second
  | first, second => compare first.rank second.rank

/-- Compares arrays item by item; a proper beginning comes first. -/
def compareItems : List Value → List Value → Ordering
  | [], [] => .eq
  | [], _ :: _ => .lt
  | _ :: _, [] => .gt
  | first :: firstRest, second :: secondRest =>
    (compareArranged first second).then (compareItems firstRest secondRest)

/-- Compares sorted fields one by one, by name and then by value; a proper beginning
comes first. -/
def compareFields : List (String × Value) → List (String × Value) → Ordering
  | [], [] => .eq
  | [], _ :: _ => .lt
  | _ :: _, [] => .gt
  | (firstName, first) :: firstRest, (secondName, second) :: secondRest =>
    ((compare firstName secondName).then (compareArranged first second)).then
      (compareFields firstRest secondRest)

end

/-- The order of index keys. -/
def compareKey (first second : Value) : Ordering :=
  compareArranged first.arrange second.arrange

instance : Ord Value := ⟨compareKey⟩

/-- Values are the same when neither comes before the other: an integer equals the
float of the same number, and maps with the same fields are equal in any order. -/
instance : BEq Value := ⟨fun first second => (compareKey first second).isEq⟩

/-- Values in ascending key order. Values that are the same keep their order. -/
def sort (values : List Value) : List Value :=
  values.mergeSort fun first second => (compareKey first second).isLE

end Value

end IndexedStore
