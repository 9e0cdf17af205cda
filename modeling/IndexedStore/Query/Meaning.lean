/-
This file says which rows a query means, row by row and without indexes. A field
counts only if it is there and its value may be an index key, values are compared in
key order, and every bound that is set is checked for itself.

A row is left out by values to be avoided only if it has all of them, each in its
field: avoiding two values leaves out the rows that have both.
-/

import IndexedStore.Query.Basic

namespace IndexedStore

/-- The value of a field, if it may be an index key. -/
def Row.indexable? (row : Row) (name : String) : Option Value :=
  (row.get? name).filter Value.isIndexable

namespace Operators

/-- Whether a bound is set. -/
def isBounded (operators : Operators) : Bool :=
  operators.lt.isSome || operators.lte.isSome || operators.gt.isSome || operators.gte.isSome

/-- Whether a value is within every bound that is set. -/
def admits (operators : Operators) (value : Value) : Bool :=
  operators.gt.all (fun bound => (value.compareKey bound).isGT) &&
    operators.gte.all (fun bound => (value.compareKey bound).isGE) &&
    operators.lt.all (fun bound => (value.compareKey bound).isLT) &&
    operators.lte.all (fun bound => (value.compareKey bound).isLE)

end Operators

namespace Condition

/-- Whether a field with the given value, or without one, meets a condition. Values to
be avoided are not looked at. -/
def admits (condition : Condition) (value : Option Value) : Bool :=
  match condition with
  | equals wanted => value.any fun value => value == wanted
  | satisfies operators => !operators.isBounded || value.any operators.admits

/-- The value that a condition avoids. -/
def avoided? : Condition → Option Value
  | equals _ => none
  | satisfies operators => operators.ne

end Condition

namespace Query

/-- The values to be avoided, with their fields. -/
def avoided (query : Query) : List (String × Value) :=
  query.conditions.filterMap fun entry => entry.2.avoided?.map fun value => (entry.1, value)

/-- Whether a row meets every condition. -/
def includes (query : Query) (row : Row) : Bool :=
  query.conditions.all fun entry => entry.2.admits (row.indexable? entry.1)

/-- Whether there are values to be avoided and a row has all of them. -/
def excludes (query : Query) (row : Row) : Bool :=
  !query.avoided.isEmpty &&
    query.avoided.all fun entry =>
      (row.indexable? entry.1).any fun value => value == entry.2

/-- Whether a query means a row. -/
def accepts (query : Query) (row : Row) : Bool := query.includes row && !query.excludes row

/-- The rows that a query means, in the order in which they are given. -/
def filter (query : Query) (rows : List Row) : List Row := rows.filter query.accepts

end Query

end IndexedStore
