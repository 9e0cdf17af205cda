/-
This file turns a query into index scans. An equality and the bounds of an operator
set each become one clause whose rows the answer must have; a value to be avoided
becomes a clause whose rows are taken away.

The up to four bounds on a field collapse into one range: on each side the tighter
bound counts, and of two bounds at one value the one that leaves it out.
-/

import IndexedStore.KeyRange
import IndexedStore.Query.Basic

namespace IndexedStore

/-- The shape of a clause. -/
inductive ClauseKind where
  | equality
  | lowerBound
  | upperBound
  | range
  | notEqual
deriving DecidableEq

/-- One scan of the index on a field. -/
structure Clause where
  /-- The field whose index is scanned. -/
  field : String
  /-- The shape of the clause. -/
  kind : ClauseKind
  /-- The keys to visit. -/
  range : KeyRange

namespace Clause

/-- The form of a clause in messages. -/
def display (clause : Clause) : String :=
  match clause.kind, clause.range with
  | .notEqual, .only value => clause.field ++ " != " ++ value.display
  | _, range => clause.field ++ " " ++ range.display

instance : BEq Clause where
  beq first second :=
    first.field == second.field && first.kind == second.kind && first.range == second.range

end Clause

/-- The scans of a query. -/
structure Plan where
  /-- Clauses whose rows the answer must have. -/
  inclusions : List Clause
  /-- Clauses whose rows are taken away. -/
  exclusions : List Clause

namespace Plan

/-- Whether there is nothing to scan. -/
def isEmpty (plan : Plan) : Bool := plan.inclusions.isEmpty && plan.exclusions.isEmpty

/-- All clauses, inclusions first. -/
def clauses (plan : Plan) : List Clause := plan.inclusions ++ plan.exclusions

instance : BEq Plan where
  beq first second :=
    first.inclusions == second.inclusions && first.exclusions == second.exclusions

end Plan

namespace Operators

/-- The tighter of a bound that leaves its value out and one that does not, where the
first is looser when it compares as `loose` to the second. -/
def tighter (exclusive inclusive : Option Value) (loose : Ordering) : Option (Value × Bool) :=
  match exclusive, inclusive with
  | some outer, some inner =>
    if outer.compareKey inner = loose then some (inner, false) else some (outer, true)
  | some outer, none => some (outer, true)
  | none, some inner => some (inner, false)
  | none, none => none

/-- The lower bound of the values that satisfy the operators. -/
def lower (operators : Operators) : Option (Value × Bool) :=
  tighter operators.gt operators.gte .lt

/-- The upper bound of the values that satisfy the operators. -/
def upper (operators : Operators) : Option (Value × Bool) :=
  tighter operators.lt operators.lte .gt

/-- The clause of the bounds, if there are any. -/
def boundClause? (operators : Operators) (field : String) : Option Clause :=
  match operators.lower, operators.upper with
  | some (lower, lowerOpen), some (upper, upperOpen) =>
    some ⟨field, .range, .between lower upper lowerOpen upperOpen⟩
  | some (value, isOpen), none => some ⟨field, .lowerBound, .above value isOpen⟩
  | none, some (value, isOpen) => some ⟨field, .upperBound, .below value isOpen⟩
  | none, none => none

end Operators

namespace Condition

/-- The clause whose rows the answer must have, if the condition has one. -/
def inclusion? (condition : Condition) (field : String) : Option Clause :=
  match condition with
  | equals value => some ⟨field, .equality, .only value⟩
  | satisfies operators => operators.boundClause? field

/-- The clause whose rows are taken away, if the condition has one. -/
def exclusion? (condition : Condition) (field : String) : Option Clause :=
  match condition with
  | equals _ => none
  | satisfies operators => operators.ne.map fun value => ⟨field, .notEqual, .only value⟩

end Condition

/-- The scans of a query, in the order of its conditions. -/
def Query.plan (query : Query) : Plan where
  inclusions := query.conditions.filterMap fun entry => entry.2.inclusion? entry.1
  exclusions := query.conditions.filterMap fun entry => entry.2.exclusion? entry.1

end IndexedStore
