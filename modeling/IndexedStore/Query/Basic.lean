/-
This file defines queries: conditions on fields, all of which a row has to meet. A
condition asks for one value or sets up to five operators. Conditions keep the
order in which they were given. Building a query replaces a condition that the
field already has; reading one from a map keeps every field, repeated or not.
-/

import IndexedStore.Json.Reader

namespace IndexedStore

/-- The operators that a condition may set on a field. -/
structure Operators where
  /-- The field is below the value. -/
  lt : Option Value := none
  /-- The field is at most the value. -/
  lte : Option Value := none
  /-- The field is above the value. -/
  gt : Option Value := none
  /-- The field is at least the value. -/
  gte : Option Value := none
  /-- The field differs from the value. -/
  ne : Option Value := none

namespace Operators

/-- Sets the operator that a name stands for. Other names set nothing. -/
def setNamed (operators : Operators) (name : String) (value : Value) : Operators :=
  if name = "$lt" then { operators with lt := some value }
  else if name = "$lte" then { operators with lte := some value }
  else if name = "$gt" then { operators with gt := some value }
  else if name = "$gte" then { operators with gte := some value }
  else if name = "$ne" then { operators with ne := some value }
  else operators

/-- The operators that fields name, where a later field of a name counts. -/
def ofFields (fields : List (String × Value)) : Operators :=
  fields.foldl (fun operators field => operators.setNamed field.1 field.2) {}

/-- Operators are the same when they set the same ones, to values that are the same. -/
instance : BEq Operators where
  beq first second :=
    first.lt == second.lt && first.lte == second.lte && first.gt == second.gt &&
      first.gte == second.gte && first.ne == second.ne

end Operators

/-- What a query asks of one field. -/
inductive Condition where
  /-- The field equals the value. -/
  | equals (value : Value)
  /-- The field satisfies every operator that is set. -/
  | satisfies (operators : Operators)

namespace Condition

/-- A map sets operators, and any other value is asked for itself. -/
def ofValue : Value → Condition
  | .map fields => satisfies (Operators.ofFields fields)
  | value => equals value

/-- Conditions are the same when they are of one kind and ask for the same values. -/
instance : BEq Condition where
  beq
    | equals first, equals second => first == second
    | satisfies first, satisfies second => first == second
    | _, _ => false

end Condition

/-- A conjunction of conditions on fields. -/
structure Query where
  /-- The conditions with their fields, in the order in which they were given. -/
  conditions : List (String × Condition) := []

namespace Query

/-! ### Building -/

/-- Puts a condition on a field in place of the one it has. -/
def withCondition (query : Query) (name : String) (condition : Condition) : Query :=
  ⟨assign name condition query.conditions⟩

/-- Asks for a value. -/
def withEqual (query : Query) (name : String) (value : Value) : Query :=
  query.withCondition name (.equals value)

/-- Sets all operators of a field at once. -/
def withOperators (query : Query) (name : String) (operators : Operators) : Query :=
  query.withCondition name (.satisfies operators)

/-- The operators that a field has so far. An equality has none. -/
def operatorsOf (query : Query) (name : String) : Operators :=
  match query.conditions.lookup name with
  | some (.satisfies operators) => operators
  | _ => {}

/-- Sets one more operator of a field. An equality on the field gives way to it. -/
def withOperator (query : Query) (name : String) (set : Operators → Operators) : Query :=
  query.withOperators name (set (query.operatorsOf name))

/-- Asks for values below a bound. -/
def withLess (query : Query) (name : String) (value : Value) : Query :=
  query.withOperator name fun operators => { operators with lt := some value }

/-- Asks for values up to a bound. -/
def withAtMost (query : Query) (name : String) (value : Value) : Query :=
  query.withOperator name fun operators => { operators with lte := some value }

/-- Asks for values above a bound. -/
def withGreater (query : Query) (name : String) (value : Value) : Query :=
  query.withOperator name fun operators => { operators with gt := some value }

/-- Asks for values from a bound on. -/
def withAtLeast (query : Query) (name : String) (value : Value) : Query :=
  query.withOperator name fun operators => { operators with gte := some value }

/-- Asks for any other value. -/
def withNotEqual (query : Query) (name : String) (value : Value) : Query :=
  query.withOperator name fun operators => { operators with ne := some value }

/-! ### Reading -/

/-- The query of a map: one condition for every field. -/
def ofFields (fields : List (String × Value)) : Query :=
  ⟨fields.map fun field => (field.1, Condition.ofValue field.2)⟩

/-- The query of a value, which has to be a map. -/
def ofValue (value : Value) : Except CodecError Query :=
  match value with
  | .map fields => .ok (ofFields fields)
  | other => .error (.unexpectedType "map" other.typeName)

/-- Reads a query from JSON text. -/
def readJson (text : String) : Except Json.ReadError Query :=
  Json.readAs (fun value => (ofValue value).mapError CodecError.message) text

/-! ### Properties -/

/-- The number of conditions. -/
def size (query : Query) : Nat := query.conditions.length

/-- Whether nothing is asked. -/
def isEmpty (query : Query) : Bool := query.conditions.isEmpty

/-- Queries are the same when they have equally many conditions and each one of the
first is among those of the second. -/
instance : BEq Query where
  beq first second :=
    first.size == second.size &&
      first.conditions.all fun wanted =>
        second.conditions.any fun offered => offered.1 == wanted.1 && offered.2 == wanted.2

end Query

end IndexedStore
