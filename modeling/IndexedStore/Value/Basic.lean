/-
This file defines the values that fields of a row hold. Rows have no schema
beyond their key column, so every field may hold any of these shapes, nested
without limit. Maps keep their fields in order and may repeat a name.
-/

import IndexedStore.Number.Rounding

namespace IndexedStore

/-- A field value. -/
inductive Value where
  | null
  | bool (flag : Bool)
  | integer (number : Int64)
  | float (number : Double)
  | text (text : String)
  | bytes (bytes : List UInt8)
  | array (items : List Value)
  | map (fields : List (String × Value))
deriving Inhabited

namespace Value

/-! ### Kinds -/

/-- The name of a value's kind, as messages use it. -/
def typeName : Value → String
  | null => "null"
  | bool _ => "bool"
  | integer _ => "integer"
  | float _ => "float"
  | text _ => "text"
  | bytes _ => "bytes"
  | array _ => "array"
  | map _ => "map"

/-- Whether a value is null. -/
def isNull : Value → Bool
  | null => true
  | _ => false

/-- Whether a value is a number. Integers and floats are of one kind for ordering. -/
def isNumber : Value → Bool
  | integer _ | float _ => true
  | _ => false

/-! ### Contents -/

/-- The flag of a boolean. -/
def asBool? : Value → Option Bool
  | bool flag => some flag
  | _ => none

/-- The number of an integer. -/
def asInteger? : Value → Option Int64
  | integer number => some number
  | _ => none

/-- The number of an integer or a float as a double, the nearest one if the integer
has too many digits. -/
def asDouble? : Value → Option Double
  | integer number => some (Double.ofInt number.toInt)
  | float number => some number
  | _ => none

/-- The content of a text. -/
def asText? : Value → Option String
  | text content => some content
  | _ => none

/-- The content of a byte string. -/
def asBytes? : Value → Option (List UInt8)
  | bytes content => some content
  | _ => none

/-- The items of an array. -/
def asArray? : Value → Option (List Value)
  | array items => some items
  | _ => none

/-- The fields of a map. -/
def asMap? : Value → Option (List (String × Value))
  | map fields => some fields
  | _ => none

/-- The first field of that name in a map. -/
def get? (value : Value) (name : String) : Option Value :=
  value.asMap?.bind fun fields => fields.lookup name

/-! ### Use as a key -/

mutual

/-- Whether a value may be an index key. Maps and NaN may not, nor an array that
holds one of them. -/
@[simp]
def isIndexable : Value → Bool
  | map _ => false
  | float number => !number.isNaN
  | array items => itemsIndexable items
  | _ => true

/-- Whether every item of an array may be an index key. -/
@[simp]
def itemsIndexable : List Value → Bool
  | [] => true
  | item :: rest => item.isIndexable && itemsIndexable rest

end

/-! ### NaN inside values -/

mutual

/-- Whether NaN occurs in a value at any depth. -/
@[simp]
def containsNaN : Value → Bool
  | float number => number.isNaN
  | array items => itemsContainNaN items
  | map fields => fieldsContainNaN fields
  | _ => false

/-- Whether NaN occurs in one of the items. -/
@[simp]
def itemsContainNaN : List Value → Bool
  | [] => false
  | item :: rest => item.containsNaN || itemsContainNaN rest

/-- Whether NaN occurs in the value of one of the fields. -/
@[simp]
def fieldsContainNaN : List (String × Value) → Bool
  | [] => false
  | (_, value) :: rest => value.containsNaN || fieldsContainNaN rest

end

end Value

end IndexedStore
