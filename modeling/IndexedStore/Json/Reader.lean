/-
This file reads JSON text as values. The grammar is the strict one. Integers within
64 bits are integers, and every other number is the nearest float; fields keep
their order and may repeat a name. Arrays and objects may nest 127 deep, and the
nesting that is still allowed is the argument on which reading recurses.

A step of reading takes the characters that are left and gives a result and the
characters after it, or nothing when they follow no rule of the grammar.
-/

import IndexedStore.Number.Rounding
import IndexedStore.Row

namespace IndexedStore.Json

/-- A step of reading. -/
abbrev Step (α : Type) := List Char → Option (α × List Char)

/-! ### Blanks -/

/-- The four characters that may stand between parts of the text. -/
def isBlank (c : Char) : Bool := c = ' ' || c = '\n' || c = '\t' || c = '\r'

/-- Passes over blanks. -/
def skipBlanks (chars : List Char) : List Char := chars.dropWhile isBlank

/-! ### Texts -/

/-- The value of a hexadecimal digit, in either case. -/
def hexValue? (c : Char) : Option Nat :=
  if '0' ≤ c ∧ c ≤ '9' then some (c.toNat - 48)
  else if 'a' ≤ c ∧ c ≤ 'f' then some (c.toNat - 87)
  else if 'A' ≤ c ∧ c ≤ 'F' then some (c.toNat - 55)
  else none

/-- The number of four hexadecimal digits. -/
def codeUnit? (a b c d : Char) : Option Nat := do
  return (((← hexValue? a) * 16 + (← hexValue? b)) * 16 + (← hexValue? c)) * 16 + (← hexValue? d)

/-- The character of a pair of surrogate code units. -/
def ofSurrogates? (high low : Nat) : Option Char :=
  if 0xd800 ≤ high ∧ high < 0xdc00 ∧ 0xdc00 ≤ low ∧ low < 0xe000 then
    some (Char.ofNat (0x10000 + (high - 0xd800) * 0x400 + (low - 0xdc00)))
  else none

/-- The character of a code unit that is no surrogate. -/
def ofCodeUnit? (unit : Nat) : Option Char :=
  if 0xd800 ≤ unit ∧ unit < 0xe000 then none else some (Char.ofNat unit)

/-- The character that stands for itself after a backslash, or that its letter names. -/
def unescape? (c : Char) : Option Char :=
  match c with
  | '"' => some '"'
  | '\\' => some '\\'
  | '/' => some '/'
  | 'b' => some (Char.ofNat 8)
  | 'f' => some (Char.ofNat 12)
  | 'n' => some '\n'
  | 'r' => some '\r'
  | 't' => some '\t'
  | _ => none

/-- The characters of a text after its opening quote, up to the closing one. -/
def readChars : Step (List Char)
  | '"' :: rest => some ([], rest)
  | '\\' :: 'u' :: a :: b :: c :: d :: rest =>
    match (codeUnit? a b c d).bind ofCodeUnit? with
    | some char => (readChars rest).map fun (chars, rest) => (char :: chars, rest)
    | none =>
      match rest with
      | '\\' :: 'u' :: e :: f :: g :: h :: rest =>
        match codeUnit? a b c d, codeUnit? e f g h with
        | some high, some low =>
          match ofSurrogates? high low with
          | some char => (readChars rest).map fun (chars, rest) => (char :: chars, rest)
          | none => none
        | _, _ => none
      | _ => none
  | '\\' :: c :: rest =>
    match unescape? c with
    | some char => (readChars rest).map fun (chars, rest) => (char :: chars, rest)
    | none => none
  | c :: rest =>
    if c.toNat < 32 ∨ c = '\\' then none
    else (readChars rest).map fun (chars, rest) => (c :: chars, rest)
  | [] => none

/-- A text, from its opening quote on. -/
def readText : Step String
  | '"' :: rest => (readChars rest).map fun (chars, rest) => (String.ofList chars, rest)
  | _ => none

/-! ### Numbers -/

/-- Whether a character is a decimal digit. -/
def isDigit (c : Char) : Bool := decide ('0' ≤ c) && decide (c ≤ '9')

/-- The number that decimal digits denote. -/
def ofDigits (digits : List Char) : Nat :=
  digits.foldl (fun number digit => number * 10 + (digit.toNat - 48)) 0

/-- A run of digits, at least one. -/
def readDigits : Step (List Char) := fun chars =>
  match chars.takeWhile isDigit with
  | [] => none
  | digits => some (digits, chars.dropWhile isDigit)

/-- The digits before the point. A leading zero stands alone. -/
def readWhole : Step (List Char)
  | '0' :: rest =>
    match rest with
    | c :: _ => if isDigit c then none else some (['0'], rest)
    | [] => some (['0'], [])
  | chars => readDigits chars

/-- The digits after a point, if there is one. -/
def readFraction : Step (Option (List Char))
  | '.' :: rest => (readDigits rest).map fun (digits, rest) => (some digits, rest)
  | chars => some (none, chars)

/-- The power of ten after an exponent mark, if there is one. -/
def readExponent : Step (Option Int)
  | c :: rest =>
    if c = 'e' ∨ c = 'E' then
      match rest with
      | '-' :: rest => (readDigits rest).map fun (digits, rest) => (some (-(ofDigits digits)), rest)
      | '+' :: rest => (readDigits rest).map fun (digits, rest) => (some (ofDigits digits), rest)
      | rest => (readDigits rest).map fun (digits, rest) => (some (ofDigits digits), rest)
    else some (none, c :: rest)
  | [] => some (none, [])

/-- The value of a number without fraction and exponent. Minus zero is a float,
because integers have only one zero. -/
def integerValue (negative : Bool) (size : Nat) : Value :=
  if negative then
    if 0 < size ∧ size ≤ 2 ^ 63 then .integer (Int64.ofInt (-size))
    else .float (Double.nearest true size 1)
  else if size < 2 ^ 63 then .integer (Int64.ofInt size)
  else .float (Double.nearest false size 1)

/-- A float, unless it is too large to be finite. -/
def finite? (x : Double) : Option Value := if x.isFinite then some (.float x) else none

/-- A number after its sign. -/
def readUnsigned (negative : Bool) : Step Value := fun chars => do
  let (whole, chars) ← readWhole chars
  let (fraction, chars) ← readFraction chars
  let (exponent, chars) ← readExponent chars
  let value ← match fraction, exponent with
    | none, none =>
      match integerValue negative (ofDigits whole) with
      | .float x => finite? x
      | value => some value
    | _, _ =>
      let places := fraction.getD []
      finite? (Double.ofDecimal negative (ofDigits (whole ++ places))
        (exponent.getD 0 - places.length))
  return (value, chars)

/-- A number. -/
def readNumber : Step Value
  | '-' :: rest => readUnsigned true rest
  | chars => readUnsigned false chars

/-! ### Arrays and objects -/

/-- Reads elements with commas between them, up to the closing character. Every
element takes at least a character, which bounds the fuel. -/
def readElements {α : Type} (element : Step α) (close : Char) : Nat → Step (List α)
  | 0 => fun _ => none
  | fuel + 1 => fun chars => do
    let (first, chars) ← element (skipBlanks chars)
    match skipBlanks chars with
    | c :: rest =>
      if c = close then return ([first], rest)
      else if c = ',' then
        let (others, chars) ← readElements element close fuel rest
        return (first :: others, chars)
      else none
    | [] => none

/-- The elements after an opening character, of which there may be none. -/
def readGroup {α : Type} (element : Step α) (close : Char) : Step (List α) := fun chars =>
  match skipBlanks chars with
  | c :: rest =>
    if c = close then some ([], rest) else readElements element close chars.length (c :: rest)
  | [] => none

/-- A name, a colon and a value. -/
def readField (readValue : Step Value) : Step (String × Value) := fun chars => do
  let (name, chars) ← readText chars
  match skipBlanks chars with
  | ':' :: rest =>
    let (value, chars) ← readValue (skipBlanks rest)
    return ((name, value), chars)
  | _ => none

/-- A value, where `depth` more arrays or objects may open. -/
def readValue : Nat → Step Value
  | _, 'n' :: 'u' :: 'l' :: 'l' :: rest => some (.null, rest)
  | _, 't' :: 'r' :: 'u' :: 'e' :: rest => some (.bool true, rest)
  | _, 'f' :: 'a' :: 'l' :: 's' :: 'e' :: rest => some (.bool false, rest)
  | _, '"' :: rest => (readText ('"' :: rest)).map fun (text, rest) => (.text text, rest)
  | depth + 1, '[' :: rest =>
    (readGroup (readValue depth) ']' rest).map fun (items, rest) => (.array items, rest)
  | depth + 1, '\x7b' :: rest =>
    (readGroup (readField (readValue depth)) '\x7d' rest).map fun (fields, rest) =>
      (.map fields, rest)
  | _, chars => readNumber chars

/-- How deeply arrays and objects may nest. -/
def nestingLimit : Nat := 127

/-! ### Whole texts -/

/-- Why a text could not be read. -/
inductive ReadError where
  /-- The text is not JSON. -/
  | malformed
  /-- The value is of a kind that is not wanted. -/
  | wrongShape (message : String)
deriving DecidableEq

/-- Reads a text that consists of one value, and makes something of the value. What
follows the value is looked at last. -/
def readAs {α : Type} (interpret : Value → Except String α) (text : String) :
    Except ReadError α :=
  match readValue nestingLimit (skipBlanks text.toList) with
  | none => .error .malformed
  | some (value, rest) =>
    match interpret value with
    | .error message => .error (.wrongShape message)
    | .ok result => if (skipBlanks rest).isEmpty then .ok result else .error .malformed

/-- Reads a value. -/
def read (text : String) : Except ReadError Value := readAs .ok text

/-- The row of a value, where a failure is put in the words of a reader. -/
def rowOf (value : Value) : Except String Row :=
  match value with
  | .map fields => .ok (Row.ofFields fields)
  | other => .error ("invalid type: " ++ other.typeName ++ ", expected a map of fields")

/-- Reads a row. -/
def readRow (text : String) : Except ReadError Row := readAs rowOf text

end IndexedStore.Json
