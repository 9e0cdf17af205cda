/-
This file describes the headers of the binary format in which rows are stored. A
header says what kind of item follows and carries one argument: a number, a
length, or the bits of a float. Eight major kinds share one byte with the size of
the argument, which is written big-endian.
-/

import IndexedStore.Number.Notation

namespace IndexedStore.Cbor

/-- A header. A missing length means that the item goes on until a break. -/
inductive Header where
  /-- The integer of this size. -/
  | positive (size : Nat)
  /-- The integer `-1 - size`. -/
  | negative (size : Nat)
  | bytes (length : Option Nat)
  | text (length : Option Nat)
  | array (length : Option Nat)
  | map (length : Option Nat)
  | tag (label : Nat)
  | simple (label : Nat)
  | float (number : Double)
  | stop
deriving DecidableEq

/-! ### Writing -/

/-- A number in the given count of bytes, the most significant first. -/
@[simp]
def bigEndian : Nat → Nat → List UInt8
  | 0, _ => []
  | width + 1, n => UInt8.ofNat (n / 256 ^ width) :: bigEndian width (n % 256 ^ width)

/-- The header of a major kind in the fewest bytes that hold its argument. -/
def writeArgument (major argument : Nat) : List UInt8 :=
  let first := fun low => UInt8.ofNat (major * 32 + low)
  if argument < 24 then [first argument]
  else if argument < 2 ^ 8 then first 24 :: bigEndian 1 argument
  else if argument < 2 ^ 16 then first 25 :: bigEndian 2 argument
  else if argument < 2 ^ 32 then first 26 :: bigEndian 4 argument
  else if argument < 2 ^ 64 then first 27 :: bigEndian 8 argument
  -- Nothing in memory is that long. The header of such a length is one that no reader
  -- takes, and it is another one for every length.
  else List.replicate argument (first 28) ++ [first 29]

/-- A float in the narrowest layout that keeps it exactly. -/
def writeDouble (x : Double) : List UInt8 :=
  match x.narrow? .half with
  | some word => 0xf9 :: bigEndian 2 word
  | none =>
    match x.narrow? .single with
    | some word => 0xfa :: bigEndian 4 word
    | none => 0xfb :: bigEndian 8 x.bits.toNat

namespace Header

/-- The shortest written form of a header. -/
def write : Header → List UInt8
  | positive size => writeArgument 0 size
  | negative size => writeArgument 1 size
  | bytes length => withLength 2 length
  | text length => withLength 3 length
  | array length => withLength 4 length
  | map length => withLength 5 length
  | tag label => writeArgument 6 label
  | simple label => writeArgument 7 label
  | float number => writeDouble number
  | stop => [0xff]
where
  /-- A header with a length, or with the mark of an open end. -/
  withLength (major : Nat) : Option Nat → List UInt8
    | some length => writeArgument major length
    | none => [UInt8.ofNat (major * 32 + 31)]

/-- What a header stands for, in the words of a message. -/
def describe : Header → String
  | positive size => "integer `" ++ String.ofList (renderInt size) ++ "`"
  -- Sizes from `2 ^ 63` on do not fit the message's signed number and wrap around.
  | negative size =>
    let shown : Int := if size < 2 ^ 63 then -1 - size else 2 ^ 64 - 1 - size
    "integer `" ++ String.ofList (renderInt shown) ++ "`"
  | bytes _ => "bytes"
  | text _ => "string"
  | array _ => "sequence"
  | map _ => "map"
  | tag _ => "tag"
  | simple 20 => "boolean `false`"
  | simple 21 => "boolean `true`"
  | simple 22 => "null"
  | simple 23 => "undefined"
  | simple _ => "simple"
  | float number => "floating point `" ++ number.render .plain ++ "`"
  | stop => "break"

end Header

end IndexedStore.Cbor
