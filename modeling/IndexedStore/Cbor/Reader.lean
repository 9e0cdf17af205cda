/-
This file reads values in the binary format, in any of its spellings: headers of
any width, items of open length, texts and byte strings in segments. Bytes after
the first item are not looked at.

Arrays and maps may nest 256 deep. The nesting that is still allowed is the
argument on which reading an item recurses; items of one array are read in a
loop over their number or, when the end is open, over the remaining bytes.
-/

import IndexedStore.Cbor.Error
import IndexedStore.Cbor.Writer

namespace IndexedStore.Cbor

/-- The bytes that have not been read, and the number of those that have. -/
structure Input where
  /-- How many bytes have been read. -/
  offset : Nat
  /-- The bytes that follow. -/
  rest : List UInt8

/-- A step of reading gives its result and the input after it. -/
abbrev Step (α : Type) := Input → Except ReadError (α × Input)

/-! ### Bytes and numbers -/

/-- Cuts a list after the given number of elements, if it has as many. -/
def splitExactly? {α : Type} : Nat → List α → Option (List α × List α)
  | 0, rest => some ([], rest)
  | _ + 1, [] => none
  | count + 1, head :: rest =>
    (splitExactly? count rest).map fun (taken, rest) => (head :: taken, rest)

/-- The next bytes, as many as asked for. -/
def takeBytes (count : Nat) : Step (List UInt8) := fun input =>
  match splitExactly? count input.rest with
  | some (taken, rest) => .ok (taken, ⟨input.offset + count, rest⟩)
  | none => .error .endOfInput

/-- The number that bytes denote, the most significant first. -/
def ofBigEndian (bytes : List UInt8) : Nat :=
  bytes.foldl (fun number byte => number * 256 + byte.toNat) 0

/-- How the argument of a header is given by the low bits of its first byte. -/
inductive Argument where
  /-- By the bits themselves. -/
  | direct (value : Nat)
  /-- By the bytes that follow, this many. -/
  | following (width value : Nat)
  /-- Not at all: the item has an open end. -/
  | missing

/-- The argument of a header. -/
def readArgument (start low : Nat) : Step Argument := fun input =>
  let following (width : Nat) : Except ReadError (Argument × Input) := do
    let (bytes, input) ← takeBytes width input
    return (.following width (ofBigEndian bytes), input)
  if low < 24 then .ok (.direct low, input)
  else match low with
    | 24 => following 1
    | 25 => following 2
    | 26 => following 4
    | 27 => following 8
    | 31 => .ok (.missing, input)
    | _ => .error (.malformed start)

/-- The argument as a number, which a missing one is not. -/
def Argument.number? : Argument → Option Nat
  | direct value | following _ value => some value
  | missing => none

/-- The header of a major kind with an argument, if there is one. -/
def headerOf? (major : Nat) (argument : Argument) : Option Header :=
  match major with
  | 0 => argument.number?.map .positive
  | 1 => argument.number?.map .negative
  | 2 => some (.bytes argument.number?)
  | 3 => some (.text argument.number?)
  | 4 => some (.array argument.number?)
  | 5 => some (.map argument.number?)
  | 6 => argument.number?.map .tag
  | _ =>
    match argument with
    | .direct label | .following 1 label => some (.simple label)
    | .following 2 word => some (.float (Double.widen .half word))
    | .following 4 word => some (.float (Double.widen .single word))
    | .following _ word => some (.float ⟨UInt64.ofNat word⟩)
    | .missing => some .stop

/-- The next header. -/
def readHeader : Step Header := fun input => do
  let start := input.offset
  let (first, input) ← takeBytes 1 input
  let byte := ofBigEndian first
  let (argument, input) ← readArgument start (byte % 32) input
  match headerOf? (byte / 32) argument with
  | some header => return (header, input)
  | none => throw (.malformed start)

/-- Where a header would begin that ends here and has the shortest form. Failures
inside an item name this offset. -/
def shortestStart (header : Header) (input : Input) : Nat :=
  input.offset - header.write.length

/-! ### Texts and byte strings -/

/-- The text of bytes that are well-formed UTF-8. -/
def textOfBytes? (bytes : List UInt8) : Option String :=
  String.fromUTF8? ⟨bytes.toArray⟩

/-- How many bytes of a long segment are looked at together. -/
def blockSize : Nat := 4096

/-- Splits a block into a text and at most three bytes at its end that may begin a
character of the next block. -/
def splitBlock? (block : List UInt8) : Option (String × List UInt8) :=
  [0, 1, 2, 3].findSome? fun count =>
    if count ≤ block.length then
      let cut := block.length - count
      (textOfBytes? (block.take cut)).map fun text => (text, block.drop cut)
    else none

/-- Reads a segment of a text block by block, where `unread` bytes are left of it
and `carried` bytes of the last block still want their character completed. The
fuel is the number of blocks, at most the number of bytes. -/
def readTextBlocks (start : Nat) : Nat → Nat → List UInt8 → String → Step String
  | 0, _, _, _ => fun _ => .error (.malformed start)
  | fuel + 1, unread, carried, done => fun input =>
    if unread = 0 then
      if carried.isEmpty then .ok (done, input) else .error (.malformed start)
    else do
      let count := min blockSize (carried.length + unread) - carried.length
      let (bytes, input) ← takeBytes count input
      match splitBlock? (carried ++ bytes) with
      | some (text, carried) =>
        readTextBlocks start fuel (unread - count) carried (done ++ text) input
      | none => throw (.malformed start)

/-- A segment of a text whose length its header has announced. -/
def readTextSegment (start length : Nat) : Step String :=
  readTextBlocks start (length + 1) length [] ""

/-- Joins the segments of an item of open length. Segments may themselves be open,
so `depth` breaks are awaited. Every header takes a byte, which bounds the fuel. -/
def readSegments {α : Type} (segment? : Header → Option (Option Nat))
    (read : Nat → Nat → Step α) (join : α → α → α) : Nat → Nat → α → Step α
  | 0, _, _ => fun _ => .error .endOfInput
  | fuel + 1, depth, done => fun input => do
    let start := input.offset
    let (header, input) ← readHeader input
    if header = .stop then
      if depth ≤ 1 then return (done, input)
      else readSegments segment? read join fuel (depth - 1) done input
    else match segment? header with
      | none => throw (.malformed start)
      | some none => readSegments segment? read join fuel (depth + 1) done input
      | some (some length) =>
        let (content, input) ← read start length input
        readSegments segment? read join fuel depth (join done content) input

/-- The length that a header of a text segment announces. -/
def textSegment? : Header → Option (Option Nat)
  | .text length => some length
  | _ => none

/-- The length that a header of a byte segment announces. -/
def byteSegment? : Header → Option (Option Nat)
  | .bytes length => some length
  | _ => none

/-- The content of a text whose header has been read. -/
def readTextContent (length : Option Nat) : Step String := fun input =>
  match length with
  | some size => readTextSegment (shortestStart (.text length) input) size input
  | none => readSegments textSegment? readTextSegment (· ++ ·) (input.rest.length + 1) 1 "" input

/-- The content of a byte string whose header has been read. -/
def readByteContent (length : Option Nat) : Step (List UInt8) := fun input =>
  match length with
  | some size => takeBytes size input
  | none =>
    readSegments byteSegment? (fun _ size => takeBytes size) (· ++ ·)
      (input.rest.length + 1) 1 [] input

/-! ### Field names -/

/-- The name of a field, given its header: tags before it are skipped, and all else
than a text is refused. The fuel bounds the number of tags. -/
def readNameAfter : Nat → Header → Step String
  | _, .text length => readTextContent length
  | fuel + 1, .tag _ => fun input => do
    let (header, input) ← readHeader input
    readNameAfter fuel header input
  | 0, .tag _ => fun _ => .error .endOfInput
  | _, header => fun _ => .error (.unexpected header "string")

/-! ### Integers -/

/-- An integer as a value: within 64 bits it stays an integer, beyond them it is the
nearest float. -/
def integerValue (n : Int) : Value :=
  if Int64.minValue.toInt ≤ n ∧ n ≤ Int64.maxValue.toInt then .integer (Int64.ofInt n)
  else .float (Double.ofInt n)

/-- The content of a tagged item. Tags 2 and 3 before at most sixteen bytes make a
large integer, and no other tag has a meaning. -/
def readTagged (label : Nat) (isNestable : Bool) : Step Value := fun input => do
  let (header, input) ← readHeader input
  let refuse : Except ReadError (Value × Input) :=
    if isNestable then .error .unexpectedTag else .error .nestedTooDeep
  match header with
  | .bytes (some size) =>
    if size ≤ 16 ∧ (label = 2 ∨ label = 3) then
      let (bytes, input) ← takeBytes size input
      let distance : Int := ofBigEndian bytes
      if label = 2 then return (integerValue distance, input)
      else if distance < 2 ^ 127 then return (integerValue (-1 - distance), input)
      else throw .integerTooLarge
    else refuse
  | _ => refuse

/-! ### Items -/

/-- Runs a step a number of times. -/
def repeatStep {α : Type} (step : Step α) : Nat → Step (List α)
  | 0 => fun input => .ok ([], input)
  | count + 1 => fun input => do
    let (item, input) ← step input
    let (items, input) ← repeatStep step count input
    return (item :: items, input)

/-- Runs a step on every header up to a break. Every round takes at least a byte,
which bounds the fuel. -/
def untilStop {α : Type} (step : Header → Step α) : Nat → Step (List α)
  | 0 => fun _ => .error .endOfInput
  | fuel + 1 => fun input => do
    let (header, input) ← readHeader input
    if header = .stop then return ([], input)
    let (item, input) ← step header input
    let (items, input) ← untilStop step fuel input
    return (item :: items, input)

/-- Runs a step as often as a length says, or up to a break. -/
def readMany {α : Type} (step : Header → Step α) (length : Option Nat) : Step (List α) :=
  fun input =>
    match length with
    | some count =>
      repeatStep (fun input => do
        let (header, input) ← readHeader input
        step header input) count input
    | none => untilStop step (input.rest.length + 1) input

/-- A field: its name, given the header of the name, and its value. -/
def readField (readItem : Header → Step Value) (header : Header) : Step (String × Value) :=
  fun input => do
    let (name, input) ← readNameAfter input.rest.length header input
    let (header, input) ← readHeader input
    let (value, input) ← readItem header input
    return ((name, value), input)

/-- The value that a header begins, where `depth` more arrays or maps may open. -/
def readAfter : Nat → Header → Step Value
  | _, .positive size => fun input => .ok (integerValue size, input)
  | _, .negative size => fun input => .ok (integerValue (-1 - size), input)
  | _, .bytes length => fun input => do
    let (content, input) ← readByteContent length input
    return (.bytes content, input)
  | _, .text length => fun input => do
    let (content, input) ← readTextContent length input
    return (.text content, input)
  | depth + 1, .array length => fun input => do
    let (items, input) ← readMany (readAfter depth) length input
    return (.array items, input)
  | depth + 1, .map length => fun input => do
    let (fields, input) ← readMany (readField (readAfter depth)) length input
    return (.map fields, input)
  | 0, .array _ => fun _ => .error .nestedTooDeep
  | 0, .map _ => fun _ => .error .nestedTooDeep
  | depth, .tag label => readTagged label (depth != 0)
  | _, .float number => fun input => .ok (.float number, input)
  | _, .simple 20 => fun input => .ok (.bool false, input)
  | _, .simple 21 => fun input => .ok (.bool true, input)
  | _, .simple 22 => fun input => .ok (.null, input)
  | _, .simple 23 => fun input => .ok (.null, input)
  | _, .simple label => fun _ => .error (.unexpected (.simple label) "known simple value")
  | _, .stop => fun _ => .error (.unexpected .stop "non-break")

/-- How deeply arrays and maps may nest. -/
def nestingLimit : Nat := 256

/-- The value at the beginning of some bytes. -/
def read (bytes : List UInt8) : Except ReadError Value := do
  let (header, input) ← readHeader ⟨0, bytes⟩
  let (value, _) ← readAfter nestingLimit header input
  return value

end IndexedStore.Cbor
