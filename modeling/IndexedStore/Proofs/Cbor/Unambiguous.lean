/-
This file proves that written values are unambiguous: if two of them begin the same
bytes, they are the same value, and the same bytes follow.

A written value is a header and a body. The header fixes the kind of the value and the
length of the body, so the values are compared from the front: headers first, then
the items of the body one after the other.
-/

import IndexedStore.Proofs.Cbor.Text

namespace IndexedStore.Cbor

/-! ### Headers that begin values -/

/-- The header with which a value begins. -/
@[simp]
def lead : Value → Header
  | .null => .simple 22
  | .bool flag => .simple (if flag then 21 else 20)
  | .integer number => integerHeader number.toInt
  | .float number => .float number
  | .text content => .text (some (textBytes content).length)
  | .bytes content => .bytes (some content.length)
  | .array items => .array (some items.length)
  | .map fields => .map (some fields.length)

/-- What follows the header of a value. -/
@[simp]
def body : Value → List UInt8
  | .text content => textBytes content
  | .bytes content => content
  | .array items => writeItems items
  | .map fields => writeFields fields
  | _ => []

theorem write_eq (value : Value) : write value = (lead value).write ++ body value := by
  cases value <;> rw [write] <;> first | rfl | exact (List.append_nil _).symm

namespace Header

/-- The major kind of a header. -/
@[simp]
def major : Header → Nat
  | positive _ => 0
  | negative _ => 1
  | bytes _ => 2
  | text _ => 3
  | array _ => 4
  | map _ => 5
  | tag _ => 6
  | simple _ | float _ | stop => 7

/-- The number that a header holds; floats and open ends hold none. -/
@[simp]
def argument : Header → Nat
  | positive number | negative number | tag number | simple number => number
  | bytes length | text length | array length | map length => length.getD 0
  | float _ | stop => 0

/-- The headers that a writer uses: lengths are given, and simple values are numbered
within the first byte. -/
def Definite : Header → Prop
  | bytes length | text length | array length | map length => length.isSome
  | simple label => label < 24
  | stop => False
  | _ => True

theorem major_lt (header : Header) : header.major < 8 := by
  cases header <;> exact of_decide_eq_true rfl

/-- A definite header that holds a large number is written as its kind and the number. -/
theorem write_of_large {header : Header} (definite : header.Definite)
    (large : 2 ^ 64 ≤ header.argument) :
    header.write = writeArgument header.major header.argument := by
  cases header with
  | bytes length | text length | array length | map length =>
    obtain ⟨size, rfl⟩ := Option.isSome_iff_exists.mp definite
    rfl
  | float _ | stop => cases large
  | _ => rfl

/-- A definite header that holds a large number is fixed by its kind and the number. -/
theorem headerOf?_argument {header : Header} (definite : header.Definite)
    (large : 2 ^ 64 ≤ header.argument) :
    headerOf? header.major (.direct header.argument) = some header := by
  cases header with
  | bytes length | text length | array length | map length =>
    obtain ⟨size, rfl⟩ := Option.isSome_iff_exists.mp definite
    rfl
  | float _ | stop => cases large
  | _ => rfl

/-- A definite header is read back if the number it holds fits into eight bytes. -/
theorem readHeader_write {header : Header} (definite : header.Definite)
    (fits : header.argument < 2 ^ 64) (offset : Nat) (rest : List UInt8) :
    readHeader ⟨offset, header.write ++ rest⟩ =
      .ok (header, ⟨offset + header.write.length, rest⟩) := by
  cases header with
  | positive size | negative size | tag size =>
    refine readHeader_writeArgument (by decide) fits (fun given number => ?_) offset rest
    rw [headerOf?, number, Option.map_some]
    rfl
  | bytes length | text length | array length | map length =>
    obtain ⟨size, rfl⟩ := Option.isSome_iff_exists.mp definite
    refine readHeader_writeArgument (by decide) fits (fun given number => ?_) offset rest
    rw [headerOf?, number]
    rfl
  | simple label =>
    have small : label < 24 := definite
    have written : (simple label).write = [UInt8.ofNat (7 * 32 + label)] := if_pos small
    rw [written, List.singleton_append, readHeader_cons, toNat_firstByte (by decide) (by omega),
      show (7 * 32 + label) % 32 = label by omega, show (7 * 32 + label) / 32 = 7 by omega]
    have direct : readArgument offset label ⟨offset + 1, rest⟩ =
      .ok (.direct label, ⟨offset + 1, rest⟩) := if_pos small
    rw [direct]
    rfl
  | float number => exact readHeader_writeDouble number offset rest
  | stop => cases definite

/-- No reader takes a definite header that holds a larger number. -/
theorem readHeader_write_of_large {header : Header} (definite : header.Definite)
    (large : 2 ^ 64 ≤ header.argument) (offset : Nat) (rest : List UInt8) :
    readHeader ⟨offset, header.write ++ rest⟩ = .error (.malformed offset) := by
  rw [write_of_large definite large]
  exact readHeader_writeArgument_of_large header.major_lt large offset rest

/-- Definite headers that begin the same bytes are the same. -/
theorem write_append_inj {header header' : Header} {rest rest' : List UInt8}
    (definite : header.Definite) (definite' : header'.Definite)
    (same : header.write ++ rest = header'.write ++ rest') : header = header' ∧ rest = rest' := by
  by_cases fits : header.argument < 2 ^ 64
  · have first := readHeader_write definite fits 0 rest
    rw [same] at first
    by_cases fits' : header'.argument < 2 ^ 64
    · rw [readHeader_write definite' fits'] at first
      simp only [Except.ok.injEq, Prod.mk.injEq, Input.mk.injEq] at first
      exact ⟨first.1.symm, first.2.2.symm⟩
    · rw [readHeader_write_of_large definite' (Nat.not_lt.mp fits')] at first
      cases first
  · have large := Nat.not_lt.mp fits
    have first := readHeader_write_of_large definite large 0 rest
    rw [same] at first
    by_cases fits' : header'.argument < 2 ^ 64
    · rw [readHeader_write definite' fits'] at first
      cases first
    · have large' := Nat.not_lt.mp fits'
      rw [write_of_large definite large, write_of_large definite' large'] at same
      obtain ⟨kind, number, after⟩ := writeArgument_append_inj header.major_lt header'.major_lt same
      have found := headerOf?_argument definite large
      rw [kind, number, headerOf?_argument definite' large'] at found
      exact ⟨(Option.some_inj.mp found).symm, after⟩

end Header

/-! ### Values -/

theorem definite_lead (value : Value) : (lead value).Definite := by
  cases value with
  | bool flag =>
    cases flag
    · show 20 < 24
      decide
    · show 21 < 24
      decide
  | integer number =>
    rw [lead, integerHeader]
    split <;> trivial
  | null =>
    show 22 < 24
    decide
  | float _ => trivial
  | _ => rfl

/-- The value that a header makes by itself. -/
def bodiless? : Header → Option Value
  | .simple 20 => some (.bool false)
  | .simple 21 => some (.bool true)
  | .simple 22 => some .null
  | .positive size => some (integerValue size)
  | .negative size => some (integerValue (-1 - size))
  | .float number => some (.float number)
  | _ => none

theorem integerValue_toInt (number : Int64) : integerValue number.toInt = .integer number := by
  rw [integerValue, if_pos ⟨number.minValue_le_toInt, number.toInt_le⟩, Int64.ofInt_toInt]

theorem bodiless?_integerHeader (n : Int) :
    bodiless? (integerHeader n) = some (integerValue n) := by
  rw [integerHeader]
  split
  · rw [bodiless?, Int.toNat_of_nonneg ‹_›]
  · rw [bodiless?, Int.toNat_of_nonneg (by omega)]
    congr 2
    omega

theorem bodiless?_lead (value : Value) : bodiless? (lead value) = match value with
    | .text _ | .bytes _ | .array _ | .map _ => none
    | value => some value := by
  cases value with
  | bool flag => cases flag <;> rfl
  | integer number => rw [lead, bodiless?_integerHeader, integerValue_toInt]
  | _ => rfl

/-- How values are related that begin with one header. -/
inductive SameLead : Value → Value → Prop where
  | same (value : Value) : SameLead value value
  | text {content content' : String}
      (length : (textBytes content).length = (textBytes content').length) :
      SameLead (.text content) (.text content')
  | bytes {content content' : List UInt8} (length : content.length = content'.length) :
      SameLead (.bytes content) (.bytes content')
  | array {items items' : List Value} (length : items.length = items'.length) :
      SameLead (.array items) (.array items')
  | map {fields fields' : List (String × Value)} (length : fields.length = fields'.length) :
      SameLead (.map fields) (.map fields')

theorem sameLead_of_eq {value value' : Value} (same : lead value = lead value') :
    SameLead value value' := by
  have found := bodiless?_lead value
  rw [same, bodiless?_lead value'] at found
  cases value <;> cases value' <;>
    first
    | exact .text (Option.some_inj.mp (Header.text.inj same))
    | exact .bytes (Option.some_inj.mp (Header.bytes.inj same))
    | exact .array (Option.some_inj.mp (Header.array.inj same))
    | exact .map (Option.some_inj.mp (Header.map.inj same))
    | (cases found; exact .same _)
    | (cases found; done)
    | cases same

theorem writeText_append_inj {first second : String} {rest rest' : List UInt8}
    (same : writeText first ++ rest = writeText second ++ rest') :
    first = second ∧ rest = rest' := by
  rw [writeText, writeText, List.append_assoc, List.append_assoc] at same
  obtain ⟨header, after⟩ :=
    Header.write_append_inj (definite_lead (.text first)) (definite_lead (.text second)) same
  have length := Option.some_inj.mp (Header.text.inj header)
  obtain ⟨content, after⟩ := List.append_inj after length
  exact ⟨textBytes_inj content, after⟩

/-- Two written values that begin the same bytes have one header. -/
theorem sameLead_of_append {value value' : Value} {rest rest' : List UInt8}
    (same : write value ++ rest = write value' ++ rest') :
    SameLead value value' ∧ body value ++ rest = body value' ++ rest' := by
  rw [write_eq, write_eq, List.append_assoc, List.append_assoc] at same
  obtain ⟨header, after⟩ :=
    Header.write_append_inj (definite_lead value) (definite_lead value') same
  exact ⟨sameLead_of_eq header, after⟩

mutual

/-- Written values that begin the same bytes are the same. -/
theorem write_append_inj : ∀ (value : Value) {value' : Value} {rest rest' : List UInt8},
    write value ++ rest = write value' ++ rest' → value = value' ∧ rest = rest'
  | .array items, value', rest, rest', same => by
    obtain ⟨related, after⟩ := sameLead_of_append same
    cases related with
    | same => exact ⟨rfl, List.append_cancel_left after⟩
    | array length =>
      obtain ⟨rfl, remaining⟩ := writeItems_append_inj items length after
      exact ⟨rfl, remaining⟩
  | .map fields, value', rest, rest', same => by
    obtain ⟨related, after⟩ := sameLead_of_append same
    cases related with
    | same => exact ⟨rfl, List.append_cancel_left after⟩
    | map length =>
      obtain ⟨rfl, remaining⟩ := writeFields_append_inj fields length after
      exact ⟨rfl, remaining⟩
  | .text content, value', rest, rest', same => by
    obtain ⟨related, after⟩ := sameLead_of_append same
    cases related with
    | same => exact ⟨rfl, List.append_cancel_left after⟩
    | text length =>
      obtain ⟨content, after⟩ := List.append_inj after length
      rw [textBytes_inj content]
      exact ⟨rfl, after⟩
  | .bytes content, value', rest, rest', same => by
    obtain ⟨related, after⟩ := sameLead_of_append same
    cases related with
    | same => exact ⟨rfl, List.append_cancel_left after⟩
    | bytes length =>
      obtain ⟨rfl, remaining⟩ := List.append_inj after length
      exact ⟨rfl, remaining⟩
  | .null, value', rest, rest', same | .bool _, value', rest, rest', same
  | .integer _, value', rest, rest', same | .float _, value', rest, rest', same => by
    obtain ⟨related, after⟩ := sameLead_of_append same
    cases related
    exact ⟨rfl, List.append_cancel_left after⟩

theorem writeItems_append_inj : ∀ (items : List Value) {items' : List Value}
    {rest rest' : List UInt8}, items.length = items'.length →
    writeItems items ++ rest = writeItems items' ++ rest' → items = items' ∧ rest = rest'
  | [], [], _, _, _, same => ⟨rfl, same⟩
  | item :: items, item' :: items', rest, rest', length, same => by
    rw [writeItems, writeItems, List.append_assoc, List.append_assoc] at same
    obtain ⟨rfl, after⟩ := write_append_inj item same
    obtain ⟨rfl, remaining⟩ := writeItems_append_inj items (Nat.succ.inj length) after
    exact ⟨rfl, remaining⟩

theorem writeFields_append_inj : ∀ (fields : List (String × Value))
    {fields' : List (String × Value)} {rest rest' : List UInt8}, fields.length = fields'.length →
    writeFields fields ++ rest = writeFields fields' ++ rest' → fields = fields' ∧ rest = rest'
  | [], [], _, _, _, same => ⟨rfl, same⟩
  | (name, value) :: fields, (name', value') :: fields', rest, rest', length, same => by
    simp only [writeFields, List.append_assoc] at same
    obtain ⟨rfl, afterName⟩ := writeText_append_inj same
    obtain ⟨rfl, afterValue⟩ := write_append_inj value afterName
    obtain ⟨rfl, remaining⟩ := writeFields_append_inj fields (Nat.succ.inj length) afterValue
    exact ⟨rfl, remaining⟩

end

/-- Different values are written differently. -/
theorem write_inj {value value' : Value} (same : write value = write value') : value = value' := by
  have extended : write value ++ [] = write value' ++ [] := by rw [same]
  exact (write_append_inj value extended).1

end IndexedStore.Cbor
