/-
This file proves that reading canonical bytes gives the canonical form of the value that was
written, and says when reading succeeds: exactly if the value nests no deeper than the reader
follows. The lengths inside a value play no part, as long as its bytes have a length that
fits into a header, which whatever is in memory has.
-/

import IndexedStore.Proofs.Row.Encoding

namespace IndexedStore

/-! ### Lengths -/

namespace Cbor

theorem Header.length_write_pos (header : Header) : 0 < header.write.length := by
  have spelled : ∀ major argument, 0 < (writeArgument major argument).length := by
    intro major argument
    obtain ⟨low, more, -, written⟩ := exists_spelled major argument
    rw [written]
    exact Nat.succ_pos _
  cases header with
  | bytes length | text length | array length | map length =>
    cases length with
    | none => exact Nat.one_pos
    | some size => exact spelled _ size
  | positive number | negative number | tag number | simple number => exact spelled _ number
  | float number =>
    rw [write, writeDouble]
    split
    · exact Nat.succ_pos _
    · split <;> exact Nat.succ_pos _
  | stop => exact Nat.one_pos

theorem length_write_pos (value : Value) : 0 < (write value).length := by
  rw [write_eq, List.length_append]
  exact Nat.add_pos_left (Header.length_write_pos _) _

/-- Every item takes at least a byte. -/
theorem length_le_writeItems (items : List Value) : items.length ≤ (writeItems items).length := by
  induction items with
  | nil => exact Nat.le_refl 0
  | cons item rest inductionHypothesis =>
    have one := length_write_pos item
    simp only [writeItems, List.length_append, List.length_cons]
    omega

/-- Every field takes at least a byte. -/
theorem length_le_writeFields (fields : List (String × Value)) :
    fields.length ≤ (writeFields fields).length := by
  induction fields with
  | nil => exact Nat.le_refl 0
  | cons field rest inductionHypothesis =>
    have one := length_write_pos field.2
    simp only [writeFields, List.length_append, List.length_cons]
    omega

/-- The body of a value is not longer than the value. -/
theorem length_body_lt {value : Value} {bound : Nat} (small : (write value).length < bound) :
    (body value).length < bound := by
  rw [write_eq, List.length_append] at small
  omega

mutual

/-- The lengths inside a value are bounded by the length of its bytes. -/
theorem fits_of_length_write : ∀ value : Value, (write value).length < 2 ^ 64 → value.Fits
  | .text _, small => length_body_lt small
  | .bytes _, small => length_body_lt small
  | .array items, small => by
    have inside : (writeItems items).length < 2 ^ 64 := length_body_lt small
    exact ⟨Nat.lt_of_le_of_lt (length_le_writeItems items) inside,
      itemsFit_of_length_write items inside⟩
  | .map fields, small => by
    have inside : (writeFields fields).length < 2 ^ 64 := length_body_lt small
    exact ⟨Nat.lt_of_le_of_lt (length_le_writeFields fields) inside,
      fieldsFit_of_length_write fields inside⟩
  | .null, _ | .bool _, _ | .integer _, _ | .float _, _ => trivial

theorem itemsFit_of_length_write : ∀ items : List Value, (writeItems items).length < 2 ^ 64 →
    Value.ItemsFit items
  | [], _ => trivial
  | item :: items, small => by
    simp only [writeItems, List.length_append] at small
    exact ⟨fits_of_length_write item (by omega), itemsFit_of_length_write items (by omega)⟩

theorem fieldsFit_of_length_write : ∀ fields : List (String × Value),
    (writeFields fields).length < 2 ^ 64 → Value.FieldsFit fields
  | [], _ => trivial
  | (name, value) :: fields, small => by
    simp only [writeFields, writeText, List.length_append] at small
    exact ⟨⟨by omega, fits_of_length_write value (by omega)⟩,
      fieldsFit_of_length_write fields (by omega)⟩

end

end Cbor

namespace Value

/-! ### Canonical forms -/

/-- The values that are in canonical form: the fields of every map stand in order, those with
shorter names first, and no float equals a 64-bit integer. -/
inductive IsCanonical : Value → Prop where
  | null : IsCanonical null
  | bool (flag : Bool) : IsCanonical (bool flag)
  | integer (number : Int64) : IsCanonical (integer number)
  | float {number : Double} (fraction : ∀ whole : Int64, ¬(float number == integer whole)) :
    IsCanonical (float number)
  | text (content : String) : IsCanonical (text content)
  | bytes (content : List UInt8) : IsCanonical (bytes content)
  | array {items : List Value} (each : ∀ item ∈ items, IsCanonical item) : IsCanonical (array items)
  | map {fields : List (String × Value)} (sorted : FieldsSorted fields)
    (each : ∀ field ∈ fields, IsCanonical field.2) : IsCanonical (map fields)

theorem float_beq_integer_iff {number : Double} {whole : Int64} :
    (float number == integer whole) ↔ number.toInt64? = some whole := by
  have compared : (float number).compareKey (integer whole) =
      number.extended.compare (Double.extendedOfInt whole.toInt) :=
    compareArranged_of_place? rfl rfl
  rw [beq_iff, compared, Double.toInt64?_eq_some_iff, Extended.compare_eq_iff]

mutual

theorem isCanonical_normalize : ∀ value : Value, value.normalize.IsCanonical
  | .array items => by
    rw [normalize_array]
    refine .array fun item member => ?_
    obtain ⟨own, inside, rfl⟩ := List.mem_map.mp member
    exact isCanonical_normalize_of_mem items own inside
  | .map fields => by
    refine .map ?_ fun field member => ?_
    · rw [settleFields_eq_map, FieldsSorted, List.pairwise_map]
      exact arrangeFields_sorted fields
    · have perm := settleFields_arrangeFields_perm fields
      obtain ⟨own, inside, rfl⟩ := List.mem_map.mp (perm.mem_iff.mp member)
      exact isCanonical_normalize_of_mem_fields fields own inside
  | .float number => by
    rcases settleNumbers_float number with ⟨whole, -, settled⟩ | ⟨fraction, settled⟩
    · simp only [normalize, arrange, settled]
      exact .integer whole
    · simp only [normalize, arrange, settled]
      refine .float fun whole same => ?_
      rw [float_beq_integer_iff, fraction] at same
      cases same
  | .null => .null
  | .bool flag => .bool flag
  | .integer number => .integer number
  | .text content => .text content
  | .bytes content => .bytes content

theorem isCanonical_normalize_of_mem : ∀ items : List Value, ∀ item ∈ items,
    item.normalize.IsCanonical
  | first :: rest, item, member => by
    rcases List.mem_cons.mp member with isFirst | inRest
    · rw [isFirst]
      exact isCanonical_normalize first
    · exact isCanonical_normalize_of_mem rest item inRest

theorem isCanonical_normalize_of_mem_fields : ∀ fields : List (String × Value),
    ∀ field ∈ fields, field.2.normalize.IsCanonical
  | (name, value) :: rest, field, member => by
    rcases List.mem_cons.mp member with rfl | inRest
    · exact isCanonical_normalize value
    · exact isCanonical_normalize_of_mem_fields rest field inRest

end

/-! ### Reading what was written -/

variable {value found : Value} {bytes : List UInt8}

theorem decode_eq_ok_iff : decode bytes = .ok found ↔ Cbor.read bytes = .ok found := by
  rw [decode]
  cases Cbor.read bytes with
  | ok other =>
    exact ⟨fun same => congrArg Except.ok (Except.ok.inj same),
      fun same => congrArg Except.ok (Except.ok.inj same)⟩
  | error cause => simp

/-- What is read from the bytes of a value is its canonical form. -/
theorem eq_normalize_of_decode (written : value.encode = .ok bytes)
    (read : decode bytes = .ok found) : found = value.normalize := by
  obtain ⟨-, rfl⟩ := encode_eq_ok_iff.mp written
  exact Cbor.eq_of_read_write (decode_eq_ok_iff.mp read)

/-- The canonical form of a value has the bytes of the value. -/
theorem encode_normalize (written : value.encode = .ok bytes) :
    value.normalize.encode = .ok bytes := by
  obtain ⟨number, same⟩ := encode_eq_ok_iff.mp written
  exact encode_eq_ok_iff.mpr ⟨(containsNaN_normalize value).trans number,
    (congrArg Cbor.write (normalize_normalize value)).trans same⟩

/-- The bytes of a value that fit into memory can be read exactly if the value nests no deeper
than the reader follows. -/
theorem exists_decode_iff (written : value.encode = .ok bytes) (small : bytes.length < 2 ^ 64) :
    (∃ found, decode bytes = .ok found) ↔ value.nesting ≤ Cbor.nestingLimit := by
  obtain ⟨-, rfl⟩ := encode_eq_ok_iff.mp written
  have fits := Cbor.fits_of_length_write value.normalize small
  obtain ⟨success, failure⟩ := Cbor.reads_write value.normalize
  rw [nesting_normalize] at success failure
  constructor
  · rintro ⟨found, read⟩
    refine Classical.byContradiction fun deep => ?_
    obtain ⟨cause, stopped⟩ := failure fun both => deep both.2
    rw [decode_eq_ok_iff, stopped] at read
    cases read
  · exact fun shallow => ⟨_, decode_eq_ok_iff.mpr (success ⟨fits, shallow⟩)⟩

end Value

/-- The bytes of a row that fit into memory can be read exactly if the row nests no deeper than
the reader follows; the row itself counts as one map. -/
theorem Row.exists_decode_iff {row : Row} {bytes : List UInt8} (written : row.encode = .ok bytes)
    (small : bytes.length < 2 ^ 64) :
    (∃ found, Row.decode bytes = .ok found) ↔ row.toValue.nesting ≤ Cbor.nestingLimit := by
  rw [← readable_iff written]
  obtain ⟨-, rfl⟩ := Value.encode_eq_ok_iff.mp written
  have fits := (Value.fits_normalize _).mp (Cbor.fits_of_length_write _ small)
  exact and_iff_right fits

/-- Reading inverts writing, up to canonical form. A value without NaN has bytes, and whatever is
read from them is the canonical form of the value, which is the same in key order and has the same
bytes. Something is read exactly if arrays and maps nest at most 256 deep. What is read from the
bytes of a row is the same row, under the same condition. -/
theorem canonical_bytes_read_back :
    (∀ value : Value, ¬value.HoldsNaN → ∃ bytes, value.encode = .ok bytes ∧
      (∀ found, Value.decode bytes = .ok found → found = value.normalize ∧ found.IsCanonical ∧
        found.compareKey value = .eq ∧ found.encode = .ok bytes) ∧
      (bytes.length < 2 ^ 64 →
        ((∃ found, Value.decode bytes = .ok found) ↔ value.nesting ≤ 256))) ∧
    ∀ row : Row, ¬row.toValue.HoldsNaN → ∃ bytes, row.encode = .ok bytes ∧
      (∀ found, Row.decode bytes = .ok found → found == row) ∧
      (bytes.length < 2 ^ 64 →
        ((∃ found, Row.decode bytes = .ok found) ↔ row.toValue.nesting ≤ 256)) := by
  constructor
  · intro value number
    obtain ⟨bytes, written⟩ := Value.exists_encode number
    refine ⟨bytes, written, fun found read => ?_, Value.exists_decode_iff written⟩
    have same := Value.normalize_beq (Value.encode_eq_ok_iff.mp written).1
    rw [Value.eq_normalize_of_decode written read]
    exact ⟨rfl, Value.isCanonical_normalize value, Value.beq_iff.mp same,
      Value.encode_normalize written⟩
  · intro row number
    obtain ⟨bytes, written⟩ := Value.exists_encode number
    exact ⟨bytes, written, fun found => Row.beq_of_decode written, Row.exists_decode_iff written⟩

/-- Negative zero, the smallest integer, infinity and a name that stands twice. -/
def Value.odd : Value :=
  .map [("bb", .float ⟨0x8000000000000000⟩),
    ("a", .array [.integer Int64.minValue, .float ⟨0x7ff0000000000000⟩]), ("a", .null)]

/-- A row with such a value, and with a float as key. -/
def Row.odd : Row := { fields := [("odd", .odd), ("id", .float ⟨0x3ff0000000000000⟩)] }

/-- The value and the row are read back. -/
theorem odd_row_reads_back :
    (∃ bytes found, Value.odd.encode = .ok bytes ∧ Value.decode bytes = .ok found ∧
      found.IsCanonical ∧ found.compareKey .odd = .eq ∧ found.encode = .ok bytes) ∧
    ∃ bytes found, Row.odd.encode = .ok bytes ∧ Row.decode bytes = .ok found ∧
      found == Row.odd := by
  have lengths : (Value.odd.encode.map List.length).toOption = some 23 ∧
      (Row.odd.encode.map List.length).toOption = some 32 := by decide +kernel
  constructor
  · obtain ⟨bytes, written, reads, possible⟩ := canonical_bytes_read_back.1 .odd
      (by rw [← Value.containsNaN_iff]; decide)
    rw [written] at lengths
    have length : bytes.length = 23 := Option.some.inj lengths.1
    obtain ⟨found, read⟩ := (possible (by omega)).mpr (by decide)
    obtain ⟨-, canonical, same, again⟩ := reads found read
    exact ⟨bytes, found, written, read, canonical, same, again⟩
  · obtain ⟨bytes, written, reads, possible⟩ := canonical_bytes_read_back.2 .odd
      (by rw [← Value.containsNaN_iff]; decide)
    rw [written] at lengths
    have length : bytes.length = 32 := Option.some.inj lengths.2
    obtain ⟨found, read⟩ := (possible (by omega)).mpr (by decide)
    exact ⟨bytes, found, written, read, reads found read⟩

end IndexedStore
