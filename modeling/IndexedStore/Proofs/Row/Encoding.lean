/-
This file proves what the canonical bytes of values and rows say about them. Two of them
have the same bytes exactly if they are the same, and only NaN keeps one from having
bytes at all.

It also proves what reading the bytes of a row gives: the row in canonical form, if the
reader can take it, and otherwise a failure.
-/

import IndexedStore.Proofs.Value.Normalize
import IndexedStore.Row

namespace IndexedStore

/-! ### Writing -/

namespace Value

theorem encode_eq_ok_iff {value : Value} {bytes : List UInt8} :
    value.encode = .ok bytes ↔ value.containsNaN = false ∧ Cbor.write value.normalize = bytes := by
  rw [encode, canonicalize_eq]
  split
  · rename_i contains
    simp [contains, Except.map]
  · rename_i number
    simp [number, Except.map]

theorem encode_eq_error_iff {value : Value} {cause : CodecError} :
    value.encode = .error cause ↔ value.HoldsNaN ∧ cause = .nanForbidden := by
  rw [← containsNaN_iff, encode, canonicalize_eq]
  split
  · rename_i contains
    simp [contains, Except.map, eq_comm]
  · rename_i number
    simp [number, Except.map]

/-- Bytes of values are the same exactly if the values are. -/
theorem encode_eq_iff {first second : Value} {bytes bytes' : List UInt8}
    (written : first.encode = .ok bytes) (written' : second.encode = .ok bytes') :
    bytes = bytes' ↔ first.compareKey second = .eq := by
  obtain ⟨number, rfl⟩ := encode_eq_ok_iff.mp written
  obtain ⟨number', rfl⟩ := encode_eq_ok_iff.mp written'
  rw [compareKey_eq_iff number number']
  exact ⟨Cbor.write_inj, congrArg Cbor.write⟩

theorem exists_encode {value : Value} (number : ¬value.HoldsNaN) :
    ∃ bytes, value.encode = .ok bytes := by
  have absent : value.containsNaN = false := by
    rw [← Bool.not_eq_true, containsNaN_iff]
    exact number
  exact ⟨_, encode_eq_ok_iff.mpr ⟨absent, rfl⟩⟩

end Value

/-- Canonical bytes decide equality: values without NaN have bytes, the same ones exactly if
neither value comes before the other, and a value with NaN somewhere inside is the only one
that is refused. The same holds of rows. -/
theorem canonical_bytes_decide_equality :
    ((∀ first second : Value, ¬first.HoldsNaN → ¬second.HoldsNaN →
        ∃ bytes bytes', first.encode = .ok bytes ∧ second.encode = .ok bytes' ∧
          (bytes = bytes' ↔ first.compareKey second = .eq)) ∧
      ∀ (value : Value) (cause : CodecError),
        value.encode = .error cause ↔ value.HoldsNaN ∧ cause = .nanForbidden) ∧
    ((∀ first second : Row, ¬first.toValue.HoldsNaN → ¬second.toValue.HoldsNaN →
        ∃ bytes bytes', first.encode = .ok bytes ∧ second.encode = .ok bytes' ∧
          (bytes = bytes' ↔ first == second)) ∧
      ∀ (row : Row) (cause : CodecError),
        row.encode = .error cause ↔ row.toValue.HoldsNaN ∧ cause = .nanForbidden) := by
  have values : ∀ first second : Value, ¬first.HoldsNaN → ¬second.HoldsNaN →
      ∃ bytes bytes', first.encode = .ok bytes ∧ second.encode = .ok bytes' ∧
        (bytes = bytes' ↔ first.compareKey second = .eq) := by
    intro first second number number'
    obtain ⟨bytes, written⟩ := Value.exists_encode number
    obtain ⟨bytes', written'⟩ := Value.exists_encode number'
    exact ⟨bytes, bytes', written, written', Value.encode_eq_iff written written'⟩
  refine ⟨⟨values, fun value cause => Value.encode_eq_error_iff⟩,
    fun first second number number' => ?_,
    fun row cause => Value.encode_eq_error_iff⟩
  obtain ⟨bytes, bytes', written, written', same⟩ :=
    values first.toValue second.toValue number number'
  exact ⟨bytes, bytes', written, written', same.trans Value.beq_iff.symm⟩

/-- A float and an integer, and two orders of filling a map, lead to the same bytes. -/
theorem canonical_bytes_of_equal_maps :
    ∃ bytes, (Value.map [("b", .float ⟨0x3ff0000000000000⟩), ("a", .null)]).encode = .ok bytes ∧
      (Value.map [("a", .null), ("b", .integer 1)]).encode = .ok bytes := by
  obtain ⟨bytes, bytes', written, written', same⟩ := canonical_bytes_decide_equality.1.1
    (.map [("b", .float ⟨0x3ff0000000000000⟩), ("a", .null)])
    (.map [("a", .null), ("b", .integer 1)])
    (by rw [← Value.containsNaN_iff]; decide) (by rw [← Value.containsNaN_iff]; decide)
  have equal : bytes = bytes' := same.mpr (by decide +kernel)
  exact ⟨bytes, written, equal ▸ written'⟩

namespace Row

/-- The bytes of the canonical form of a row. -/
def bytes (row : Row) : List UInt8 := Cbor.write row.toValue.normalize

/-- A row has canonical bytes. -/
def Writable (row : Row) : Prop := row.encode = .ok row.bytes

theorem encode_eq_ok_iff {row : Row} {content : List UInt8} :
    row.encode = .ok content ↔ row.Writable ∧ row.bytes = content := by
  rw [Writable, encode, Value.encode_eq_ok_iff, Value.encode_eq_ok_iff]
  exact ⟨fun both => ⟨⟨both.1, rfl⟩, both.2⟩, fun both => ⟨both.1.1, both.2⟩⟩

theorem writable_of_not_holdsNaN {row : Row} (number : ¬row.toValue.HoldsNaN) : row.Writable := by
  obtain ⟨content, written⟩ := Value.exists_encode number
  exact (encode_eq_ok_iff.mp written).1

theorem map_encode {rows : List Row} (writable : ∀ row ∈ rows, row.Writable) :
    rows.map encode = (rows.map bytes).map .ok := by
  rw [List.map_map]
  exact List.map_congr_left writable

theorem bytes_eq_iff {row other : Row} (writable : row.Writable) (writable' : other.Writable) :
    row.bytes = other.bytes ↔ row == other :=
  (Value.encode_eq_iff writable writable').trans Value.beq_iff.symm

/-- A row whose bytes are those of a row of a list equals a row of the list. -/
theorem mem_map_bytes_iff {row : Row} {rows : List Row} (writable : row.Writable)
    (writableRows : ∀ other ∈ rows, other.Writable) :
    row.bytes ∈ rows.map bytes ↔ ∃ other ∈ rows, other == row := by
  rw [List.mem_map]
  constructor
  · rintro ⟨other, member, same⟩
    exact ⟨other, member, (bytes_eq_iff (writableRows other member) writable).mp same⟩
  · rintro ⟨other, member, same⟩
    exact ⟨other, member, (bytes_eq_iff (writableRows other member) writable).mpr same⟩

/-- Rows are the same if they have the same bytes one by one. -/
theorem beq_of_map_bytes_eq {rows others : List Row} (writable : ∀ row ∈ rows, row.Writable)
    (writable' : ∀ other ∈ others, other.Writable)
    (same : rows.map Row.bytes = others.map Row.bytes) : rows == others := by
  induction rows generalizing others with
  | nil =>
    rw [List.map_eq_nil_iff.mp same.symm]
    rfl
  | cons row rest inductionHypothesis =>
    cases others with
    | nil => cases same
    | cons other rest' =>
      rw [List.forall_mem_cons] at writable writable'
      obtain ⟨first, remaining⟩ := List.cons.inj same
      show (row == other && rest == rest') = true
      rw [Bool.and_eq_true]
      exact ⟨(bytes_eq_iff writable.1 writable'.1).mp first,
        inductionHypothesis writable.2 writable'.2 remaining⟩

end Row

/-! ### Reading -/

namespace Row

/-- Fields with distinct names are the fields of a row. -/
@[simp]
theorem fields_ofFields {fields : List (String × Value)} (distinct : (fields.map Prod.fst).Nodup) :
    (ofFields fields).fields = fields := by
  -- The fields that were set before are carried along; none of the others has their names.
  have carried : ∀ (fields : List (String × Value)) (row : Row),
      ((row.fields ++ fields).map Prod.fst).Nodup →
      (fields.foldl (fun row field => row.set field.1 field.2) row).fields =
        row.fields ++ fields := by
    intro fields
    induction fields with
    | nil => exact fun row _ => (List.append_nil _).symm
    | cons head rest inductionHypothesis =>
      intro row distinct
      have fresh : head.1 ∉ row.fields.map Prod.fst := by
        rw [List.map_append, List.map_cons] at distinct
        exact fun member => (List.nodup_append.mp distinct).2.2 _ member _ List.mem_cons_self rfl
      have added : (row.set head.1 head.2).fields = row.fields ++ [head] := assign_of_not_mem fresh
      rw [List.foldl_cons, inductionHypothesis, added, List.append_assoc, List.singleton_append]
      rw [added, List.append_assoc, List.singleton_append]
      exact distinct
  exact carried fields empty distinct

/-- A row is the row of its fields. -/
theorem ofFields_fields (row : Row) : ofFields row.fields = row := by
  have same : (ofFields row.fields).fields = row.fields := fields_ofFields row.distinct
  obtain ⟨fields, distinct⟩ := row
  cases built : ofFields fields
  rw [built] at same
  cases same
  rfl

/-- The rows that a reader can take. -/
def Readable (row : Row) : Prop := row.toValue.Fits ∧ row.toValue.nesting ≤ Cbor.nestingLimit

variable {row found : Row} {bytes : List UInt8}

/-- The bytes of a row are read back if a reader can take the row, and what is read is the
row in canonical form. -/
theorem exists_decode (written : row.encode = .ok bytes) (readable : row.Readable) :
    ∃ found, decode bytes = .ok found ∧ found.toValue = row.toValue.normalize := by
  obtain ⟨-, rfl⟩ := Value.encode_eq_ok_iff.mp written
  have taken := (Cbor.reads_write row.toValue.normalize).1
    ⟨(Value.fits_normalize _).mpr readable.1,
      Nat.le_trans (Nat.le_of_eq (Value.nesting_normalize _)) readable.2⟩
  have names := ((Value.settleFields_arrangeFields_perm row.fields).map Prod.fst)
  rw [List.map_map] at names
  have distinct := names.nodup_iff.mpr row.distinct
  refine ⟨ofFields (Value.settleFields (Value.arrangeFields row.fields)), ?_, ?_⟩
  · rw [decode, Value.decode, taken]
    rfl
  · rw [toValue, fields_ofFields distinct]
    rfl

/-- The bytes of a row that a reader cannot take are not read at all. -/
theorem decode_eq_error (written : row.encode = .ok bytes) (unreadable : ¬row.Readable) :
    ∃ cause, decode bytes = .error cause := by
  obtain ⟨-, rfl⟩ := Value.encode_eq_ok_iff.mp written
  obtain ⟨cause, stopped⟩ := (Cbor.reads_write row.toValue.normalize).2 fun ⟨fits, nested⟩ =>
    unreadable ⟨(Value.fits_normalize _).mp fits,
      Nat.le_trans (Nat.le_of_eq (Value.nesting_normalize _).symm) nested⟩
  exact ⟨.decodingFailed cause, by rw [decode, Value.decode, stopped]; rfl⟩

theorem readable_iff (written : row.encode = .ok bytes) :
    row.Readable ↔ ∃ found, decode bytes = .ok found := by
  refine ⟨fun readable => ?_, fun ⟨found, read⟩ => ?_⟩
  · obtain ⟨found, read, -⟩ := exists_decode written readable
    exact ⟨found, read⟩
  · refine Classical.byContradiction fun unreadable => ?_
    obtain ⟨cause, stopped⟩ := decode_eq_error written unreadable
    rw [stopped] at read
    cases read

/-- Of rows that are the same, a reader can take both or neither. -/
theorem readable_of_beq {other : Row} {bytes' : List UInt8} (written : row.encode = .ok bytes)
    (written' : other.encode = .ok bytes') (same : row == other) (readable : other.Readable) :
    row.Readable := by
  have equal := (Value.encode_eq_iff written written').mpr (Value.beq_iff.mp same)
  exact (readable_iff written).mpr (equal ▸ (readable_iff written').mp readable)

theorem toValue_of_decode (written : row.encode = .ok bytes) (read : decode bytes = .ok found) :
    found.toValue = row.toValue.normalize := by
  obtain ⟨other, readOther, form⟩ :=
    exists_decode written ((readable_iff written).mpr ⟨found, read⟩)
  rw [readOther] at read
  rw [← Except.ok.inj read, form]

/-- The row that is read is the one that was written. -/
theorem beq_of_decode (written : row.encode = .ok bytes) (read : decode bytes = .ok found) :
    found == row := by
  show found.toValue == row.toValue
  rw [toValue_of_decode written read]
  exact Value.normalize_beq (Value.encode_eq_ok_iff.mp written).1

/-- The row that is read has the bytes it was read from. -/
theorem encode_of_decode (written : row.encode = .ok bytes) (read : decode bytes = .ok found) :
    found.encode = .ok bytes := by
  obtain ⟨number, rfl⟩ := Value.encode_eq_ok_iff.mp written
  rw [encode, toValue_of_decode written read, Value.encode_eq_ok_iff, Value.containsNaN_normalize,
    Value.normalize_normalize]
  exact ⟨number, rfl⟩

/-! ### Fields -/

theorem lookup_of_normalize_eq {fields fields' : List (String × Value)}
    (same : (Value.map fields).normalize = (Value.map fields').normalize) (name : String) :
    (fields.lookup name).map Value.normalize = (fields'.lookup name).map Value.normalize := by
  have canonical : ∀ fields, (fields.lookup name).map Value.normalize =
      (Value.settleFields (Value.arrangeFields fields)).lookup name := by
    intro fields
    rw [Value.lookup_settleFields, Value.lookup_arrangeFields, Option.map_map]
    rfl
  rw [canonical, canonical, Value.map.inj same]

/-- Rows with the same bytes have the same canonical value in every field. -/
theorem get?_of_encode_eq {other : Row} (written : row.encode = .ok bytes)
    (written' : other.encode = .ok bytes) (name : String) :
    (row.get? name).map Value.normalize = (other.get? name).map Value.normalize := by
  obtain ⟨-, bytes_eq⟩ := Value.encode_eq_ok_iff.mp written
  obtain ⟨-, bytes_eq'⟩ := Value.encode_eq_ok_iff.mp written'
  exact lookup_of_normalize_eq (Cbor.write_inj (bytes_eq.trans bytes_eq'.symm)) name

end Row

end IndexedStore
