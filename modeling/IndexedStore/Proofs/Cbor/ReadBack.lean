/-
This file proves which values are read back from what was written: those whose lengths
fit into a header and whose arrays and maps nest no deeper than the reader follows.
For every other value reading fails, and never gives a wrong value.
-/

import IndexedStore.Proofs.Cbor.Unambiguous

namespace IndexedStore

namespace Value

/-! ### What a reader can take -/

mutual

/-- How many arrays and maps stand around the innermost value. -/
@[simp]
def nesting : Value → Nat
  | array items => itemsNesting items + 1
  | map fields => fieldsNesting fields + 1
  | _ => 0

/-- The nesting of the most deeply nested item. -/
@[simp]
def itemsNesting : List Value → Nat
  | [] => 0
  | item :: rest => max item.nesting (itemsNesting rest)

/-- The nesting of the most deeply nested field. -/
@[simp]
def fieldsNesting : List (String × Value) → Nat
  | [] => 0
  | (_, value) :: rest => max value.nesting (fieldsNesting rest)

end

mutual

/-- Whether every length in a value fits into eight bytes, as every length in memory
does. -/
@[simp]
def Fits : Value → Prop
  | text content => (Cbor.textBytes content).length < 2 ^ 64
  | bytes content => content.length < 2 ^ 64
  | array items => items.length < 2 ^ 64 ∧ ItemsFit items
  | map fields => fields.length < 2 ^ 64 ∧ FieldsFit fields
  | _ => True

/-- Whether every length in the items fits. -/
@[simp]
def ItemsFit : List Value → Prop
  | [] => True
  | item :: rest => item.Fits ∧ ItemsFit rest

/-- Whether every length in the fields fits, the names included. -/
@[simp]
def FieldsFit : List (String × Value) → Prop
  | [] => True
  | (name, value) :: rest =>
    ((Cbor.textBytes name).length < 2 ^ 64 ∧ value.Fits) ∧ FieldsFit rest

end

end Value

namespace Cbor

/-! ### Steps that may fail -/

/-- A step gives its result if a condition holds, and fails otherwise. -/
structure Reads {α : Type} (possible : Prop) (result : Except ReadError (α × Input)) (value : α)
    (after : Input) : Prop where
  /-- Under the condition there is a result. -/
  success : possible → result = .ok (value, after)
  /-- Without it there is none. -/
  failure : ¬possible → ∃ cause, result = .error cause

namespace Reads

variable {α β : Type} {possible next : Prop} {value : α} {after : Input}

theorem of_eq {result : Except ReadError (α × Input)} (same : result = .ok (value, after)) :
    Reads True result value after :=
  ⟨fun _ => same, fun impossible => absurd trivial impossible⟩

theorem of_error {result : Except ReadError (α × Input)} {cause : ReadError}
    (stopped : result = .error cause) : Reads False result value after :=
  ⟨False.elim, fun _ => ⟨cause, stopped⟩⟩

theorem of_iff {other : Prop} {result : Except ReadError (α × Input)}
    (reads : Reads possible result value after) (same : possible ↔ other) :
    Reads other result value after :=
  ⟨fun holds => reads.success (same.mpr holds), fun fails => reads.failure (mt same.mp fails)⟩

/-- Steps one after the other give a result if each of them does. -/
theorem bind {result : Except ReadError (α × Input)}
    {step : α × Input → Except ReadError (β × Input)} {value' : β} {after' : Input}
    (first : Reads possible result value after)
    (second : Reads next (step (value, after)) value' after') :
    Reads (possible ∧ next) (result >>= step) value' after' where
  success holds := by
    rw [first.success holds.1]
    exact second.success holds.2
  failure fails := by
    by_cases reached : possible
    · obtain ⟨cause, stopped⟩ := second.failure fun holds => fails ⟨reached, holds⟩
      exact ⟨cause, by rw [first.success reached]; exact stopped⟩
    · obtain ⟨cause, stopped⟩ := first.failure reached
      exact ⟨cause, by rw [stopped]; rfl⟩

/-- A result that is only passed on. -/
theorem map {result : Except ReadError (α × Input)} (first : Reads possible result value after)
    (change : α → β) :
    Reads possible (result >>= fun (value, input) => pure (change value, input)) (change value)
      after where
  success holds := by rw [first.success holds]; rfl
  failure fails := by
    obtain ⟨cause, stopped⟩ := first.failure fails
    exact ⟨cause, by rw [stopped]; rfl⟩

end Reads

/-! ### Values without items -/

theorem readAfter_of_bodiless? {header : Header} {value : Value}
    (made : bodiless? header = some value) (depth : Nat) (input : Input) :
    readAfter depth header input = .ok (value, input) := by
  unfold bodiless? at made
  split at made <;> cases made <;> cases depth <;> rfl

theorem readHeader_lead (value : Value) (offset : Nat) (rest : List UInt8) :
    Reads ((lead value).argument < 2 ^ 64) (readHeader ⟨offset, (lead value).write ++ rest⟩)
      (lead value) ⟨offset + (lead value).write.length, rest⟩ :=
  ⟨fun fits => Header.readHeader_write (definite_lead value) fits offset rest,
    fun large => ⟨_, Header.readHeader_write_of_large (definite_lead value) (Nat.not_lt.mp large)
      offset rest⟩⟩

theorem argument_integerHeader_lt (number : Int64) :
    (integerHeader number.toInt).argument < 2 ^ 64 := by
  have lower := number.minValue_le_toInt
  have upper := number.toInt_le
  rw [show Int64.minValue.toInt = -2 ^ 63 from rfl] at lower
  rw [show Int64.maxValue.toInt = 2 ^ 63 - 1 from rfl] at upper
  rw [integerHeader]
  split <;> simp only [Header.argument] <;> omega

theorem argument_lead_lt {value scalar : Value} (made : bodiless? (lead value) = some scalar) :
    (lead value).argument < 2 ^ 64 := by
  rw [bodiless?_lead] at made
  cases value with
  | integer number => exact argument_integerHeader_lt number
  | bool flag => cases flag <;> exact of_decide_eq_true rfl
  | null | float _ => exact of_decide_eq_true rfl
  | _ => cases made

/-- Reads an item, whose content a step reads after the header. -/
def readItem {α : Type} (step : Header → Step α) : Step α := fun input => do
  let (header, input) ← readHeader input
  step header input

/-- A value is read back if its header is and its body is. -/
theorem readItem_write_of_body {value : Value} {possible : Prop} {depth : Nat}
    {rest : List UInt8}
    (body : ∀ offset,
      Reads possible (readAfter depth (lead value) ⟨offset, body value ++ rest⟩) value
      ⟨offset + (body value).length, rest⟩) (offset : Nat) :
    Reads ((lead value).argument < 2 ^ 64 ∧ possible)
      (readItem (readAfter depth) ⟨offset, write value ++ rest⟩) value
      ⟨offset + (write value).length, rest⟩ := by
  rw [write_eq, List.append_assoc, List.length_append, ← Nat.add_assoc]
  exact (readHeader_lead value offset _).bind (body _)

theorem readItem_bodiless {value : Value} (made : bodiless? (lead value) = some value)
    (depth offset : Nat) (rest : List UInt8) :
    Reads True (readItem (readAfter depth) ⟨offset, write value ++ rest⟩) value
      ⟨offset + (write value).length, rest⟩ := by
  have empty : body value = [] := by
    rw [bodiless?_lead] at made
    cases value <;> first | rfl | cases made
  refine (readItem_write_of_body (fun offset => Reads.of_eq ?_) offset).of_iff
    (iff_of_true ⟨argument_lead_lt made, trivial⟩ trivial)
  rw [empty]
  exact readAfter_of_bodiless? made _ _

theorem readAfter_text (content : String) (depth offset : Nat) (rest : List UInt8) :
    Reads True (readAfter depth (lead (.text content)) ⟨offset, body (.text content) ++ rest⟩)
      (.text content) ⟨offset + (body (.text content)).length, rest⟩ := by
  have read := (Reads.of_eq (readTextSegment_textBytes content
    (shortestStart (lead (.text content)) ⟨offset, textBytes content ++ rest⟩) offset rest)).map
    Value.text
  cases depth <;> exact read

theorem readAfter_bytes (content : List UInt8) (depth offset : Nat) (rest : List UInt8) :
    Reads True (readAfter depth (lead (.bytes content)) ⟨offset, body (.bytes content) ++ rest⟩)
      (.bytes content) ⟨offset + (body (.bytes content)).length, rest⟩ := by
  have taken : takeBytes content.length ⟨offset, content ++ rest⟩ =
    .ok (content, ⟨offset + content.length, rest⟩) := takeBytes_append rfl offset rest
  have read := (Reads.of_eq taken).map Value.bytes
  cases depth <;> exact read

/-! ### All values -/

theorem readNameAfter_text (fuel : Nat) (length : Option Nat) :
    readNameAfter fuel (.text length) = readTextContent length := by
  cases fuel <;> rfl

theorem readField_eq (step : Header → Step Value) (header : Header) (input : Input) :
    readField step header input = (do
      let (name, input) ← readNameAfter input.rest.length header input
      let (value, input) ← readItem step input
      pure ((name, value), input)) := by
  rw [readField]
  cases named : readNameAfter input.rest.length header input with
  | error cause => rfl
  | ok result =>
    obtain ⟨name, after⟩ := result
    show (do
      let (header, input) ← readHeader after
      let (value, input) ← step header input
      pure ((name, value), input)) = _
    cases begun : readHeader after with
    | error cause => simp only [readItem, bind, Except.bind, begun]
    | ok result => simp only [readItem, bind, Except.bind, begun]

theorem readField_write {depth : Nat} {name : String} {value : Value} {possible : Prop}
    {rest : List UInt8}
    (item : ∀ offset, Reads possible
      (readItem (readAfter depth) ⟨offset, write value ++ rest⟩) value
      ⟨offset + (write value).length, rest⟩) (offset : Nat) :
    Reads ((textBytes name).length < 2 ^ 64 ∧ possible)
      (readItem (readField (readAfter depth))
        ⟨offset, writeText name ++ (write value ++ rest)⟩) (name, value)
      ⟨offset + (writeText name).length + (write value).length, rest⟩ := by
  have field : ∀ offset, Reads (True ∧ possible)
      (readField (readAfter depth) (lead (.text name))
        ⟨offset, textBytes name ++ (write value ++ rest)⟩) (name, value)
      ⟨offset + (textBytes name).length + (write value).length, rest⟩ := by
    intro offset
    rw [readField_eq]
    refine Reads.bind (Reads.of_eq ?_) ((item _).map (name, ·))
    rw [lead, readNameAfter_text]
    exact readTextSegment_textBytes name _ offset _
  rw [writeText, List.append_assoc, List.length_append, ← Nat.add_assoc]
  exact ((readHeader_lead (.text name) offset _).bind (field _)).of_iff
    (and_congr_right' (iff_of_eq (true_and _)))

mutual

theorem readItem_write : ∀ (value : Value) (depth offset : Nat) (rest : List UInt8),
    Reads (value.Fits ∧ value.nesting ≤ depth)
      (readItem (readAfter depth) ⟨offset, write value ++ rest⟩) value
      ⟨offset + (write value).length, rest⟩
  | .null, depth, offset, rest | .bool _, depth, offset, rest | .float _, depth, offset, rest
  | .integer _, depth, offset, rest => by
    refine (readItem_bodiless (bodiless?_lead _) depth offset rest).of_iff ?_
    exact iff_of_true trivial ⟨trivial, Nat.zero_le depth⟩
  | .text content, depth, offset, rest => by
    refine (readItem_write_of_body (fun offset => readAfter_text content depth offset rest)
      offset).of_iff ?_
    simp
  | .bytes content, depth, offset, rest => by
    refine (readItem_write_of_body (fun offset => readAfter_bytes content depth offset rest)
      offset).of_iff ?_
    simp
  | .array items, 0, offset, rest => by
    refine (readItem_write_of_body (fun offset => Reads.of_error rfl) offset).of_iff ?_
    simp
  | .array items, depth + 1, offset, rest => by
    refine (readItem_write_of_body (fun offset =>
      (repeatStep_writeItems items depth offset rest).map Value.array) offset).of_iff ?_
    simp [and_assoc]
  | .map fields, 0, offset, rest => by
    refine (readItem_write_of_body (fun offset => Reads.of_error rfl) offset).of_iff ?_
    simp
  | .map fields, depth + 1, offset, rest => by
    refine (readItem_write_of_body (fun offset =>
      (repeatStep_writeFields fields depth offset rest).map Value.map) offset).of_iff ?_
    simp [and_assoc]

theorem repeatStep_writeItems : ∀ (items : List Value) (depth offset : Nat) (rest : List UInt8),
    Reads (Value.ItemsFit items ∧ Value.itemsNesting items ≤ depth)
      (repeatStep (readItem (readAfter depth)) items.length ⟨offset, writeItems items ++ rest⟩)
      items
      ⟨offset + (writeItems items).length, rest⟩
  | [], depth, offset, rest =>
    (Reads.of_eq rfl).of_iff (iff_of_true trivial ⟨trivial, Nat.zero_le depth⟩)
  | item :: items, depth, offset, rest => by
    rw [writeItems, List.append_assoc, List.length_append, ← Nat.add_assoc]
    refine ((readItem_write item depth offset _).bind
      ((repeatStep_writeItems items depth _ rest).map (item :: ·))).of_iff ?_
    rw [Value.ItemsFit, Value.itemsNesting, Nat.max_le, and_and_and_comm]

theorem repeatStep_writeFields : ∀ (fields : List (String × Value)) (depth offset : Nat)
    (rest : List UInt8),
    Reads (Value.FieldsFit fields ∧ Value.fieldsNesting fields ≤ depth)
      (repeatStep (readItem (readField (readAfter depth))) fields.length
        ⟨offset, writeFields fields ++ rest⟩) fields
      ⟨offset + (writeFields fields).length, rest⟩
  | [], depth, offset, rest =>
    (Reads.of_eq rfl).of_iff (iff_of_true trivial ⟨trivial, Nat.zero_le depth⟩)
  | (name, value) :: fields, depth, offset, rest => by
    rw [writeFields, List.append_assoc, List.append_assoc, List.length_append, List.length_append,
      ← Nat.add_assoc, ← Nat.add_assoc]
    refine ((readField_write (fun offset => readItem_write value depth offset _) offset).bind
      ((repeatStep_writeFields fields depth _ rest).map ((name, value) :: ·))).of_iff ?_
    rw [Value.FieldsFit, Value.fieldsNesting, Nat.max_le]
    exact ⟨fun ⟨⟨name, fits, nested⟩, others, deep⟩ => ⟨⟨⟨name, fits⟩, others⟩, nested, deep⟩,
      fun ⟨⟨⟨name, fits⟩, others⟩, nested, deep⟩ => ⟨⟨name, fits, nested⟩, others, deep⟩⟩

end

/-- Reading some bytes is reading the item at their beginning. -/
theorem read_eq (bytes : List UInt8) :
    read bytes = (readItem (readAfter nestingLimit) ⟨0, bytes⟩).map Prod.fst := by
  rw [read, readItem]
  cases readHeader ⟨0, bytes⟩ with
  | error cause => rfl
  | ok result =>
    show (do
      let (value, _) ← readAfter nestingLimit result.1 result.2
      pure value) = (readAfter nestingLimit result.1 result.2).map Prod.fst
    cases readAfter nestingLimit result.1 result.2 <;> rfl

/-- A written value is read back exactly if a reader can take it, and otherwise it cannot
be read. -/
theorem reads_write (value : Value) :
    (value.Fits ∧ value.nesting ≤ nestingLimit → read (write value) = .ok value) ∧
      (¬(value.Fits ∧ value.nesting ≤ nestingLimit) →
        ∃ cause, read (write value) = .error cause) := by
  have item := readItem_write value nestingLimit 0 []
  rw [List.append_nil] at item
  constructor
  · intro readable
    rw [read_eq, item.success readable]
    rfl
  · intro unreadable
    obtain ⟨cause, stopped⟩ := item.failure unreadable
    exact ⟨cause, by rw [read_eq, stopped]; rfl⟩

/-- Whatever is read from a written value is that value. -/
theorem eq_of_read_write {value value' : Value} (found : read (write value) = .ok value') :
    value' = value := by
  obtain ⟨success, failure⟩ := reads_write value
  by_cases readable : value.Fits ∧ value.nesting ≤ nestingLimit
  · rw [success readable] at found
    exact (Except.ok.inj found).symm
  · obtain ⟨cause, stopped⟩ := failure readable
    rw [stopped] at found
    cases found

end Cbor
end IndexedStore
