/-
This file proves that values are read back from their JSON text. Byte strings and floats have no
text of their own: the former are written like arrays, and the latter may look like other numbers.
A value without them is read back as it was, with its fields in order and its repeated names, and
so is a row.

A reader counts how many more arrays and objects may open. So a value is read back where it nests
no deeper than that, and where it nests deeper its text is refused as a whole.
-/

import IndexedStore.Proofs.Cbor.ReadBack
import IndexedStore.Proofs.Json.Scalars
import IndexedStore.Proofs.Row.Encoding

namespace IndexedStore

namespace Value

/-- The values that hold no floats and no byte strings, at any depth. -/
inductive IsPlain : Value → Prop where
  | null : IsPlain null
  | bool (flag : Bool) : IsPlain (bool flag)
  | integer (number : Int64) : IsPlain (integer number)
  | text (content : String) : IsPlain (text content)
  | array {items : List Value} (each : ∀ item ∈ items, IsPlain item) : IsPlain (array items)
  | map {fields : List (String × Value)} (each : ∀ field ∈ fields, IsPlain field.2) :
    IsPlain (map fields)

theorem itemsNesting_le_iff {items : List Value} {depth : Nat} :
    itemsNesting items ≤ depth ↔ ∀ item ∈ items, item.nesting ≤ depth := by
  induction items with
  | nil => exact iff_of_true (Nat.zero_le depth) nofun
  | cons item rest inductionHypothesis =>
    rw [itemsNesting, Nat.max_le, inductionHypothesis, List.forall_mem_cons]

theorem fieldsNesting_le_iff {fields : List (String × Value)} {depth : Nat} :
    fieldsNesting fields ≤ depth ↔ ∀ field ∈ fields, field.2.nesting ≤ depth := by
  induction fields with
  | nil => exact iff_of_true (Nat.zero_le depth) nofun
  | cons field rest inductionHypothesis =>
    rw [fieldsNesting, Nat.max_le, inductionHypothesis, List.forall_mem_cons]

end Value

namespace Json

/-! ### Blanks -/

/-- A text that begins with a character that is no blank and closes no group. -/
def Begins (form : List Char) : Prop :=
  ∃ c chars, form = c :: chars ∧ isBlank c = false ∧ c ≠ ']' ∧ c ≠ '\x7d'

theorem skipBlanks_cons {c : Char} (visible : isBlank c = false) (chars : List Char) :
    skipBlanks (c :: chars) = c :: chars := by
  rw [skipBlanks, List.dropWhile_cons, visible]
  rfl

theorem Begins.skipBlanks_append {form : List Char} (begins : Begins form) (rest : List Char) :
    skipBlanks (form ++ rest) = form ++ rest := by
  obtain ⟨c, chars, rfl, visible, -⟩ := begins
  exact skipBlanks_cons visible _

/-! ### Groups -/

section Groups

variable {α : Type} {step : Step α} {form : α → List Char} {possible : α → Prop}
  [DecidablePred possible] {close : Char}

/-- A step reads the form of an item, if a condition holds, and stops otherwise. -/
structure Reads (step : Step α) (form : α → List Char) (possible : α → Prop)
    [DecidablePred possible] (item : α) : Prop where
  /-- The form can be told from the end of a group. -/
  begins : Begins (form item)
  /-- What is read, whatever ends the form. -/
  read : ∀ rest, Ends rest →
    step (form item ++ rest) = if possible item then some (item, rest) else none

theorem Reads.read_skipBlanks {item : α} (reads : Reads step form possible item)
    {rest : List Char} (ends : Ends rest) :
    step (skipBlanks (form item ++ rest)) = if possible item then some (item, rest) else none := by
  rw [reads.begins.skipBlanks_append, reads.read rest ends]

theorem readElements_of_none {fuel : Nat} {chars : List Char}
    (stopped : step (skipBlanks chars) = none) :
    readElements step close (fuel + 1) chars = none := by
  simp only [readElements, stopped]
  rfl

theorem readElements_of_some {fuel : Nat} {chars rest : List Char} {item : α} {c : Char}
    (read : step (skipBlanks chars) = some (item, c :: rest)) (visible : isBlank c = false) :
    readElements step close (fuel + 1) chars =
      if c = close then some ([item], rest)
      else if c = ',' then
        (readElements step close fuel rest).map fun (others, chars) => (item :: others, chars)
      else none := by
  simp only [readElements, read, Option.bind_eq_bind, Option.bind_some, skipBlanks_cons visible]
  split
  · rfl
  · split
    · cases readElements step close fuel rest <;> rfl
    · rfl

theorem ends_comma (rest : List Char) : Ends (',' :: rest) := fun c same => by
  cases same
  decide

/-- What closes a group ends a number, and is no comma and no blank. -/
theorem closing (closes : close = ']' ∨ close = '\x7d') (rest : List Char) :
    Ends (close :: rest) ∧ ',' ≠ close ∧ isBlank close = false := by
  rcases closes with rfl | rfl
  · exact ⟨fun c same => by cases same; decide, by decide, rfl⟩
  · exact ⟨fun c same => by cases same; decide, by decide, rfl⟩

theorem withCommas_cons_cons (part next : List Char) (rest : List (List Char)) :
    withCommas (part :: next :: rest) = part ++ ',' :: withCommas (next :: rest) := rfl

/-- After the first element stands a comma or what closes the group. -/
theorem exists_after_first (closes : close = ']' ∨ close = '\x7d') (rest : List Char) (item : α)
    (others : List α) : ∃ after,
      withCommas ((item :: others).map form) ++ close :: rest = form item ++ after ∧
        Ends after := by
  cases others with
  | nil => exact ⟨_, rfl, (closing closes rest).1⟩
  | cons next others => exact ⟨_, List.append_assoc _ _ _, ends_comma _⟩

/-- Elements with commas between them are read one after the other. -/
theorem readElements_withCommas (closes : close = ']' ∨ close = '\x7d') (rest : List Char)
    {items : List α} (nonempty : items ≠ []) {fuel : Nat} (enough : items.length ≤ fuel)
    (reads : ∀ item ∈ items, Reads step form possible item) :
    readElements step close fuel (withCommas (items.map form) ++ close :: rest) =
      if ∀ item ∈ items, possible item then some (items, rest) else none := by
  obtain ⟨ends, notComma, visible⟩ := closing closes rest
  induction items generalizing fuel with
  | nil => exact absurd rfl nonempty
  | cons item others inductionHypothesis =>
    obtain ⟨fuel, rfl⟩ : ∃ more, fuel = more + 1 :=
      ⟨fuel - 1, by rw [List.length_cons] at enough; omega⟩
    obtain ⟨first, remaining⟩ := List.forall_mem_cons.mp reads
    by_cases can : possible item
    · cases others with
      | nil =>
        have read := first.read_skipBlanks ends
        rw [if_pos can] at read
        rw [List.map_singleton, withCommas, readElements_of_some read visible, if_pos rfl, if_pos]
        exact List.forall_mem_singleton.mpr can
      | cons next others =>
        have following := inductionHypothesis (List.cons_ne_nil next others)
          (Nat.le_of_succ_le_succ enough) remaining
        have read := first.read_skipBlanks
          (ends_comma (withCommas ((next :: others).map form) ++ close :: rest))
        rw [if_pos can] at read
        rw [List.map_cons, List.map_cons, withCommas_cons_cons, ← List.map_cons, List.append_assoc,
          List.cons_append, readElements_of_some read rfl, if_neg notComma, if_pos rfl, following]
        simp only [List.forall_mem_cons (a := item), can, true_and]
        split <;> rfl
    · obtain ⟨after, written, endsItem⟩ := exists_after_first closes rest item others
      have stopped := first.read_skipBlanks endsItem
      rw [if_neg can] at stopped
      rw [written, readElements_of_none stopped, if_neg]
      exact fun all => can (all item List.mem_cons_self)

/-- There is a comma or a closing character for every part. -/
theorem length_le_withCommas (parts : List (List Char)) :
    parts.length ≤ (withCommas parts).length + 1 := by
  induction parts with
  | nil => exact Nat.zero_le _
  | cons part rest inductionHypothesis =>
    cases rest with
    | nil => exact Nat.le_add_left 1 _
    | cons next others =>
      rw [withCommas_cons_cons]
      simp only [List.length_append, List.length_cons] at inductionHypothesis ⊢
      omega

/-- A group is read back if each of its elements is. -/
theorem readGroup_withCommas (closes : close = ']' ∨ close = '\x7d') (rest : List Char)
    {items : List α} (reads : ∀ item ∈ items, Reads step form possible item) :
    readGroup step close (withCommas (items.map form) ++ close :: rest) =
      if ∀ item ∈ items, possible item then some (items, rest) else none := by
  cases items with
  | nil =>
    obtain ⟨-, -, visible⟩ := closing closes rest
    rw [List.map_nil, withCommas, List.nil_append, if_pos nofun]
    simp only [readGroup, skipBlanks_cons visible, if_true]
  | cons item others =>
    have enough : (item :: others).length ≤
        (withCommas ((item :: others).map form) ++ close :: rest).length := by
      have bound := length_le_withCommas ((item :: others).map form)
      rw [List.length_map] at bound
      rw [List.length_append]
      exact Nat.le_trans bound (Nat.add_le_add_left (Nat.le_add_left 1 _) _)
    have read := readElements_withCommas closes rest (List.cons_ne_nil item others) enough reads
    obtain ⟨after, written, -⟩ := @exists_after_first _ form _ closes rest item others
    obtain ⟨c, chars, begins, visible, notList, notObject⟩ :=
      (reads item List.mem_cons_self).begins
    have inside : c ≠ close := by
      rcases closes with rfl | rfl
      · exact notList
      · exact notObject
    rw [written, begins, List.cons_append] at read ⊢
    simp only [readGroup, skipBlanks_cons visible, if_neg inside, read]

end Groups

/-! ### Values -/

theorem writeItems_eq_map (items : List Value) : writeItems items = items.map write := by
  induction items with
  | nil => rfl
  | cons item rest inductionHypothesis => simp [inductionHypothesis]

/-- The text of a field. -/
def writeField (field : String × Value) : List Char := writeText field.1 ++ ':' :: write field.2

theorem writeFields_eq_map (fields : List (String × Value)) :
    writeFields fields = fields.map writeField := by
  induction fields with
  | nil => rfl
  | cons field rest inductionHypothesis =>
    simp [inductionHypothesis, writeField]

/-- A digit or a sign differs from every other character. -/
theorem ne_of_numeric {c : Char} (numeric : isDigit c ∨ c = '-') (other : Char)
    (different : isDigit other = false ∧ other ≠ '-') : c ≠ other := by
  rintro rfl
  rcases numeric with digit | sign
  · exact absurd digit (Bool.eq_false_iff.mp different.1)
  · exact different.2 sign

theorem begins_write {value : Value} (plain : value.IsPlain) : Begins (write value) := by
  cases plain with
  | null | text content => exact ⟨_, _, rfl, rfl, by decide, by decide⟩
  | bool flag => cases flag <;> exact ⟨_, _, rfl, rfl, by decide, by decide⟩
  | array each | map each => exact ⟨_, _, by rw [write]; rfl, rfl, by decide, by decide⟩
  | integer number =>
    obtain ⟨c, chars, written, numeric⟩ := exists_renderInt number.toInt
    have differs := ne_of_numeric numeric
    refine ⟨c, chars, by rw [write, written], ?_, differs ']' (by decide),
      differs '\x7d' (by decide)⟩
    rw [isBlank, decide_eq_false (differs ' ' (by decide)),
      decide_eq_false (differs '\n' (by decide)), decide_eq_false (differs '\t' (by decide)),
      decide_eq_false (differs '\r' (by decide))]
    rfl

theorem readValue_of_numeric {c : Char} (numeric : isDigit c ∨ c = '-') (depth : Nat)
    (chars : List Char) : readValue depth (c :: chars) = readNumber (c :: chars) := by
  have differs := ne_of_numeric numeric
  rw [readValue.eq_def]
  split
  case h_7 => rfl
  all_goals exact absurd (List.cons.inj ‹c :: chars = _›).1 (differs _ (by decide))

theorem readValue_text (depth : Nat) (content : String) (rest : List Char) :
    readValue depth (writeText content ++ rest) = some (.text content, rest) := by
  cases depth <;> exact congrArg (Option.map _) (readText_writeText content rest)

theorem reads_field {depth : Nat} {field : String × Value} (plain : field.2.IsPlain)
    (reads : ∀ rest, Ends rest → readValue depth (write field.2 ++ rest) =
      if field.2.nesting ≤ depth then some (field.2, rest) else none) :
    Reads (readField (readValue depth)) writeField (fun field => field.2.nesting ≤ depth)
      field where
  begins := ⟨_, _, rfl, rfl, by decide, by decide⟩
  read rest ends := by
    rw [writeField, List.append_assoc, List.cons_append, readField, readText_writeText]
    show readValue depth (skipBlanks (write field.2 ++ rest)) >>= _ = _
    rw [(begins_write plain).skipBlanks_append, reads rest ends]
    split <;> rfl

/-- A plain value is read back where it nests no deeper than the reader follows, and its text is
refused where it nests deeper. -/
theorem readValue_write : ∀ (depth : Nat) {value : Value}, value.IsPlain → ∀ rest, Ends rest →
    readValue depth (write value ++ rest) =
      if value.nesting ≤ depth then some (value, rest) else none
  | depth, _, .null, rest, _ => by cases depth <;> rfl
  | depth, _, .bool flag, rest, _ => by cases depth <;> cases flag <;> rfl
  | depth, _, .integer number, rest, ends => by
    have shallow : (Value.integer number).nesting ≤ depth := Nat.zero_le depth
    rw [if_pos shallow, write, ← readNumber_renderInt number ends]
    obtain ⟨c, chars, written, numeric⟩ := exists_renderInt number.toInt
    rw [written]
    exact readValue_of_numeric numeric depth _
  | depth, _, .text content, rest, _ => by
    have shallow : (Value.text content).nesting ≤ depth := Nat.zero_le depth
    rw [if_pos shallow]
    exact readValue_text depth content rest
  | 0, .array items, _, rest, _ => by
    rw [write]
    rfl
  | 0, .map fields, _, rest, _ => by
    rw [write]
    rfl
  | depth + 1, .array items, .array each, rest, ends => by
    have written : write (.array items) ++ rest =
        '[' :: (withCommas (items.map write) ++ ']' :: rest) := by
      rw [write, writeItems_eq_map, List.append_assoc]
      rfl
    have reads : ∀ item ∈ items,
        Reads (readValue depth) write (fun item => item.nesting ≤ depth) item := fun item member =>
      ⟨begins_write (each item member), readValue_write depth (each item member)⟩
    rw [written, readValue, readGroup_withCommas (.inl rfl) rest reads]
    simp only [Value.nesting, Nat.add_le_add_iff_right, Value.itemsNesting_le_iff]
    split <;> rfl
  | depth + 1, .map fields, .map each, rest, ends => by
    have written : write (.map fields) ++ rest =
        '\x7b' :: (withCommas (fields.map writeField) ++ '\x7d' :: rest) := by
      rw [write, writeFields_eq_map, List.append_assoc]
      rfl
    have reads : ∀ field ∈ fields, Reads (readField (readValue depth)) writeField
        (fun field => field.2.nesting ≤ depth) field := fun field member =>
      reads_field (each field member) (readValue_write depth (each field member))
    rw [written, readValue, readGroup_withCommas (.inr rfl) rest reads]
    simp only [Value.nesting, Nat.add_le_add_iff_right, Value.fieldsNesting_le_iff]
    split <;> rfl

/-! ### Whole texts -/

theorem readAs_write {α : Type} {interpret : Value → Except String α} {value : Value} {result : α}
    (plain : value.IsPlain) (made : interpret value = .ok result) :
    readAs interpret (String.ofList (write value)) =
      if value.nesting ≤ nestingLimit then .ok result else .error .malformed := by
  have read := readValue_write nestingLimit plain [] nofun
  rw [← (begins_write plain).skipBlanks_append, List.append_nil] at read
  rw [readAs, String.toList_ofList, read]
  by_cases shallow : value.nesting ≤ nestingLimit
  · rw [if_pos shallow, if_pos shallow]
    simp only [made]
    rfl
  · rw [if_neg shallow, if_neg shallow]

end Json

/-- Values are read back from their JSON text. If a value holds no floats and no byte strings, then
its text is read as that very value, with its fields in order and its repeated names, provided that
arrays and objects nest at most 127 deep; where they nest deeper the text is refused. The same holds
for rows, each of which counts as one object. -/
theorem json_text_reads_back :
    (∀ value : Value, value.IsPlain → Json.read (String.ofList (Json.write value)) =
      if value.nesting ≤ 127 then .ok value else .error .malformed) ∧
    ∀ row : Row, row.toValue.IsPlain → Json.readRow (String.ofList (Json.write row.toValue)) =
      if row.toValue.nesting ≤ 127 then .ok row else .error .malformed :=
  ⟨fun _ plain => Json.readAs_write plain rfl,
    fun row plain => Json.readAs_write plain (congrArg Except.ok row.ofFields_fields)⟩

/-- A value with the ends of the integers, with a name that stands twice, and with a text of a
quote, a control and a character beyond the first plane. -/
def Value.knotty : Value :=
  .map [("b", .array [.integer Int64.minValue, .integer Int64.maxValue, .bool true]),
    ("a", .text "\"\x01😀"), ("b", .null)]

/-- The text of that value. -/
def Value.knottyText : String :=
  "\x7b\"b\":[-9223372036854775808,9223372036854775807,true]," ++
    "\"a\":\"\\\"\\u0001😀\",\"b\":null\x7d"

/-- A row with that value. -/
def Row.knotty : Row := { fields := [("v", .knotty), ("id", .integer 0)] }

/-- The value and the row are read back. -/
theorem knotty_row_reads_back :
    Json.read Value.knottyText = .ok .knotty ∧
      Json.readRow (String.ofList (Json.write Row.knotty.toValue)) = .ok .knotty := by
  have plain : Value.knotty.IsPlain := by
    refine .map (List.forall_mem_cons.mpr ⟨.array ?_, ?_⟩)
    · simp [Value.IsPlain.integer, Value.IsPlain.bool]
    · simp [Value.IsPlain.text, Value.IsPlain.null]
  have plainRow : Row.knotty.toValue.IsPlain := by
    refine .map (List.forall_mem_cons.mpr ⟨plain, ?_⟩)
    simp [Value.IsPlain.integer]
  have text : Json.write .knotty = Value.knottyText.toList := by decide +kernel
  have read := json_text_reads_back.1 .knotty plain
  rw [text, String.ofList_toList, if_pos (by decide)] at read
  exact ⟨read, (json_text_reads_back.2 .knotty plainRow).trans (if_pos (by decide))⟩

end IndexedStore
