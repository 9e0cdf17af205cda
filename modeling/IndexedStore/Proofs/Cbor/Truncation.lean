/-
This file proves that a reader notices when the end of a written value is missing.

A reader takes its input from the front and never looks ahead. So on the beginning of an input it
does what it does on the whole of it, until it asks for a byte that is not there any more. A
written value is read to its last byte or not at all; whoever reads a proper beginning of it is
therefore stopped, at the end of the input if not before.
-/

import IndexedStore.Proofs.Cbor.ReadBack
import IndexedStore.Proofs.Row.Encoding

namespace IndexedStore

namespace Cbor

/-! ### Steps on the beginning of an input -/

/-- How a step ends on the beginning of an input, beside how it ends on the whole of it, where some
more bytes follow. -/
inductive Cut {α : Type} (more : List UInt8) :
    Except ReadError (α × Input) → Except ReadError (α × Input) → Prop where
  /-- The step asks for a byte that is missing. -/
  | ended {whole : Except ReadError (α × Input)} : Cut more (.error .endOfInput) whole
  /-- The step fails on what it has seen. -/
  | failed (cause : ReadError) : Cut more (.error cause) (.error cause)
  /-- The step succeeds with what it has seen, and leaves the rest. -/
  | done (value : α) (offset : Nat) (rest : List UInt8) :
    Cut more (.ok (value, ⟨offset, rest⟩)) (.ok (value, ⟨offset, rest ++ more⟩))

/-- A step does on the beginning of an input what another one does on the whole of it. -/
def Agrees {α : Type} (more : List UInt8) (step step' : Step α) : Prop :=
  ∀ offset rest, Cut more (step ⟨offset, rest⟩) (step' ⟨offset, rest ++ more⟩)

variable {α β : Type} {more : List UInt8}

theorem Cut.bind {first first' : Except ReadError (α × Input)}
    {next next' : α × Input → Except ReadError (β × Input)} (head : Cut more first first')
    (tail : ∀ value offset rest,
      Cut more (next (value, ⟨offset, rest⟩)) (next' (value, ⟨offset, rest ++ more⟩))) :
    Cut more (first >>= next) (first' >>= next') := by
  cases head with
  | ended => exact .ended
  | failed cause => exact .failed cause
  | done value offset rest => exact tail value offset rest

/-! ### Bytes and headers -/

theorem splitExactly?_append_right {count : Nat} {items taken rest : List α} (further : List α)
    (split : splitExactly? count items = some (taken, rest)) :
    splitExactly? count (items ++ further) = some (taken, rest ++ further) := by
  induction count generalizing items taken with
  | zero =>
    have nothing (items : List α) : splitExactly? 0 items = some ([], items) := by
      cases items <;> rfl
    rw [nothing] at split ⊢
    cases split
    rfl
  | succ count inductionHypothesis =>
    cases items with
    | nil => cases split
    | cons head items =>
      obtain ⟨⟨taken, rest⟩, splitRest, same⟩ := Option.map_eq_some_iff.mp split
      cases same
      rw [List.cons_append, splitExactly?, inductionHypothesis splitRest, Option.map_some]

theorem agrees_takeBytes (count : Nat) : Agrees more (takeBytes count) (takeBytes count) := by
  intro offset rest
  rw [takeBytes]
  cases split : splitExactly? count rest with
  | none => exact .ended
  | some result =>
    rw [takeBytes, splitExactly?_append_right more split]
    exact .done _ _ _

theorem agrees_readArgument (start low : Nat) :
    Agrees more (readArgument start low) (readArgument start low) := by
  intro offset rest
  have following (width : Nat) : Cut more
      (takeBytes width ⟨offset, rest⟩ >>= fun taken =>
        pure (Argument.following width (ofBigEndian taken.1), taken.2))
      (takeBytes width ⟨offset, rest ++ more⟩ >>= fun taken =>
        pure (Argument.following width (ofBigEndian taken.1), taken.2)) :=
    (agrees_takeBytes width offset rest).bind fun _ _ _ => .done _ _ _
  unfold readArgument
  split
  · exact .done _ _ _
  · split
    · exact following 1
    · exact following 2
    · exact following 4
    · exact following 8
    · exact .done _ _ _
    · exact .failed _

theorem agrees_readHeader : Agrees more readHeader readHeader := by
  intro offset rest
  unfold readHeader
  refine (agrees_takeBytes 1 offset rest).bind fun first _ _ => ?_
  refine (agrees_readArgument offset _ _ _).bind fun argument _ _ => ?_
  dsimp only
  split
  · exact .done _ _ _
  · exact .failed _

/-! ### Texts and byte strings -/

theorem agrees_readTextBlocks (start fuel unread : Nat) (carried : List UInt8) (done : String) :
    Agrees more (readTextBlocks start fuel unread carried done)
      (readTextBlocks start fuel unread carried done) := by
  induction fuel generalizing unread carried done with
  | zero => exact fun _ _ => .failed _
  | succ fuel inductionHypothesis =>
    intro offset rest
    unfold readTextBlocks
    split
    · split
      · exact .done _ _ _
      · exact .failed _
    · refine (agrees_takeBytes _ offset rest).bind fun bytes offset rest => ?_
      dsimp only
      split
      · exact inductionHypothesis _ _ _ offset rest
      · exact .failed _

/-- Segments are counted by the bytes that are left, so that the whole input gives more fuel. -/
theorem agrees_readSegments {segment? : Header → Option (Option Nat)} {read : Nat → Nat → Step α}
    {join : α → α → α} (reads : ∀ start size, Agrees more (read start size) (read start size))
    {fuel fuel' : Nat} (enough : fuel ≤ fuel') (depth : Nat) (done : α) :
    Agrees more (readSegments segment? read join fuel depth done)
      (readSegments segment? read join fuel' depth done) := by
  induction fuel generalizing fuel' depth done with
  | zero => exact fun _ _ => .ended
  | succ fuel inductionHypothesis =>
    obtain ⟨larger, rfl⟩ : ∃ larger, fuel' = larger + 1 := ⟨fuel' - 1, by omega⟩
    have remaining := @inductionHypothesis larger (Nat.le_of_succ_le_succ enough)
    intro offset rest
    unfold readSegments
    refine (agrees_readHeader offset rest).bind fun header _ _ => ?_
    dsimp only
    split
    · split
      · exact .done _ _ _
      · exact remaining _ _ _ _
    · split
      · exact .failed _
      · exact remaining _ _ _ _
      · refine (reads _ _ _ _).bind fun content _ _ => ?_
        exact remaining _ _ _ _

theorem length_le_length_append (rest : List UInt8) : rest.length ≤ (rest ++ more).length :=
  List.length_append ▸ Nat.le_add_right _ _

theorem agrees_readTextContent (length : Option Nat) :
    Agrees more (readTextContent length) (readTextContent length) := by
  intro offset rest
  cases length with
  | some size => exact agrees_readTextBlocks _ _ _ _ _ offset rest
  | none =>
    exact agrees_readSegments (fun _ _ => agrees_readTextBlocks _ _ _ _ _)
      (Nat.succ_le_succ (length_le_length_append rest)) _ _ offset rest

theorem agrees_readByteContent (length : Option Nat) :
    Agrees more (readByteContent length) (readByteContent length) := by
  intro offset rest
  cases length with
  | some size => exact agrees_takeBytes size offset rest
  | none =>
    exact agrees_readSegments (fun _ size => agrees_takeBytes size)
      (Nat.succ_le_succ (length_le_length_append rest)) _ _ offset rest

theorem agrees_readNameAfter {fuel fuel' : Nat} (enough : fuel ≤ fuel') (header : Header) :
    Agrees more (readNameAfter fuel header) (readNameAfter fuel' header) := by
  induction fuel generalizing fuel' header with
  | zero =>
    intro offset rest
    cases header with
    | text length =>
      rw [readNameAfter_text, readNameAfter_text]
      exact agrees_readTextContent length offset rest
    | tag label => exact .ended
    | _ => cases fuel' <;> exact .failed _
  | succ fuel inductionHypothesis =>
    obtain ⟨larger, rfl⟩ : ∃ larger, fuel' = larger + 1 := ⟨fuel' - 1, by omega⟩
    intro offset rest
    cases header with
    | text length => exact agrees_readTextContent length offset rest
    | tag label =>
      refine (agrees_readHeader offset rest).bind fun header _ _ => ?_
      exact inductionHypothesis (Nat.le_of_succ_le_succ enough) header _ _
    | _ => exact .failed _

/-! ### Items -/

theorem agrees_readTagged (label : Nat) (isNestable : Bool) :
    Agrees more (readTagged label isNestable) (readTagged label isNestable) := by
  intro offset rest
  unfold readTagged
  refine (agrees_readHeader offset rest).bind fun header _ _ => ?_
  have refused : Cut more
      (if isNestable then .error .unexpectedTag else .error .nestedTooDeep :
        Except ReadError (Value × Input))
      (if isNestable then .error .unexpectedTag else .error .nestedTooDeep) := by
    split <;> exact .failed _
  dsimp only
  split
  · split
    · refine (agrees_takeBytes _ _ _).bind fun bytes _ _ => ?_
      dsimp only
      split
      · exact .done _ _ _
      · split
        · exact .done _ _ _
        · exact .failed _
    · exact refused
  · exact refused

theorem agrees_repeatStep {step : Step α} (agrees : Agrees more step step) (count : Nat) :
    Agrees more (repeatStep step count) (repeatStep step count) := by
  induction count with
  | zero => exact fun _ _ => .done _ _ _
  | succ count inductionHypothesis =>
    intro offset rest
    refine (agrees offset rest).bind fun item _ _ => ?_
    exact (inductionHypothesis _ _).bind fun items _ _ => .done _ _ _

theorem agrees_untilStop {step : Header → Step α}
    (agrees : ∀ header, Agrees more (step header) (step header)) {fuel fuel' : Nat}
    (enough : fuel ≤ fuel') : Agrees more (untilStop step fuel) (untilStop step fuel') := by
  induction fuel generalizing fuel' with
  | zero => exact fun _ _ => .ended
  | succ fuel inductionHypothesis =>
    obtain ⟨larger, rfl⟩ : ∃ larger, fuel' = larger + 1 := ⟨fuel' - 1, by omega⟩
    intro offset rest
    unfold untilStop
    refine (agrees_readHeader offset rest).bind fun header _ _ => ?_
    dsimp only
    split
    · exact .done _ _ _
    · refine (agrees header _ _).bind fun item _ _ => ?_
      exact (inductionHypothesis (Nat.le_of_succ_le_succ enough) _ _).bind
        fun items _ _ => .done _ _ _

/-- Whoever reads a header and then a step that does so. -/
theorem agrees_readItem {step : Header → Step α}
    (agrees : ∀ header, Agrees more (step header) (step header)) :
    Agrees more (readItem step) (readItem step) :=
  fun offset rest => (agrees_readHeader offset rest).bind fun header _ _ => agrees header _ _

theorem agrees_readMany {step : Header → Step α}
    (agrees : ∀ header, Agrees more (step header) (step header)) (length : Option Nat) :
    Agrees more (readMany step length) (readMany step length) := by
  intro offset rest
  cases length with
  | some count => exact agrees_repeatStep (agrees_readItem agrees) count offset rest
  | none =>
    exact agrees_untilStop agrees (Nat.succ_le_succ (length_le_length_append rest)) offset rest

theorem agrees_readField {step : Header → Step Value}
    (agrees : ∀ header, Agrees more (step header) (step header)) (header : Header) :
    Agrees more (readField step header) (readField step header) := by
  intro offset rest
  rw [readField_eq, readField_eq]
  refine (agrees_readNameAfter (length_le_length_append rest) header offset rest).bind
    fun name _ _ => ?_
  exact (agrees_readItem agrees _ _).bind fun value _ _ => .done _ _ _

theorem agrees_readAfter_simple (depth label : Nat) :
    Agrees more (readAfter depth (.simple label)) (readAfter depth (.simple label)) := by
  intro offset rest
  by_cases known : label = 20 ∨ label = 21 ∨ label = 22 ∨ label = 23
  · rcases known with rfl | rfl | rfl | rfl <;> cases depth <;> exact .done _ _ _
  · obtain ⟨notFalse, notTrue, notNull, notUndefined⟩ :
        label ≠ 20 ∧ label ≠ 21 ∧ label ≠ 22 ∧ label ≠ 23 := by
      simpa only [not_or] using known
    cases depth <;> (simp only [readAfter]; exact .failed _)

theorem agrees_readAfter (depth : Nat) (header : Header) :
    Agrees more (readAfter depth header) (readAfter depth header) := by
  induction depth generalizing header with
  | zero =>
    intro offset rest
    cases header with
    | bytes length =>
      exact (agrees_readByteContent length offset rest).bind fun _ _ _ => .done _ _ _
    | text length =>
      exact (agrees_readTextContent length offset rest).bind fun _ _ _ => .done _ _ _
    | tag label => exact agrees_readTagged label false offset rest
    | simple label => exact agrees_readAfter_simple 0 label offset rest
    | array length | map length | stop => exact .failed _
    | positive size | negative size | float number => exact .done _ _ _
  | succ depth inductionHypothesis =>
    intro offset rest
    cases header with
    | bytes length =>
      exact (agrees_readByteContent length offset rest).bind fun _ _ _ => .done _ _ _
    | text length =>
      exact (agrees_readTextContent length offset rest).bind fun _ _ _ => .done _ _ _
    | array length =>
      exact (agrees_readMany inductionHypothesis length offset rest).bind fun _ _ _ => .done _ _ _
    | map length =>
      exact (agrees_readMany (agrees_readField inductionHypothesis) length offset rest).bind
        fun _ _ _ => .done _ _ _
    | tag label => exact agrees_readTagged label true offset rest
    | simple label => exact agrees_readAfter_simple _ label offset rest
    | stop => exact .failed _
    | positive size | negative size | float number => exact .done _ _ _

/-! ### The beginning of a written value -/

/-- Who reads a proper beginning of a written value is stopped: at its end, or where the reading of
the whole is stopped as well. -/
theorem read_of_append {value : Value} {short more : List UInt8}
    (whole : short ++ more = write value) (missing : more ≠ []) :
    read short = .error .endOfInput ∨
      ∃ cause, read short = .error cause ∧ read (write value) = .error cause := by
  have item := readItem_write value nestingLimit 0 []
  rw [List.append_nil, ← whole] at item
  rw [read_eq, read_eq, ← whole]
  have cut := @agrees_readItem Value more _ (agrees_readAfter nestingLimit) 0 short
  generalize readItem (readAfter nestingLimit) ⟨0, short⟩ = begun at cut
  generalize readItem (readAfter nestingLimit) ⟨0, short ++ more⟩ = full at cut item
  cases cut with
  | ended => exact .inl rfl
  | failed cause => exact .inr ⟨cause, rfl, rfl⟩
  | done found offset rest =>
    -- The whole would be read with a rest, but it is read without one or not at all.
    by_cases readable : value.Fits ∧ value.nesting ≤ nestingLimit
    · obtain ⟨-, -, nothing⟩ : found = value ∧ _ ∧ rest ++ more = [] := by
        simpa using item.success readable
      exact absurd (List.append_eq_nil_iff.mp nothing).2 missing
    · obtain ⟨cause, stopped⟩ := item.failure readable
      cases stopped

end Cbor

/-- A missing end is always noticed. A value without NaN has canonical bytes, and from a proper
beginning of them no value is read: the reader asks for a byte that is missing, or fails where it
fails on all of them. No canonical bytes are a proper beginning of other ones; where they begin
others, the values are equal. -/
theorem truncation_is_noticed (value : Value) (number : ¬value.HoldsNaN) :
    ∃ bytes, value.encode = .ok bytes ∧
      (∀ short, short <+: bytes → short ≠ bytes →
        Value.decode short = .error (.decodingFailed .endOfInput) ∨
          ∃ cause, Value.decode short = .error (.decodingFailed cause) ∧
            Value.decode bytes = .error (.decodingFailed cause)) ∧
      ∀ (other : Value) bytes', other.encode = .ok bytes' → bytes <+: bytes' →
        bytes = bytes' ∧ value.compareKey other = .eq := by
  obtain ⟨bytes, written⟩ := Value.exists_encode number
  obtain ⟨-, content⟩ := Value.encode_eq_ok_iff.mp written
  refine ⟨bytes, written, ?_, ?_⟩
  · rintro short ⟨more, whole⟩ proper
    have missing : more ≠ [] := by
      rintro rfl
      exact proper (by rwa [List.append_nil] at whole)
    rw [← content] at whole ⊢
    obtain ended | ⟨cause, stopped, stoppedToo⟩ := Cbor.read_of_append whole missing
    · exact .inl (by rw [Value.decode, ended])
    · exact .inr ⟨cause, by rw [Value.decode, stopped], by rw [Value.decode, stoppedToo]⟩
  · rintro other bytes' written' ⟨more, whole⟩
    obtain ⟨-, content'⟩ := Value.encode_eq_ok_iff.mp written'
    have extended : Cbor.write value.normalize ++ more = Cbor.write other.normalize ++ [] := by
      rw [content, content', whole, List.append_nil]
    have same : bytes = bytes' := by
      rw [← content, ← content', (Cbor.write_append_inj _ extended).1]
    exact ⟨same, (Value.encode_eq_iff written written').mp same⟩

/-- A list without the last byte of its last number. -/
theorem truncated_list_is_refused :
    ∃ bytes, (Value.array [.text "ab", .integer 300]).encode = .ok bytes ∧
      [0x82, 0x62, 0x61, 0x62, 0x19, 0x01] <+: bytes ∧
      Value.decode [0x82, 0x62, 0x61, 0x62, 0x19, 0x01] =
        .error (.decodingFailed .endOfInput) := by
  obtain ⟨bytes, written, noticed, -⟩ := truncation_is_noticed (.array [.text "ab", .integer 300])
    (by rw [← Value.containsNaN_iff]; decide)
  have whole : bytes = [0x82, 0x62, 0x61, 0x62, 0x19, 0x01] ++ [0x2c] :=
    (Value.encode_eq_ok_iff.mp written).2.symm.trans (by decide +kernel)
  subst whole
  refine ⟨_, written, List.prefix_append _ _, ?_⟩
  obtain ended | ⟨cause, -, stopped⟩ :=
    noticed [0x82, 0x62, 0x61, 0x62, 0x19, 0x01] (List.prefix_append _ _) (by decide)
  · exact ended
  · have readable : Value.decode [0x82, 0x62, 0x61, 0x62, 0x19, 0x01, 0x2c] =
        .ok (.array [.text "ab", .integer 300]) := by rfl
    exact nomatch readable.symm.trans stopped

end IndexedStore
