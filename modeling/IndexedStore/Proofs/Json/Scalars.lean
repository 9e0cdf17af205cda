/-
This file proves that texts and integers are read back from their JSON text.

A text stands in quotes, so a reader knows where it ends whatever follows it. A quote inside it is
written with a backslash, and no other character that is written looks like one. An integer has no
end of its own: a reader takes digits as long as there are some, and after them a point or an
exponent mark. So an integer is read back if none of these follows it.
-/

import IndexedStore.Json.Reader
import IndexedStore.Json.Writer
import Mathlib.Data.List.Basic

namespace IndexedStore.Json

/-! ### Texts -/

/-- A character is written as a backslash with the letter that names it, as a backslash with its
number, or as itself. -/
theorem escapeChar_cases (c : Char) :
    (∃ letter, escapeChar c = ['\\', letter] ∧ unescape? letter = some c) ∨
    (c.toNat < 32 ∧ escapeChar c =
      ['\\', 'u', '0', '0', Nat.digitChar (c.toNat / 16), Nat.digitChar (c.toNat % 16)]) ∨
    (32 ≤ c.toNat ∧ c ≠ '"' ∧ c ≠ '\\' ∧ escapeChar c = [c]) := by
  have numbered {size : Nat} (same : c.toNat = size) : c = Char.ofNat size := by
    rw [← same, Char.ofNat_toNat]
  unfold escapeChar
  split
  · exact .inl ⟨'"', rfl, congrArg some (Eq.symm ‹_›)⟩
  split
  · exact .inl ⟨'\\', rfl, congrArg some (Eq.symm ‹_›)⟩
  split
  · exact .inl ⟨'n', rfl, congrArg some (Eq.symm ‹_›)⟩
  split
  · exact .inl ⟨'r', rfl, congrArg some (Eq.symm ‹_›)⟩
  split
  · exact .inl ⟨'t', rfl, congrArg some (Eq.symm ‹_›)⟩
  split
  · exact .inl ⟨'b', rfl, congrArg some (numbered ‹_›).symm⟩
  split
  · exact .inl ⟨'f', rfl, congrArg some (numbered ‹_›).symm⟩
  split
  · exact .inr (.inl ⟨‹_›, rfl⟩)
  · exact .inr (.inr ⟨by omega, ‹_›, ‹_›, rfl⟩)

theorem readChars_named {letter c : Char} (named : unescape? letter = some c) (rest : List Char) :
    readChars ('\\' :: letter :: rest) =
      (readChars rest).map fun (chars, rest) => (c :: chars, rest) := by
  have notNumber : letter ≠ 'u' := by
    rintro rfl
    cases named
  rw [readChars, named]
  exact fun _ _ _ _ _ isNumber => absurd isNumber notNumber

theorem hexValue?_digitChar {n : Nat} (small : n < 16) : hexValue? (Nat.digitChar n) = some n := by
  revert n
  decide

theorem readChars_numbered {c : Char} (small : c.toNat < 32) (rest : List Char) :
    readChars ('\\' :: 'u' :: '0' :: '0' :: Nat.digitChar (c.toNat / 16) ::
        Nat.digitChar (c.toNat % 16) :: rest) =
      (readChars rest).map fun (chars, rest) => (c :: chars, rest) := by
  have unit : codeUnit? '0' '0' (Nat.digitChar (c.toNat / 16)) (Nat.digitChar (c.toNat % 16)) =
      some c.toNat := by
    have zero : hexValue? '0' = some 0 := rfl
    rw [codeUnit?, zero, hexValue?_digitChar (show c.toNat / 16 < 16 by omega),
      hexValue?_digitChar (show c.toNat % 16 < 16 by omega)]
    exact congrArg some (by omega)
  have same : ofCodeUnit? c.toNat = some c := by
    rw [ofCodeUnit?, if_neg (by omega), Char.ofNat_toNat]
  rw [readChars.eq_def]
  simp only [unit, Option.bind_some, same]

theorem readChars_plain {c : Char} (large : 32 ≤ c.toNat) (noQuote : c ≠ '"')
    (noBackslash : c ≠ '\\') (rest : List Char) :
    readChars (c :: rest) = (readChars rest).map fun (chars, rest) => (c :: chars, rest) := by
  have stands : ¬(c.toNat < 32 ∨ c = '\\') := not_or.mpr ⟨Nat.not_lt.mpr large, noBackslash⟩
  rw [readChars, if_neg stands]
  -- The rules for quotes and backslashes do not apply.
  · exact noQuote
  · exact fun _ _ _ _ _ isBackslash => absurd isBackslash noBackslash
  · exact fun _ _ isBackslash => absurd isBackslash noBackslash

theorem readChars_escapeChar (c : Char) (rest : List Char) :
    readChars (escapeChar c ++ rest) =
      (readChars rest).map fun (chars, rest) => (c :: chars, rest) := by
  obtain ⟨letter, written, named⟩ | ⟨small, written⟩ | ⟨large, noQuote, noBackslash, written⟩ :=
    escapeChar_cases c
  · rw [written]
    exact readChars_named named rest
  · rw [written]
    exact readChars_numbered small rest
  · rw [written]
    exact readChars_plain large noQuote noBackslash rest

theorem readChars_flatMap (chars rest : List Char) :
    readChars (chars.flatMap escapeChar ++ '"' :: rest) = some (chars, rest) := by
  induction chars with
  | nil => rfl
  | cons c others inductionHypothesis =>
    rw [List.flatMap_cons, List.append_assoc, readChars_escapeChar, inductionHypothesis]
    rfl

/-- A text is read back, whatever follows it. -/
theorem readText_writeText (text : String) (rest : List Char) :
    readText (writeText text ++ rest) = some (text, rest) := by
  rw [writeText, List.append_assoc, List.cons_append, readText]
  simp only [List.singleton_append]
  rw [readChars_flatMap, Option.map_some, String.ofList_toList]

/-! ### Integers -/

/-- What may stand after an integer: nothing that continues a number. -/
def Ends (rest : List Char) : Prop :=
  ∀ c ∈ rest.head?, isDigit c = false ∧ c ≠ '.' ∧ c ≠ 'e' ∧ c ≠ 'E'

variable {rest : List Char}

theorem isDigit_of_mem_toDigits {size : Nat} {c : Char} (member : c ∈ Nat.toDigits 10 size) :
    isDigit c :=
  Nat.isDigit_of_mem_toDigits (by decide) (by decide) member

theorem head_toDigits {size : Nat} (positive : 0 < size) :
    (Nat.toDigits 10 size).head? ≠ some '0' := by
  induction size using Nat.strongRecOn with
  | ind size inductionHypothesis =>
    by_cases small : size < 10
    · rw [Nat.toDigits_of_lt_base small, List.head?_cons, ne_eq, Option.some_inj,
        Nat.digitChar_eq_zero]
      exact Nat.ne_of_gt positive
    · rw [Nat.toDigits_of_base_le (by decide) (Nat.not_lt.mp small),
        List.head?_append_of_ne_nil _ Nat.toDigits_ne_nil]
      exact inductionHypothesis (size / 10) (by omega) (by omega)

theorem ofDigits_toDigits (size : Nat) : ofDigits (Nat.toDigits 10 size) = size := by
  refine Eq.trans ?_ (@Nat.ofDigitChars_ten_toDigits size)
  simp only [ofDigits, Nat.ofDigitChars, Nat.mul_comm]
  rfl

theorem readDigits_append {digits : List Char} (some : digits ≠ []) (all : ∀ c ∈ digits, isDigit c)
    (ends : Ends rest) : readDigits (digits ++ rest) = .some (digits, rest) := by
  have stop : rest.takeWhile isDigit = [] ∧ rest.dropWhile isDigit = rest := by
    cases rest with
    | nil => exact ⟨rfl, rfl⟩
    | cons c rest =>
      have other := (ends c rfl).1
      exact ⟨by rw [List.takeWhile_cons, other]; rfl, by rw [List.dropWhile_cons, other]; rfl⟩
  rw [readDigits, List.takeWhile_append_of_pos all, List.dropWhile_append_of_pos all, stop.1,
    stop.2, List.append_nil]
  cases digits with
  | nil => exact absurd rfl some
  | cons => rfl

theorem readWhole_toDigits (size : Nat) (ends : Ends rest) :
    readWhole (Nat.toDigits 10 size ++ rest) = some (Nat.toDigits 10 size, rest) := by
  rcases Nat.eq_zero_or_pos size with rfl | positive
  · rw [Nat.toDigits_zero]
    cases rest with
    | nil => rfl
    | cons c rest =>
      show (if isDigit c then none else some (['0'], c :: rest)) = _
      rw [(ends c rfl).1]
      rfl
  · have read : readDigits (Nat.toDigits 10 size ++ rest) = some (Nat.toDigits 10 size, rest) :=
      readDigits_append Nat.toDigits_ne_nil (fun _ => isDigit_of_mem_toDigits) ends
    have first := head_toDigits positive
    rw [← read]
    cases written : Nat.toDigits 10 size with
    | nil => exact absurd written Nat.toDigits_ne_nil
    | cons c others =>
      rw [written] at first
      rw [List.cons_append, readWhole]
      grind

theorem readFraction_of_ends (ends : Ends rest) : readFraction rest = some (none, rest) := by
  cases rest with
  | nil => rfl
  | cons c rest =>
    obtain ⟨-, noPoint, -⟩ := ends c rfl
    rw [readFraction]
    grind

theorem readExponent_of_ends (ends : Ends rest) : readExponent rest = some (none, rest) := by
  cases rest with
  | nil => rfl
  | cons c rest =>
    obtain ⟨-, -, noMark, noMark'⟩ := ends c rfl
    exact if_neg (not_or.mpr ⟨noMark, noMark'⟩)

theorem readUnsigned_toDigits {negative : Bool} {size : Nat} {number : Int64}
    (whole : integerValue negative size = .integer number) (ends : Ends rest) :
    readUnsigned negative (Nat.toDigits 10 size ++ rest) = some (.integer number, rest) := by
  simp only [readUnsigned, readWhole_toDigits size ends, readFraction_of_ends ends,
    readExponent_of_ends ends, ofDigits_toDigits, whole, Option.bind_eq_bind, Option.bind_some]
  rfl

theorem integerValue_of_neg {number : Int64} (negative : number.toInt < 0) :
    integerValue true number.toInt.natAbs = .integer number := by
  have bound := number.le_toInt
  rw [integerValue, if_pos rfl, if_pos ⟨by omega, by omega⟩,
    show (-(number.toInt.natAbs : Int)) = number.toInt by omega, Int64.ofInt_toInt]

theorem integerValue_of_nonneg {number : Int64} (nonnegative : 0 ≤ number.toInt) :
    integerValue false number.toInt.natAbs = .integer number := by
  have bound := number.toInt_lt
  rw [integerValue, if_neg Bool.false_ne_true, if_pos (by omega),
    show ((number.toInt.natAbs : Nat) : Int) = number.toInt by omega, Int64.ofInt_toInt]

/-- The text of an integer begins with a digit or a sign. -/
theorem exists_renderInt (number : Int) :
    ∃ c chars, renderInt number = c :: chars ∧ (isDigit c ∨ c = '-') := by
  rw [renderInt]
  split
  · exact ⟨'-', _, rfl, .inr rfl⟩
  · cases written : Nat.toDigits 10 number.natAbs with
    | nil => exact absurd written Nat.toDigits_ne_nil
    | cons c chars =>
      exact ⟨c, chars, rfl, .inl (isDigit_of_mem_toDigits (written ▸ List.mem_cons_self))⟩

/-- A 64-bit integer is read back, if nothing follows that continues the number. -/
theorem readNumber_renderInt (number : Int64) (ends : Ends rest) :
    readNumber (renderInt number.toInt ++ rest) = some (.integer number, rest) := by
  rw [renderInt]
  split
  · rename_i negative
    exact readUnsigned_toDigits (integerValue_of_neg negative) ends
  · rename_i nonnegative
    rw [← readUnsigned_toDigits (integerValue_of_nonneg (Int.not_lt.mp nonnegative)) ends]
    cases written : Nat.toDigits 10 number.toInt.natAbs with
    | nil => exact absurd written Nat.toDigits_ne_nil
    | cons c others =>
      have digit : isDigit c := isDigit_of_mem_toDigits (written ▸ List.mem_cons_self)
      rw [List.cons_append, readNumber]
      rintro _ same
      rw [(List.cons.inj same).1] at digit
      cases digit

end IndexedStore.Json
