/-
This file writes text between double quotes so that every character of it can be
told from the printed form: quotes, backslashes and the usual controls get a
backslash, and characters that do not show by themselves are given by their code
point.
-/

import IndexedStore.Text.GraphemeExtend

namespace IndexedStore.Text

/-- The lower-case hexadecimal digits of a number. -/
def hexDigits (n : Nat) : List Char := Nat.toDigits 16 n

/-- Whether a character is a Hangul filler. The fillers are letters that hold the place of
a missing part of a syllable, so they leave a blank or nothing at all. -/
def isHangulFiller (c : Char) : Bool :=
  c = '\u115f' || c = '\u1160' || c = '\u3164' || c = '\uffa0'

/-- Whether a character is a halfwidth voicing mark. It belongs to the character before
it, but it is a letter and fills a column of its own. -/
def isHalfwidthVoicing (c : Char) : Bool := c = '\uff9e' || c = '\uff9f'

/-- Whether a character does not show by itself: it has no printed form, it fills in for
a missing letter, or it is drawn onto the character before it. -/
def isHidden (c : Char) : Bool :=
  isUnprintable c || isHangulFiller c || (isGraphemeExtend c && !isHalfwidthVoicing c)

/-- The written form of one character inside quotes. -/
def quoteChar (c : Char) : List Char :=
  if c = '"' then ['\\', '"']
  else if c = '\\' then ['\\', '\\']
  else if c = '\n' then ['\\', 'n']
  else if c = '\r' then ['\\', 'r']
  else if c = '\t' then ['\\', 't']
  else if c.toNat = 0 then ['\\', '0']
  else if isHidden c then ['\\', 'u', '\x7b'] ++ hexDigits c.toNat ++ ['\x7d']
  else [c]

/-- A text between double quotes. -/
def quoted (text : String) : String :=
  String.ofList ('"' :: text.toList.flatMap quoteChar ++ ['"'])

end IndexedStore.Text
