/-
This file proves that a text of any length is read back from its bytes.

Reading looks at blocks of fixed size, and a block may end inside a character. What
carries the proof is that a text can be cut within three bytes of any position, and
that what remains after a cut is a text again; so every block gives a text and at
most three bytes, and these three begin the text that is still to be read.
-/

import IndexedStore.Proofs.Cbor.Header

namespace IndexedStore.Cbor

/-! ### Bytes of texts -/

theorem textOfBytes?_eq_some_iff {bytes : List UInt8} {text : String} :
    textOfBytes? bytes = some text ↔ textBytes text = bytes := by
  unfold textOfBytes? String.fromUTF8? textBytes
  constructor
  · intro found
    split at found
    · rw [← Option.some_inj.mp found]
      rfl
    · cases found
  · intro same
    have content : (⟨bytes.toArray⟩ : ByteArray) = text.toByteArray := by
      rw [← same]
      rfl
    rw [dif_pos (content ▸ text.isValidUTF8), Option.some_inj, ← String.toByteArray_inj]
    exact content

@[simp]
theorem textBytes_append (first second : String) :
    textBytes (first ++ second) = textBytes first ++ textBytes second := by
  unfold textBytes
  rw [String.toUTF8_eq_toByteArray, String.toByteArray_append, ByteArray.data_append,
    Array.toList_append]
  rfl

theorem textBytes_inj {first second : String} (same : textBytes first = textBytes second) :
    first = second := by
  have found := textOfBytes?_eq_some_iff.mpr same
  rw [textOfBytes?_eq_some_iff.mpr rfl] at found
  exact (Option.some_inj.mp found).symm

/-- What remains of a text's bytes after those of a text are the bytes of a text. -/
theorem exists_text_after {before whole : String} {rest : List UInt8}
    (same : textBytes before ++ rest = textBytes whole) :
    ∃ after, whole = before ++ after ∧ textBytes after = rest := by
  have bytes : before.toList.utf8Encode ++ (⟨rest.toArray⟩ : ByteArray) =
      whole.toList.utf8Encode := by
    rw [String.utf8Encode_toList, String.utf8Encode_toList]
    refine ByteArray.ext (Array.toList_inj.mp ?_)
    rw [ByteArray.data_append, Array.toList_append]
    exact same
  obtain ⟨characters, joined⟩ := List.isPrefix_of_utf8Encode_append_eq_utf8Encode _ bytes
  have split : whole = before ++ String.ofList characters := by
    rw [← String.toList_inj, String.toList_append, String.toList_ofList, joined]
  refine ⟨String.ofList characters, split, ?_⟩
  rw [split, textBytes_append] at same
  exact (List.append_cancel_left same).symm

theorem length_textBytes (text : String) : (textBytes text).length = text.utf8ByteSize :=
  rfl

/-- A text can be cut at any position or up to three bytes before it. -/
theorem exists_cut (text : String) {position : Nat} (bound : position ≤ (textBytes text).length) :
    ∃ before after, text = before ++ after ∧ (textBytes before).length ≤ position ∧
      position ≤ (textBytes before).length + 3 := by
  obtain ⟨characters, rfl⟩ : ∃ characters, text = String.ofList characters :=
    ⟨text.toList, String.ofList_toList.symm⟩
  induction characters generalizing position with
  | nil => exact ⟨"", "", rfl, Nat.zero_le _, Nat.le_trans bound (Nat.zero_le _)⟩
  | cons first rest inductionHypothesis =>
    have whole : String.ofList (first :: rest) = String.singleton first ++ String.ofList rest := by
      rw [← String.toList_inj, String.toList_append, String.toList_ofList, String.toList_ofList,
        String.toList_singleton, List.singleton_append]
    have width : (textBytes (String.singleton first)).length = first.utf8Size := by
      rw [length_textBytes, String.utf8ByteSize_singleton]
    rw [whole, textBytes_append, List.length_append, width] at bound
    by_cases inside : position < first.utf8Size
    · have narrow := first.utf8Size_le_four
      exact ⟨"", String.ofList (first :: rest), String.empty_append.symm, Nat.zero_le _,
        show position ≤ 0 + 3 by omega⟩
    · obtain ⟨before, after, split, lower, upper⟩ :=
        @inductionHypothesis (position - first.utf8Size) (by omega)
      refine ⟨String.singleton first ++ before, after, ?_, ?_⟩
      · rw [whole, split, String.append_assoc]
      · rw [textBytes_append, List.length_append, width]
        omega

/-! ### Blocks -/

theorem splitBlock?_eq_some {block carried : List UInt8} {text : String}
    (found : splitBlock? block = some (text, carried)) :
    textBytes text ++ carried = block ∧ carried.length ≤ 3 := by
  obtain ⟨count, among, taken⟩ := List.exists_of_findSome?_eq_some found
  simp only [List.mem_cons, List.not_mem_nil, or_false] at among
  split at taken
  · rename_i enough
    obtain ⟨content, isText, pair⟩ := Option.map_eq_some_iff.mp taken
    cases pair
    refine ⟨?_, ?_⟩
    · rw [textOfBytes?_eq_some_iff.mp isText, List.take_append_drop]
    · rw [List.length_drop]
      omega
  · cases taken

@[simp]
theorem splitBlock?_textBytes (text : String) : splitBlock? (textBytes text) = some (text, []) := by
  have whole : textOfBytes? (textBytes text) = some text := textOfBytes?_eq_some_iff.mpr rfl
  rw [splitBlock?, List.findSome?_cons, if_pos (Nat.zero_le _)]
  simp only [Nat.sub_zero, List.take_length, List.drop_length, whole, Option.map_some]

/-- The beginning of a text can be split. -/
theorem splitBlock?_ne_none {block rest : List UInt8} {text : String}
    (whole : block ++ rest = textBytes text) : splitBlock? block ≠ none := by
  have bound : block.length ≤ (textBytes text).length := by
    rw [← whole, List.length_append]
    exact Nat.le_add_right _ _
  obtain ⟨before, after, split, lower, upper⟩ := exists_cut text bound
  have taken : textBytes before = block.take (textBytes before).length := by
    rw [← List.take_append_of_le_length lower, whole, split, textBytes_append]
    exact (List.take_left' rfl).symm
  intro none
  have missing := List.findSome?_eq_none_iff.mp none (block.length - (textBytes before).length)
    (by simp only [List.mem_cons, List.not_mem_nil, or_false]; omega)
  rw [if_pos (Nat.sub_le _ _), Nat.sub_sub_self lower] at missing
  dsimp only at missing
  rw [← taken, textOfBytes?_eq_some_iff.mpr rfl] at missing
  cases missing

/-- A block at the beginning of a text is split into a text and bytes that begin the rest
of it. Nothing is carried over if the block is the whole text. -/
theorem exists_splitBlock? {block rest : List UInt8} {text : String}
    (whole : block ++ rest = textBytes text) :
    ∃ before after carried, splitBlock? block = some (before, carried) ∧ text = before ++ after ∧
      carried ++ rest = textBytes after ∧ carried.length ≤ 3 ∧ (rest = [] → carried = []) := by
  by_cases last : rest = []
  · subst last
    rw [List.append_nil] at whole
    exact ⟨text, "", [], whole ▸ splitBlock?_textBytes text, String.append_empty.symm, rfl,
      Nat.zero_le _, fun _ => rfl⟩
  · obtain ⟨⟨before, carried⟩, found⟩ := Option.ne_none_iff_exists'.mp (splitBlock?_ne_none whole)
    obtain ⟨joined, short⟩ := splitBlock?_eq_some found
    rw [← joined, List.append_assoc] at whole
    obtain ⟨after, split, remaining⟩ := exists_text_after whole
    exact ⟨before, after, carried, found, split, remaining.symm, short,
      fun empty => absurd empty last⟩

/-! ### Segments -/

/-- Reading one block. -/
theorem readTextBlocks_succ {start fuel unread count : Nat} {carried bytes carried' : List UInt8}
    {done text : String} {input input' : Input} (unfinished : unread ≠ 0)
    (size : min blockSize (carried.length + unread) - carried.length = count)
    (taken : takeBytes count input = .ok (bytes, input'))
    (found : splitBlock? (carried ++ bytes) = some (text, carried')) :
    readTextBlocks start (fuel + 1) unread carried done input =
      readTextBlocks start fuel (unread - count) carried' (done ++ text) input' := by
  subst size
  rw [readTextBlocks]
  simp only [if_neg unfinished, taken, bind, Except.bind, found]

/-- What reading a segment keeps true from block to block: the bytes carried over and those
not read yet are those of the text to come. -/
theorem readTextBlocks_eq (start : Nat) {fuel : Nat} {carried bytes : List UInt8} {text : String}
    (whole : carried ++ bytes = textBytes text) (short : carried.length ≤ 3)
    (complete : bytes = [] → carried = []) (enough : bytes.length < fuel) (done : String)
    (offset : Nat) (rest : List UInt8) :
    readTextBlocks start fuel bytes.length carried done ⟨offset, bytes ++ rest⟩ =
      .ok (done ++ text, ⟨offset + bytes.length, rest⟩) := by
  induction fuel generalizing carried bytes text done offset with
  | zero => cases enough
  | succ fuel inductionHypothesis =>
    by_cases last : bytes = []
    · subst last
      have empty := complete rfl
      subst empty
      have nothing : text = "" := textBytes_inj whole.symm
      rw [nothing, String.append_empty]
      rfl
    have unread := List.length_pos_iff.mpr last
    have blocks : blockSize = 4096 := rfl
    obtain ⟨count, size⟩ : ∃ count, min blockSize (carried.length + bytes.length) -
      carried.length = count := ⟨_, rfl⟩
    have positive : 0 < count := by omega
    have within : count ≤ bytes.length := by omega
    have left : (bytes.drop count).length = bytes.length - count := List.length_drop
    have joined : (carried ++ bytes.take count) ++ bytes.drop count = textBytes text := by
      rw [List.append_assoc, List.take_append_drop, whole]
    obtain ⟨before, after, carried', found, split, remaining, short', complete'⟩ :=
      exists_splitBlock? joined
    have taken := takeBytes_append (List.length_take_of_le within) offset (bytes.drop count ++ rest)
    rw [← List.append_assoc, List.take_append_drop] at taken
    rw [readTextBlocks_succ (Nat.ne_of_gt unread) size taken found, ← left,
      inductionHypothesis remaining short' complete' (by omega), split, String.append_assoc, left,
      Nat.add_assoc, Nat.add_sub_cancel' within]

/-- A text is read back from its bytes. -/
theorem readTextSegment_textBytes (text : String) (start offset : Nat) (rest : List UInt8) :
    readTextSegment start (textBytes text).length ⟨offset, textBytes text ++ rest⟩ =
      .ok (text, ⟨offset + (textBytes text).length, rest⟩) := by
  have whole : [] ++ textBytes text = textBytes text := rfl
  rw [readTextSegment, readTextBlocks_eq start whole (Nat.zero_le _) (fun _ => rfl)
    (Nat.lt_succ_self _), String.empty_append]

end IndexedStore.Cbor
