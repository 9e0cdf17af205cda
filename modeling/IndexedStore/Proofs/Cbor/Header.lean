/-
This file proves that headers are read back as they were written, whatever follows
them, and that two written headers can only be the beginnings of the same bytes if
they are the same header.

A header with an argument is a first byte, whose upper bits give the major kind and
whose lower bits give the size of the argument, and the bytes of the argument.
-/

import IndexedStore.Cbor.Reader
import IndexedStore.Proofs.Number.Double

namespace IndexedStore.Cbor

/-! ### Numbers in bytes -/

@[simp]
theorem length_bigEndian (width n : Nat) : (bigEndian width n).length = width := by
  induction width generalizing n with
  | zero => rfl
  | succ width inductionHypothesis => simp [inductionHypothesis]

theorem ofBigEndian_bigEndian {width n : Nat} (bound : n < 256 ^ width) :
    ofBigEndian (bigEndian width n) = n := by
  -- The bytes that were read before are carried along as the number they denote.
  have carried : ∀ start : Nat, (bigEndian width n).foldl
      (fun number byte => number * 256 + byte.toNat) start = start * 256 ^ width + n := by
    induction width generalizing n with
    | zero => simpa using bound
    | succ width inductionHypothesis =>
      intro start
      have positive : 0 < 256 ^ width := Nat.pow_pos (by decide)
      have top : n / 256 ^ width < 256 := by
        rw [Nat.div_lt_iff_lt_mul positive, Nat.mul_comm]
        exact bound
      rw [bigEndian, List.foldl_cons, inductionHypothesis (Nat.mod_lt _ positive),
        UInt8.toNat_ofNat_of_lt' top, Nat.add_mul, Nat.add_assoc, Nat.mul_assoc, Nat.pow_succ,
        Nat.mul_comm 256, Nat.mul_comm (n / _), Nat.div_add_mod]
  show (bigEndian width n).foldl (fun number byte => number * 256 + byte.toNat) 0 = n
  rw [carried, Nat.zero_mul, Nat.zero_add]

theorem bigEndian_append_inj {width n n' : Nat} {rest rest' : List UInt8}
    (bound : n < 256 ^ width) (bound' : n' < 256 ^ width)
    (same : bigEndian width n ++ rest = bigEndian width n' ++ rest') : n = n' ∧ rest = rest' := by
  obtain ⟨number, after⟩ := List.append_inj same (by simp)
  rw [← ofBigEndian_bigEndian bound, ← ofBigEndian_bigEndian bound', number]
  exact ⟨rfl, after⟩

/-! ### Headers with an argument -/

/-- How many bytes hold the argument, for the lower bits that announce them. -/
def argumentWidth? : Nat → Option Nat
  | 24 => some 1
  | 25 => some 2
  | 26 => some 4
  | 27 => some 8
  | _ => none

/-- The lower bits of the first byte of a header and the bytes after it, as they are
written for an argument. -/
inductive Spelled (major : Nat) : Nat → Nat → List UInt8 → Prop where
  | direct {argument : Nat} (small : argument < 24) : Spelled major argument argument []
  | following {argument low width : Nat} (announced : argumentWidth? low = some width)
      (fits : argument < 256 ^ width) : Spelled major argument low (bigEndian width argument)
  | unreadable {count : Nat} (large : 2 ^ 64 ≤ count + 1) :
      Spelled major (count + 1) 28
        (List.replicate count (UInt8.ofNat (major * 32 + 28)) ++ [UInt8.ofNat (major * 32 + 29)])

theorem bounds_of_announced {low width : Nat} (announced : argumentWidth? low = some width) :
    24 ≤ low ∧ low < 28 := by
  simp only [argumentWidth?] at announced
  split at announced <;> first | omega | cases announced

theorem exists_spelled (major argument : Nat) :
    ∃ low more, Spelled major argument low more ∧
      writeArgument major argument = UInt8.ofNat (major * 32 + low) :: more := by
  simp only [writeArgument]
  split
  · exact ⟨_, _, .direct ‹_›, rfl⟩
  split
  · exact ⟨24, _, .following rfl ‹_›, rfl⟩
  split
  · exact ⟨25, _, .following rfl ‹_›, rfl⟩
  split
  · exact ⟨26, _, .following rfl ‹_›, rfl⟩
  split
  · exact ⟨27, _, .following rfl ‹_›, rfl⟩
  · obtain ⟨count, rfl⟩ : ∃ count, argument = count + 1 := ⟨argument - 1, by omega⟩
    exact ⟨28, _, .unreadable (by omega), rfl⟩

theorem Spelled.low_lt {major argument low : Nat} {more : List UInt8}
    (spelled : Spelled major argument low more) : low < 32 := by
  cases spelled with
  | direct small => omega
  | following announced =>
    have := bounds_of_announced announced
    omega
  | unreadable => omega

theorem toNat_firstByte {major low : Nat} (kind : major < 8) (bits : low < 32) :
    (UInt8.ofNat (major * 32 + low)).toNat = major * 32 + low :=
  UInt8.toNat_ofNat_of_lt' (show _ < 256 by omega)

theorem firstByte_inj {major major' low low' : Nat} (kind : major < 8) (kind' : major' < 8)
    (bits : low < 32) (bits' : low' < 32)
    (same : UInt8.ofNat (major * 32 + low) = UInt8.ofNat (major' * 32 + low')) :
    major = major' ∧ low = low' := by
  have equal := congrArg UInt8.toNat same
  rw [toNat_firstByte kind bits, toNat_firstByte kind' bits'] at equal
  omega

theorem replicate_append_inj {α : Type} {item mark : α} (different : item ≠ mark)
    {count count' : Nat} {rest rest' : List α}
    (same : List.replicate count item ++ mark :: rest =
      List.replicate count' item ++ mark :: rest') :
    count = count' ∧ rest = rest' := by
  induction count generalizing count' with
  | zero =>
    cases count' with
    | zero => exact ⟨rfl, (List.cons.inj same).2⟩
    | succ count' => exact absurd (List.cons.inj same).1.symm different
  | succ count inductionHypothesis =>
    cases count' with
    | zero => exact absurd (List.cons.inj same).1 different
    | succ count' =>
      obtain ⟨equal, after⟩ := inductionHypothesis (List.cons.inj same).2
      exact ⟨congrArg Nat.succ equal, after⟩

theorem Spelled.append_inj {major argument argument' low : Nat} {more more' rest rest' : List UInt8}
    (kind : major < 8) (spelled : Spelled major argument low more)
    (spelled' : Spelled major argument' low more') (same : more ++ rest = more' ++ rest') :
    argument = argument' ∧ rest = rest' := by
  cases spelled with
  | direct small =>
    cases spelled' with
    | direct => exact ⟨rfl, same⟩
    | following announced =>
      have := bounds_of_announced announced
      omega
    | unreadable => omega
  | following announced fits =>
    cases spelled' with
    | direct =>
      have := bounds_of_announced announced
      omega
    | following announced' fits' =>
      cases announced.symm.trans announced'
      exact bigEndian_append_inj fits fits' same
    | unreadable => cases announced
  | unreadable =>
    cases spelled' with
    | direct => omega
    | following announced => cases announced
    | unreadable =>
      have marks : UInt8.ofNat (major * 32 + 28) ≠ UInt8.ofNat (major * 32 + 29) := fun equal =>
        absurd (firstByte_inj kind kind (by decide) (by decide) equal).2 (by decide)
      rw [List.append_assoc, List.append_assoc] at same
      obtain ⟨equal, after⟩ := replicate_append_inj marks same
      exact ⟨congrArg Nat.succ equal, after⟩

/-- Written headers that begin the same bytes are of one kind and have one argument. -/
theorem writeArgument_append_inj {major major' argument argument' : Nat} {rest rest' : List UInt8}
    (kind : major < 8) (kind' : major' < 8)
    (same : writeArgument major argument ++ rest = writeArgument major' argument' ++ rest') :
    major = major' ∧ argument = argument' ∧ rest = rest' := by
  obtain ⟨low, more, spelled, written⟩ := exists_spelled major argument
  obtain ⟨low', more', spelled', written'⟩ := exists_spelled major' argument'
  rw [written, written'] at same
  obtain ⟨first, after⟩ := List.cons.inj same
  obtain ⟨rfl, rfl⟩ := firstByte_inj kind kind' spelled.low_lt spelled'.low_lt first
  exact ⟨rfl, spelled.append_inj kind spelled' after⟩

/-! ### Reading headers -/

@[simp]
theorem splitExactly?_append {α : Type} (taken rest : List α) :
    splitExactly? taken.length (taken ++ rest) = some (taken, rest) := by
  induction taken with
  | nil => cases rest <;> rfl
  | cons head tail inductionHypothesis =>
    rw [List.length_cons, List.cons_append, splitExactly?, inductionHypothesis, Option.map_some]

theorem takeBytes_append {count : Nat} {taken : List UInt8} (length : taken.length = count)
    (offset : Nat) (rest : List UInt8) :
    takeBytes count ⟨offset, taken ++ rest⟩ = .ok (taken, ⟨offset + count, rest⟩) := by
  subst length
  rw [takeBytes, splitExactly?_append]

theorem readArgument_of_announced {low width : Nat} (announced : argumentWidth? low = some width)
    (start : Nat) (input : Input) :
    readArgument start low input = (takeBytes width input).map fun (bytes, input) =>
      (.following width (ofBigEndian bytes), input) := by
  simp only [argumentWidth?] at announced
  split at announced <;> cases announced <;> simp only [readArgument] <;>
    cases takeBytes _ input <;> rfl

/-- An argument that fits into eight bytes is read back. -/
theorem Spelled.readArgument {major argument low : Nat} {more : List UInt8}
    (spelled : Spelled major argument low more) (fits : argument < 2 ^ 64)
    (start offset : Nat) (rest : List UInt8) :
    ∃ given, given.number? = some argument ∧
      Cbor.readArgument start low ⟨offset, more ++ rest⟩ =
        .ok (given, ⟨offset + more.length, rest⟩) := by
  cases spelled with
  | direct small => exact ⟨.direct argument, rfl, if_pos small⟩
  | @following _ _ width announced bound =>
    refine ⟨.following width argument, rfl, ?_⟩
    have bytes := takeBytes_append (length_bigEndian width argument) offset rest
    have number := ofBigEndian_bigEndian bound
    rw [readArgument_of_announced announced, bytes, length_bigEndian]
    show Except.ok (Argument.following width (ofBigEndian _), _) = _
    rw [number]
  | unreadable large => omega

/-- A header is its first byte, an argument and a kind that goes with it. -/
theorem readHeader_cons (offset : Nat) (byte : UInt8) (rest : List UInt8) :
    readHeader ⟨offset, byte :: rest⟩ =
      (readArgument offset (byte.toNat % 32) ⟨offset + 1, rest⟩).bind fun (argument, input) =>
        match headerOf? (byte.toNat / 32) argument with
        | some header => .ok (header, input)
        | none => .error (.malformed offset) := by
  have first : ofBigEndian [byte] = byte.toNat := by
    show 0 * 256 + byte.toNat = byte.toNat
    rw [Nat.zero_mul, Nat.zero_add]
  rw [← first]
  rfl

/-- A header is read back from what it was written as, if its argument fits into eight
bytes. -/
theorem readHeader_writeArgument {major argument : Nat} {header : Header} (kind : major < 8)
    (fits : argument < 2 ^ 64)
    (named : ∀ given : Argument, given.number? = some argument →
      headerOf? major given = some header) (offset : Nat) (rest : List UInt8) :
    readHeader ⟨offset, writeArgument major argument ++ rest⟩ =
      .ok (header, ⟨offset + (writeArgument major argument).length, rest⟩) := by
  obtain ⟨low, more, spelled, written⟩ := exists_spelled major argument
  rw [written]
  obtain ⟨given, number, readBack⟩ := spelled.readArgument fits offset (offset + 1) rest
  have bits := spelled.low_lt
  rw [List.cons_append, readHeader_cons, toNat_firstByte kind bits,
    show (major * 32 + low) % 32 = low by omega, show (major * 32 + low) / 32 = major by omega,
    readBack, List.length_cons, Nat.add_comm more.length, ← Nat.add_assoc]
  show (match headerOf? major given with
    | some header => Except.ok (header, _)
    | none => Except.error (ReadError.malformed offset)) = _
  rw [named given number]

/-- No reader takes a header whose argument does not fit. -/
theorem readHeader_writeArgument_of_large {major argument : Nat} (kind : major < 8)
    (large : 2 ^ 64 ≤ argument) (offset : Nat) (rest : List UInt8) :
    readHeader ⟨offset, writeArgument major argument ++ rest⟩ = .error (.malformed offset) := by
  obtain ⟨low, more, spelled, written⟩ := exists_spelled major argument
  have bits : low = 28 := by
    cases spelled with
    | direct small => omega
    | following announced fits =>
      simp only [argumentWidth?] at announced
      split at announced <;> cases announced <;> omega
    | unreadable => rfl
  subst bits
  rw [written, List.cons_append, readHeader_cons, toNat_firstByte kind (by decide),
    show (major * 32 + 28) % 32 = 28 by omega]
  rfl

/-! ### Floats -/

/-- A float that is announced by the bits of its header is read from the bytes after it. -/
theorem readHeader_float {first : UInt8} (low : Nat) {width word : Nat} {number : Double}
    (announced : argumentWidth? low = some width) (kind : first.toNat = 7 * 32 + low)
    (fits : word < 256 ^ width)
    (named : headerOf? 7 (.following width word) = some (.float number))
    (offset : Nat) (rest : List UInt8) :
    readHeader ⟨offset, first :: bigEndian width word ++ rest⟩ =
      .ok (.float number, ⟨offset + (first :: bigEndian width word).length, rest⟩) := by
  have bits := bounds_of_announced announced
  rw [List.cons_append, readHeader_cons, kind, show (7 * 32 + low) % 32 = low by omega,
    show (7 * 32 + low) / 32 = 7 by omega, readArgument_of_announced announced,
    takeBytes_append (length_bigEndian width word), List.length_cons, length_bigEndian,
    Nat.add_comm width, ← Nat.add_assoc]
  show (match headerOf? 7 (.following width (ofBigEndian (bigEndian width word))) with
    | some header => Except.ok (header, _)
    | none => Except.error (ReadError.malformed offset)) = _
  rw [ofBigEndian_bigEndian fits, named]

/-- Every float is read back, whichever layout it was written in. -/
theorem readHeader_writeDouble (x : Double) (offset : Nat) (rest : List UInt8) :
    readHeader ⟨offset, writeDouble x ++ rest⟩ =
      .ok (.float x, ⟨offset + (writeDouble x).length, rest⟩) := by
  cases half : x.narrow? .half with
  | some word =>
    simp only [writeDouble, half]
    refine readHeader_float 25 rfl rfl (Double.narrow?_lt half) ?_ offset rest
    simp only [headerOf?, Double.widen_narrow? half]
  | none =>
    cases single : x.narrow? .single with
    | some word =>
      simp only [writeDouble, half, single]
      refine readHeader_float 26 rfl rfl (Double.narrow?_lt single) ?_ offset rest
      simp only [headerOf?, Double.widen_narrow? single]
    | none =>
      simp only [writeDouble, half, single]
      refine readHeader_float 27 rfl rfl x.bits.toNat_lt ?_ offset rest
      simp only [headerOf?, UInt64.ofNat_toNat]

end IndexedStore.Cbor
