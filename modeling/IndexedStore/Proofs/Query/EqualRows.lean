/-
This file proves the law of the merge in terms of equal rows alone, without their bytes. The
answer has the rows of the first inclusion batch, each where it stands first, that equal a row
of every other inclusion batch and do not equal a row of every exclusion batch.

The first inclusion batch decides the order of the answer and which one of several equal rows
is in it. Nothing else depends on the order of the batches.
-/

import IndexedStore.Proofs.Query.Merge
import Mathlib.Data.List.Perm.Basic

namespace IndexedStore

instance : EquivBEq Row where
  rfl {row} := @BEq.rfl Value _ _ row.toValue
  symm same := @BEq.symm Value _ _ _ _ same
  trans near far := @BEq.trans Value _ _ _ _ _ near far

namespace Merge

variable {rows : List Row} {batches inclusions exclusions : List (List Row)} {row : Row}

/-! ### Equal rows -/

/-- A batch has a row that equals the given one exactly if it has the bytes of that row. -/
theorem contains_eq (writable : row.Writable) (writables : ∀ other ∈ rows, other.Writable) :
    (rows.map Row.bytes).contains row.bytes = rows.contains row := by
  rw [Bool.eq_iff_iff, List.contains_iff_mem, List.contains_iff_exists_mem_beq,
    Row.mem_map_bytes_iff writable writables]
  simp only [BEq.comm]

theorem inAll_bytes (writable : row.Writable)
    (writables : ∀ batch ∈ batches, ∀ other ∈ batch, other.Writable) :
    inAll batches row.bytes = batches.all fun batch => batch.contains row := by
  rw [inAll, Bool.eq_iff_iff, List.all_eq_true, List.all_eq_true]
  exact forall₂_congr fun batch member => by rw [contains_eq writable (writables batch member)]

/-- Rows may be left out by their bytes before or after repetitions are. -/
theorem filter_dedupe (keeps : List UInt8 → Bool) (found : List KeyedRow) :
    (dedupe found).filter (fun row => keeps row.key) =
      dedupe (found.filter fun row => keeps row.key) := by
  induction found with
  | nil => rfl
  | cons first rest inductionHypothesis =>
    rw [dedupe]
    by_cases kept : keeps first.key
    · rw [List.filter_cons, List.filter_cons, if_pos kept, if_pos kept, dedupe, List.filter_comm,
        inductionHypothesis]
    · rw [List.filter_cons, List.filter_cons, if_neg kept, if_neg kept, ← inductionHypothesis,
        List.filter_filter]
      exact List.filter_congr fun other _ => Bool.and_eq_left_iff_imp.mpr fun keeps =>
        bne_iff_ne.mpr fun same => kept (same ▸ keeps)

/-- Leaving out repeated bytes leaves out repeated rows. -/
theorem dedupe_map_keyedRow (rows : List Row) (writables : ∀ row ∈ rows, row.Writable) :
    dedupe (rows.map keyedRow) = rows.eraseDups.map keyedRow := by
  match rows with
  | [] => rfl
  | first :: rest =>
    rw [List.forall_mem_cons] at writables
    have others : (rest.map keyedRow).filter (fun other => other.key != first.bytes) =
        (rest.filter fun other => !other == first).map keyedRow := by
      rw [List.filter_map]
      refine congrArg _ (List.filter_congr fun other member => ?_)
      have same := Row.bytes_eq_iff (writables.2 other member) writables.1
      show (!(other.bytes == first.bytes)) = !(other == first)
      rw [Bool.eq_iff_iff.mpr (beq_iff_eq.trans same)]
    have shorter := List.length_filter_le (fun other => !other == first) rest
    rw [List.map_cons, dedupe, List.eraseDups_cons, List.map_cons]
    refine congrArg _ ?_
    show (dedupe (rest.map keyedRow)).filter (fun other => other.key != first.bytes) = _
    rw [filter_dedupe (fun key => key != first.bytes), others]
    exact dedupe_map_keyedRow _ fun other member => writables.2 other (List.mem_filter.mp member).1
termination_by rows.length
decreasing_by exact Nat.lt_succ_of_le shorter

theorem eraseDups_sublist (writables : ∀ row ∈ rows, row.Writable) :
    rows.eraseDups.Sublist rows := by
  have kept := (dedupe_sublist (rows.map keyedRow)).map KeyedRow.row
  rwa [dedupe_map_keyedRow rows writables, map_row_keyedRow, map_row_keyedRow] at kept

/-- Whether a row is in the answer: every one of the other inclusion batches has it, and not every
exclusion batch, if there is one. -/
def joins (others exclusions : List (List Row)) (row : Row) : Bool :=
  others.all (fun batch => batch.contains row) &&
    !(!exclusions.isEmpty && exclusions.all fun batch => batch.contains row)

/-- Where there is something to join, the answer is a filter of the first inclusion batch. -/
theorem merge_eq_filter (several : ¬(inclusions.length ≤ 1 ∧ exclusions = []))
    (included : ∀ batch ∈ inclusions, ∀ row ∈ batch, row.Writable)
    (excluded : ∀ batch ∈ exclusions, ∀ row ∈ batch, row.Writable) :
    merge inclusions exclusions =
      .ok ((inclusions.headD []).eraseDups.filter (joins inclusions.tail exclusions)) := by
  cases inclusions with
  | nil =>
    -- Without inclusion batches the merge is that of one batch without rows.
    have only : merge [] exclusions = merge [[]] exclusions := by
      cases exclusions with
      | nil => exact absurd ⟨Nat.zero_le 1, rfl⟩ several
      | cons batch rest => rfl
    rw [only, merge_of_several (by simpa using several) (by simp) excluded]
    rfl
  | cons first others =>
    rw [merge_of_several (by simpa using several) included excluded]
    rw [List.forall_mem_cons] at included
    rw [dedupe_map_keyedRow first included.1, List.filter_map, map_row_keyedRow]
    refine congrArg Except.ok (List.filter_congr fun row member => ?_)
    have writable := included.1 row ((eraseDups_sublist included.1).subset member)
    show (!(!exclusions.isEmpty && inAll exclusions row.bytes) && inAll others row.bytes) = _
    rw [inAll_bytes writable included.2, inAll_bytes writable excluded, Bool.and_comm]
    rfl

/-! ### Orders of batches -/

/-- Rows with the bytes of other rows, in any order, equal these rows in some order. -/
theorem exists_perm_of_bytes {others : List Row} (writable : ∀ row ∈ rows, row.Writable)
    (writable' : ∀ other ∈ others, other.Writable)
    (same : (rows.map Row.bytes).Perm (others.map Row.bytes)) :
    ∃ shuffled, rows == shuffled ∧ shuffled.Perm others := by
  have related := congrFun₂ (List.eq_map_comp_perm Row.bytes) (rows.map Row.bytes) others
  obtain ⟨shuffled, equal, perm⟩ := related.mpr same
  exact ⟨shuffled, Row.beq_of_map_bytes_eq writable
    (fun row member => writable' row (perm.mem_iff.mp member)) equal, perm⟩

/-- Where there is something to join, no two rows of the answer have the same bytes, and they
have those that are in every inclusion batch and not in every exclusion batch. -/
theorem merge_bytes (asked : inclusions ≠ [])
    (several : ¬(inclusions.length ≤ 1 ∧ exclusions = []))
    (included : ∀ batch ∈ inclusions, ∀ row ∈ batch, row.Writable)
    (excluded : ∀ batch ∈ exclusions, ∀ row ∈ batch, row.Writable) :
    ∃ rows, merge inclusions exclusions = .ok rows ∧ (∀ row ∈ rows, row.Writable) ∧
      (rows.map Row.bytes).Nodup ∧
      ∀ key, key ∈ rows.map Row.bytes ↔ (∀ batch ∈ inclusions, key ∈ batch.map Row.bytes) ∧
        ¬(exclusions ≠ [] ∧ ∀ batch ∈ exclusions, key ∈ batch.map Row.bytes) := by
  obtain ⟨rows, answer, within, keys, distinct⟩ := merge_eq_ok asked included excluded
  refine ⟨rows, answer, fun row member => ?_, distinct fun batch single empty => ?_, keys⟩
  · obtain ⟨first, others, rfl⟩ := List.exists_cons_of_ne_nil asked
    exact included first List.mem_cons_self row ((within first rfl).subset member)
  · exact absurd ⟨by simp [single], empty⟩ several

/-- Inclusion batches in another order give equal rows in some order. -/
theorem exists_merge_of_perm {inclusions' : List (List Row)}
    (several : ¬(inclusions.length ≤ 1 ∧ exclusions = []))
    (included : ∀ batch ∈ inclusions, ∀ row ∈ batch, row.Writable)
    (excluded : ∀ batch ∈ exclusions, ∀ row ∈ batch, row.Writable)
    (perm : inclusions.Perm inclusions') :
    ∃ rows shuffled rows', merge inclusions exclusions = .ok rows ∧
      merge inclusions' exclusions = .ok rows' ∧ rows == shuffled ∧ shuffled.Perm rows' := by
  by_cases asked : inclusions = []
  · rw [asked, List.nil_perm] at perm
    rw [perm, asked]
    exact ⟨_, _, _, merge_eq_filter (asked ▸ several) (by simp) excluded,
      merge_eq_filter (asked ▸ several) (by simp) excluded, BEq.rfl, .refl _⟩
  · obtain ⟨rows, answer, writable, distinct, keys⟩ :=
      merge_bytes asked several included excluded
    obtain ⟨rows', answer', writable', distinct', keys'⟩ :=
      merge_bytes (fun empty => asked (List.perm_nil.mp (empty ▸ perm)))
        (perm.length_eq ▸ several) (fun batch member => included batch (perm.mem_iff.mpr member))
        excluded
    have same : (rows.map Row.bytes).Perm (rows'.map Row.bytes) := by
      refine (List.perm_ext_iff_of_nodup distinct distinct').mpr fun key => ?_
      simp only [keys, keys', perm.mem_iff]
    obtain ⟨shuffled, equal, isPerm⟩ := exists_perm_of_bytes writable writable' same
    exact ⟨rows, shuffled, rows', answer, answer', equal, isPerm⟩

theorem joins_of_perm {exclusions' : List (List Row)} (perm : exclusions.Perm exclusions')
    (others : List (List Row)) : joins others exclusions' = joins others exclusions := by
  funext row
  rw [joins, joins, perm.all_eq, perm.isEmpty_eq]

end Merge

/-- The merge of batches of rows without NaN does not fail. What it gives is decided by which
rows are equal, and by the first inclusion batch. -/
theorem merge_joins_equal_rows (inclusions exclusions : List (List Row))
    (included : ∀ batch ∈ inclusions, ∀ row ∈ batch, ¬row.toValue.HoldsNaN)
    (excluded : ∀ batch ∈ exclusions, ∀ row ∈ batch, ¬row.toValue.HoldsNaN) :
    -- Where there is nothing to join, the batch is handed on as it is.
    (inclusions.length ≤ 1 ∧ exclusions = [] →
      merge inclusions exclusions = .ok (inclusions.headD [])) ∧
    (¬(inclusions.length ≤ 1 ∧ exclusions = []) →
      -- Otherwise the answer has the rows of the first inclusion batch, each where it stands
      -- first, that every other one has and not every exclusion batch, if there is one.
      merge inclusions exclusions = .ok ((inclusions.headD []).eraseDups.filter fun row =>
        inclusions.tail.all (fun batch => batch.contains row) &&
          !(!exclusions.isEmpty && exclusions.all fun batch => batch.contains row)) ∧
      -- Inclusion batches in another order give equal rows in some order.
      (∀ inclusions' : List (List Row), inclusions.Perm inclusions' →
        ∃ rows shuffled rows', merge inclusions exclusions = .ok rows ∧
          merge inclusions' exclusions = .ok rows' ∧ rows == shuffled ∧ shuffled.Perm rows') ∧
      -- Exclusion batches in another order give the same answer.
      ∀ exclusions' : List (List Row), exclusions.Perm exclusions' →
        merge inclusions exclusions' = merge inclusions exclusions) := by
  have writable (batches : List (List Row))
      (number : ∀ batch ∈ batches, ∀ row ∈ batch, ¬row.toValue.HoldsNaN) :
      ∀ batch ∈ batches, ∀ row ∈ batch, row.Writable :=
    fun batch member row inside => Row.writable_of_not_holdsNaN (number batch member row inside)
  have included := writable inclusions included
  have excluded := writable exclusions excluded
  refine ⟨fun ⟨single, empty⟩ => ?_, fun several =>
    ⟨Merge.merge_eq_filter several included excluded,
      fun _ perm => Merge.exists_merge_of_perm several included excluded perm,
      fun exclusions' perm => ?_⟩⟩
  · cases empty
    match inclusions, single with
    | [], _ => rfl
    | [batch], _ => rfl
  · have several' : ¬(inclusions.length ≤ 1 ∧ exclusions' = []) := fun both =>
      several ⟨both.1, List.perm_nil.mp (both.2 ▸ perm)⟩
    have excluded' : ∀ batch ∈ exclusions', ∀ row ∈ batch, row.Writable :=
      fun batch member => excluded batch (perm.mem_iff.mpr member)
    rw [Merge.merge_eq_filter several' included excluded',
      Merge.merge_eq_filter several included excluded, Merge.joins_of_perm perm]

/-- Ada with an integer for her age. -/
def Row.ada : Row := { fields := [("name", .text "Ada"), ("age", .integer 36)] }

/-- Ada with her age first and in binary64. -/
def Row.otherAda : Row :=
  { fields := [("age", .float ⟨0x4042000000000000⟩), ("name", .text "Ada")] }

/-- A row that equals none of the two. -/
def Row.grace : Row := { fields := [("name", .text "Grace"), ("age", .integer 85)] }

open Row in
/-- Of the two rows for Ada the first is kept, and the row for Grace is taken away. -/
theorem merge_keeps_first_ada :
    merge [[ada, grace, otherAda], [grace, otherAda]] [[grace]] = .ok [ada] ∧
    ∃ rows shuffled rows', merge [[ada, grace, otherAda], [grace, otherAda]] [[grace]] = .ok rows ∧
      merge [[grace, otherAda], [ada, grace, otherAda]] [[grace]] = .ok rows' ∧
      rows == shuffled ∧ shuffled.Perm rows' := by
  have number : ∀ row ∈ [ada, grace, otherAda], ¬row.toValue.HoldsNaN := by
    simp only [← Value.containsNaN_iff]
    decide
  obtain ⟨-, joined⟩ := merge_joins_equal_rows
    [[ada, grace, otherAda], [grace, otherAda]] [[grace]] (by simp_all) (by simp_all)
  obtain ⟨answer, reordered, -⟩ := joined (by simp)
  have same : ada == otherAda := by decide +kernel
  have different : (ada == grace) = false := by decide +kernel
  have kept : [ada, grace, otherAda].eraseDups = [ada, grace] := by
    simp [List.eraseDups_cons, BEq.symm same, BEq.symm_false different]
  rw [List.headD_cons, kept] at answer
  refine ⟨answer.trans ?_, reordered _ (.swap _ _ _)⟩
  simp [same, different]

end IndexedStore
