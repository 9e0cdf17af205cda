/-
This file proves what the merge of batches gives when every row of the batches has
canonical bytes: it does not fail, and a row of the first inclusion batch is in the answer
exactly if its bytes are in every inclusion batch and not in every exclusion batch. That
the merge stops looking once nothing is left makes no difference.

No two rows of the answer have the same bytes. Only where one batch is handed on as it
stands does that depend on the batch.
-/

import IndexedStore.Proofs.Row.Encoding
import IndexedStore.Query.Merge

namespace IndexedStore

namespace Merge

variable {rows : List Row} {batches : List (List Row)}

/-! ### Bytes of batches -/

/-- Work on a list succeeds if it does so on every item. -/
theorem mapM_eq_ok {ε α β : Type} {work : α → Except ε β} {image : α → β} {items : List α}
    (succeeds : ∀ item ∈ items, work item = .ok (image item)) :
    items.mapM work = .ok (items.map image) := by
  induction items with
  | nil => rfl
  | cons item rest inductionHypothesis =>
    rw [List.forall_mem_cons] at succeeds
    rw [List.mapM_cons, succeeds.1, inductionHypothesis succeeds.2]
    rfl

theorem keysOf_eq (writable : ∀ row ∈ rows, row.Writable) :
    keysOf rows = .ok (rows.map Row.bytes) :=
  mapM_eq_ok writable

/-- A row with its bytes. -/
def keyedRow (row : Row) : KeyedRow := ⟨row.bytes, row⟩

theorem keyed_eq (writable : ∀ row ∈ rows, row.Writable) :
    keyed rows = .ok (rows.map keyedRow) := by
  refine mapM_eq_ok fun row member => ?_
  rw [writable row member]
  rfl

/-- Whether bytes are those of a row in every batch. -/
def inAll (batches : List (List Row)) (key : List UInt8) : Bool :=
  batches.all fun batch => (batch.map Row.bytes).contains key

theorem inAll_iff {key : List UInt8} :
    inAll batches key ↔ ∀ batch ∈ batches, key ∈ batch.map Row.bytes := by
  simp only [inAll, List.all_eq_true, List.contains_iff_mem]

theorem intersect_eq (writable : ∀ batch ∈ batches, ∀ row ∈ batch, row.Writable)
    (found : List KeyedRow) :
    intersect found batches = .ok (found.filter fun row => inAll batches row.key) := by
  induction batches generalizing found with
  | nil => exact congrArg Except.ok (List.filter_eq_self.mpr fun _ _ => rfl).symm
  | cons batch rest inductionHypothesis =>
    rw [List.forall_mem_cons] at writable
    rw [intersect]
    split
    · rename_i empty
      rw [List.isEmpty_iff.mp empty]
      rfl
    · rw [keysOf_eq writable.1]
      show intersect _ rest = _
      rw [inductionHypothesis writable.2, List.filter_filter]
      simp only [inAll, List.all_cons, Bool.and_comm]

theorem commonKeys_eq (writable : ∀ batch ∈ batches, ∀ row ∈ batch, row.Writable)
    (keys : List (List UInt8)) :
    commonKeys keys batches = .ok (keys.filter (inAll batches)) := by
  induction batches generalizing keys with
  | nil => exact congrArg Except.ok (List.filter_eq_self.mpr fun _ _ => rfl).symm
  | cons batch rest inductionHypothesis =>
    rw [List.forall_mem_cons] at writable
    rw [commonKeys]
    split
    · rename_i empty
      rw [List.isEmpty_iff.mp empty]
      rfl
    · rw [keysOf_eq writable.1]
      show commonKeys _ rest = _
      rw [inductionHypothesis writable.2, List.filter_filter]
      congr 2
      funext key
      exact Bool.and_comm _ _

theorem subtract_eq (writable : ∀ batch ∈ batches, ∀ row ∈ batch, row.Writable)
    (found : List KeyedRow) :
    subtract found batches =
      .ok (found.filter fun row => !(!batches.isEmpty && inAll batches row.key)) := by
  cases batches with
  | nil => exact congrArg Except.ok (List.filter_eq_self.mpr fun _ _ => rfl).symm
  | cons batch rest =>
    rw [List.forall_mem_cons] at writable
    rw [subtract, keysOf_eq writable.1]
    show (commonKeys (batch.map Row.bytes) rest >>= fun excluded =>
      pure (found.filter fun row : KeyedRow => !excluded.contains row.key)) = _
    rw [commonKeys_eq writable.2]
    refine congrArg Except.ok (List.filter_congr fun row _ => ?_)
    rw [inAll, List.all_cons, List.isEmpty_cons, Bool.not_false, Bool.true_and,
      Bool.eq_iff_iff, Bool.not_eq_true', Bool.not_eq_true', ← Bool.not_eq_true, ← Bool.not_eq_true,
      List.contains_iff_mem, List.mem_filter, Bool.and_eq_true, List.contains_iff_mem]
    rfl

/-! ### The first of the rows with the same bytes -/

theorem dedupe_sublist (found : List KeyedRow) : (dedupe found).Sublist found := by
  induction found with
  | nil => exact .slnil
  | cons first rest inductionHypothesis =>
    exact (List.filter_sublist.trans inductionHypothesis).cons_cons first

theorem mem_keys_dedupe {found : List KeyedRow} {key : List UInt8} :
    key ∈ (dedupe found).map KeyedRow.key ↔ key ∈ found.map KeyedRow.key := by
  induction found with
  | nil => rfl
  | cons first rest inductionHypothesis =>
    rw [dedupe, List.map_cons, List.map_cons, List.mem_cons, List.mem_cons, ← inductionHypothesis]
    refine ⟨fun either => either.imp id fun member => ?_, fun either => ?_⟩
    · exact (List.filter_sublist.map KeyedRow.key).subset member
    · rcases either with isFirst | member
      · exact .inl isFirst
      · by_cases isFirst : key = first.key
        · exact .inl isFirst
        · obtain ⟨row, inside, rfl⟩ := List.mem_map.mp member
          exact .inr (List.mem_map_of_mem (List.mem_filter.mpr ⟨inside, by simpa using isFirst⟩))

theorem nodup_keys_dedupe (found : List KeyedRow) : ((dedupe found).map KeyedRow.key).Nodup := by
  induction found with
  | nil => exact .nil
  | cons first rest inductionHypothesis =>
    rw [dedupe, List.map_cons, List.nodup_cons]
    refine ⟨fun member => ?_, inductionHypothesis.sublist (List.filter_sublist.map KeyedRow.key)⟩
    obtain ⟨row, inside, same⟩ := List.mem_map.mp member
    have different := (List.mem_filter.mp inside).2
    rw [same] at different
    simp at different

theorem map_key_keyedRow (rows : List Row) :
    (rows.map keyedRow).map KeyedRow.key = rows.map Row.bytes :=
  List.map_map

theorem map_row_keyedRow (rows : List Row) : (rows.map keyedRow).map KeyedRow.row = rows := by
  rw [List.map_map]
  exact List.map_id rows

/-- A filter by bytes may be applied to the rows or to their bytes. -/
theorem map_bytes_filter (rows : List Row) (keeps : List UInt8 → Bool) :
    (((dedupe (rows.map keyedRow)).filter fun row => keeps row.key).map KeyedRow.row).map
        Row.bytes =
      ((dedupe (rows.map keyedRow)).map KeyedRow.key).filter keeps := by
  rw [List.map_map, List.filter_map]
  refine List.map_congr_left fun row member => ?_
  obtain ⟨own, -, rfl⟩ :=
    List.mem_map.mp ((dedupe_sublist _).subset (List.mem_filter.mp member).1)
  rfl

/-! ### The answer -/

/-- Where there is more than one batch, the answer is a filter of the first one. -/
theorem merge_of_several {first : List Row} {others exclusions : List (List Row)}
    (several : ¬(others = [] ∧ exclusions = []))
    (included : ∀ batch ∈ first :: others, ∀ row ∈ batch, row.Writable)
    (excluded : ∀ batch ∈ exclusions, ∀ row ∈ batch, row.Writable) :
    merge (first :: others) exclusions =
      .ok (((dedupe (first.map keyedRow)).filter fun row =>
        !(!exclusions.isEmpty && inAll exclusions row.key) && inAll others row.key).map
          KeyedRow.row) := by
  rw [List.forall_mem_cons] at included
  rw [merge]
  · rw [List.headD_cons, List.tail_cons, keyed_eq included.1]
    show (intersect _ others >>= fun common => subtract common exclusions >>= fun kept =>
      pure (kept.map KeyedRow.row)) = _
    rw [intersect_eq included.2]
    show (subtract _ exclusions >>= fun kept => pure (kept.map KeyedRow.row)) = _
    rw [subtract_eq excluded, List.filter_filter]
    rfl
  · exact nofun
  · exact fun batch isSingle empty => several ⟨(List.cons.inj isSingle).2, empty⟩

end Merge

open Merge in
/-- The merge of rows that have canonical bytes. What is in the answer is in the first inclusion
batch, and it is there exactly if it is in every inclusion batch and not in every exclusion
batch. -/
theorem merge_eq_ok {inclusions exclusions : List (List Row)} (asked : inclusions ≠ [])
    (included : ∀ batch ∈ inclusions, ∀ row ∈ batch, row.Writable)
    (excluded : ∀ batch ∈ exclusions, ∀ row ∈ batch, row.Writable) :
    ∃ rows, merge inclusions exclusions = .ok rows ∧
      (∀ batch ∈ inclusions.head?, rows.Sublist batch) ∧
      (∀ key, key ∈ rows.map Row.bytes ↔ (∀ batch ∈ inclusions, key ∈ batch.map Row.bytes) ∧
        ¬(exclusions ≠ [] ∧ ∀ batch ∈ exclusions, key ∈ batch.map Row.bytes)) ∧
      ((∀ batch, inclusions = [batch] → exclusions = [] → (batch.map Row.bytes).Nodup) →
        (rows.map Row.bytes).Nodup) := by
  cases inclusions with
  | nil => exact absurd rfl asked
  | cons first others =>
    by_cases single : others = [] ∧ exclusions = []
    · obtain ⟨rfl, rfl⟩ := single
      refine ⟨first, rfl, fun batch isFirst => ?_, fun key => ?_,
        fun distinct => distinct first rfl rfl⟩
      · cases isFirst
        exact .refl first
      · simp
    · -- What is kept is decided by the bytes alone.
      obtain ⟨keeps, kept, keeps_iff⟩ : ∃ keeps : List UInt8 → Bool,
          merge (first :: others) exclusions = .ok (((dedupe (first.map keyedRow)).filter fun row =>
            keeps row.key).map KeyedRow.row) ∧
          ∀ key, keeps key ↔ (∀ batch ∈ others, key ∈ batch.map Row.bytes) ∧
            ¬(exclusions ≠ [] ∧ ∀ batch ∈ exclusions, key ∈ batch.map Row.bytes) :=
        ⟨fun key => !(!exclusions.isEmpty && inAll exclusions key) && inAll others key,
          merge_of_several single included excluded, fun key => by
            simp only [Bool.and_eq_true, Bool.not_eq_true', ← Bool.not_eq_true, inAll_iff,
              List.isEmpty_iff]
            exact and_comm⟩
      refine ⟨_, kept, fun batch isFirst => ?_, fun key => ?_, fun _ => ?_⟩
      · cases isFirst
        conv => rhs; rw [← map_row_keyedRow first]
        exact (List.filter_sublist.trans (dedupe_sublist _)).map KeyedRow.row
      · rw [map_bytes_filter, List.mem_filter, mem_keys_dedupe, map_key_keyedRow, keeps_iff,
          List.forall_mem_cons, and_assoc]
      · rw [map_bytes_filter]
        exact (nodup_keys_dedupe _).sublist List.filter_sublist

end IndexedStore
