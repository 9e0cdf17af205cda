/-
This file says which keys a row has in an index, and proves that the index computes
them. What an index computes is sorted and without repetitions; which keys a row has is
a matter of equality in key order only, and of the row only up to its canonical form.
The latter matters because an index takes keys out by the row that is read back from
the store, and puts them in by the row that was handed over.
-/

import IndexedStore.Proofs.Row.Encoding
import IndexedStore.Storage.Index

namespace IndexedStore

namespace Value

mutual

theorem containsNaN_of_isIndexable : ∀ value : Value, value.isIndexable →
    value.containsNaN = false
  | .array items, indexable => itemsContainNaN_of_itemsIndexable items indexable
  | .float number, indexable => by simpa [isIndexable, containsNaN] using indexable
  | .null, _ | .bool _, _ | .integer _, _ | .text _, _ | .bytes _, _ => rfl

theorem itemsContainNaN_of_itemsIndexable : ∀ items : List Value, itemsIndexable items →
    itemsContainNaN items = false
  | [], _ => rfl
  | item :: items, indexable => by
    rw [itemsIndexable, Bool.and_eq_true] at indexable
    rw [itemsContainNaN, containsNaN_of_isIndexable item indexable.1,
      itemsContainNaN_of_itemsIndexable items indexable.2, Bool.or_false]

end

/-- The index keys of a field's value: the value itself if it may be a key or, where an
array has a key for each item, every item that may be one. -/
def indexKeys (value : Value) (multiEntry : Bool) : List Value :=
  match value, multiEntry with
  | array items, true => items.filter isIndexable
  | value, _ => if value.isIndexable then [value] else []

@[simp]
theorem indexKeys_single (value : Value) :
    value.indexKeys false = if value.isIndexable then [value] else [] := by
  cases value <;> rfl

theorem isIndexable_of_mem_indexKeys {value key : Value} {multiEntry : Bool}
    (member : key ∈ value.indexKeys multiEntry) : key.isIndexable := by
  unfold indexKeys at member
  split at member
  · exact (List.mem_filter.mp member).2
  · split at member
    · rw [List.mem_singleton.mp member]
      assumption
    · cases member

/-- The index keys of a canonical form are the canonical forms of the index keys. -/
theorem indexKeys_normalize (value : Value) (multiEntry : Bool) :
    value.normalize.indexKeys multiEntry = (value.indexKeys multiEntry).map normalize := by
  have single : value.normalize.indexKeys false = (value.indexKeys false).map normalize := by
    rw [indexKeys_single, indexKeys_single, isIndexable_normalize]
    split <;> rfl
  cases multiEntry with
  | false => exact single
  | true =>
    cases value with
    | array items =>
      rw [normalize_array, indexKeys, indexKeys, List.filter_map]
      congr 2
      funext item
      exact isIndexable_normalize item
    | float number =>
      rcases normalize_float number with ⟨_, -, canonical⟩ | canonical
      · rw [canonical] at single ⊢
        exact single
      · rw [canonical] at single ⊢
        exact single
    | _ => exact single

end Value

namespace Row

/-- The index keys of a row for a field. -/
def indexKeys (row : Row) (field : String) (multiEntry : Bool) : List Value :=
  ((row.get? field).map fun value => value.indexKeys multiEntry).getD []

/-- A row has a key, up to equality in key order. -/
def HasKey (row : Row) (field : String) (multiEntry : Bool) (key : Value) : Prop :=
  ∃ own ∈ row.indexKeys field multiEntry, key == own

variable {row other : Row} {field : String} {multiEntry : Bool} {key : Value}

theorem isIndexable_of_mem_indexKeys (member : key ∈ row.indexKeys field multiEntry) :
    key.isIndexable := by
  unfold indexKeys at member
  cases found : row.get? field with
  | none =>
    rw [found] at member
    cases member
  | some value =>
    rw [found] at member
    exact Value.isIndexable_of_mem_indexKeys member

/-- Keys may be replaced by their canonical forms. -/
theorem hasKey_iff_normalize : row.HasKey field multiEntry key ↔
    ∃ own ∈ (row.indexKeys field multiEntry).map Value.normalize, key == own := by
  have same : ∀ own ∈ row.indexKeys field multiEntry, own.normalize == own := fun own member =>
    Value.normalize_beq (Value.containsNaN_of_isIndexable own (isIndexable_of_mem_indexKeys member))
  constructor
  · rintro ⟨own, member, equal⟩
    exact ⟨own.normalize, List.mem_map_of_mem member, BEq.trans equal (BEq.symm (same own member))⟩
  · rintro ⟨_, member, equal⟩
    obtain ⟨own, inside, rfl⟩ := List.mem_map.mp member
    exact ⟨own, inside, BEq.trans equal (same own inside)⟩

theorem map_normalize_indexKeys (row : Row) (field : String) (multiEntry : Bool) :
    (row.indexKeys field multiEntry).map Value.normalize =
      (((row.get? field).map Value.normalize).map fun value =>
        value.indexKeys multiEntry).getD [] := by
  unfold indexKeys
  cases row.get? field with
  | none => rfl
  | some value => exact (Value.indexKeys_normalize value multiEntry).symm

/-- Rows with the same bytes have the same keys. -/
theorem hasKey_of_encode_eq {bytes : List UInt8} (written : row.encode = .ok bytes)
    (written' : other.encode = .ok bytes) :
    row.HasKey field multiEntry key ↔ other.HasKey field multiEntry key := by
  rw [hasKey_iff_normalize, hasKey_iff_normalize, map_normalize_indexKeys, map_normalize_indexKeys,
    get?_of_encode_eq written written']

end Row

/-! ### Keys as an index computes them -/

namespace Index

variable {key : Value}

theorem exists_mem_cons {first : Value} {rest : List Value} :
    (∃ own ∈ first :: rest, key == own) ↔ key == first ∨ ∃ own ∈ rest, key == own := by
  simp only [List.mem_cons, exists_eq_or_imp]

theorem exists_mem_keepLast {values : List Value} :
    (∃ own ∈ keepLast values, key == own) ↔ ∃ own ∈ values, key == own := by
  induction values with
  | nil => rfl
  | cons first rest inductionHypothesis =>
    cases rest with
    | nil => rfl
    | cons second rest =>
      rw [exists_mem_cons, keepLast]
      split
      · rename_i same
        rw [inductionHypothesis]
        refine ⟨.inr, fun found => found.elim (fun isFirst => ?_) id⟩
        exact ⟨second, List.mem_cons_self, BEq.trans isFirst same⟩
      · rw [exists_mem_cons, inductionHypothesis]

/-- Sorting the keys of an array and leaving out repetitions loses none of them. -/
theorem exists_mem_itemKeys {items : List Value} :
    (∃ own ∈ itemKeys items, key == own) ↔ ∃ own ∈ items.filter Value.isIndexable, key == own := by
  rw [itemKeys, exists_mem_keepLast]
  have perm : (Value.sort (items.filter Value.isIndexable)).Perm (items.filter Value.isIndexable) :=
    List.mergeSort_perm _ _
  simp only [perm.mem_iff]

/-- An index computes the keys that a row has. -/
theorem exists_mem_keysFor {index : Index} {field : String} {row : Row} :
    (∃ own ∈ index.keysFor field row, key == own) ↔
      row.HasKey field index.options.multiEntry key := by
  rw [keysFor, Row.HasKey, Row.indexKeys]
  cases row.get? field with
  | none => rfl
  | some value =>
    show _ ↔ ∃ own ∈ value.indexKeys index.options.multiEntry, key == own
    cases multi : index.options.multiEntry with
    | false =>
      rw [Value.indexKeys_single]
      cases value <;> rfl
    | true =>
      cases value with
      | array items => exact exists_mem_itemKeys
      | _ => rfl

end Index

end IndexedStore
