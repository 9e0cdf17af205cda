/-
This file proves that the indexes of a table always mirror its rows, whatever sequence of
calls has led to the table.

A table keeps only the bytes of a row. Which row they stand for is fixed up to equality,
and so are the keys of that row. This is why an index stays exact although it takes out
keys by the row that was read back and has put them in by the row that was handed over.
-/

import IndexedStore.Proofs.Storage.Error
import IndexedStore.Proofs.Storage.Index
import IndexedStore.Storage.Table

namespace IndexedStore

/-- A row is stored under a key: the bytes that are kept there are those of the row. -/
def KeyMap.Stores (rows : KeyMap (List UInt8)) (key : Value) (row : Row) : Prop :=
  ∃ bytes, rows.get? key = some bytes ∧ row.encode = .ok bytes

/-- An index mirrors rows: its keys are owned exactly by the rows that have them, and if it
is unique, by one row each. -/
structure Index.Mirrors (index : Index) (field : String) (rows : KeyMap (List UInt8)) : Prop where
  /-- The keys and owners stand in order. -/
  wellFormed : index.WellFormed
  /-- The owners of a key are the rows that have it. -/
  owns : ∀ key owner, index.Owns key owner ↔
    ∃ row, rows.Stores owner row ∧ row.HasKey field index.options.multiEntry key
  /-- No key of a unique index has two owners. -/
  single : index.options.unique → index.SingleOwners

/-- What every call keeps true of a table. -/
structure Table.Sound (table : Table) : Prop where
  /-- The primary keys stand in order. -/
  sorted : table.rows.Sorted
  /-- The bytes under a key are those of a row with that key. -/
  keyed : ∀ entry ∈ table.rows.entries, ∃ (row : Row) (key : Value), row.encode = .ok entry.2 ∧
    row.get? table.keyField = some key ∧ key.isIndexable ∧ key == entry.1
  /-- The indexes mirror the rows. -/
  mirrored : ∀ entry ∈ table.indexes, entry.2.Mirrors entry.1 table.rows

namespace KeyMap

variable {rows : KeyMap (List UInt8)} {key key' : Value} {row row' : Row} {bytes : List UInt8}
  {field : String} {multiEntry : Bool}

theorem stores_congr (same : key == key') : rows.Stores key row ↔ rows.Stores key' row := by
  rw [Stores, Stores, get?_congr same]

/-- Rows that are stored under one key have the same index keys. -/
theorem hasKey_of_stores (stored : rows.Stores key row) (stored' : rows.Stores key row')
    {own : Value} :
    row.HasKey field multiEntry own ↔ row'.HasKey field multiEntry own := by
  obtain ⟨bytes, found, written⟩ := stored
  obtain ⟨bytes', found', written'⟩ := stored'
  rw [found, Option.some_inj] at found'
  exact Row.hasKey_of_encode_eq written (found' ▸ written')

@[simp]
theorem stores_insert : (rows.insert key bytes).Stores key' row ↔
    if key' == key then row.encode = .ok bytes else rows.Stores key' row := by
  rw [Stores, get?_insert]
  split
  · constructor
    · rintro ⟨_, found, written⟩
      exact Option.some_inj.mp found ▸ written
    · exact fun written => ⟨_, rfl, written⟩
  · rfl

@[simp]
theorem stores_erase : (rows.erase key).Stores key' row ↔
    ¬(key' == key) ∧ rows.Stores key' row := by
  rw [Stores, get?_erase]
  split
  · rename_i same
    exact iff_of_false (fun ⟨_, found, _⟩ => nomatch found) fun both => both.1 same
  · rename_i different
    exact (and_iff_right different).symm

end KeyMap

namespace Index

variable {index : Index} {field : String} {rows : KeyMap (List UInt8)} {key : Value}
  {previous row : Row} {bytes : List UInt8}

/-- Taking out the keys of a stored row leaves the index of the other rows. -/
theorem owns_dropOwners_keysFor (mirrors : index.Mirrors field rows)
    (stored : rows.Stores key previous) {own owner : Value} :
    (index.dropOwners key (index.keysFor field previous)).Owns own owner ↔
      ¬(owner == key) ∧ index.Owns own owner := by
  rw [owns_dropOwners, exists_mem_keysFor, and_comm]
  refine and_congr_left fun owns => not_congr ⟨fun both => both.2, fun same => ⟨?_, same⟩⟩
  obtain ⟨row, storedOwner, hasKey⟩ := (mirrors.owns own owner).mp owns
  exact (KeyMap.hasKey_of_stores ((KeyMap.stores_congr same).mp storedOwner) stored).mp hasKey

/-- Dropping a stored row from an index that mirrors the rows. -/
theorem mirrors_dropOwners (mirrors : index.Mirrors field rows)
    (stored : rows.Stores key previous) :
    (index.dropOwners key (index.keysFor field previous)).Mirrors field (rows.erase key) where
  wellFormed := wellFormed_dropOwners mirrors.wellFormed
  owns own owner := by
    simp [owns_dropOwners_keysFor mirrors stored, mirrors.owns, and_assoc]
  single unique own first second firstOwns secondOwns := by
    rw [options_dropOwners] at unique
    exact mirrors.single unique own first second (owns_dropOwners.mp firstOwns).1
      (owns_dropOwners.mp secondOwns).1

/-- The row that a write replaces: the one that is stored under the key, if there is one. -/
def Replaces (rows : KeyMap (List UInt8)) (key : Value) : Option Row → Prop
  | some previous => rows.Stores key previous
  | none => rows.get? key = none

/-- What is left of an index when the keys of the replaced row have been taken out, before the
keys of the new row are added. -/
theorem exists_cleared {previous : Option Row} (mirrors : index.Mirrors field rows)
    (replaces : Replaces rows key previous) (row : Row) : ∃ cleared : Index, cleared.WellFormed ∧
      cleared.options = index.options ∧
      (∀ own owner, cleared.Owns own owner ↔ ¬(owner == key) ∧ index.Owns own owner) ∧
      Table.reindex key previous row field index =
        cleared.addOwners key (index.keysFor field row) := by
  cases previous with
  | some previous =>
    exact ⟨_, wellFormed_dropOwners mirrors.wellFormed, options_dropOwners,
      fun _ _ => owns_dropOwners_keysFor mirrors replaces, rfl⟩
  | none =>
    refine ⟨index, mirrors.wellFormed, rfl, fun own owner => ⟨fun owns => ⟨fun same => ?_, owns⟩,
      fun both => both.2⟩, rfl⟩
    obtain ⟨_, ⟨_, found, _⟩, _⟩ := (mirrors.owns own owner).mp owns
    rw [KeyMap.get?_congr same, replaces] at found
    cases found

/-- Writing a row into an index that mirrors the rows. -/
theorem mirrors_reindex {previous : Option Row} (mirrors : index.Mirrors field rows)
    (replaces : Replaces rows key previous) (written : row.encode = .ok bytes)
    (free : index.conflict? (index.keysFor field row) key = none) :
    (Table.reindex key previous row field index).Mirrors field (rows.insert key bytes) := by
  obtain ⟨cleared, wellFormed, options, owns, result⟩ := exists_cleared mirrors replaces row
  rw [result]
  refine ⟨wellFormed_addOwners wellFormed, fun own owner => ?_, fun unique => ?_⟩
  · rw [owns_addOwners, exists_mem_keysFor, owns, options_addOwners, options, mirrors.owns]
    simp only [KeyMap.stores_insert]
    by_cases same : owner == key
    · simp only [same, if_true, not_true_eq_false, false_and, or_false, and_true]
      refine ⟨fun has => ⟨row, written, has⟩, fun ⟨other, writtenOther, has⟩ => ?_⟩
      exact (Row.hasKey_of_encode_eq writtenOther written).mp has
    · simp only [same, Bool.false_eq_true, if_false, and_false, false_or, not_false_eq_true,
        true_and]
  · rw [options_addOwners, options] at unique
    have fewer : ∀ own owner, cleared.Owns own owner → index.Owns own owner :=
      fun own owner owned => ((owns own owner).mp owned).2
    refine singleOwners_addOwners unique free ?_ fewer
    exact fun own first second firstOwns secondOwns =>
      mirrors.single unique own first second (fewer _ _ firstOwns) (fewer _ _ secondOwns)

end Index

namespace Table

variable {table changed : Table} {row : Row} {key : Value} {mode : WriteMode}

/-! ### Creating an index -/

theorem fillIndex_cons_eq_ok {field : String} {index filled : Index} {bytes : List UInt8}
    {rest : List (Value × List UInt8)}
    (ok : table.fillIndex field index ((key, bytes) :: rest) = .ok filled) :
    ∃ row, Row.decode bytes = .ok row ∧
      index.conflict? (index.keysFor field row) key = none ∧
      table.fillIndex field (index.addOwners key (index.keysFor field row)) rest = .ok filled := by
  obtain ⟨row, read, ok⟩ := exists_of_bind_eq_ok ok
  refine ⟨row, EngineError.eq_ok_of_ofCodec read, ?_⟩
  cases free : index.conflict? (index.keysFor field row) key with
  | some taken =>
    simp only [free] at ok
    cases ok
  | none =>
    simp only [free] at ok
    exact ⟨rfl, ok⟩

/-- What filling a new index does: it reads every stored row and adds the keys of each. -/
theorem fillIndex_eq_ok {field : String} {index filled : Index}
    {entries : List (Value × List UInt8)} (ok : table.fillIndex field index entries = .ok filled)
    (wellFormed : index.WellFormed) (single : index.options.unique → index.SingleOwners) :
    filled.options = index.options ∧ filled.WellFormed ∧
      (filled.options.unique → filled.SingleOwners) ∧
      (∀ entry ∈ entries, ∃ row, Row.decode entry.2 = .ok row) ∧
      ∀ key owner, filled.Owns key owner ↔ index.Owns key owner ∨
        ∃ entry ∈ entries, owner == entry.1 ∧ ∃ row, Row.decode entry.2 = .ok row ∧
          row.HasKey field index.options.multiEntry key := by
  induction entries generalizing index with
  | nil =>
    cases ok
    refine ⟨rfl, wellFormed, single, nofun, fun key owner => ⟨.inl, fun either => ?_⟩⟩
    exact either.elim id fun ⟨_, member, _⟩ => nomatch member
  | cons entry rest inductionHypothesis =>
    obtain ⟨row, read, free, filledRest⟩ := fillIndex_cons_eq_ok ok
    have options : (index.addOwners entry.1 (index.keysFor field row)).options = index.options :=
      Index.options_addOwners
    obtain ⟨kept, wellFormed', single', readable, owns⟩ := inductionHypothesis filledRest
      (Index.wellFormed_addOwners wellFormed) fun unique => by
        rw [options] at unique
        exact Index.singleOwners_addOwners unique free (single unique) fun _ _ => id
    refine ⟨kept.trans options, wellFormed', single', ?_, fun key owner => ?_⟩
    · intro other member
      rcases List.mem_cons.mp member with rfl | inRest
      · exact ⟨row, read⟩
      · exact readable other inRest
    · rw [owns, options, Index.owns_addOwners, Index.exists_mem_keysFor]
      simp only [List.mem_cons, exists_eq_or_imp, read, Except.ok.injEq, exists_eq_left']
      rw [and_comm, or_assoc, or_left_comm]

theorem createIndex_eq_ok {field : String} {options : IndexOptions}
    (ok : table.createIndex field options = (.ok (), changed)) : ¬table.hasIndex field ∧
      ∃ filled, table.fillIndex field { options } table.rows.entries = .ok filled ∧
        changed = { table with indexes := insertIndex field filled table.indexes } := by
  simp only [createIndex, editing_get_bind] at ok
  split at ok
  · cases ok
  · rename_i isNew
    simp only [editing_get_bind, editing_lift_bind_eq_ok_iff, editing_modify] at ok
    obtain ⟨filled, filling, ok⟩ := ok
    cases ok
    exact ⟨isNew, filled, filling, rfl⟩

/-- An index that could not be created changes nothing. -/
theorem createIndex_eq_error {field : String} {options : IndexOptions} {failure : EngineError}
    (failed : table.createIndex field options = (.error failure, changed)) : changed = table := by
  simp only [createIndex, editing_get_bind] at failed
  split at failed
  · cases failed
    rfl
  · simp only [editing_get_bind, editing_lift_bind_eq_error_iff, editing_modify] at failed
    obtain ⟨-, rfl⟩ | ⟨_, -, failed⟩ := failed
    · rfl
    · cases failed

/-- An index that is created over the rows that are there mirrors them. -/
theorem mirrors_of_fillIndex (sound : table.Sound) {field : String} {options : IndexOptions}
    {filled : Index} (ok : table.fillIndex field { options } table.rows.entries = .ok filled) :
    filled.Mirrors field table.rows := by
  obtain ⟨kept, wellFormed, single, readable, owns⟩ := fillIndex_eq_ok ok Index.wellFormed_empty
    fun _ _ _ _ owned => absurd owned Index.not_owns_of_empty
  refine ⟨wellFormed, fun key owner => ?_, single⟩
  rw [owns, kept, or_iff_right Index.not_owns_of_empty]
  constructor
  · rintro ⟨entry, member, same, row, read, has⟩
    obtain ⟨stored, _, written, -⟩ := sound.keyed entry member
    refine ⟨row, ⟨entry.2, ?_, Row.encode_of_decode written read⟩, has⟩
    rw [KeyMap.get?_congr same, KeyMap.get?_of_mem sound.sorted member]
  · rintro ⟨row, ⟨bytes, found, written⟩, has⟩
    obtain ⟨entry, member, same, rfl⟩ := KeyMap.exists_entry_of_lookup found
    obtain ⟨row', read⟩ := readable entry member
    exact ⟨entry, member, same, row', read,
      (Row.hasKey_of_encode_eq (Row.encode_of_decode written read) written).mpr has⟩

theorem mem_insertIndex {field : String} {index : Index} {entry : String × Index}
    {indexes : List (String × Index)} (member : entry ∈ insertIndex field index indexes) :
    entry = (field, index) ∨ entry ∈ indexes := by
  induction indexes with
  | nil => exact .inl (List.mem_singleton.mp member)
  | cons head rest inductionHypothesis =>
    rw [insertIndex] at member
    split at member
    · exact List.mem_cons.mp member
    · rcases List.mem_cons.mp member with rfl | inRest
      · exact .inr List.mem_cons_self
      · exact (inductionHypothesis inRest).imp id (List.mem_cons_of_mem _)

theorem sound_createIndex (sound : table.Sound) {field : String} {options : IndexOptions}
    (ok : table.createIndex field options = (.ok (), changed)) : changed.Sound := by
  obtain ⟨-, filled, filling, rfl⟩ := createIndex_eq_ok ok
  refine ⟨sound.sorted, sound.keyed, fun entry member => ?_⟩
  rcases mem_insertIndex member with rfl | before
  · exact mirrors_of_fillIndex sound filling
  · exact sound.mirrored entry before

/-! ### Writing -/

/-- What a write does: it settles the key, reads the row that it replaces, and writes the row
and its keys once every unique index allows them. -/
theorem put_eq_ok_iff : table.put row mode = (.ok key, changed) ↔
    ∃ full previous bytes, table.assignKey row = .ok (key, full) ∧
      table.replaced? key mode = .ok previous ∧ full.encode = .ok bytes ∧
      table.checkUnique key full table.indexes = .ok () ∧
      changed = { table with
        nextKey := table.advance key
        rows := table.rows.insert key bytes
        indexes := table.indexes.map fun (field, index) =>
          (field, reindex key previous full field index) } := by
  simp only [put, editing_get_bind, editing_lift_bind_eq_ok_iff, editing_modify_bind,
    editing_pure]
  constructor
  · rintro ⟨⟨settled, full⟩, assigned, previous, replacing, bytes, written, _, checked, ok⟩
    cases ok
    exact ⟨full, previous, bytes, assigned, replacing, EngineError.eq_ok_of_ofCodec written,
      checked, rfl⟩
  · rintro ⟨full, previous, bytes, assigned, replacing, written, checked, rfl⟩
    exact ⟨(key, full), assigned, previous, replacing, bytes, by rw [written]; rfl, (), checked,
      rfl⟩

/-- A write that fails has failed at one of its checks, and changes nothing. -/
theorem put_eq_error_iff {failure : EngineError} :
    table.put row mode = (.error failure, changed) ↔ changed = table ∧
      (table.assignKey row = .error failure ∨
        ∃ key full, table.assignKey row = .ok (key, full) ∧
          (table.replaced? key mode = .error failure ∨
            ∃ previous, table.replaced? key mode = .ok previous ∧
              (EngineError.ofCodec full.encode = .error failure ∨
                ∃ bytes, EngineError.ofCodec full.encode = .ok bytes ∧
                  table.checkUnique key full table.indexes = .error failure))) := by
  simp only [put, editing_get_bind, editing_lift_bind_eq_error_iff, editing_modify_bind,
    editing_pure]
  constructor
  · rintro (⟨cause, rfl⟩ | ⟨⟨key, full⟩, assigned, ⟨cause, rfl⟩ | ⟨previous, replacing,
      ⟨cause, rfl⟩ | ⟨bytes, written, ⟨cause, rfl⟩ | ⟨_, -, passed⟩⟩⟩⟩)
    · exact ⟨rfl, .inl cause⟩
    · exact ⟨rfl, .inr ⟨key, full, assigned, .inl cause⟩⟩
    · exact ⟨rfl, .inr ⟨key, full, assigned, .inr ⟨previous, replacing, .inl cause⟩⟩⟩
    · exact ⟨rfl, .inr ⟨key, full, assigned,
        .inr ⟨previous, replacing, .inr ⟨bytes, written, cause⟩⟩⟩⟩
    · cases passed
  · rintro ⟨rfl, cause | ⟨key, full, assigned, cause | ⟨previous, replacing,
      cause | ⟨bytes, written, cause⟩⟩⟩⟩
    · exact .inl ⟨cause, rfl⟩
    · exact .inr ⟨(key, full), assigned, .inl ⟨cause, rfl⟩⟩
    · exact .inr ⟨(key, full), assigned, .inr ⟨previous, replacing, .inl ⟨cause, rfl⟩⟩⟩
    · exact .inr ⟨(key, full), assigned, .inr ⟨previous, replacing,
        .inr ⟨bytes, written, .inl ⟨cause, rfl⟩⟩⟩⟩

/-- The row to be stored has the key that was settled in its key field. -/
theorem assignKey_eq_ok {full : Row} (ok : table.assignKey row = .ok (key, full)) :
    full.get? table.keyField = some key ∧ key.isIndexable := by
  unfold assignKey at ok
  split at ok
  · rename_i given found
    split at ok
    · cases ok
      exact ⟨found, ‹_›⟩
    · cases ok
  · split at ok
    · split at ok
      · cases ok
        exact ⟨lookup_assign_self, rfl⟩
      · cases ok
    · cases ok

theorem replaces_of_replaced? (sound : table.Sound) {previous : Option Row}
    (ok : table.replaced? key mode = .ok previous) :
    Index.Replaces table.rows key previous := by
  unfold replaced? at ok
  cases found : table.rows.get? key with
  | none =>
    rw [found] at ok
    cases ok
    exact found
  | some bytes =>
    rw [found] at ok
    cases mode with
    | insert => cases ok
    | put =>
      obtain ⟨row, read, rfl⟩ := exists_of_map_eq_ok ok
      obtain ⟨entry, member, -, rfl⟩ := KeyMap.exists_entry_of_lookup found
      obtain ⟨stored, _, written, -⟩ := sound.keyed entry member
      exact ⟨entry.2, found,
        Row.encode_of_decode written (EngineError.eq_ok_of_ofCodec read)⟩

theorem conflict?_of_checkUnique {indexes : List (String × Index)}
    (ok : table.checkUnique key row indexes = .ok ()) :
    ∀ entry ∈ indexes, entry.2.conflict? (entry.2.keysFor entry.1 row) key = none := by
  induction indexes with
  | nil => nofun
  | cons head rest inductionHypothesis =>
    intro entry member
    rw [checkUnique] at ok
    split at ok
    · cases ok
    · rename_i free
      rcases List.mem_cons.mp member with rfl | inRest
      · exact free
      · exact inductionHypothesis ok entry inRest

theorem sound_put (sound : table.Sound) (ok : table.put row mode = (.ok key, changed)) :
    changed.Sound := by
  obtain ⟨full, previous, bytes, assigned, replacing, written, checked, rfl⟩ := put_eq_ok_iff.mp ok
  obtain ⟨found, indexable⟩ := assignKey_eq_ok assigned
  refine ⟨KeyMap.insert_sorted sound.sorted, fun entry member => ?_, fun entry member => ?_⟩
  · have here := KeyMap.get?_of_mem (KeyMap.insert_sorted sound.sorted) member
    rw [KeyMap.get?_insert] at here
    split at here
    · rename_i same
      rw [Option.some_inj] at here
      exact ⟨full, key, here ▸ written, found, indexable, BEq.symm same⟩
    · obtain ⟨old, before, same, content⟩ := KeyMap.exists_entry_of_lookup here
      obtain ⟨stored, own, stands, named, isKey, equal⟩ := sound.keyed old before
      exact ⟨stored, own, content ▸ stands, named, isKey, BEq.trans equal (BEq.symm same)⟩
  · obtain ⟨⟨field, index⟩, inside, rfl⟩ := List.mem_map.mp member
    exact Index.mirrors_reindex (sound.mirrored _ inside) (replaces_of_replaced? sound replacing)
      written (conflict?_of_checkUnique checked _ inside)

/-! ### Deleting -/

theorem sound_delete (sound : table.Sound) (ok : table.delete key = (.ok (), changed)) :
    changed.Sound := by
  unfold delete at ok
  split at ok
  · cases ok
    exact sound
  · rename_i bytes found
    obtain ⟨entry, member, -, rfl⟩ := KeyMap.exists_entry_of_lookup found
    obtain ⟨stored, _, written, -⟩ := sound.keyed entry member
    split at ok
    · cases ok
    · rename_i previous read
      cases ok
      refine ⟨KeyMap.erase_sorted sound.sorted,
        fun other inside => sound.keyed other (List.mem_filter.mp inside).1, fun other inside => ?_⟩
      obtain ⟨⟨field, index⟩, before, rfl⟩ := List.mem_map.mp inside
      exact Index.mirrors_dropOwners (sound.mirrored _ before)
        ⟨entry.2, found, Row.encode_of_decode written read⟩

/-! ### Every sequence of calls -/

/-- The tables that calls lead to from a table without rows and indexes. Calls may fail, except
for a deletion, of which only success is admitted. -/
inductive Reached : Table → Prop where
  | empty {table : Table} (rows : table.rows.entries = []) (indexes : table.indexes = []) :
    Reached table
  | createIndex {table changed : Table} {field : String} {options : IndexOptions}
    {result : Except EngineError Unit} (before : Reached table)
    (called : table.createIndex field options = (result, changed)) : Reached changed
  | put {table changed : Table} {row : Row} {mode : WriteMode} {result : Except EngineError Value}
    (before : Reached table) (called : table.put row mode = (result, changed)) : Reached changed
  | delete {table changed : Table} {key : Value} (before : Reached table)
    (ok : table.delete key = (.ok (), changed)) : Reached changed

theorem Reached.sound (reached : Reached table) : table.Sound := by
  induction reached with
  | @empty table rows indexes =>
    refine ⟨?_, fun entry member => ?_, fun entry member => ?_⟩
    · rw [KeyMap.Sorted, rows]
      exact .nil
    · rw [rows] at member
      cases member
    · rw [indexes] at member
      cases member
  | @createIndex _ _ _ _ result before called inductionHypothesis =>
    cases result with
    | ok _ => exact sound_createIndex inductionHypothesis called
    | error failure => exact createIndex_eq_error called ▸ inductionHypothesis
  | @put _ _ _ _ result before called inductionHypothesis =>
    cases result with
    | ok key => exact sound_put inductionHypothesis called
    | error failure => exact (put_eq_error_iff.mp called).1 ▸ inductionHypothesis
  | delete before ok inductionHypothesis => exact sound_delete inductionHypothesis ok

/-- A row is stored under the keys of one entry. -/
theorem exists_stores_iff (sound : table.Sound) {owner : Value} {property : Row → Prop} :
    (∃ row, table.rows.Stores owner row ∧ property row) ↔
      ∃ entry ∈ table.rows.entries, owner == entry.1 ∧
        ∃ row : Row, row.encode = .ok entry.2 ∧ property row := by
  constructor
  · rintro ⟨row, ⟨bytes, found, written⟩, holds⟩
    obtain ⟨entry, member, same, rfl⟩ := KeyMap.exists_entry_of_lookup found
    exact ⟨entry, member, same, row, written, holds⟩
  · rintro ⟨entry, member, same, row, written, holds⟩
    refine ⟨row, ⟨entry.2, ?_, written⟩, holds⟩
    rw [KeyMap.get?_congr same, KeyMap.get?_of_mem sound.sorted member]

/-- In every table that calls lead to, the bytes under a key are those of a row with that key;
the owners of an index key are exactly the primary keys of the rows that have it, and there are
some; a unique index has one owner for each key. So an index depends on the rows only, and not on
the calls before: one that was created late has the owners of one that was there from the start. -/
theorem indexes_mirror_rows (reached : Reached table) :
    (∀ entry ∈ table.rows.entries, ∃ (row : Row) (key : Value), row.encode = .ok entry.2 ∧
      row.get? table.keyField = some key ∧ key.compareKey entry.1 = .eq) ∧
    (∀ field index, (field, index) ∈ table.indexes →
      (∀ key owner, (index.ownersOf key).contains owner ↔
        ∃ entry ∈ table.rows.entries, owner == entry.1 ∧
          ∃ row : Row, row.encode = .ok entry.2 ∧ ∃ own ∈ index.keysFor field row, key == own) ∧
      (∀ entry ∈ index.owners.entries, entry.2.entries ≠ []) ∧
      (index.options.unique → ∀ entry ∈ index.owners.entries, entry.2.entries.length = 1)) ∧
    ∀ other, Reached other → other.rows = table.rows →
      ∀ field index index', (field, index) ∈ table.indexes → (field, index') ∈ other.indexes →
        index.options.multiEntry = index'.options.multiEntry →
        ∀ key owner,
          (index.ownersOf key).contains owner ↔ (index'.ownersOf key).contains owner := by
  have sound := reached.sound
  refine ⟨fun entry member => ?_, fun field index member => ?_, ?_⟩
  · obtain ⟨row, key, written, found, -, same⟩ := sound.keyed entry member
    exact ⟨row, key, written, found, Value.beq_iff.mp same⟩
  · have mirrors := sound.mirrored _ member
    refine ⟨fun key owner => ?_, mirrors.wellFormed.owned, fun unique entry inside => ?_⟩
    · simp only [Index.exists_mem_keysFor]
      exact (mirrors.owns key owner).trans (exists_stores_iff sound)
    · exact Index.length_eq_one_of_singleOwners mirrors.wellFormed (mirrors.single unique) inside
  · intro other reachedOther rows field index index' member member' multiEntry key owner
    have owns := (sound.mirrored _ member).owns key owner
    have owns' := (reachedOther.sound.mirrored _ member').owns key owner
    rw [rows] at owns'
    rw [multiEntry] at owns
    exact owns.trans owns'.symm

/-- A row that is written after a unique index was created is found under its index key. -/
theorem indexes_mirror_rows_after_put :
    ∃ table index, Reached table ∧ ("size", index) ∈ table.indexes ∧
      (index.ownersOf (.float ⟨0x4014000000000000⟩)).contains (.integer 1) := by
  have created : Reached { name := "things", keyField := "id", autoIncrement := false } :=
    .empty rfl rfl
  have indexed := @Reached.createIndex _ _ "size" { unique := true } _ created rfl
  have written := @Reached.put _ _ { fields := [("id", .integer 1), ("size", .integer 5)] } .insert
    _ indexed rfl
  refine ⟨_, _, written, List.mem_cons_self, ?_⟩
  refine (((indexes_mirror_rows written).2.1 _ _ List.mem_cons_self).1 _ _).mpr ?_
  refine ⟨_, List.mem_cons_self, ?_, { fields := [("id", .integer 1), ("size", .integer 5)] }, rfl,
    .integer 5, List.mem_singleton.mpr rfl, ?_⟩
  · decide
  · decide +kernel

end Table

end IndexedStore
