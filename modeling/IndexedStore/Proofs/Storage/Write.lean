/-
This file says what a write does to a table. A write that fails changes nothing. One that succeeds
stores the row under its key and makes this key an owner of the row's index keys; it leaves the
other rows, and the other owners in every index.

So a row with a key can be written again without a difference. The second write takes out of each
index what the first has put there, by the row that it reads back from the store, and puts it there
again.
-/

import IndexedStore.Proofs.Storage.GeneratedKeys
import IndexedStore.Proofs.Storage.Registry
import Mathlib.Data.List.Forall2

namespace IndexedStore

/-- Setting a field to the value that it has changes nothing. -/
@[simp]
theorem Row.set_of_get? {row : Row} {name : String} {value : Value}
    (found : row.get? name = some value) : row.set name value = row := by
  obtain ⟨fields, distinct⟩ := row
  have same : assign name value fields = fields := assign_of_lookup found
  unfold Row.set
  simp only [same]

namespace Index

variable {index changed : Index} {field : String} {rows : KeyMap (List UInt8)} {key : Value}
  {row previous : Row} {replaced : Option Row} {bytes : List UInt8}

/-- What a write of a row does to an index. -/
structure Takes (index : Index) (field : String) (key : Value) (row : Row) (changed : Index) :
    Prop where
  /-- The options stay. -/
  options : changed.options = index.options
  /-- The primary key owns the keys of the row, and no others. -/
  owned : ∀ own, (changed.ownersOf own).contains key ↔ ∃ own' ∈ index.keysFor field row, own == own'
  /-- The other owners of every key stay. -/
  others : ∀ own, (changed.ownersOf own).erase key = (index.ownersOf own).erase key

theorem keysFor_congr (same : changed.options = index.options) :
    changed.keysFor field row = index.keysFor field row := by
  rw [keysFor, keysFor, same]

theorem takes_reindex (mirrors : index.Mirrors field rows)
    (replaces : Replaces rows key replaced) :
    index.Takes field key row (Table.reindex key replaced row field index) := by
  obtain ⟨cleared, -, options, owns, result⟩ := exists_cleared mirrors replaces row
  refine ⟨?_, fun own => ?_, fun own => ?_⟩
  · simp [result, options]
  · rw [result]
    refine owns_addOwners.trans ⟨fun either => ?_, fun given => .inl ⟨given, BEq.rfl⟩⟩
    exact either.elim And.left fun before => absurd BEq.rfl ((owns _ _).mp before).1
  · cases replaced with
    | some previous => exact erase_ownersOf_addOwners.trans erase_ownersOf_dropOwners
    | none => exact erase_ownersOf_addOwners

/-- Writing a row again takes its keys out of an index and puts them there again. -/
theorem reindex_reindex (mirrors : index.Mirrors field rows) (replaces : Replaces rows key replaced)
    (written : row.encode = .ok bytes) (written' : previous.encode = .ok bytes) :
    Table.reindex key (some previous) row field (Table.reindex key replaced row field index) =
      Table.reindex key replaced row field index := by
  obtain ⟨cleared, wellFormed, options, owns, result⟩ := exists_cleared mirrors replaces row
  have kept : (Table.reindex key replaced row field index).options = index.options :=
    (takes_reindex mirrors replaces).options
  have back : (Table.reindex key replaced row field index).dropOwners key
      ((Table.reindex key replaced row field index).keysFor field previous) = cleared := by
    rw [keysFor_congr kept, result]
    refine dropOwners_addOwners wellFormed (fun own owned => ((owns _ _).mp owned).1 BEq.rfl)
      fun own has => ?_
    rw [exists_mem_keysFor] at has ⊢
    exact (Row.hasKey_of_encode_eq written written').mp has
  show ((Table.reindex key replaced row field index).dropOwners key _).addOwners key _ = _
  rw [back, keysFor_congr kept, ← result]

end Index

namespace Table

variable {table changed : Table} {row full : Row} {key : Value} {mode : WriteMode}
  {bytes : List UInt8}

/-- What a write of a row does to a table. -/
structure Takes (table : Table) (row : Row) (mode : WriteMode) (key : Value) (changed : Table) :
    Prop where
  /-- The key is the one of the row, or else the next generated one. -/
  keyed : row.get? table.keyField = some key ∨
    row.get? table.keyField = none ∧ table.autoIncrement ∧ table.nextKey.map .integer = some key
  /-- The bytes under the key are those of the row, with the key in its key field. -/
  stored : ∃ bytes, (row.set table.keyField key).encode = .ok bytes ∧
    changed.rows.get? key = some bytes
  /-- The other rows stay. -/
  others : changed.rows.erase key = table.rows.erase key
  /-- What is inserted was not there. -/
  inserted : mode = .insert → ¬table.rows.contains key
  /-- Every index takes the row. -/
  indexed : List.Forall₂
    (fun entry entry' => entry'.1 = entry.1 ∧
      entry.2.Takes entry.1 key (row.set table.keyField key) entry'.2)
    table.indexes changed.indexes
  /-- Generated keys go on after the key. -/
  counted : changed.nextKey = table.advance key
  /-- The rest of the table stays. -/
  settings : changed.name = table.name ∧ changed.keyField = table.keyField ∧
    changed.autoIncrement = table.autoIncrement

/-- The row to be stored has the settled key in its key field, which is its own or generated. -/
theorem full_of_assignKey (ok : table.assignKey row = .ok (key, full)) :
    full = row.set table.keyField key ∧ (row.get? table.keyField = some key ∨
      row.get? table.keyField = none ∧ table.autoIncrement ∧
        table.nextKey.map .integer = some key) := by
  unfold assignKey at ok
  split at ok
  · rename_i given
    split at ok <;> cases ok
    exact ⟨(Row.set_of_get? given).symm, .inl given⟩
  · rename_i lacks
    split at ok
    · rename_i auto
      split at ok <;> cases ok
      rename_i next counted
      exact ⟨rfl, .inr ⟨lacks, auto, by rw [counted]; rfl⟩⟩
    · cases ok

/-- A row with a key is to be stored as it is, if the key can be one. -/
theorem assignKey_eq_ok_iff {key' : Value} (given : row.get? table.keyField = some key) :
    table.assignKey row = .ok (key', full) ↔ key.isIndexable ∧ key' = key ∧ row = full := by
  cases indexable : key.isIndexable <;> simp [assignKey, given, indexable, eq_comm]

/-- A row is stored under its key, with the key in its key field. -/
theorem stores_of_put (ok : table.put row mode = (.ok key, changed)) :
    changed.rows.Stores key (row.set changed.keyField key) := by
  obtain ⟨full, previous, bytes, assigned, -, written, -, rfl⟩ := put_eq_ok_iff.mp ok
  exact ⟨bytes, by simp, by rw [← written, (full_of_assignKey assigned).1]⟩

/-- A row with a key is written under it. -/
theorem get?_of_put (ok : table.put row mode = (.ok key, changed))
    (given : (row.get? table.keyField).isSome) : row.get? table.keyField = some key := by
  obtain ⟨full, _, _, assigned, -⟩ := put_eq_ok_iff.mp ok
  obtain ⟨own, given⟩ := Option.isSome_iff_exists.mp given
  rw [given, ((assignKey_eq_ok_iff given).mp assigned).2.1]

/-- An insertion replaces nothing. -/
theorem replaced?_insert_eq_ok_iff {previous : Option Row} :
    table.replaced? key .insert = .ok previous ↔ ¬table.rows.contains key ∧ previous = none := by
  cases found : table.rows.get? key <;> simp [replaced?, KeyMap.contains, found, eq_comm]

theorem takes_put (sound : table.Sound) (ok : table.put row mode = (.ok key, changed)) :
    table.Takes row mode key changed := by
  obtain ⟨bytes, found, written⟩ := stores_of_put ok
  obtain ⟨full, previous, _, assigned, replacing, -, -, rfl⟩ := put_eq_ok_iff.mp ok
  obtain ⟨rfl, keyed⟩ := full_of_assignKey assigned
  refine ⟨keyed, ⟨bytes, written, found⟩, KeyMap.erase_insert, ?_, ?_, rfl,
    rfl, rfl, rfl⟩
  · rintro rfl
    exact (replaced?_insert_eq_ok_iff.mp replacing).1
  · refine List.forall₂_map_right_iff.mpr (List.forall₂_same.mpr fun entry member => ⟨rfl, ?_⟩)
    exact Index.takes_reindex (sound.mirrored entry member) (replaces_of_replaced? sound replacing)

/-! ### Writing a row again -/

theorem checkUnique_eq_ok {indexes : List (String × Index)}
    (free : ∀ entry ∈ indexes, entry.2.conflict? (entry.2.keysFor entry.1 row) key = none) :
    table.checkUnique key row indexes = .ok () := by
  induction indexes with
  | nil => rfl
  | cons head rest inductionHypothesis =>
    rw [checkUnique, free head List.mem_cons_self]
    exact inductionHypothesis fun entry inRest => free entry (List.mem_cons_of_mem _ inRest)

/-- A stored row is in the way of no unique index. -/
theorem checkUnique_of_stores (sound : table.Sound) (stored : table.rows.Stores key row) :
    table.checkUnique key row table.indexes = .ok () := by
  refine checkUnique_eq_ok fun entry member => Index.conflict?_eq_none_iff.mpr ?_
  have mirrors := sound.mirrored entry member
  intro unique own isOwn other owns
  refine mirrors.single unique own other key owns ((mirrors.owns own key).mpr ⟨row, stored, ?_⟩)
  exact Index.exists_mem_keysFor.mp ⟨own, isOwn, BEq.rfl⟩

/-- Generated keys do not move on for a key that they are ahead of. -/
theorem advance_of_ahead (counted : changed.nextKey = table.advance key)
    (auto : changed.autoIncrement = table.autoIncrement) :
    changed.advance key = changed.nextKey := by
  unfold advance
  split
  · rename_i n next after
    split
    · rename_i reached
      obtain ⟨ahead, -⟩ := le_of_advance (auto ▸ reached.1) (counted.symm.trans after)
      exact absurd reached.2 (Int64.not_le.mpr (ahead n rfl))
    · exact after.symm
  · rfl

/-- Writing a row with a key again reads the row that is there, and if that succeeds, changes
nothing. -/
theorem put_put (sound : table.Sound) (ok : table.put row .put = (.ok key, changed))
    (given : (row.get? table.keyField).isSome) : ∃ bytes, row.encode = .ok bytes ∧
      changed.put row .put =
        ((EngineError.ofCodec (Row.decode bytes)).map fun _ => key, changed) := by
  obtain ⟨full, replaced, bytes, assigned, replacing, written, -, change⟩ := put_eq_ok_iff.mp ok
  obtain ⟨own, given⟩ := Option.isSome_iff_exists.mp given
  obtain ⟨indexable, rfl, rfl⟩ := (assignKey_eq_ok_iff given).mp assigned
  have found : changed.rows.get? key = some bytes := by simp [change]
  have assigned' : changed.assignKey row = .ok (key, row) :=
    (assignKey_eq_ok_iff (by rw [change]; exact given)).mpr ⟨indexable, rfl, rfl⟩
  have free := checkUnique_of_stores (sound_put sound ok) ⟨bytes, found, written⟩
  refine ⟨bytes, written, ?_⟩
  have replaced' : changed.replaced? key .put =
      (EngineError.ofCodec (Row.decode bytes)).map some := by simp [replaced?, found]
  cases read : Row.decode bytes with
  | error cause =>
    rw [read] at replaced'
    exact put_eq_error_iff.mpr ⟨rfl, .inr ⟨key, row, assigned', .inl replaced'⟩⟩
  | ok previous =>
    rw [read] at replaced'
    have kept := fun entry member => Index.reindex_reindex (sound.mirrored entry member)
      (replaces_of_replaced? sound replacing) written (Row.encode_of_decode written read)
    refine put_eq_ok_iff.mpr ⟨row, some previous, bytes, assigned', replaced', written, free, ?_⟩
    rw [@advance_of_ahead table changed key (by rw [change]) (by rw [change]), change]
    simp only [KeyMap.insert_insert, List.map_map]
    congr 1
    exact (List.map_congr_left fun entry member =>
      congrArg (entry.1, ·) (kept entry member)).symm

end Table

/-! ### Writes of a transaction -/

namespace Transaction

variable {transaction : Transaction} {name : String} {table : Table}

@[simp]
theorem write_eq (transaction : Transaction) (writes : transaction.mode = .readWrite)
    (found : transaction.data.table? name = .ok table) (row : Row) (mode : WriteMode) :
    transaction.write name row mode = ((table.put row mode).1, { transaction with
      data := transaction.data.setTable name (table.put row mode).2, isDirty := true }) := by
  simp [write, writes, found]

/-- Writes are all or nothing, and once is enough. In every table that calls lead to, a write that
fails leaves rows, indexes and generated keys as they are. One that succeeds stores the row under
its key, which is the row's own or a generated one, and in insert mode a new one; in every index it
makes the key own exactly the keys of the row; and it leaves all other rows and owners. To write a
row with a key a second time makes no difference to the data, and unless the row cannot be read
from the store, it succeeds as the first time. -/
theorem write_is_exact (reached : table.Reached) (writes : transaction.mode = .readWrite)
    (found : transaction.data.table? name = .ok table) (row : Row) :
    (∀ mode failure after, transaction.write name row mode = (.error failure, after) →
      after.data = transaction.data) ∧
    (∀ mode key after, transaction.write name row mode = (.ok key, after) →
      ∃ changed, after.data = transaction.data.setTable name changed ∧
        table.Takes row mode key changed) ∧
    ((row.get? table.keyField).isSome →
      ∀ result once, transaction.write name row .put = (result, once) →
        (once.write name row .put).2.data = once.data ∧
        (row.Readable → (once.write name row .put).1 = result)) := by
  refine ⟨fun mode failure after failed => ?_, fun mode key after ok => ?_,
    fun given result once wrote => ?_⟩
  · rw [write_eq _ writes found] at failed
    rcases put : table.put row mode with ⟨outcome, changed⟩
    rw [put] at failed
    cases failed
    rw [(Table.put_eq_error_iff.mp put).1]
    exact StoreData.setTable_of_table? found
  · rw [write_eq _ writes found] at ok
    rcases put : table.put row mode with ⟨outcome, changed⟩
    rw [put] at ok
    cases ok
    exact ⟨changed, rfl, Table.takes_put reached.sound put⟩
  · rw [write_eq _ writes found] at wrote
    rcases put : table.put row .put with ⟨failure | key, changed⟩
    · rw [put, (Table.put_eq_error_iff.mp put).1, StoreData.setTable_of_table? found] at wrote
      cases wrote
      -- The data is as before, so that the second write fails like the first.
      rw [write_eq { transaction with isDirty := true } writes found, put,
        (Table.put_eq_error_iff.mp put).1]
      exact ⟨StoreData.setTable_of_table? found, fun _ => rfl⟩
    · rw [put] at wrote
      cases wrote
      obtain ⟨bytes, written, again⟩ := Table.put_put reached.sound put given
      rw [write_eq { transaction with
        data := transaction.data.setTable name changed, isDirty := true } writes
        StoreData.table?_setTable, again]
      refine ⟨StoreData.setTable_of_table? StoreData.table?_setTable, fun readable => ?_⟩
      obtain ⟨_, read⟩ := (Row.readable_iff written).mp readable
      simp [read]

/-- A row whose key is the float one replaces the row with the integer one, and writing it again
changes nothing. -/
theorem replaced_row_is_written_again : ∃ (transaction once : Transaction) (table : Table)
    (row : Row), transaction.data.table? "things" = .ok table ∧
      table.rows.contains (.integer 1) ∧
      transaction.write "things" row .put = (.ok (.float ⟨0x3ff0000000000000⟩), once) ∧
      (once.write "things" row .put).1 = .ok (.float ⟨0x3ff0000000000000⟩) ∧
      (once.write "things" row .put).2.data = once.data := by
  have created : Table.Reached { name := "things", keyField := "id", autoIncrement := false } :=
    .empty rfl rfl
  have indexed := @Table.Reached.createIndex _ _ "size" { unique := true } _ created rfl
  obtain ⟨table, row, reached, given, held, readable, accepted⟩ : ∃ (table : Table) (row : Row),
      table.Reached ∧ row.get? table.keyField = some (.float ⟨0x3ff0000000000000⟩) ∧
      table.rows.contains (.integer 1) ∧ row.Readable ∧ (table.put row .put).1.toBool :=
    ⟨_, { fields := [("id", .float ⟨0x3ff0000000000000⟩), ("size", .integer 5)] },
      @Table.Reached.put _ _ { fields := [("id", .integer 1), ("size", .integer 5)] } .insert _
        indexed rfl, rfl, by decide,
      by simp +decide [Row.Readable, Row.toValue, Value.Fits, Value.FieldsFit], by decide +kernel⟩
  rcases put : table.put row .put with ⟨failure | key, changed⟩
  · rw [put] at accepted
    cases accepted
  · let transaction : Transaction :=
      { mode := .readWrite, store := 0, handle := 0, data := ⟨[("things", table)]⟩ }
    have found : transaction.data.table? "things" = .ok table := rfl
    have wrote := write_eq transaction rfl found row .put
    rw [put] at wrote
    obtain ⟨-, succeeded, again⟩ := write_is_exact reached rfl found row
    obtain ⟨_, -, takes⟩ := succeeded .put _ _ wrote
    obtain rfl : key = .float ⟨0x3ff0000000000000⟩ := by
      rcases takes.keyed with same | ⟨lacks, -⟩
      · exact Option.some_inj.mp (same.symm.trans given)
      · cases given.symm.trans lacks
    obtain ⟨kept, succeeds⟩ := again (by rw [given]; rfl) _ _ wrote
    exact ⟨transaction, _, table, row, found, held, wrote, succeeds readable, kept⟩

end Transaction

end IndexedStore
