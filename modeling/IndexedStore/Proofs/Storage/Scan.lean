/-
This file proves what scans of a table find. A scan that succeeds finds the rows that
have a key in the range, and no others. It finds a row once for each of its keys in the
range, and so at most once unless arrays have a key for each item.

A scan reads the rows it finds and no others, so that it may succeed although the table
holds rows that cannot be read. The rows of a table are therefore not those that can be
read from it, but those whose bytes it keeps.
-/

import IndexedStore.Proofs.Storage.KeyRange
import IndexedStore.Proofs.Storage.Table
import Mathlib.Data.List.Forall2

namespace IndexedStore

/-! ### The rows of a table -/

/-- A table holds rows: the bytes that it keeps are theirs, in the order of their keys. -/
def Table.Holds (table : Table) (stored : List Row) : Prop :=
  stored.map Row.encode = table.rows.contents.map .ok

/-- A batch of rows has exactly those of the stored rows that have a property. -/
structure Collects (stored : List Row) (property : Row → Prop) (batch : List Row) : Prop where
  /-- Every row of the batch has canonical bytes. -/
  writable : ∀ found ∈ batch, found.Writable
  /-- Every row of the batch is stored. -/
  within : ∀ found ∈ batch, found.bytes ∈ stored.map Row.bytes
  /-- A stored row is in the batch exactly if it has the property. -/
  exact : ∀ row ∈ stored, row.bytes ∈ batch.map Row.bytes ↔ property row

namespace Collects

variable {stored batch : List Row} {property other : Row → Prop} {row : Row}

theorem congr (collects : Collects stored property batch)
    (same : ∀ row ∈ stored, property row ↔ other row) : Collects stored other batch :=
  ⟨collects.writable, collects.within,
    fun row member => (collects.exact row member).trans (same row member)⟩

/-- A stored row equals a row of the batch exactly if it has the property. -/
theorem exists_beq_iff (collects : Collects stored property batch)
    (writable : ∀ row ∈ stored, row.Writable) (member : row ∈ stored) :
    (∃ found ∈ batch, found == row) ↔ property row := by
  rw [← Row.mem_map_bytes_iff (writable row member) collects.writable, collects.exact row member]

theorem exists_stored (collects : Collects stored property batch)
    (writable : ∀ row ∈ stored, row.Writable) {found : Row} (member : found ∈ batch) :
    ∃ row ∈ stored, found == row := by
  obtain ⟨row, inside, same⟩ := List.mem_map.mp (collects.within found member)
  have equal := Row.bytes_eq_iff (collects.writable found member) (writable row inside)
  exact ⟨row, inside, equal.mp same.symm⟩

/-- A batch without repetitions has the bytes of the stored rows with the property. -/
theorem perm_filter {accepts : Row → Bool}
    (collects : Collects stored (fun row => accepts row) batch)
    (distinct : (stored.map Row.bytes).Nodup) (once : (batch.map Row.bytes).Nodup) :
    (batch.map Row.bytes).Perm ((stored.filter accepts).map Row.bytes) := by
  have kept := distinct.sublist ((List.filter_sublist (p := accepts)).map Row.bytes)
  refine (List.perm_ext_iff_of_nodup once kept).mpr fun bytes => ?_
  constructor
  · intro inBatch
    obtain ⟨found, member, rfl⟩ := List.mem_map.mp inBatch
    obtain ⟨row, inside, same⟩ := List.mem_map.mp (collects.within found member)
    have accepted := (collects.exact row inside).mp (same ▸ inBatch)
    exact same ▸ List.mem_map_of_mem (List.mem_filter.mpr ⟨inside, accepted⟩)
  · intro isKept
    obtain ⟨row, member, rfl⟩ := List.mem_map.mp isKept
    obtain ⟨inside, accepted⟩ := List.mem_filter.mp member
    exact (collects.exact row inside).mpr accepted

/-- Rows with distinct bytes are distinct. -/
theorem pairwise_of_nodup (writable : ∀ row ∈ batch, row.Writable)
    (once : (batch.map Row.bytes).Nodup) :
    batch.Pairwise fun first second => ¬(first == second) :=
  (List.pairwise_map.mp once).imp_of_mem fun member member' different same =>
    different ((Row.bytes_eq_iff (writable _ member) (writable _ member')).mpr same)

end Collects

namespace Table

variable {table : Table} {stored rows : List Row} {row : Row} {entry : Value × List UInt8}
  {field : String} {multiEntry : Bool} {range : KeyRange} {index : Index} {property : Row → Prop}

theorem holds_iff : table.Holds stored ↔
    (∀ row ∈ stored, row.Writable) ∧ stored.map Row.bytes = table.rows.contents := by
  rw [Holds]
  generalize table.rows.contents = contents
  induction stored generalizing contents with
  | nil => cases contents <;> simp
  | cons row rest inductionHypothesis =>
    cases contents with
    | nil => simp
    | cons bytes contents =>
      simp only [List.map_cons, List.cons.injEq, List.forall_mem_cons, inductionHypothesis,
        Row.encode_eq_ok_iff]
      exact and_and_and_comm

theorem exists_holds (sound : table.Sound) : ∃ stored, table.Holds stored := by
  have written : ∀ bytes ∈ table.rows.contents, ∃ row : Row, row.encode = .ok bytes := by
    intro bytes member
    obtain ⟨entry, inside, rfl⟩ := List.mem_map.mp member
    obtain ⟨row, _, written, -⟩ := sound.keyed entry inside
    exact ⟨row, written⟩
  simp only [Holds]
  generalize table.rows.contents = contents at written
  induction contents with
  | nil => exact ⟨[], rfl⟩
  | cons bytes rest inductionHypothesis =>
    rw [List.forall_mem_cons] at written
    obtain ⟨row, ofRow⟩ := written.1
    obtain ⟨others, ofOthers⟩ := inductionHypothesis written.2
    exact ⟨row :: others, by rw [List.map_cons, List.map_cons, ofRow, ofOthers]⟩

theorem Sound.hasKey_keyField (sound : table.Sound) (member : entry ∈ table.rows.entries)
    (written : row.encode = .ok entry.2) {key : Value} :
    row.HasKey table.keyField false key ↔ key == entry.1 := by
  obtain ⟨other, own, written', found, indexable, same⟩ := sound.keyed entry member
  rw [Row.hasKey_of_encode_eq written written', Row.HasKey, Row.indexKeys, found, Option.map_some,
    Option.getD_some, Value.indexKeys_single, if_pos indexable, ← BEq.congr_right same]
  simp only [List.mem_singleton, exists_eq_left]

theorem Sound.hasKeyIn_keyField (sound : table.Sound) (member : entry ∈ table.rows.entries)
    (written : row.encode = .ok entry.2) :
    row.HasKeyIn table.keyField false range ↔ range.contains entry.1 := by
  rw [Row.hasKeyIn_iff]
  simp only [sound.hasKey_keyField member written]
  exact ⟨fun ⟨_, inside, same⟩ => KeyRange.contains_congr same ▸ inside,
    fun inside => ⟨entry.1, inside, BEq.rfl⟩⟩

/-- Entries with the same bytes have the same key, since the key is in the bytes. -/
theorem Sound.key_beq_of_bytes_eq (sound : table.Sound) {other : Value × List UInt8}
    (member : entry ∈ table.rows.entries) (member' : other ∈ table.rows.entries)
    (same : entry.2 = other.2) : entry.1 == other.1 := by
  obtain ⟨row, _, written, -⟩ := sound.keyed entry member
  exact (sound.hasKey_keyField member' (same ▸ written)).mp
    ((sound.hasKey_keyField member written).mpr BEq.rfl)

/-- No two rows of a table have the same bytes. -/
theorem Sound.contents_nodup (sound : table.Sound) : table.rows.contents.Nodup := by
  refine List.pairwise_map.mpr (sound.sorted.imp_of_mem fun member member' before same => ?_)
  have := sound.key_beq_of_bytes_eq member member' same
  rw [KeyMap.beq_eq_false_of_lt before] at this
  cases this

theorem exists_entry_of_mem (holds : table.Holds stored) (member : row ∈ stored) :
    row.Writable ∧ ∃ entry ∈ table.rows.entries, entry.2 = row.bytes := by
  obtain ⟨writable, contents⟩ := holds_iff.mp holds
  refine ⟨writable row member, List.mem_map.mp ?_⟩
  show row.bytes ∈ table.rows.contents
  rw [← contents]
  exact List.mem_map_of_mem member

/-! ### Reading rows -/

/-- Reading bytes gives the rows that they are read as, one by one. -/
theorem readRows_eq_ok_iff {found : List (List UInt8)} : readRows found = .ok rows ↔
    List.Forall₂ (fun bytes row => Row.decode bytes = .ok row) found rows := by
  rw [readRows]
  induction found generalizing rows with
  | nil =>
    rw [List.mapM_nil, List.forall₂_nil_left_iff]
    exact ⟨fun ok => (Except.ok.inj ok).symm, fun empty => empty ▸ rfl⟩
  | cons bytes rest inductionHypothesis =>
    rw [List.mapM_cons, List.forall₂_cons_left_iff]
    constructor
    · intro ok
      obtain ⟨row, read, ok⟩ := exists_of_bind_eq_ok ok
      obtain ⟨others, remaining, ok⟩ := exists_of_bind_eq_ok ok
      cases ok
      exact ⟨row, others, EngineError.eq_ok_of_ofCodec read, inductionHypothesis.mp remaining, rfl⟩
    · rintro ⟨row, others, read, remaining, rfl⟩
      rw [read, inductionHypothesis.mpr remaining]
      rfl

/-- Reading bytes of rows gives rows with these bytes. -/
theorem readRows_eq_ok {found : List (List UInt8)} (ok : readRows found = .ok rows)
    (written : ∀ bytes ∈ found, ∃ row : Row, row.encode = .ok bytes) :
    (∀ row ∈ rows, row.Writable) ∧ rows.map Row.bytes = found := by
  rw [readRows_eq_ok_iff] at ok
  induction ok with
  | nil => exact ⟨nofun, rfl⟩
  | cons read _ inductionHypothesis =>
    rw [List.forall_mem_cons] at written
    obtain ⟨row, ofRow⟩ := written.1
    obtain ⟨writable, same⟩ := inductionHypothesis written.2
    obtain ⟨writableHead, sameHead⟩ :=
      Row.encode_eq_ok_iff.mp (Row.encode_of_decode ofRow read)
    exact ⟨List.forall_mem_cons.mpr ⟨writableHead, writable⟩,
      by rw [List.map_cons, sameHead, same]⟩

/-- Reading bytes fails with the first of them that cannot be read. -/
theorem exists_of_readRows_eq_error {found : List (List UInt8)} {cause : CodecError}
    (failed : readRows found = .error (.codec cause)) :
    ∃ bytes ∈ found, Row.decode bytes = .error cause := by
  unfold readRows at failed
  induction found with
  | nil => cases failed
  | cons bytes rest inductionHypothesis =>
    rw [List.mapM_cons] at failed
    rcases eq_error_of_bind failed with reading | ⟨head, -, failed⟩
    · exact ⟨bytes, List.mem_cons_self, EngineError.eq_error_of_ofCodec reading⟩
    · rcases eq_error_of_bind failed with remaining | ⟨others, -, failed⟩
      · obtain ⟨bytes, member, stopped⟩ := inductionHypothesis remaining
        exact ⟨bytes, List.mem_cons_of_mem _ member, stopped⟩
      · cases failed

/-- Reading a part of the contents of a table collects the rows with these bytes. -/
theorem collects_readRows (sound : table.Sound) (holds : table.Holds stored)
    {found : List (List UInt8)} (ok : readRows found = .ok rows)
    (within : ∀ bytes ∈ found, bytes ∈ table.rows.contents) :
    Collects stored (fun row => row.bytes ∈ found) rows ∧ rows.map Row.bytes = found := by
  obtain ⟨writable, same⟩ := readRows_eq_ok ok fun bytes member => by
    obtain ⟨entry, inside, rfl⟩ := List.mem_map.mp (within bytes member)
    obtain ⟨row, _, written, -⟩ := sound.keyed entry inside
    exact ⟨row, written⟩
  refine ⟨⟨writable, fun row member => ?_, fun row _ => by rw [same]⟩, same⟩
  rw [(holds_iff.mp holds).2]
  exact within row.bytes (same ▸ List.mem_map_of_mem member)

/-! ### Scans by primary key -/

theorem scanPrimary_none : table.scanPrimary none = readRows table.rows.contents := rfl

/-- A scan by primary key reads what is in its range. -/
theorem scanPrimary_some :
    table.scanPrimary (some range) = readRows (table.rows.contentsIn range) := by
  refine Option.get_of_eq_some _ ?_
  rw [scanPrimary?, KeyRange.contentsIn?_eq, Option.map_some]

theorem scanPrimary_all_eq_ok (sound : table.Sound) (holds : table.Holds stored)
    (ok : table.scanPrimary none = .ok rows) :
    Collects stored (fun _ => True) rows ∧ (rows.map Row.bytes).Nodup := by
  obtain ⟨collects, same⟩ := collects_readRows sound holds ok fun _ => id
  refine ⟨collects.congr fun row member => iff_true_intro ?_, same ▸ sound.contents_nodup⟩
  obtain ⟨-, entry, inside, ofRow⟩ := exists_entry_of_mem holds member
  exact List.mem_map.mpr ⟨entry, inside, ofRow⟩

/-- A scan by primary key finds each row whose key is in the range once. -/
theorem scanPrimary_eq_ok (sound : table.Sound) (holds : table.Holds stored)
    (ok : table.scanPrimary (some range) = .ok rows) :
    Collects stored (fun row => row.HasKeyIn table.keyField false range) rows ∧
      (rows.map Row.bytes).Nodup := by
  rw [scanPrimary_some, KeyMap.contentsIn] at ok
  have part : ((table.rows.entries.filter fun entry => range.contains entry.1).map Prod.snd).Sublist
      table.rows.contents := List.filter_sublist.map Prod.snd
  obtain ⟨collects, same⟩ := collects_readRows sound holds ok fun _ member => part.subset member
  refine ⟨collects.congr fun row member => ?_, same ▸ sound.contents_nodup.sublist part⟩
  obtain ⟨writable, entry, inside, ofRow⟩ := exists_entry_of_mem holds member
  rw [List.mem_map]
  constructor
  · rintro ⟨other, found, ofOther⟩
    obtain ⟨inside', contains⟩ := List.mem_filter.mp found
    exact (sound.hasKeyIn_keyField inside' (ofOther ▸ writable)).mpr contains
  · intro has
    have contains := (sound.hasKeyIn_keyField inside (ofRow ▸ writable)).mp has
    exact ⟨entry, List.mem_filter.mpr ⟨inside, contains⟩, ofRow⟩

/-! ### Scans of an index -/

@[simp]
theorem scanIndex_of_lookup_eq_none (missing : table.indexes.lookup field = none) :
    table.scanIndex field range = .error (.indexNotFound table.name field) := by
  refine Option.get_of_eq_some _ ?_
  rw [scanIndex?, missing]

/-- A scan of an index reads the rows of the owners of what is in its range. -/
@[simp]
theorem scanIndex_of_lookup (found : table.indexes.lookup field = some index) :
    table.scanIndex field range = readRows
      (((index.owners.contentsIn range).flatMap KeyMap.keys).filterMap table.rows.get?) := by
  refine Option.get_of_eq_some _ ?_
  rw [scanIndex?, found]
  dsimp only
  rw [KeyRange.contentsIn?_eq, Option.map_some]

/-- The primary keys that a scan of an index visits are owners of the index keys in the range. -/
theorem mem_owners_iff {owner : Value} :
    owner ∈ (index.owners.contentsIn range).flatMap KeyMap.keys ↔
      ∃ entry ∈ index.owners.entries, range.contains entry.1 ∧ owner ∈ entry.2.keys := by
  rw [KeyMap.contentsIn, List.mem_flatMap]
  constructor
  · rintro ⟨owners, member, isOwner⟩
    obtain ⟨entry, found, rfl⟩ := List.mem_map.mp member
    obtain ⟨inside, contains⟩ := List.mem_filter.mp found
    exact ⟨entry, inside, contains, isOwner⟩
  · rintro ⟨entry, inside, contains, isOwner⟩
    exact ⟨entry.2, List.mem_map_of_mem (List.mem_filter.mpr ⟨inside, contains⟩), isOwner⟩

theorem owns_of_mem_keys (mirrors : index.Mirrors field table.rows) {entry : Value × KeySet}
    (member : entry ∈ index.owners.entries) {owner : Value} (isOwner : owner ∈ entry.2.keys) :
    index.Owns entry.1 owner :=
  Index.owns_iff.mpr ⟨entry.2, KeyMap.get?_of_mem mirrors.wellFormed.sorted member,
    KeyMap.contains_of_mem_keys isOwner⟩

/-- The bytes of a stored row are among those that a scan of an index reads exactly if the row
has a key in the range. -/
theorem mem_scanned_iff (sound : table.Sound) (mirrors : index.Mirrors field table.rows)
    (member : entry ∈ table.rows.entries) (written : row.encode = .ok entry.2) :
    entry.2 ∈ ((index.owners.contentsIn range).flatMap KeyMap.keys).filterMap table.rows.get? ↔
      row.HasKeyIn field index.options.multiEntry range := by
  rw [List.mem_filterMap, Row.hasKeyIn_iff]
  constructor
  · rintro ⟨owner, visited, found⟩
    obtain ⟨own, inside, contains, isOwner⟩ := mem_owners_iff.mp visited
    obtain ⟨other, ⟨bytes, found', written'⟩, has⟩ :=
      (mirrors.owns own.1 owner).mp (owns_of_mem_keys mirrors inside isOwner)
    rw [found, Option.some_inj] at found'
    exact ⟨own.1, contains, (Row.hasKey_of_encode_eq (found' ▸ written') written).mp has⟩
  · rintro ⟨key, contains, has⟩
    have found := KeyMap.get?_of_mem sound.sorted member
    have owns := (mirrors.owns key entry.1).mpr ⟨row, ⟨entry.2, found, written⟩, has⟩
    obtain ⟨owners, ofKey, isOwner⟩ := Index.owns_iff.mp owns
    obtain ⟨own, inside, same, rfl⟩ := KeyMap.exists_entry_of_lookup ofKey
    obtain ⟨owner, isKey, same'⟩ := KeyMap.contains_iff_mem_keys.mp isOwner
    have within := KeyRange.contains_congr same ▸ contains
    refine ⟨owner, mem_owners_iff.mpr ⟨own, inside, within, isKey⟩, ?_⟩
    rw [← KeyMap.get?_congr same', found]

/-- A scan of an index visits no primary key twice exactly if no row has two keys in the range. -/
theorem owners_distinct_iff (mirrors : index.Mirrors field table.rows) :
    (((index.owners.contentsIn range).flatMap KeyMap.keys).Pairwise
      fun owner owner' => ¬(owner == owner')) ↔
    ∀ owner row, table.rows.Stores owner row →
      row.HasOneKeyIn field index.options.multiEntry range := by
  rw [KeyMap.contentsIn, List.pairwise_flatMap, List.pairwise_map]
  constructor
  · rintro ⟨-, apart⟩ owner row stored key key' inside inside' has has'
    obtain ⟨owners, ofKey, isOwner⟩ := Index.owns_iff.mp
      ((mirrors.owns key owner).mpr ⟨row, stored, has⟩)
    obtain ⟨owners', ofKey', isOwner'⟩ := Index.owns_iff.mp
      ((mirrors.owns key' owner).mpr ⟨row, stored, has'⟩)
    obtain ⟨entry, member, same, rfl⟩ := KeyMap.exists_entry_of_lookup ofKey
    obtain ⟨entry', member', same', rfl⟩ := KeyMap.exists_entry_of_lookup ofKey'
    obtain ⟨other, isKey, equal⟩ := KeyMap.contains_iff_mem_keys.mp isOwner
    obtain ⟨other', isKey', equal'⟩ := KeyMap.contains_iff_mem_keys.mp isOwner'
    by_cases one : entry = entry'
    · exact BEq.trans same (one ▸ BEq.symm same')
    · -- The row would be visited for one entry and again for the other.
      have different := List.Pairwise.forall_of_forall_of_flip
        (R := fun entry entry' : Value × KeySet => entry ≠ entry' →
          ∀ owner ∈ entry.2.keys, ∀ owner' ∈ entry'.2.keys, ¬(owner == owner'))
        (fun _ _ differ => absurd rfl differ) (apart.imp @fun _ _ unlike _ => by exact unlike)
        (apart.imp @fun _ _ unlike _ owner isKey owner' isKey' same =>
          unlike owner' isKey' owner isKey (BEq.symm same))
        (List.mem_filter.mpr ⟨member, KeyRange.contains_congr same ▸ inside⟩)
        (List.mem_filter.mpr ⟨member', KeyRange.contains_congr same' ▸ inside'⟩)
        one other isKey other' isKey'
      exact absurd (BEq.trans (BEq.symm equal) equal') different
  · intro once
    constructor
    · intro owners member
      obtain ⟨entry, found, rfl⟩ := List.mem_map.mp member
      have sorted := mirrors.wellFormed.ownersSorted entry (List.mem_filter.mp found).1
      refine List.pairwise_map.mpr (sorted.imp fun before same => ?_)
      rw [KeyMap.beq_eq_false_of_lt before] at same
      cases same
    · refine (mirrors.wellFormed.sorted.filter _).imp_of_mem fun member member' before => ?_
      intro owner isOwner owner' isOwner' same
      -- One row would have two keys.
      obtain ⟨inside, contains⟩ := List.mem_filter.mp member
      obtain ⟨inside', contains'⟩ := List.mem_filter.mp member'
      have owns := owns_of_mem_keys mirrors inside isOwner
      have owns' := owns_of_mem_keys mirrors inside' isOwner'
      obtain ⟨row, stored, has⟩ := (mirrors.owns _ _).mp owns
      obtain ⟨row', stored', has'⟩ :=
        (mirrors.owns _ _).mp ((Index.owns_congr BEq.rfl same).mpr owns')
      rw [← KeyMap.hasKey_of_stores stored stored'] at has'
      have equal := once owner row stored _ _ contains contains' has has'
      rw [KeyMap.beq_eq_false_of_lt before] at equal
      cases equal

/-- A scan reads no bytes twice exactly if it visits no primary key twice. -/
theorem nodup_scanned_iff (sound : table.Sound) (mirrors : index.Mirrors field table.rows) :
    (((index.owners.contentsIn range).flatMap KeyMap.keys).filterMap table.rows.get?).Nodup ↔
      ((index.owners.contentsIn range).flatMap KeyMap.keys).Pairwise
        fun owner owner' => ¬(owner == owner') := by
  rw [List.Nodup, List.pairwise_filterMap]
  constructor
  · refine List.Pairwise.imp_of_mem fun visited _ different same => ?_
    obtain ⟨entry, inside, -, isOwner⟩ := mem_owners_iff.mp visited
    obtain ⟨_, ⟨bytes, here, -⟩, -⟩ :=
      (mirrors.owns _ _).mp (owns_of_mem_keys mirrors inside isOwner)
    exact different bytes here bytes (KeyMap.get?_congr same ▸ here) rfl
  · refine List.Pairwise.imp fun different bytes here bytes' here' equal => ?_
    obtain ⟨entry, inside, isKey, rfl⟩ := KeyMap.exists_entry_of_lookup here
    obtain ⟨entry', inside', isKey', rfl⟩ := KeyMap.exists_entry_of_lookup here'
    have keys := sound.key_beq_of_bytes_eq inside inside' equal
    exact different (BEq.trans isKey (BEq.trans keys (BEq.symm isKey')))

/-- What the bytes of a row decide holds of all stored rows if it holds of those under any key. -/
theorem forall_stores_iff (sound : table.Sound) (holds : table.Holds stored)
    (decided : ∀ row other : Row, ∀ bytes, row.encode = .ok bytes → other.encode = .ok bytes →
      property row → property other) :
    (∀ owner row, table.rows.Stores owner row → property row) ↔ ∀ row ∈ stored, property row := by
  constructor
  · intro all row member
    obtain ⟨writable, entry, inside, ofRow⟩ := exists_entry_of_mem holds member
    exact all entry.1 row ⟨entry.2, KeyMap.get?_of_mem sound.sorted inside, ofRow ▸ writable⟩
  · rintro all owner row ⟨bytes, here, written⟩
    obtain ⟨writable, contents⟩ := holds_iff.mp holds
    obtain ⟨other, member, rfl⟩ := List.mem_map.mp (contents ▸ KeyMap.mem_contents_of_get? here)
    exact decided other row other.bytes (writable other member) written (all other member)

/-- A scan of an index finds the rows that have a key in the range, and each of them once exactly
if none has two keys there. -/
theorem scanIndex_eq_ok (sound : table.Sound) (holds : table.Holds stored)
    (ok : table.scanIndex field range = .ok rows) :
    ∃ options, table.indexOptions? field = some options ∧
      Collects stored (fun row => row.HasKeyIn field options.multiEntry range) rows ∧
      ((rows.map Row.bytes).Nodup ↔
        ∀ row ∈ stored, row.HasOneKeyIn field options.multiEntry range) := by
  cases found : table.indexes.lookup field with
  | none =>
    rw [scanIndex_of_lookup_eq_none found] at ok
    cases ok
  | some index =>
    rw [scanIndex_of_lookup found] at ok
    have mirrors := sound.mirrored (field, index) (mem_of_lookup found)
    obtain ⟨collects, same⟩ := collects_readRows sound holds ok fun bytes member => by
      obtain ⟨owner, -, here⟩ := List.mem_filterMap.mp member
      exact KeyMap.mem_contents_of_get? here
    refine ⟨index.options, by rw [indexOptions?, found]; rfl, collects.congr fun row member => ?_,
      ?_⟩
    · obtain ⟨writable, entry, inside, ofRow⟩ := exists_entry_of_mem holds member
      rw [← ofRow]
      exact mem_scanned_iff sound mirrors inside (ofRow ▸ writable)
    · rw [same, nodup_scanned_iff sound mirrors, owners_distinct_iff mirrors]
      refine forall_stores_iff sound holds fun row other bytes written written' once => ?_
      intro key key' inside inside' has has'
      exact once key key' inside inside' ((Row.hasKey_of_encode_eq written written').mpr has)
        ((Row.hasKey_of_encode_eq written written').mpr has')

/-! ### Scans that fail -/

/-- A scan by primary key fails to read only what the table keeps. -/
theorem exists_of_scanPrimary_eq_error {range : Option KeyRange} {cause : CodecError}
    (failed : table.scanPrimary range = .error (.codec cause)) :
    ∃ bytes ∈ table.rows.contents, Row.decode bytes = .error cause := by
  cases range with
  | none => exact exists_of_readRows_eq_error failed
  | some range =>
    rw [scanPrimary_some] at failed
    obtain ⟨bytes, member, stopped⟩ := exists_of_readRows_eq_error failed
    exact ⟨bytes, (List.filter_sublist.map Prod.snd).subset member, stopped⟩

/-- A scan of an index fails to read only what the table keeps. -/
theorem exists_of_scanIndex_eq_error {cause : CodecError}
    (failed : table.scanIndex field range = .error (.codec cause)) :
    ∃ bytes ∈ table.rows.contents, Row.decode bytes = .error cause := by
  cases found : table.indexes.lookup field with
  | none =>
    rw [scanIndex_of_lookup_eq_none found] at failed
    cases failed
  | some index =>
    rw [scanIndex_of_lookup found] at failed
    obtain ⟨bytes, member, stopped⟩ := exists_of_readRows_eq_error failed
    obtain ⟨owner, -, here⟩ := List.mem_filterMap.mp member
    exact ⟨bytes, KeyMap.mem_contents_of_get? here, stopped⟩

end Table

end IndexedStore
