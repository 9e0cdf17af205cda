/-
This file says when the rows that a query finds are counted right. What several clauses have found
is merged, and then a selection returns no stored row twice, so that the count is the number of
stored rows that the query asks for. That is also the number that a deletion gives.

A query with a single clause has nothing to merge, and what the one scan has found is handed on as
it stands. If that is a scan of an index on the items of arrays, a row is given once for each of
its items in the range, and the count is too large as soon as one row has two of them there. The
deletion still gives the right number, since it takes each key once.
-/

import IndexedStore.Proofs.Connection.Deletion
import Mathlib.Data.List.Induction
import Mathlib.Data.List.Perm.Subperm

namespace IndexedStore

/-- If every item of a list is related to one of another list, and no two to the same, the list is
not longer than the other. -/
theorem length_le_of_apart {α β : Type} {related : α → β → Prop} {xs : List α} {ys : List β}
    (apart : xs.Pairwise fun x x' => ∀ y, related x y → ¬related x' y)
    (covered : ∀ x ∈ xs, ∃ y ∈ ys, related x y) : xs.length ≤ ys.length := by
  induction xs generalizing ys with
  | nil => exact Nat.zero_le _
  | cons x rest inductionHypothesis =>
    obtain ⟨alone, restApart⟩ := List.pairwise_cons.mp apart
    rw [List.forall_mem_cons] at covered
    obtain ⟨y, member, isRelated⟩ := covered.1
    obtain ⟨before, after, rfl⟩ := List.append_of_mem member
    have fewer : rest.length ≤ (before ++ after).length := by
      refine inductionHypothesis restApart fun x' isRest => ?_
      obtain ⟨y', member', isRelated'⟩ := covered.2 x' isRest
      refine ⟨y', ?_, isRelated'⟩
      rcases List.mem_append.mp member' with inBefore | inAfter
      · exact List.mem_append_left _ inBefore
      · rcases List.mem_cons.mp inAfter with rfl | inAfter
        · exact absurd isRelated' (alone x' isRest y' isRelated)
        · exact List.mem_append_right _ inAfter
    rw [List.length_append] at fewer
    rw [List.length_append, List.length_cons, List.length_cons]
    omega

/-- A batch has no row twice exactly if it is as long as there are stored rows with the property. -/
theorem Collects.nodup_iff_length_eq {stored batch : List Row} {accepts : Row → Bool}
    (collects : Collects stored (fun row => accepts row) batch)
    (distinct : (stored.map Row.bytes).Nodup) :
    (stored.filter accepts).length ≤ batch.length ∧
      ((batch.map Row.bytes).Nodup ↔ batch.length = (stored.filter accepts).length) := by
  have part : ((stored.filter accepts).map Row.bytes).Subperm (batch.map Row.bytes) := by
    refine List.subperm_of_subset
      (distinct.sublist (List.filter_sublist.map Row.bytes)) fun bytes isKept => ?_
    obtain ⟨row, member, rfl⟩ := List.mem_map.mp isKept
    obtain ⟨inside, accepted⟩ := List.mem_filter.mp member
    exact (collects.exact row inside).mpr accepted
  have sizes := part.length_le
  rw [List.length_map, List.length_map] at sizes
  refine ⟨sizes, fun once => ?_, fun same => ?_⟩
  · have := (collects.perm_filter distinct once).length_eq
    rwa [List.length_map, List.length_map] at this
  · have perm := part.perm_of_length_le (by simp [same])
    exact perm.nodup_iff.mp (distinct.sublist (List.filter_sublist.map Row.bytes))

/-! ### Primary keys of stored rows -/

/-- Rows have primary keys, no two of them the same. -/
structure Table.HasDistinctKeys (table : Table) (rows : List Row) : Prop where
  /-- Every row has a key. -/
  present : ∀ row ∈ rows, ∃ key, row.get? table.keyField = some key
  /-- No two rows have the same key. -/
  apart : rows.Pairwise fun first second => ∀ key key', first.get? table.keyField = some key →
    second.get? table.keyField = some key' → key.compareKey key' ≠ .eq

namespace Table

variable {table : Table} {rows stored : List Row} {row : Row} {entry : Value × List UInt8}
  {property : Row → Prop}

/-- The key of a stored row is the one under which its bytes are kept. -/
theorem Sound.exists_key (sound : table.Sound) (member : entry ∈ table.rows.entries)
    (written : row.encode = .ok entry.2) :
    ∃ key, row.get? table.keyField = some key ∧ key == entry.1 := by
  obtain ⟨own, inside, same⟩ := (sound.hasKey_keyField member written).mpr BEq.rfl
  unfold Row.indexKeys at inside
  cases found : row.get? table.keyField with
  | none =>
    rw [found] at inside
    cases inside
  | some key =>
    rw [found, Option.map_some, Option.getD_some, Value.indexKeys_single] at inside
    split at inside
    · rw [List.mem_singleton.mp inside] at same
      exact ⟨key, rfl, BEq.symm same⟩
    · cases inside

theorem exists_entry_of_bytes (holds : table.Holds stored) (writable : row.Writable)
    (within : row.bytes ∈ stored.map Row.bytes) :
    ∃ entry ∈ table.rows.entries, row.encode = .ok entry.2 ∧ entry.2 = row.bytes := by
  rw [(holds_iff.mp holds).2] at within
  obtain ⟨entry, member, same⟩ := List.mem_map.mp within
  exact ⟨entry, member, same ▸ writable, same⟩

/-- Rows of a table have distinct keys exactly if they have distinct bytes. -/
theorem hasDistinctKeys_iff (sound : table.Sound) (holds : table.Holds stored)
    (writable : ∀ row ∈ rows, row.Writable)
    (within : ∀ row ∈ rows, row.bytes ∈ stored.map Row.bytes) :
    table.HasDistinctKeys rows ↔ (rows.map Row.bytes).Nodup := by
  have keyed : ∀ row ∈ rows, ∃ entry ∈ table.rows.entries, entry.2 = row.bytes ∧
      ∃ key, row.get? table.keyField = some key ∧ key == entry.1 := by
    intro row member
    obtain ⟨entry, inside, written, same⟩ :=
      exists_entry_of_bytes holds (writable row member) (within row member)
    exact ⟨entry, inside, same, sound.exists_key inside written⟩
  rw [List.Nodup, List.pairwise_map]
  constructor
  · refine fun distinct => distinct.apart.imp_of_mem fun member member' different same => ?_
    obtain ⟨entry, inside, ofFirst, key, found, under⟩ := keyed _ member
    obtain ⟨entry', inside', ofSecond, key', found', under'⟩ := keyed _ member'
    have equal :=
      sound.key_beq_of_bytes_eq inside inside' (ofFirst.trans (same.trans ofSecond.symm))
    exact different key key' found found'
      (Value.beq_iff.mp (BEq.trans under (BEq.trans equal (BEq.symm under'))))
  · intro once
    refine ⟨fun row member => ?_, once.imp_of_mem ?_⟩
    · obtain ⟨_, -, -, key, found, -⟩ := keyed row member
      exact ⟨key, found⟩
    · intro first second member member' different key key' found found' same
      obtain ⟨entry, inside, ofFirst, own, isOwn, under⟩ := keyed first member
      obtain ⟨entry', inside', ofSecond, own', isOwn', under'⟩ := keyed second member'
      cases found.symm.trans isOwn
      cases found'.symm.trans isOwn'
      have equal := KeyMap.eq_of_mem_of_beq sound.sorted inside inside'
        (BEq.trans (BEq.symm under) (BEq.trans (Value.beq_iff.mpr same) under'))
      exact different (ofFirst.symm.trans (equal ▸ ofSecond))

end Table

/-! ### The keys to delete -/

/-- A row has a primary key, up to equality in key order. -/
def Row.HasOwnKey (row : Row) (field : String) (key : Value) : Prop :=
  ∃ own, row.get? field = some own ∧ key == own

section Keys

variable {table : TableSchema} {content : Table} {rows stored : List Row} {key : Value}

theorem keysToDelete_concat {row : Row} : keysToDelete table (rows ++ [row]) =
    match row.get? table.keyColumn with
    | some key => (keysToDelete table rows).insert key ()
    | none => keysToDelete table rows := by
  rw [keysToDelete, List.foldl_append]
  rfl

theorem contains_keysToDelete : (keysToDelete table rows).contains key ↔
    ∃ row ∈ rows, row.HasOwnKey table.keyColumn key := by
  induction rows using List.reverseRecOn with
  | nil => exact iff_of_false Bool.false_ne_true nofun
  | append_singleton rest row inductionHypothesis =>
    rw [keysToDelete_concat]
    simp only [List.mem_append, List.mem_singleton, or_and_right, exists_or, exists_eq_left]
    rw [← inductionHypothesis, Row.HasOwnKey]
    cases row.get? table.keyColumn with
    | none => simp
    | some own => simp [KeyMap.contains_insert, or_comm]

theorem sorted_keysToDelete : (keysToDelete table rows).Sorted := by
  induction rows using List.reverseRecOn with
  | nil => exact .nil
  | append_singleton rest row inductionHypothesis =>
    rw [keysToDelete_concat]
    split
    · exact KeyMap.insert_sorted inductionHypothesis
    · exact inductionHypothesis

/-- Rows with the same bytes, which are those of a stored row, have the same key. -/
theorem hasOwnKey_of_bytes_eq (sound : content.Sound) (holds : content.Holds stored)
    {row other : Row} (writable : row.Writable) (writable' : other.Writable)
    (within : row.bytes ∈ stored.map Row.bytes) (same : row.bytes = other.bytes)
    (has : other.HasOwnKey content.keyField key) : row.HasOwnKey content.keyField key := by
  obtain ⟨entry, inside, written, ofRow⟩ := Table.exists_entry_of_bytes holds writable within
  obtain ⟨own, found, under⟩ := sound.exists_key inside written
  obtain ⟨own', found', under'⟩ := sound.exists_key inside
    (show other.encode = .ok entry.2 from (ofRow.trans same) ▸ writable')
  obtain ⟨_, isOwn, equal⟩ := has
  cases found'.symm.trans isOwn
  exact ⟨own, found, BEq.trans equal (BEq.trans under' (BEq.symm under))⟩

/-- There is one key to delete for every stored row that was found. -/
theorem length_keysToDelete (sound : content.Sound) (holds : content.Holds stored)
    (named : content.keyField = table.keyColumn) {accepts : Row → Bool}
    (collects : Collects stored (fun row => accepts row) rows) :
    (keysToDelete table rows).keys.length = (stored.filter accepts).length := by
  obtain ⟨writable, contents⟩ := Table.holds_iff.mp holds
  have part : ∀ row ∈ stored.filter accepts, row ∈ stored ∧ accepts row :=
    fun row member => List.mem_filter.mp member
  have distinct : content.HasDistinctKeys (stored.filter accepts) :=
    (Table.hasDistinctKeys_iff sound holds (fun row member => writable row (part row member).1)
      fun row member => List.mem_map_of_mem (part row member).1).mpr
        ((contents ▸ sound.contents_nodup).sublist (List.filter_sublist.map Row.bytes))
  refine Nat.le_antisymm ?_ ?_
  · -- The keys are different, and each is that of a stored row.
    refine @length_le_of_apart _ _ (fun key row => row.HasOwnKey content.keyField key) _ _ ?_ ?_
    · refine List.pairwise_map.mpr (sorted_keysToDelete.imp fun before row has has' => ?_)
      obtain ⟨own, found, same⟩ := has
      obtain ⟨own', found', same'⟩ := has'
      cases found.symm.trans found'
      have equal := BEq.trans same (BEq.symm same')
      rw [KeyMap.beq_eq_false_of_lt before] at equal
      cases equal
    · intro key member
      obtain ⟨other, inside, has⟩ :=
        contains_keysToDelete.mp (KeyMap.contains_of_mem_keys member)
      obtain ⟨row, isStored, same⟩ := List.mem_map.mp (collects.within other inside)
      refine ⟨row, List.mem_filter.mpr ⟨isStored, (collects.exact row isStored).mp ?_⟩, ?_⟩
      · exact same ▸ List.mem_map_of_mem inside
      · exact hasOwnKey_of_bytes_eq sound holds (writable row isStored)
          (collects.writable other inside) (List.mem_map_of_mem isStored) same (named ▸ has)
  · -- The stored rows have different keys, and each is a key to delete.
    refine @length_le_of_apart _ _ (fun row key => row.HasOwnKey content.keyField key) _ _ ?_ ?_
    · refine distinct.apart.imp fun different key has has' => ?_
      obtain ⟨own, found, same⟩ := has
      obtain ⟨own', found', same'⟩ := has'
      exact different own own' found found'
        (Value.beq_iff.mp (BEq.trans (BEq.symm same) same'))
    · intro row member
      obtain ⟨isStored, accepted⟩ := part row member
      obtain ⟨own, found⟩ := distinct.present row member
      obtain ⟨other, inside, same⟩ := List.mem_map.mp ((collects.exact row isStored).mpr accepted)
      have has : other.HasOwnKey content.keyField own :=
        hasOwnKey_of_bytes_eq sound holds (collects.writable other inside) (writable row isStored)
          (collects.within other inside) same ⟨own, found, BEq.rfl⟩
      obtain ⟨key, isKey, equal⟩ := KeyMap.contains_iff_mem_keys.mp
        (contains_keysToDelete.mpr ⟨other, inside, named ▸ has⟩)
      exact ⟨key, isKey, own, found, BEq.symm equal⟩

/-- A key to delete is that of a row that was read, and so the row is kept. -/
theorem exists_entry_of_mem_keysToDelete (sound : content.Sound)
    (named : content.keyField = table.keyColumn) (reads : ∀ row ∈ rows, content.Reads row)
    (member : key ∈ (keysToDelete table rows).keys) :
    ∃ entry ∈ content.rows.entries, key == entry.1 ∧ ∃ row, Row.decode entry.2 = .ok row := by
  obtain ⟨row, inside, own, isOwn, same⟩ :=
    contains_keysToDelete.mp (KeyMap.contains_of_mem_keys member)
  obtain ⟨_, kept, read⟩ := reads row inside
  obtain ⟨entry, isEntry, rfl⟩ := List.mem_map.mp kept
  obtain ⟨stored, _, written, -⟩ := sound.keyed entry isEntry
  obtain ⟨_, found, under⟩ := sound.exists_key isEntry (Row.encode_of_decode written read)
  cases isOwn.symm.trans (named ▸ found)
  exact ⟨entry, isEntry, BEq.trans same under, row, read⟩

theorem get?_of_entry (sound : content.Sound) {entry : Value × List UInt8}
    (isEntry : entry ∈ content.rows.entries) (same : key == entry.1) :
    content.rows.get? key = some entry.2 := by
  rw [KeyMap.get?_congr same, KeyMap.get?_of_mem sound.sorted isEntry]

/-- The row of a key to delete can be read again. -/
theorem deletes_of_mem (sound : content.Sound) (named : content.keyField = table.keyColumn)
    (reads : ∀ row ∈ rows, content.Reads row) (member : key ∈ (keysToDelete table rows).keys) :
    content.Deletes key := by
  intro bytes found
  obtain ⟨entry, isEntry, same, readable⟩ :=
    exists_entry_of_mem_keysToDelete sound named reads member
  cases (get?_of_entry sound isEntry same).symm.trans found
  exact readable

end Keys

/-! ### What a plan finds -/

/-- A plan has something to merge: exclusion clauses, or several inclusion clauses. -/
def Plan.Merges (plan : Plan) : Prop := plan.exclusions ≠ [] ∨ 1 < plan.inclusions.length

namespace TableSchema

variable {table : TableSchema} {engine : Engine} {transaction : Transaction} {content : Table}
  {clauses : List Clause} {batches : List (List Row)} {rows stored : List Row} {plan : Plan}

instance : DecidablePred (table.Meets content plan) := fun row => by
  unfold Meets Finds Row.FoundBy Row.HasKeyIn
  infer_instance

/-- A plan gives no stored row twice: what it has found is merged, or the one clause that it has
finds no row twice. -/
def GivesOnce (table : TableSchema) (content : Table) (plan : Plan) (stored : List Row) : Prop :=
  plan.Merges ∨ ∀ clause ∈ plan.inclusions, ∀ row ∈ stored, table.FindsRowOnce content clause row

theorem length_scanClauses
    (ok : (table.scanClauses engine transaction clauses).1 = .ok batches) :
    batches.length = clauses.length := by
  induction clauses generalizing engine batches with
  | nil =>
    cases ok
    rfl
  | cons clause rest inductionHypothesis =>
    obtain ⟨rows, others, after, -, remaining, rfl⟩ := scanClauses_cons_eq_ok ok
    exact congrArg Nat.succ (inductionHypothesis remaining)

/-- How a plan that has succeeded was run: its scans answer the clauses, and the merge has kept a
part of the first batch. -/
theorem exists_of_runPlan (reached : transaction.data.Reached)
    (found : transaction.data.table? table.name = .ok content) (holds : content.Holds stored)
    (ok : (table.runPlan engine transaction plan).1 = .ok rows) :
    ∃ inclusions exclusions after,
      (table.scanInclusions engine transaction plan.inclusions).1 = .ok inclusions ∧
      (table.scanClauses after transaction plan.exclusions).1 = .ok exclusions ∧
      merge inclusions exclusions = .ok rows ∧
      table.Answers content stored plan.inclusions inclusions ∧
      (∃ first ∈ inclusions, rows.Sublist first) ∧
      ((∀ batch, inclusions = [batch] → exclusions = [] → (batch.map Row.bytes).Nodup) →
        (rows.map Row.bytes).Nodup) := by
  obtain ⟨inclusions, exclusions, after, included, excluded, merged⟩ := scans_of_runPlan ok
  obtain ⟨_, found', asked, answers⟩ := answers_scanInclusions included reached
  cases found.symm.trans found'
  have answers' := (answers_scanClauses excluded found (reached.table? found).sound holds).1
  obtain ⟨_, merged', ofFirst, -, once⟩ :=
    merge_eq_ok asked (answers stored holds).writable answers'.writable
  cases merged.symm.trans merged'
  refine ⟨inclusions, exclusions, after, included, excluded, merged, answers stored holds, ?_, once⟩
  cases inclusions with
  | nil => exact absurd rfl asked
  | cons first others => exact ⟨first, List.mem_cons_self, ofFirst first rfl⟩

/-- All that a plan has found was read from the table. -/
theorem reads_of_runPlan (reached : transaction.data.Reached)
    (found : transaction.data.table? table.name = .ok content)
    (ok : (table.runPlan engine transaction plan).1 = .ok rows) :
    ∀ row ∈ rows, content.Reads row := by
  obtain ⟨stored, holds⟩ := Table.exists_holds (reached.table? found).sound
  obtain ⟨_, _, _, included, -, -, -, ⟨first, isFirst, part⟩, -⟩ :=
    exists_of_runPlan reached found holds ok
  exact fun row member =>
    reads_of_scanInclusions found included first isFirst row (part.subset member)

/-- What a plan has found has no row twice exactly if the plan gives none twice. -/
theorem nodup_iff_of_runPlan (reached : transaction.data.Reached)
    (found : transaction.data.table? table.name = .ok content) (holds : content.Holds stored)
    (ok : (table.runPlan engine transaction plan).1 = .ok rows) :
    (rows.map Row.bytes).Nodup ↔ table.GivesOnce content plan stored := by
  obtain ⟨inclusions, exclusions, after, included, excluded, merged, answers, -, once⟩ :=
    exists_of_runPlan reached found holds ok
  have sizes := length_scanClauses excluded
  unfold GivesOnce Plan.Merges
  unfold scanInclusions at included
  cases asked : plan.inclusions with
  | nil =>
    -- The whole table has every row once.
    rw [asked] at answers
    refine iff_of_true (once fun batch isSingle _ => ?_) (.inr nofun)
    exact answers.once nofun batch (isSingle ▸ List.mem_singleton_self batch)
  | cons clause rest =>
    rw [asked] at included
    obtain ⟨first, others, _, scanned, remaining, rfl⟩ := scanClauses_cons_eq_ok included
    have sizes' := length_scanClauses remaining
    by_cases single : rest = [] ∧ plan.exclusions = []
    · -- The one batch is handed on.
      obtain ⟨rfl, none⟩ := single
      rw [none, List.length_nil, List.length_eq_zero_iff] at sizes
      rw [List.length_nil, List.length_eq_zero_iff] at sizes'
      cases sizes
      cases sizes'
      cases merged
      have sound := (reached.table? found).sound
      rw [(collects_scanClause scanned found sound holds).2, none, List.forall_mem_singleton]
      exact (or_iff_right (by simp)).symm
    · refine iff_of_true (once fun batch isSingle empty => absurd ?_ single) (.inl ?_)
      · cases isSingle
        rw [empty] at sizes
        exact ⟨List.length_eq_zero_iff.mp sizes'.symm, List.length_eq_zero_iff.mp sizes.symm⟩
      · by_cases none : plan.exclusions = []
        · have more : rest ≠ [] := fun last => single ⟨last, none⟩
          exact .inr (Nat.succ_lt_succ (List.length_pos_iff.mpr more))
        · exact .inl none

end TableSchema

namespace Connection

variable {connection : Connection} {engine : Engine} {name : String} {query : Query}
  {handle : HandleId} {table : TableSchema} {rows : List Row}

/-- A query that succeeds has run its plan on what is published. -/
theorem find_eq_ok (ok : (connection.find engine handle table query).1 = .ok rows) :
    ∃ transaction opened, engine.registry.beginRead handle = .ok transaction ∧
      (table.runPlan opened transaction query.plan).1 = .ok rows := by
  rw [find] at ok
  split at ok
  · cases ok
  · split at ok
    · cases ok
    · split at ok
      · cases ok
      · rename_i transaction opened began
        exact ⟨transaction, opened, beginRead_of_engine began, ok⟩

theorem select_eq_ok (ok : (connection.select engine name query).1 = .ok rows) :
    ∃ handle table, connection.resolve name = .ok (handle, table) ∧
      connection.select engine name query = connection.find engine handle table query := by
  rw [select] at ok
  split at ok
  · cases ok
  · rename_i handle table resolved
    exact ⟨handle, table, resolved, by rw [select, resolved]⟩

/-- A selection that succeeds on a table has run the plan of its query on the content that the
connection sees. -/
theorem runPlan_of_select {content : Table} (sees : connection.Sees engine name table content)
    (ok : (connection.select engine name query).1 = .ok rows) :
    ∃ handle transaction opened, connection.resolve name = .ok (handle, table) ∧
      (connection.find engine handle table query).1 = .ok rows ∧
      engine.registry.beginRead handle = .ok transaction ∧
      transaction.data.table? table.name = .ok content ∧
      (table.runPlan opened transaction query.plan).1 = .ok rows := by
  obtain ⟨handle, transaction, resolved, began, there⟩ := sees
  obtain ⟨handle', table', resolved', same⟩ := select_eq_ok ok
  cases resolved.symm.trans resolved'
  obtain ⟨transaction', opened, began', ran⟩ := find_eq_ok (same ▸ ok)
  cases began.symm.trans began'
  exact ⟨handle, transaction, opened, resolved, same ▸ ok, began, there, ran⟩

/-- What a selection gives was read from the table. -/
theorem reads_of_select {content : Table} (reached : engine.Reached)
    (sees : connection.Sees engine name table content)
    (ok : (connection.select engine name query).1 = .ok rows) :
    ∀ row ∈ rows, content.Reads row := by
  obtain ⟨_, _, _, -, -, began, there, ran⟩ := runPlan_of_select sees ok
  exact TableSchema.reads_of_runPlan (reached.registry.beginRead began) there ran

/-- A deletion gives as many rows as there are keys to delete. -/
theorem eq_of_delete_eq_done {opened : Engine} {schedule : Schedule} {n : Nat}
    (resolved : connection.resolve name = .ok (handle, table))
    (found : connection.find engine handle table query = (.ok rows, opened))
    (deleted : (connection.delete engine name query schedule).1 = .done n) :
    n = (keysToDelete table rows).keys.length := by
  rw [delete, resolved] at deleted
  dsimp only at deleted
  rw [found] at deleted
  dsimp only at deleted
  cases collected : Reply.collect name (runAll schedule (fun engine key =>
      table.deleteKey engine handle key) opened (keysToDelete table rows).keys).1 with
  | done results =>
    rw [collected] at deleted
    cases deleted
    have sizes := congrArg List.length (Reply.collect_eq_done_iff.mp collected)
    rw [length_runAll, List.length_map] at sizes
    exact sizes.symm
  | failed failure =>
    rw [collected] at deleted
    cases deleted
  | waiting =>
    rw [collected] at deleted
    cases deleted

/-- It is done where nothing stands in its way. -/
theorem delete_eq_done {opened : Engine} {data : StoreData} {content : Table} (schedule : Schedule)
    (resolved : connection.resolve name = .ok (handle, table))
    (found : connection.find engine handle table query = (.ok rows, opened))
    (free : opened.Free handle data) (there : data.table? table.name = .ok content)
    (deletes : ∀ key ∈ (keysToDelete table rows).keys, content.Deletes key) :
    (connection.delete engine name query schedule).1 =
      .done (keysToDelete table rows).keys.length := by
  have ran := @TableSchema.runAll_deleteKey table opened handle data content schedule free there _
    deletes
  simp [delete, resolved, found, Reply.collect_eq_done_iff.mpr ran]

/-- Rows are counted right, unless the plan gives some twice. Of a query that succeeds, no two rows
have the same primary key, and the count is the number of stored rows that the plan asks for,
exactly if the plan gives none twice; otherwise the count is larger. Where the table has the key
column of the schema, a deletion on the same state gives that number in any case, if it is done, in
whatever order its rows get their turns; and it is done if no fault is left once the rows have been
found and nobody is writing. -/
theorem count_eq_number_of_matches (reached : engine.Reached)
    (ok : (connection.select engine name query).1 = .ok rows) :
    ∃ table content, connection.Sees engine name table content ∧
      (∃ stored, content.Holds stored) ∧ ∀ stored, content.Holds stored →
        (content.HasDistinctKeys rows ↔ table.GivesOnce content query.plan stored) ∧
        ((connection.count engine name query).1 =
            .ok (stored.countP (table.Meets content query.plan)) ↔
          table.GivesOnce content query.plan stored) ∧
        stored.countP (table.Meets content query.plan) ≤ rows.length ∧
        (content.keyField = table.keyColumn →
          (∀ schedule n, (connection.delete engine name query schedule).1 = .done n →
            n = stored.countP (table.Meets content query.plan)) ∧
          ((∀ call, (connection.select engine name query).2.faults.gaps call = []) →
            (∀ record ∈ engine.registry.stores, record.hasWriter = false) →
            ∀ schedule, (connection.delete engine name query schedule).1 =
              .done (stored.countP (table.Meets content query.plan)))) := by
  obtain ⟨handle, table, resolved, same⟩ := select_eq_ok ok
  have isFound : (connection.find engine handle table query).1 = .ok rows := same ▸ ok
  obtain ⟨transaction, opened, began, ran⟩ := find_eq_ok isFound
  rcases @find_cases connection engine name query reached handle table resolved with
    ⟨failure, failed, -⟩ | ⟨content, rows', ok', sees, exact⟩
  · rw [isFound] at failed
    cases failed
  cases isFound.symm.trans ok'
  have published := reached.registry.beginRead began
  have there : transaction.data.table? table.name = .ok content := by
    obtain ⟨_, _, resolved', began', there⟩ := sees
    cases resolved.symm.trans resolved'
    cases began.symm.trans began'
    exact there
  have sound := (published.table? there).sound
  refine ⟨table, content, sees, Table.exists_holds sound, fun stored holds => ?_⟩
  have collects : Collects stored
      (fun row => decide (table.Meets content query.plan row)) rows :=
    (exact stored holds).1.congr fun row _ => decide_eq_true_iff.symm
  have once := TableSchema.nodup_iff_of_runPlan published there holds ran
  obtain ⟨least, sizes⟩ := collects.nodup_iff_length_eq
    ((Table.holds_iff.mp holds).2 ▸ sound.contents_nodup)
  have counted : (connection.count engine name query).1 = .ok rows.length := by
    show (connection.select engine name query).1.map List.length = _
    rw [ok]
    rfl
  rw [List.countP_eq_length_filter, ← once]
  refine ⟨Table.hasDistinctKeys_iff sound holds collects.writable collects.within, ?_, least,
    fun named => ⟨fun schedule n deleted => ?_, fun quiet idle schedule => ?_⟩⟩
  · rw [counted, sizes, Except.ok.injEq]
  · rw [eq_of_delete_eq_done resolved (Prod.ext isFound rfl) deleted]
    exact length_keysToDelete sound holds named collects
  · rw [← length_keysToDelete sound holds named collects]
    have unchanged := @registry_find connection engine handle table query
    rw [same] at quiet
    refine delete_eq_done schedule resolved (Prod.ext isFound rfl)
      (Engine.free_of_beginRead (unchanged ▸ began) quiet (unchanged ▸ idle)) there
      fun key => deletes_of_mem sound named
        (TableSchema.reads_of_runPlan published there ran)

end Connection

/-! ### Two people -/

namespace People

/-- The query for people older than twenty who are not called Ann. -/
def olderOthers : Query := older.withNotEqual "firstName" (.text "Ann")

/-- Of two people those who are older than twenty and not called Ann are counted right. -/
theorem olderOthers_of_two_are_counted : ∃ rows table content stored,
    (two.connection.select two.engine people.name olderOthers).1 = .ok rows ∧
      two.connection.Sees two.engine people.name table content ∧ content.Holds stored ∧
      content.HasDistinctKeys rows ∧
      (two.connection.count two.engine people.name olderOthers).1 =
        .ok (stored.countP (table.Meets content olderOthers.plan)) ∧
      (two.connection.delete two.engine people.name olderOthers .inOrder).1 =
        .done (stored.countP (table.Meets content olderOthers.plan)) := by
  have found : (two.connection.select two.engine people.name olderOthers).1.toBool := by
    decide +kernel
  have quiet : ∀ call, (two.connection.select two.engine people.name
      olderOthers).2.faults.gaps call = [] := by
    intro call
    cases call <;> decide +kernel
  have idle : ∀ record ∈ two.engine.registry.stores, record.hasWriter = false := by
    decide +kernel
  have keyField : two.connection.inspect? two.engine people.name Table.keyField = some "id" := by
    decide +kernel
  cases ok : (two.connection.select two.engine people.name olderOthers).1 with
  | error failure =>
    rw [ok] at found
    cases found
  | ok rows =>
    obtain ⟨table, content, sees, ⟨stored, holds⟩, counted⟩ :=
      Connection.count_eq_number_of_matches reached_two ok
    obtain ⟨distinct, count, -, deleted⟩ := counted stored holds
    have once : table.GivesOnce content olderOthers.plan stored := .inl (.inl nofun)
    rw [Connection.inspect?_of_sees sees] at keyField
    obtain ⟨handle, transaction, resolved, -, -⟩ := id sees
    cases resolved
    exact ⟨rows, people, content, stored, rfl, sees, holds, distinct.mpr once, count.mpr once,
      (deleted (Option.some.inj keyField)).2 quiet idle .inOrder⟩

end People

end IndexedStore
