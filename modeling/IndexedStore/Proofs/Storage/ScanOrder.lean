/-
This file proves in which order a scan finds the rows of a table, and how often. A scan of an
index visits index keys with their owners, in ascending order of the index keys and then of the
primary keys. It comes to a row once for each of its index keys in the range. A scan by primary
key comes to the row of each primary key in the range once.

What lies in a range is decided by the range alone. A scan, on the other hand, asks a map for a
stretch between two edges, which a map refuses where the edges are out of order. No range has
such edges, whatever its bounds are.
-/

import IndexedStore.Proofs.Storage.Scan

namespace IndexedStore

/-! ### Edges of ranges -/

/-- Two edges leave room for a key: the lower one is not above the upper one, and edges at one
value are not both left out. -/
def Edge.LeavesRoom (low high : Edge) : Prop :=
  ∀ lower upper lowerOpen upperOpen, low.bound? = some (lower, lowerOpen) →
    high.bound? = some (upper, upperOpen) → lower.compareKey upper ≠ .gt ∧
      ¬(lower.compareKey upper = .eq ∧ lowerOpen ∧ upperOpen)

theorem Edge.leavesRoom_of_ordered {low high : Edge} (ordered : Edge.ordered low high) :
    low.LeavesRoom high := by
  intro lower upper lowerOpen upperOpen isLow isHigh
  simp only [Edge.ordered, isLow, isHigh] at ordered
  split at ordered
  all_goals cases lowerOpen <;> cases upperOpen <;> simp_all

theorem KeyMap.isSome_slice? {α : Type} (map : KeyMap α) {range : KeyRange} {low high : Edge}
    (edges : range.edges? = some (low, high)) : (map.slice? low high).isSome := by
  rw [slice?, if_pos (KeyRange.ordered_of_edges? edges)]
  rfl

/-! ### Visits -/

namespace Index

variable {index : Index} {range : KeyRange} {key owner : Value}

/-- What a scan of an index visits: the index keys in the range, each with its owners. -/
def visits (index : Index) (range : KeyRange) : List (Value × Value) :=
  (index.owners.entries.filter fun entry => range.contains entry.1).flatMap fun entry =>
    entry.2.keys.map fun owner => (entry.1, owner)

/-- A visit comes before another one if its index key does or, under one index key, if its
primary key does. -/
def Before (visit other : Value × Value) : Prop :=
  (visit.1.compareKey other.1).then (visit.2.compareKey other.2) = .lt

theorem map_snd_visits : (index.visits range).map Prod.snd =
    (index.owners.contentsIn range).flatMap KeyMap.keys := by
  rw [KeyMap.contentsIn, visits, List.map_flatMap, List.flatMap_map]
  simp only [List.map_map, Function.comp_def, List.map_id']

theorem mem_visits_iff {visit : Value × Value} : visit ∈ index.visits range ↔
    ∃ entry ∈ index.owners.entries, range.contains entry.1 ∧ visit.1 = entry.1 ∧
      visit.2 ∈ entry.2.keys := by
  rw [visits, List.mem_flatMap]
  constructor
  · rintro ⟨entry, member, visited⟩
    obtain ⟨inside, contains⟩ := List.mem_filter.mp member
    obtain ⟨owner, isOwner, rfl⟩ := List.mem_map.mp visited
    exact ⟨entry, inside, contains, rfl, isOwner⟩
  · rintro ⟨entry, inside, contains, isKey, isOwner⟩
    refine ⟨entry, List.mem_filter.mpr ⟨inside, contains⟩, List.mem_map.mpr ⟨visit.2, isOwner, ?_⟩⟩
    rw [← isKey]

/-- Visits come in ascending order of the index keys and then of the primary keys. -/
theorem pairwise_visits (wellFormed : index.WellFormed) : (index.visits range).Pairwise Before := by
  rw [visits, List.pairwise_flatMap]
  constructor
  · intro entry member
    have sorted := wellFormed.ownersSorted entry (List.mem_filter.mp member).1
    rw [KeyMap.keys, List.map_map, List.pairwise_map]
    refine sorted.imp fun before => ?_
    show (entry.1.compareKey entry.1).then _ = .lt
    rw [@Std.ReflCmp.compare_self _ Value.compareKey]
    exact before
  · refine (wellFormed.sorted.filter _).imp fun before => ?_
    simp only [List.forall_mem_map]
    intro owner _ owner' _
    show (Value.compareKey _ _).then _ = .lt
    rw [before]
    rfl

/-- A scan comes to an index key and an owner exactly if the key is in the range and the owner
owns it. -/
theorem exists_visit_iff (wellFormed : index.WellFormed) :
    (∃ visit ∈ index.visits range, visit.1 == key ∧ visit.2 == owner) ↔
      range.contains key ∧ index.Owns key owner := by
  simp only [mem_visits_iff]
  constructor
  · rintro ⟨visit, ⟨entry, inside, contains, isKey, isOwner⟩, same, same'⟩
    rw [isKey] at same
    refine ⟨KeyRange.contains_congr same ▸ contains, (owns_congr same same').mp ?_⟩
    exact owns_iff.mpr ⟨entry.2, KeyMap.get?_of_mem wellFormed.sorted inside,
      KeyMap.contains_of_mem_keys isOwner⟩
  · rintro ⟨contains, owns⟩
    obtain ⟨owners, found, isOwner⟩ := owns_iff.mp owns
    obtain ⟨entry, inside, same, rfl⟩ := KeyMap.exists_entry_of_lookup found
    obtain ⟨own, member, same'⟩ := KeyMap.contains_iff_mem_keys.mp isOwner
    exact ⟨(entry.1, own), ⟨entry, inside, KeyRange.contains_congr same ▸ contains, rfl, member⟩,
      BEq.symm same, BEq.symm same'⟩

/-- No visit comes before one with the same keys. -/
theorem not_before_of_beq {visit other : Value × Value} (same : visit.1 == other.1)
    (same' : visit.2 == other.2) : ¬Before visit other := by
  rw [Before, Value.beq_iff.mp same, Value.beq_iff.mp same']
  nofun

/-- Visits in order come to an index key and a primary key at most once. -/
theorem countP_le_one {visits : List (Value × Value)} (sorted : visits.Pairwise Before) :
    visits.countP (fun visit => visit.1 == key && visit.2 == owner) ≤ 1 := by
  induction visits with
  | nil => exact Nat.zero_le 1
  | cons visit rest inductionHypothesis =>
    obtain ⟨least, restSorted⟩ := List.pairwise_cons.mp sorted
    rw [List.countP_cons]
    split
    · rename_i same
      have others : rest.countP (fun visit => visit.1 == key && visit.2 == owner) = 0 := by
        refine List.countP_eq_zero.mpr fun other member same' => ?_
        simp only [Bool.and_eq_true] at same same'
        exact not_before_of_beq (BEq.trans same.1 (BEq.symm same'.1))
          (BEq.trans same.2 (BEq.symm same'.2)) (least other member)
      exact Nat.succ_le_succ (Nat.le_of_eq others)
    · exact inductionHypothesis restSorted

/-- A scan comes to an owner of an index key once if the key is in the range, and otherwise not
at all. -/
theorem countP_visits (wellFormed : index.WellFormed) (owns : index.Owns key owner) :
    (index.visits range).countP (fun visit => visit.1 == key && visit.2 == owner) =
      if range.contains key then 1 else 0 := by
  have visited := @exists_visit_iff index range key owner wellFormed
  split
  · rename_i contains
    obtain ⟨visit, member, same⟩ := visited.mpr ⟨contains, owns⟩
    refine Nat.le_antisymm (countP_le_one (pairwise_visits wellFormed)) ?_
    exact List.one_le_countP_iff.mpr ⟨visit, member, Bool.and_eq_true_iff.mpr same⟩
  · rename_i outside
    refine List.countP_eq_zero.mpr fun visit member same => outside ?_
    exact (visited.mp ⟨visit, member, Bool.and_eq_true_iff.mp same⟩).1

end Index

/-! ### Reading rows -/

namespace Table

variable {table : Table} {rows : List Row} {field : String} {index : Index} {range : KeyRange}

/-- A row is read under a primary key: it is what the bytes that are kept there stand for. -/
def ReadsAt (table : Table) (key : Value) (row : Row) : Prop :=
  ∃ bytes, table.rows.get? key = some bytes ∧ Row.decode bytes = .ok row

/-- Reading what is kept under keys gives the rows that are read under them. -/
theorem readRows_filterMap_eq_ok_iff {keys : List Value}
    (kept : ∀ key ∈ keys, (table.rows.get? key).isSome) :
    readRows (keys.filterMap table.rows.get?) = .ok rows ↔
      List.Forall₂ table.ReadsAt keys rows := by
  rw [readRows_eq_ok_iff]
  induction keys generalizing rows with
  | nil => simp
  | cons key rest inductionHypothesis =>
    rw [List.forall_mem_cons] at kept
    obtain ⟨bytes, here⟩ := Option.isSome_iff_exists.mp kept.1
    rw [List.filterMap_cons_some here]
    simp only [List.forall₂_cons_left_iff, inductionHypothesis kept.2, ReadsAt, here,
      Option.some.injEq, exists_eq_left']

theorem scanIndex_eq_ok_iff (sound : table.Sound)
    (found : table.indexes.lookup field = some index) :
    table.scanIndex field range = .ok rows ↔
      List.Forall₂ (fun visit row => table.ReadsAt visit.2 row) (index.visits range) rows := by
  have mirrors := sound.mirrored _ (mem_of_lookup found)
  rw [scanIndex_of_lookup found, ← Index.map_snd_visits, readRows_filterMap_eq_ok_iff,
    List.forall₂_map_left_iff]
  intro owner member
  obtain ⟨visit, visited, rfl⟩ := List.mem_map.mp member
  have owns := ((Index.exists_visit_iff mirrors.wellFormed).mp
    ⟨visit, visited, BEq.rfl, BEq.rfl⟩).2
  obtain ⟨_, ⟨bytes, here, -⟩, -⟩ := (mirrors.owns _ _).mp owns
  rw [here]
  rfl

theorem scanPrimary_eq_ok_iff (sound : table.Sound) {range : Option KeyRange} :
    table.scanPrimary range = .ok rows ↔ List.Forall₂ table.ReadsAt
      (table.rows.keys.filter fun key => range.all fun range => range.contains key) rows := by
  have kept : ∀ entry ∈ table.rows.entries, table.rows.get? entry.1 = some entry.2 :=
    fun entry member => KeyMap.get?_of_mem sound.sorted member
  -- The contents of the entries that a scan asks for are kept under their keys.
  have asked : (table.rows.keys.filter fun key => range.all fun range =>
      range.contains key).filterMap table.rows.get? =
        (table.rows.entries.filter fun entry => range.all fun range =>
          range.contains entry.1).map Prod.snd := by
    rw [KeyMap.keys, List.filter_map, List.filterMap_map, ← List.filterMap_eq_map]
    exact List.filterMap_congr fun entry member => kept entry (List.mem_filter.mp member).1
  have scanned : table.scanPrimary range =
      readRows ((table.rows.entries.filter fun entry => range.all fun range =>
        range.contains entry.1).map Prod.snd) := by
    cases range with
    | none => simp [scanPrimary_none, KeyMap.contents]
    | some range => simp [scanPrimary_some, KeyMap.contentsIn]
  rw [scanned, ← asked, readRows_filterMap_eq_ok_iff]
  intro key member
  obtain ⟨entry, inside, rfl⟩ := List.mem_map.mp (List.mem_filter.mp member).1
  rw [kept entry inside]
  rfl

/-- In every table that calls lead to, a scan asks only for stretches between edges that leave
room, so that none is refused. A scan of an index comes to a stored row once for each of its index
keys in the range, and to nothing else, in order of the index keys and then of the primary keys. A
scan by primary key comes to the stored rows whose keys are in the range, or to all of them, in
order of the keys. -/
theorem scans_visit_each_key_once (reached : Reached table) :
    (∀ (range : KeyRange) (low high : Edge), range.edges? = some (low, high) →
      low.LeavesRoom high ∧ (table.rows.slice? low high).isSome ∧
        ∀ entry ∈ table.indexes, (entry.2.owners.slice? low high).isSome) ∧
    ((∀ range, table.scanPrimary? range = some (table.scanPrimary range)) ∧
      ∀ field range, table.scanIndex? field range = some (table.scanIndex field range)) ∧
    -- An index key and a primary key stand for each row that a scan of an index comes to.
    (∀ field index range, table.indexes.lookup field = some index →
      ∃ visits : List (Value × Value), visits.Pairwise Index.Before ∧
        (∀ rows, table.scanIndex field range = .ok rows ↔
          List.Forall₂ (fun visit row => table.ReadsAt visit.2 row) visits rows) ∧
        (∀ entry ∈ table.rows.entries, (∃ row : Row, row.encode = .ok entry.2) ∧
          ∀ row : Row, row.encode = .ok entry.2 → ∀ key ∈ index.keysFor field row,
            visits.countP (fun visit => visit.1 == key && visit.2 == entry.1) =
              if range.contains key then 1 else 0) ∧
        ∀ visit ∈ visits, range.contains visit.1 ∧
          ∃ entry ∈ table.rows.entries, visit.2 == entry.1 ∧
            ∃ row : Row, row.encode = .ok entry.2 ∧ ∃ key ∈ index.keysFor field row,
              visit.1 == key) ∧
    -- The primary keys are in order, and a scan by primary key goes along them.
    table.rows.Sorted ∧
    ∀ (range : Option KeyRange) (rows : List Row), table.scanPrimary range = .ok rows ↔
      List.Forall₂ table.ReadsAt
        (table.rows.keys.filter fun key => range.all fun range => range.contains key) rows := by
  have sound := reached.sound
  refine ⟨fun range low high edges => ?_,
    ⟨fun range => (Option.some_get _).symm, fun field range => (Option.some_get _).symm⟩,
    fun field index range found => ?_, sound.sorted, fun range rows => scanPrimary_eq_ok_iff sound⟩
  · exact ⟨Edge.leavesRoom_of_ordered (KeyRange.ordered_of_edges? edges),
      KeyMap.isSome_slice? _ edges, fun _ _ => KeyMap.isSome_slice? _ edges⟩
  · have mirrors := sound.mirrored _ (mem_of_lookup found)
    refine ⟨index.visits range, Index.pairwise_visits mirrors.wellFormed,
      fun rows => scanIndex_eq_ok_iff sound found,
      fun entry member => ⟨?_, fun row written key isKey => ?_⟩, fun visit visited => ?_⟩
    · obtain ⟨row, _, written, -⟩ := sound.keyed entry member
      exact ⟨row, written⟩
    · refine Index.countP_visits mirrors.wellFormed ((mirrors.owns key entry.1).mpr ?_)
      exact ⟨row, ⟨entry.2, KeyMap.get?_of_mem sound.sorted member, written⟩,
        Index.exists_mem_keysFor.mp ⟨key, isKey, BEq.rfl⟩⟩
    · obtain ⟨contains, owns⟩ := (Index.exists_visit_iff mirrors.wellFormed).mp
        ⟨visit, visited, BEq.rfl, BEq.rfl⟩
      simp only [Index.exists_mem_keysFor]
      exact ⟨contains, (exists_stores_iff sound).mp ((mirrors.owns _ _).mp owns)⟩

/-- Of three things a scan of the index on their sizes comes to those of size 5. -/
theorem scan_visits_two_of_three :
    ∃ table, Reached table ∧ ∃ visits : List (Value × Value), visits.Pairwise Index.Before ∧
      (∀ rows, table.scanIndex "size" (.above (.float ⟨0x4012000000000000⟩) true) = .ok rows ↔
        List.Forall₂ (fun visit row => table.ReadsAt visit.2 row) visits rows) ∧
      visits.countP (fun visit => visit.1 == .integer 5 && visit.2 == .integer 1) = 1 ∧
      visits.countP (fun visit => visit.1 == .integer 5 && visit.2 == .integer 2) = 1 ∧
      visits.countP (fun visit => visit.1 == .integer 4 && visit.2 == .integer 3) = 0 := by
  have created : Reached { name := "things", keyField := "id", autoIncrement := false } :=
    .empty rfl rfl
  have indexed := @Reached.createIndex _ _ "size" {} _ created rfl
  have second := @Reached.put _ _ { fields := [("id", .integer 2), ("size", .integer 5)] } .insert
    _ indexed rfl
  have first := @Reached.put _ _ { fields := [("id", .integer 1), ("size", .integer 5)] } .insert
    _ second rfl
  have third := @Reached.put _ _ { fields := [("id", .integer 3), ("size", .integer 4)] } .insert
    _ first rfl
  obtain ⟨-, -, ofIndex, -⟩ := scans_visit_each_key_once third
  obtain ⟨visits, ordered, reads, counts, -⟩ :=
    ofIndex "size" _ (.above (.float ⟨0x4012000000000000⟩) true) rfl
  have above : (KeyRange.above (.float ⟨0x4012000000000000⟩) true).contains (.integer 5) := by
    decide +kernel
  have below : ¬(KeyRange.above (.float ⟨0x4012000000000000⟩) true).contains (.integer 4) := by
    decide +kernel
  refine ⟨_, third, visits, ordered, reads, ?_, ?_, ?_⟩
  · exact ((counts (.integer 1, _) List.mem_cons_self).2
      { fields := [("id", .integer 1), ("size", .integer 5)] } rfl (.integer 5)
      (List.mem_singleton.mpr rfl)).trans (if_pos above)
  · exact ((counts (.integer 2, _) (List.mem_cons_of_mem _ List.mem_cons_self)).2
      { fields := [("id", .integer 2), ("size", .integer 5)] } rfl (.integer 5)
      (List.mem_singleton.mpr rfl)).trans (if_pos above)
  · exact ((counts (.integer 3, _)
      (List.mem_cons_of_mem _ (List.mem_cons_of_mem _ List.mem_cons_self))).2
      { fields := [("id", .integer 3), ("size", .integer 4)] } rfl (.integer 4)
      (List.mem_singleton.mpr rfl)).trans (if_neg below)

end Table

end IndexedStore
