/-
This file says when the generated keys of a table are new. A table with generated keys counts:
a row without key gets the next number, and a row with an integer as key moves the number on to
what comes after that integer. So the next number is ahead of all keys that were generated and of
all integers that are keys.

It is not ahead of floats. A row whose key is the float of a number that is still to come leaves
the count as it is, and the key order takes the two for one key. The row that gets that number
replaces the one with the float, or is refused. These are the only cases in which a generated key
is not new.
-/

import IndexedStore.Proofs.Storage.Table

namespace IndexedStore

/-- A value that stands at the place of an integer is that integer or a float. -/
theorem Value.eq_or_exists_of_beq_integer {value : Value} {n : Int64}
    (same : value == .integer n) : value = .integer n ∨ ∃ number, value = .float number := by
  rw [beq_iff] at same
  cases value with
  | integer m => exact .inl (congrArg integer (Std.LawfulEqOrd.eq_of_compare same))
  | float number => exact .inr ⟨number, rfl⟩
  | null | bool _ | text _ | bytes _ | array _ | map _ =>
    cases same

namespace KeyMap

variable {α : Type} {map : KeyMap α} {key : Value} {content : α}

/-- A new key takes a place among the entries, which stay what they are. -/
theorem insert_perm (free : ¬map.contains key) :
    (map.insert key content).entries.Perm ((key, content) :: map.entries) := by
  obtain ⟨entries⟩ := map
  rw [contains_iff] at free
  show (insertEntry key content entries).Perm ((key, content) :: entries)
  induction entries with
  | nil => exact .refl _
  | cons head rest inductionHypothesis =>
    have restFree := inductionHypothesis fun ⟨entry, member, same⟩ =>
      free ⟨entry, List.mem_cons_of_mem _ member, same⟩
    rw [insertEntry]
    split
    · exact .refl _
    · rename_i same
      exact absurd ⟨head, List.mem_cons_self, Value.beq_iff.mpr same⟩ free
    · exact (restFree.cons head).trans (.swap _ _ _)

/-- A key that is there gets its new content in its old place. -/
theorem size_insert (sorted : map.Sorted) (taken : map.contains key) :
    (map.insert key content).size = map.size := by
  obtain ⟨entries⟩ := map
  rw [contains_iff] at taken
  show (insertEntry key content entries).length = entries.length
  change entries.Pairwise _ at sorted
  obtain ⟨entry, member, same⟩ := taken
  induction entries with
  | nil => cases member
  | cons head rest inductionHypothesis =>
    obtain ⟨least, restSorted⟩ := List.pairwise_cons.mp sorted
    rw [insertEntry]
    split
    · -- a key before the first entry is before all of them
      rename_i before
      have notEntry : key.compareKey entry.1 = .lt := by
        rcases List.mem_cons.mp member with rfl | inRest
        · exact before
        · exact Std.TransCmp.lt_trans before (least entry inRest)
      rw [beq_eq_false_of_lt notEntry] at same
      cases same
    · rfl
    · rename_i after
      rcases List.mem_cons.mp member with rfl | inRest
      · rw [Value.beq_iff.mp same] at after
        cases after
      · exact congrArg Nat.succ (inductionHypothesis restSorted inRest)

end KeyMap

namespace Table

variable {table changed : Table} {row full : Row} {key : Value} {mode : WriteMode}
  {next : Int64} {generated : List Value}

/-! ### The count -/

theorem lt_of_keyAfter {n : Int64} (after : keyAfter n = some next) : n < next := by
  unfold keyAfter at after
  split at after
  · cases after
  · cases after
    grind

/-- The count moves on only, and past the key of a row if it is an integer. -/
theorem le_of_advance (auto : table.autoIncrement) (moved : table.advance key = some next) :
    (∀ n, key = .integer n → n < next) ∧ ∃ before, table.nextKey = some before ∧ before ≤ next := by
  unfold advance at moved
  split at moved
  · rename_i n before counted
    split at moved
    · rename_i reached
      have past := lt_of_keyAfter moved
      refine ⟨fun _ same => Value.integer.inj same ▸ past, before, counted, ?_⟩
      exact Int64.le_trans reached.2 (Int64.le_of_lt past)
    · rename_i ahead
      cases moved
      refine ⟨fun _ same => Value.integer.inj same ▸ ?_, next, counted, Int64.le_refl _⟩
      exact Int64.not_le.mp fun reached => ahead ⟨auto, reached⟩
  · rename_i other
    refine ⟨?_, next, moved, Int64.le_refl _⟩
    rintro n rfl
    exact absurd moved (other n next rfl)

/-- What holds of a table whose count has given out some keys. -/
structure Counts (table : Table) (generated : List Value) : Prop where
  /-- The table generates keys. -/
  auto : table.autoIncrement
  /-- The primary keys stand in order. -/
  sorted : table.rows.Sorted
  /-- The next key is ahead of all integers that are keys. -/
  given : ∀ next, table.nextKey = some next → ∀ n, .integer n ∈ table.rows.keys → n < next
  /-- The next key is ahead of all keys that were generated. -/
  earlier : ∀ next, table.nextKey = some next → ∀ key ∈ generated,
    ∃ n, key = .integer n ∧ n < next

/-- A row without key gets the next number. -/
theorem assignKey_of_lacks (auto : table.autoIncrement) (lacks : row.get? table.keyField = none) :
    table.assignKey row = match table.nextKey with
      | some next => .ok (.integer next, row.set table.keyField (.integer next))
      | none => .error (.constraint table.name .keysExhausted) := by
  rw [assignKey, lacks]
  exact if_pos auto

/-- What a write of a row without key does to the rows and the count. -/
theorem put_of_lacks (auto : table.autoIncrement) (lacks : row.get? table.keyField = none)
    (ok : table.put row mode = (.ok key, changed)) :
    ∃ next bytes, table.nextKey = some next ∧ key = .integer next ∧
      (row.set table.keyField key).encode = .ok bytes ∧
      changed.rows = table.rows.insert key bytes := by
  obtain ⟨full, previous, bytes, assigned, -, written, -, rfl⟩ := put_eq_ok_iff.mp ok
  rw [assignKey_of_lacks auto lacks] at assigned
  cases counted : table.nextKey with
  | none =>
    rw [counted] at assigned
    cases assigned
  | some next =>
    rw [counted] at assigned
    cases assigned
    exact ⟨next, bytes, rfl, rfl, written, rfl⟩

/-- A write keeps the count ahead, whether it generates the key or not. -/
theorem counts_put (counts : table.Counts generated)
    (ok : table.put row mode = (.ok key, changed)) {given : List Value}
    (keys : ∀ other ∈ given, other ∈ generated ∨ other = key ∧ ∃ n, key = .integer n) :
    changed.Counts given := by
  obtain ⟨full, previous, bytes, -, -, -, -, rfl⟩ := put_eq_ok_iff.mp ok
  refine ⟨counts.auto, KeyMap.insert_sorted counts.sorted, fun next moved n member => ?_,
    fun next moved other member => ?_⟩
  all_goals obtain ⟨past, before, counted, ahead⟩ := le_of_advance counts.auto moved
  · obtain ⟨entry, inside, isKey⟩ := List.mem_map.mp member
    rcases KeyMap.mem_insertEntry inside with old | ⟨-, new | ⟨old, held, same⟩⟩
    · exact Int64.lt_of_lt_of_le
        (counts.given before counted n (List.mem_map.mpr ⟨entry, old, isKey⟩)) ahead
    · exact past n (new.symm.trans isKey)
    · exact Int64.lt_of_lt_of_le
        (counts.given before counted n (List.mem_map.mpr ⟨old, held, same.trans isKey⟩)) ahead
  · rcases keys other member with old | ⟨rfl, n, isInteger⟩
    · obtain ⟨n, isInteger, less⟩ := counts.earlier before counted other old
      exact ⟨n, isInteger, Int64.lt_of_lt_of_le less ahead⟩
    · exact ⟨n, isInteger, past n isInteger⟩

theorem counts_delete (counts : table.Counts generated) :
    (table.delete key).2.Counts generated := by
  have fewer : ∀ other : Table, other.autoIncrement = table.autoIncrement →
      other.nextKey = table.nextKey → other.rows = table.rows.erase key →
      other.Counts generated := by
    intro other auto counted rows
    refine ⟨auto ▸ counts.auto, rows ▸ KeyMap.erase_sorted counts.sorted,
      fun next ahead n member => ?_, fun next ahead => counts.earlier next (counted ▸ ahead)⟩
    rw [KeyMap.keys, rows] at member
    obtain ⟨entry, inside, isKey⟩ := List.mem_map.mp member
    exact counts.given next (counted ▸ ahead) n
      (List.mem_map.mpr ⟨entry, (List.mem_filter.mp inside).1, isKey⟩)
  unfold delete
  split
  · exact counts
  · split
    · exact fewer _ rfl rfl rfl
    · exact fewer _ rfl rfl rfl

/-! ### Every sequence of calls -/

/-- The tables with generated keys that calls lead to, with the keys that were generated on the
way. Any call may fail. -/
inductive Generates : Table → List Value → Prop where
  | empty {table : Table} (auto : table.autoIncrement) (first : table.nextKey = some 1)
    (rows : table.rows.entries = []) (indexes : table.indexes = []) : Generates table []
  | createIndex {table changed : Table} {generated : List Value} {field : String}
    {options : IndexOptions} {result : Except EngineError Unit}
    (before : Generates table generated)
    (called : table.createIndex field options = (result, changed)) : Generates changed generated
  | given {table changed : Table} {generated : List Value} {row : Row} {mode : WriteMode}
    {key : Value} (before : Generates table generated) (has : row.get? table.keyField ≠ none)
    (ok : table.put row mode = (.ok key, changed)) : Generates changed generated
  | assigned {table changed : Table} {generated : List Value} {row : Row} {mode : WriteMode}
    {key : Value} (before : Generates table generated) (lacks : row.get? table.keyField = none)
    (ok : table.put row mode = (.ok key, changed)) : Generates changed (key :: generated)
  | refused {table changed : Table} {generated : List Value} {row : Row} {mode : WriteMode}
    {failure : EngineError} (before : Generates table generated)
    (failed : table.put row mode = (.error failure, changed)) : Generates changed generated
  | delete {table : Table} {generated : List Value} (before : Generates table generated)
    (key : Value) : Generates (table.delete key).2 generated

theorem Generates.counts (reached : Generates table generated) : table.Counts generated := by
  induction reached with
  | @empty table auto first rows indexes =>
    refine ⟨auto, ?_, fun next counted n member => ?_, fun next counted => nofun⟩
    · rw [KeyMap.Sorted, rows]
      exact .nil
    · rw [KeyMap.keys, rows] at member
      cases member
  | @createIndex _ _ _ _ _ result before called inductionHypothesis =>
    cases result with
    | ok _ =>
      obtain ⟨-, filled, -, rfl⟩ := createIndex_eq_ok called
      exact ⟨inductionHypothesis.auto, inductionHypothesis.sorted, inductionHypothesis.given,
        inductionHypothesis.earlier⟩
    | error failure => exact createIndex_eq_error called ▸ inductionHypothesis
  | given before has ok inductionHypothesis =>
    exact counts_put inductionHypothesis ok fun other member => .inl member
  | assigned before lacks ok inductionHypothesis =>
    refine counts_put inductionHypothesis ok fun other member => ?_
    obtain ⟨next, -, -, isNext, -⟩ := put_of_lacks inductionHypothesis.auto lacks ok
    rcases List.mem_cons.mp member with rfl | old
    · exact .inr ⟨rfl, next, isNext⟩
    · exact .inl old
  | refused before failed inductionHypothesis =>
    exact (put_eq_error_iff.mp failed).1 ▸ inductionHypothesis
  | delete before key inductionHypothesis => exact counts_delete inductionHypothesis

/-! ### New keys -/

/-- The next generated key is taken: there is a row with the same number as key. -/
def NextTaken (table : Table) : Prop :=
  ∃ next, table.nextKey = some next ∧ table.rows.contains (.integer next)

/-- Only a float can stand in the way of the next key. -/
theorem Counts.exists_float (counts : table.Counts generated) (counted : table.nextKey = some next)
    {held : Value} (member : held ∈ table.rows.keys) (same : held == .integer next) :
    ∃ number, held = .float number := by
  rcases Value.eq_or_exists_of_beq_integer same with rfl | float
  · exact absurd (counts.given next counted next member) Int64.lt_irrefl
  · exact float

theorem not_keyExists_of_checkUnique {indexes : List (String × Index)} {other : Value} :
    table.checkUnique key row indexes ≠ .error (.constraint table.name (.keyExists other)) := by
  induction indexes with
  | nil =>
    intro failed
    cases failed
  | cons head rest inductionHypothesis =>
    rw [checkUnique]
    split
    · intro failed
      cases failed
    · exact inductionHypothesis

/-- A write is refused for its key exactly if it may not replace a row and there is one. -/
theorem put_eq_keyExists_iff (assigned : table.assignKey row = .ok (key, full)) :
    (∃ other, table.put row mode = (.error (.constraint table.name (.keyExists other)), table)) ↔
      mode = .insert ∧ table.rows.contains key := by
  have replacing : ∀ other,
      table.put row mode = (.error (.constraint table.name (.keyExists other)), table) ↔
        table.replaced? key mode = .error (.constraint table.name (.keyExists other)) := by
    intro other
    rw [put_eq_error_iff, assigned, eq_self, true_and]
    constructor
    · rintro (impossible | ⟨_, _, same, here | ⟨_, -, unwritten | ⟨_, -, unchecked⟩⟩⟩)
      · cases impossible
      · cases same
        exact here
      · obtain ⟨_, -, impossible⟩ := exists_of_mapError_eq_error unwritten
        cases impossible
      · exact absurd unchecked not_keyExists_of_checkUnique
    · exact fun failed => .inr ⟨key, full, rfl, .inl failed⟩
  simp only [replacing]
  rw [KeyMap.contains, replaced?]
  cases table.rows.get? key with
  | none =>
    constructor
    · rintro ⟨_, failed⟩
      cases failed
    · rintro ⟨-, contained⟩
      cases contained
  | some bytes =>
    cases mode with
    | insert => exact iff_of_true ⟨key, rfl⟩ ⟨rfl, rfl⟩
    | put =>
      constructor
      · rintro ⟨_, failed⟩
        obtain ⟨_, -, impossible⟩ := exists_of_mapError_eq_error (eq_error_of_map failed)
        cases impossible
      · rintro ⟨inserts, -⟩
        cases inserts

/-- Generated keys are new unless a float is in the way. In every table with generated keys that
calls lead to, a row without key gets a number that is larger than all keys generated before. If
no row has that number as key, the table has the row under that key and all entries that it had,
and nothing else. If a row has it, as a float, the write replaces the row and the table does not
grow, or, where it may not replace, it is refused. It is refused for its key in no other case. -/
theorem generated_key_is_new (reached : Generates table generated)
    (lacks : row.get? table.keyField = none) :
    (∀ key changed, table.put row mode = (.ok key, changed) →
      (∀ earlier ∈ generated, earlier.compareKey key = .lt) ∧
      (∀ held ∈ table.rows.keys, held.compareKey key = .eq → ∃ number, held = .float number) ∧
      (¬table.NextTaken → (∀ held ∈ table.rows.keys, held.compareKey key ≠ .eq) ∧
        ∃ bytes, (row.set table.keyField key).encode = .ok bytes ∧
          changed.rows.entries.Perm ((key, bytes) :: table.rows.entries)) ∧
      (table.NextTaken → (∃ held ∈ table.rows.keys, held.compareKey key = .eq) ∧
        changed.rows.size = table.rows.size)) ∧
    ((∃ key, table.put row mode = (.error (.constraint table.name (.keyExists key)), table)) ↔
      mode = .insert ∧ table.NextTaken) := by
  have counts := reached.counts
  constructor
  · intro key changed ok
    obtain ⟨next, bytes, counted, rfl, written, rows⟩ := put_of_lacks counts.auto lacks ok
    have taken : table.NextTaken ↔ table.rows.contains (.integer next) := by
      simp only [NextTaken, counted, Option.some.injEq, exists_eq_left']
    rw [taken, rows]
    refine ⟨fun earlier member => ?_, fun held member same => ?_, fun free => ⟨?_, ?_⟩,
      fun there => ⟨?_, KeyMap.size_insert counts.sorted there⟩⟩
    · obtain ⟨n, rfl, less⟩ := counts.earlier next counted earlier member
      exact Std.compare_eq_lt.mpr less
    · exact counts.exists_float counted member (Value.beq_iff.mpr same)
    · intro held member same
      exact free (KeyMap.contains_iff_mem_keys.mpr
        ⟨held, member, BEq.symm (Value.beq_iff.mpr same)⟩)
    · exact ⟨bytes, written, KeyMap.insert_perm free⟩
    · obtain ⟨held, member, same⟩ := KeyMap.contains_iff_mem_keys.mp there
      exact ⟨held, member, Value.beq_iff.mp (BEq.symm same)⟩
  · have assigned := assignKey_of_lacks counts.auto lacks
    cases counted : table.nextKey with
    | none =>
      rw [counted] at assigned
      refine iff_of_false (fun ⟨key, failed⟩ => ?_) fun ⟨_, next, found, _⟩ => ?_
      · rw [put_eq_error_iff, assigned] at failed
        obtain ⟨-, impossible | ⟨_, _, impossible, -⟩⟩ := failed
        · cases impossible
        · cases impossible
      · rw [counted] at found
        cases found
    | some next =>
      rw [counted] at assigned
      rw [put_eq_keyExists_iff assigned, NextTaken, counted]
      simp only [Option.some.injEq, exists_eq_left']

/-- After a row with the key ten the next one gets eleven. After a row with the float one as key
the next one gets a key that is there and replaces that row, or is refused. -/
theorem generated_key_after_float :
    (∃ table changed, Generates table [] ∧
      table.put { fields := [("a", .integer 2)] } .put = (.ok (.integer 11), changed) ∧
      changed.rows.size = 2) ∧
    ∃ table key changed, Generates table [] ∧
      table.put { fields := [("a", .integer 2)] } .put = (.ok key, changed) ∧
      (∃ held ∈ table.rows.keys, held.compareKey key = .eq) ∧
      changed.rows.size = table.rows.size ∧
      ∃ key, table.put { fields := [("a", .integer 2)] } .insert =
        (.error (.constraint table.name (.keyExists key)), table) := by
  have created : Generates { name := "notes", keyField := "id", autoIncrement := true } [] :=
    .empty rfl rfl rfl rfl
  constructor
  · have ten := @Generates.given _ _ _ { fields := [("id", .integer 10)] } .put _ created nofun rfl
    obtain ⟨-, -, new, -⟩ :=
      (@generated_key_is_new _ { fields := [("a", .integer 2)] } .put _ ten rfl).1 _ _ rfl
    obtain ⟨-, _, -, grown⟩ := new (by
      rintro ⟨_, counted, taken⟩
      cases counted
      revert taken
      decide)
    exact ⟨_, _, ten, rfl, grown.length_eq⟩
  · obtain ⟨table, one, keyless, taken, written⟩ : ∃ table, Generates table [] ∧
        Row.get? { fields := [("a", .integer 2)] } table.keyField = none ∧ table.NextTaken ∧
        (table.put { fields := [("a", .integer 2)] } .put).1.toBool :=
      ⟨_, @Generates.given _ _ _ { fields := [("id", .float ⟨0x3ff0000000000000⟩)] } .put _
        created nofun rfl, rfl, ⟨1, rfl, by decide +kernel⟩, by decide +kernel⟩
    rcases ok : table.put { fields := [("a", .integer 2)] } .put with ⟨_ | key, changed⟩
    · rw [ok] at written
      cases written
    · obtain ⟨there, kept⟩ := ((generated_key_is_new one keyless).1 _ _ ok).2.2.2 taken
      exact ⟨table, _, _, one, ok, there, kept,
        (generated_key_is_new one keyless).2.mpr ⟨rfl, taken⟩⟩

end Table

end IndexedStore
