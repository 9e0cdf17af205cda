/-
This file proves that rows with keys may be inserted in any order. Whether a row can be inserted is
decided by the rows that are there, and two rows stand in each other's way or do not, whichever
comes first. So two insertions one after the other may change places, and with them the whole
sequence may be rearranged. The generated keys go on after the largest integer among the keys.

The tables that are reached in this way resemble each other: they keep the same rows, but their
indexes may write a key differently that several rows have.
-/

import IndexedStore.Proofs.Storage.Resemblance
import IndexedStore.Proofs.Storage.Write

namespace IndexedStore.Table

variable {table other changed changed' after : Table} {row row' : Row} {key key' : Value}
  {bytes : List UInt8} {rows : KeyMap (List UInt8)} {settings : List (String × IndexOptions)}

/-! ### When a row can be inserted -/

/-- Two rows share no key of a unique index, unless they have one primary key. -/
def Apart (settings : List (String × IndexOptions)) (key : Value) (row : Row) (key' : Value)
    (row' : Row) : Prop :=
  ∀ setting ∈ settings, setting.2.unique → ∀ own, row.HasKey setting.1 setting.2.multiEntry own →
    row'.HasKey setting.1 setting.2.multiEntry own → key == key'

theorem Apart.symm (apart : Apart settings key row key' row') : Apart settings key' row' key row :=
  fun setting member unique own has has' => BEq.symm (apart setting member unique own has' has)

/-- A row shares no key of a unique index with another stored row. -/
def Clear (settings : List (String × IndexOptions)) (rows : KeyMap (List UInt8)) (key : Value)
    (row : Row) : Prop :=
  ∀ key' row', rows.Stores key' row' → Apart settings key row key' row'

/-- What is checked of unique indexes is a matter of the stored rows. -/
theorem checkUnique_eq_ok_iff (sound : table.Sound) :
    table.checkUnique key row table.indexes = .ok () ↔
      Clear table.settings table.rows key row := by
  constructor
  · intro ok key' row' stored setting member unique own has has'
    obtain ⟨entry, inside, rfl⟩ := List.mem_map.mp member
    obtain ⟨own', isOwn, same⟩ := Index.exists_mem_keysFor.mpr has
    have owns := ((sound.mirrored entry inside).owns own key').mpr ⟨row', stored, has'⟩
    exact BEq.symm (Index.conflict?_eq_none_iff.mp (conflict?_of_checkUnique ok entry inside) unique
      own' isOwn key' ((Index.owns_congr same BEq.rfl).mp owns))
  · intro clear
    refine checkUnique_eq_ok fun entry inside => Index.conflict?_eq_none_iff.mpr ?_
    intro unique own isOwn key' owns
    obtain ⟨row', stored, has'⟩ := ((sound.mirrored entry inside).owns own key').mp owns
    exact BEq.symm (clear key' row' stored _ (List.mem_map_of_mem inside) unique own
      (Index.exists_mem_keysFor.mp ⟨own, isOwn, BEq.rfl⟩) has')

/-- A row is clear of the rows with a new one if it is clear of them and apart from the new one. -/
theorem clear_insert_iff (isNew : ¬rows.contains key') (written : row'.encode = .ok bytes) :
    Clear settings (rows.insert key' bytes) key row ↔
      Clear settings rows key row ∧ Apart settings key row key' row' := by
  constructor
  · refine fun clear => ⟨fun owner stored there => clear owner stored ?_, clear key' row' ?_⟩
    · rw [KeyMap.stores_insert, if_neg]
      · exact there
      · intro same
        obtain ⟨_, found, _⟩ := there
        refine isNew ?_
        rw [← KeyMap.contains_congr same, KeyMap.contains, found]
        rfl
    · rw [KeyMap.stores_insert, if_pos BEq.rfl]
      exact written
  · rintro ⟨clear, apart⟩ owner stored there
    rw [KeyMap.stores_insert] at there
    split at there
    · rename_i same
      intro setting member unique own has has'
      have shared := apart setting member unique own has
        ((Row.hasKey_of_encode_eq there written).mp has')
      exact BEq.trans shared (BEq.symm same)
    · exact clear owner stored there

/-- A table with a row that was not there. -/
def withRow (table : Table) (key : Value) (row : Row) (bytes : List UInt8) : Table :=
  { table with
    nextKey := table.advance key
    rows := table.rows.insert key bytes
    indexes := table.indexes.map fun (field, index) => (field, reindex key none row field index) }

@[simp]
theorem settings_withRow : (table.withRow key row bytes).settings = table.settings := by
  rw [Table.settings, Table.settings, withRow, List.map_map]
  exact List.map_congr_left fun entry _ => congrArg (entry.1, ·) Index.options_addOwners

/-- A row with a key is inserted exactly if the key is one, it is new, the row has bytes and is
clear of the others. -/
theorem insert_eq_ok_iff (sound : table.Sound) (given : row.get? table.keyField = some key) :
    table.put row .insert = (.ok key', changed) ↔ key' = key ∧ key.isIndexable ∧
      ¬table.rows.contains key ∧ Clear table.settings table.rows key row ∧
      ∃ bytes, row.encode = .ok bytes ∧ changed = table.withRow key row bytes := by
  constructor
  · intro ok
    obtain ⟨full, previous, bytes, assigned, replacing, written, free, rfl⟩ := put_eq_ok_iff.mp ok
    obtain ⟨indexable, rfl, rfl⟩ := (assignKey_eq_ok_iff given).mp assigned
    obtain ⟨isNew, rfl⟩ := replaced?_insert_eq_ok_iff.mp replacing
    exact ⟨rfl, indexable, isNew, (checkUnique_eq_ok_iff sound).mp free, bytes, written, rfl⟩
  · rintro ⟨rfl, indexable, isNew, clear, bytes, written, rfl⟩
    exact put_eq_ok_iff.mpr ⟨row, none, bytes,
      (assignKey_eq_ok_iff given).mpr ⟨indexable, rfl, rfl⟩,
      replaced?_insert_eq_ok_iff.mpr ⟨isNew, rfl⟩, written,
      (checkUnique_eq_ok_iff sound).mpr clear, rfl⟩

/-! ### The next generated key -/

theorem keyAfter_bind (n m : Int64) :
    ((keyAfter n).bind fun next => if next ≤ m then keyAfter m else some next) =
      if n < m then keyAfter m else keyAfter n := by
  unfold keyAfter
  grind

/-- Moving on past two integers is moving on past the larger of them. -/
theorem keyAfter_comm (next n m : Int64) :
    ((if next ≤ n then keyAfter n else some next).bind fun next =>
        if next ≤ m then keyAfter m else some next) =
      (if next ≤ m then keyAfter m else some next).bind fun next =>
        if next ≤ n then keyAfter n else some next := by
  have smaller {n m : Int64} (reached : next ≤ n) (ahead : ¬next ≤ m) : ¬n < m :=
    fun less => ahead (Int64.le_trans reached (Int64.le_of_lt less))
  by_cases reached : next ≤ n <;> by_cases reached' : next ≤ m
  · rw [if_pos reached, if_pos reached', keyAfter_bind, keyAfter_bind]
    by_cases less : n < m
    · rw [if_pos less, if_neg (Int64.not_lt.mpr (Int64.le_of_lt less))]
    · by_cases less' : m < n
      · rw [if_neg less, if_pos less']
      · rw [if_neg less, if_neg less',
          Int64.le_antisymm (Int64.not_lt.mp less) (Int64.not_lt.mp less')]
  · rw [if_pos reached, if_neg reached', keyAfter_bind, if_neg (smaller reached reached'),
      Option.bind_some, if_pos reached]
  · rw [if_neg reached, if_pos reached', keyAfter_bind, if_neg (smaller reached' reached),
      Option.bind_some, if_pos reached']
  · rw [if_neg reached, if_neg reached', Option.bind_some, Option.bind_some, if_neg reached,
      if_neg reached']

theorem advance_integer (table : Table) (n : Int64) : table.advance (.integer n) =
    if table.autoIncrement then
      table.nextKey.bind fun next => if next ≤ n then keyAfter n else some next
    else table.nextKey := by
  unfold advance
  cases table.nextKey with
  | none => exact (ite_self _).symm
  | some next => cases table.autoIncrement <;> simp

theorem advance_of_not_integer (different : ∀ n, key ≠ .integer n) :
    table.advance key = table.nextKey := by
  unfold advance
  split
  · exact absurd rfl (different _)
  · rfl

theorem advance_congr (nextKey : changed.nextKey = table.nextKey)
    (auto : changed.autoIncrement = table.autoIncrement) (key : Value) :
    changed.advance key = table.advance key := by
  unfold advance
  rw [nextKey, auto]

/-- Generated keys go on after the larger of two keys, whichever comes first. -/
theorem advance_comm (counted : changed.nextKey = table.advance key)
    (auto : changed.autoIncrement = table.autoIncrement)
    (counted' : changed'.nextKey = table.advance key')
    (auto' : changed'.autoIncrement = table.autoIncrement) :
    changed.advance key' = changed'.advance key := by
  by_cases isInteger : ∃ n, key = .integer n
  · by_cases isInteger' : ∃ m, key' = .integer m
    · obtain ⟨n, rfl⟩ := isInteger
      obtain ⟨m, rfl⟩ := isInteger'
      rw [advance_integer, advance_integer, counted, counted', auto, auto', advance_integer,
        advance_integer]
      split
      · cases table.nextKey with
        | none => simp only [Option.bind_none]
        | some next =>
          rw [Option.bind_some, Option.bind_some]
          exact keyAfter_comm next n m
      · rfl
    · have still := not_exists.mp isInteger'
      rw [advance_of_not_integer still, counted]
      exact (advance_congr (counted'.trans (advance_of_not_integer still)) auto' key).symm
  · have still := not_exists.mp isInteger
    rw [advance_of_not_integer still, counted']
    exact advance_congr (counted.trans (advance_of_not_integer still)) auto key'

/-! ### Two insertions -/

/-- Tables that resemble each other take the same rows, and resemble each other afterwards. -/
theorem Resembles.insert (resembles : table.Resembles other) (sound : table.Sound)
    (sound' : other.Sound) (given : (row.get? table.keyField).isSome)
    (ok : table.put row .insert = (.ok key, changed)) :
    ∃ changed', other.put row .insert = (.ok key, changed') ∧ changed.Resembles changed' := by
  replace given := get?_of_put ok given
  obtain ⟨-, indexable, isNew, clear, bytes, written, rfl⟩ :=
    (insert_eq_ok_iff sound given).mp ok
  rw [← resembles.keyField] at given
  rw [← resembles.rows] at isNew clear
  rw [← resembles.settings] at clear
  refine ⟨_, (insert_eq_ok_iff sound' given).mpr
    ⟨rfl, indexable, isNew, clear, bytes, written, rfl⟩, ?_⟩
  exact ⟨resembles.name, resembles.keyField, resembles.autoIncrement,
    advance_congr resembles.nextKey resembles.autoIncrement _,
    congrArg (fun rows => KeyMap.insert rows _ bytes) resembles.rows,
    by rw [settings_withRow, settings_withRow, resembles.settings]⟩

/-- Two insertions one after the other may change places. -/
theorem insert_swap {first second : Table} (sound : table.Sound)
    (given : (row.get? table.keyField).isSome) (given' : (row'.get? table.keyField).isSome)
    (ok : table.put row .insert = (.ok key, first))
    (ok' : first.put row' .insert = (.ok key', second)) :
    ∃ first' second', table.put row' .insert = (.ok key', first') ∧
      first'.put row .insert = (.ok key, second') ∧ second.Resembles second' := by
  have soundFirst := sound_put sound ok
  replace given := get?_of_put ok given
  obtain ⟨-, indexable, isNew, clear, bytes, written, rfl⟩ := (insert_eq_ok_iff sound given).mp ok
  have given' := get?_of_put ok' given'
  obtain ⟨-, indexable', isNew', clear', bytes', written', rfl⟩ :=
    (insert_eq_ok_iff soundFirst given').mp ok'
  rw [settings_withRow] at clear'
  obtain ⟨clearBefore, apart⟩ := (clear_insert_iff isNew written).mp clear'
  obtain ⟨different, isNewBefore⟩ := not_or.mp (mt KeyMap.contains_insert.mpr isNew')
  have okFirst : table.put row' .insert = (.ok key', table.withRow key' row' bytes') :=
    (insert_eq_ok_iff sound given').mpr
      ⟨rfl, indexable', isNewBefore, clearBefore, bytes', written', rfl⟩
  have apart' : ¬(key == key') := fun same => different (BEq.symm same)
  refine ⟨_, _, okFirst, (insert_eq_ok_iff (sound_put sound okFirst) given).mpr
    ⟨rfl, indexable, ?_, ?_, bytes, written, rfl⟩, rfl, rfl, rfl, ?_, ?_, ?_⟩
  · exact mt KeyMap.contains_insert.mp (not_or.mpr ⟨apart', isNew⟩)
  · rw [settings_withRow]
    exact (clear_insert_iff isNewBefore written').mpr ⟨clear, apart.symm⟩
  · exact advance_comm rfl rfl rfl rfl
  · exact KeyMap.insert_comm different
  · rw [settings_withRow, settings_withRow, settings_withRow, settings_withRow]

/-! ### Sequences of insertions -/

/-- Rows are inserted one after the other, and these are their keys. -/
inductive Inserts : Table → List Row → List Value → Table → Prop where
  | nil {table : Table} : Inserts table [] [] table
  | cons {table between after : Table} {row : Row} {rows : List Row} {key : Value}
    {keys : List Value} (first : table.put row .insert = (.ok key, between))
    (others : Inserts between rows keys after) : Inserts table (row :: rows) (key :: keys) after

/-- Each of the rows has a key for the table. -/
def Keyed (table : Table) (rows : List Row) : Prop :=
  ∀ row ∈ rows, (row.get? table.keyField).isSome

variable {batch batch' : List Row} {keys : List Value}

theorem Keyed.put {mode : WriteMode} (keyed : table.Keyed batch)
    (ok : table.put row mode = (.ok key, changed)) : changed.Keyed batch := by
  obtain ⟨_, _, _, -, -, -, -, rfl⟩ := put_eq_ok_iff.mp ok
  exact keyed

theorem Inserts.sound (ran : table.Inserts batch keys after) (sound : table.Sound) :
    after.Sound := by
  induction ran with
  | nil => exact sound
  | cons first _ inductionHypothesis => exact inductionHypothesis (sound_put sound first)

/-- Tables that resemble each other take the same batches. -/
theorem Resembles.inserts (resembles : table.Resembles other) (sound : table.Sound)
    (sound' : other.Sound) (keyed : table.Keyed batch) (ran : table.Inserts batch keys after) :
    ∃ after', other.Inserts batch keys after' ∧ after.Resembles after' := by
  induction ran generalizing other with
  | nil => exact ⟨other, .nil, resembles⟩
  | cons first _ inductionHypothesis =>
    obtain ⟨given, keyedRest⟩ := List.forall_mem_cons.mp keyed
    obtain ⟨between', first', resembles'⟩ := resembles.insert sound sound' given first
    obtain ⟨after', others', same⟩ := inductionHypothesis resembles' (sound_put sound first)
      (sound_put sound' first') (Keyed.put keyedRest first)
    exact ⟨after', .cons first' others', same⟩

/-- A batch may be inserted in any order. -/
theorem Inserts.perm (reordered : batch.Perm batch') (sound : table.Sound)
    (keyed : table.Keyed batch) (ran : table.Inserts batch keys after) :
    ∃ keys' after', table.Inserts batch' keys' after' ∧ keys'.Perm keys ∧
      after.Resembles after' := by
  induction reordered generalizing table keys after with
  | nil => exact ⟨keys, after, ran, .refl keys, .refl after⟩
  | cons row _ inductionHypothesis =>
    cases ran with
    | @cons _ _ _ _ _ key _ first others =>
      obtain ⟨keys', after', others', sameKeys, same⟩ := inductionHypothesis
        (sound_put sound first) (Keyed.put (List.forall_mem_cons.mp keyed).2 first) others
      exact ⟨key :: keys', after', .cons first others', sameKeys.cons key, same⟩
  | swap row row' rest =>
    cases ran with
    | @cons _ _ _ _ _ key _ first others =>
      cases others with
      | @cons _ _ _ _ _ key' _ second others =>
        obtain ⟨given, given', keyedRest⟩ :=
          (List.forall_mem_cons.trans (and_congr_right' List.forall_mem_cons)).mp keyed
        obtain ⟨first', second', ok, ok', same⟩ :=
          insert_swap sound given given' first second
        obtain ⟨after', others', same'⟩ := same.inserts (sound_put (sound_put sound first) second)
          (sound_put (sound_put sound ok) ok')
          (Keyed.put (Keyed.put keyedRest first) second) others
        exact ⟨_, after', .cons ok (.cons ok' others'), .swap key key' _, same'⟩
  | trans reordered _ inductionHypothesis inductionHypothesis' =>
    obtain ⟨keys', after', ran', sameKeys, same⟩ := inductionHypothesis sound keyed ran
    obtain ⟨keys'', after'', ran'', sameKeys', same'⟩ :=
      inductionHypothesis' sound (fun row member => keyed row (reordered.mem_iff.mpr member)) ran'
    exact ⟨keys'', after'', ran'', sameKeys'.trans sameKeys, same.trans same'⟩

end IndexedStore.Table
