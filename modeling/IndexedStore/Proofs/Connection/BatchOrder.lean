/-
This file proves that a batch of rows with keys may be inserted in any order. Each row is written in
a transaction of its own, so that a batch is done exactly if its calls pass and its rows can be
inserted into the table one after the other. Neither depends on the order. The published tables
may still differ in how an index writes a key that several rows have, but no query and no scan can
tell.
-/

import IndexedStore.Proofs.Connection.Alike
import IndexedStore.Proofs.Connection.Batches
import IndexedStore.Proofs.Storage.InsertionOrder

namespace IndexedStore

/-! ### When a row is written -/

namespace Engine

variable {engine opened : Engine} {handle : HandleId} {transaction altered : Transaction}

theorem strike_of_beginWrite (began : engine.beginWrite handle = (.done transaction, opened)) :
    engine.faults.strike .begin = (false, opened.faults) := by
  unfold beginWrite strike at began
  cases struck : engine.faults.strike .begin with
  | mk isStruck later =>
    rw [struck] at began
    cases isStruck with
    | true => cases began
    | false => rw [← (Prod.mk.inj began).2]

theorem strike_of_write {name : String} {row : Row} {mode : WriteMode} {key : Value}
    (written : engine.write transaction name row mode = (.ok key, altered, opened)) :
    engine.faults.strike .write = (false, opened.faults) := by
  unfold write alter strike at written
  cases struck : engine.faults.strike .write with
  | mk isStruck later =>
    rw [struck] at written
    cases isStruck with
    | true => cases written
    | false => rw [← (Prod.mk.inj (Prod.mk.inj written).2).2]

theorem strike_of_finish {α : Type} {result other : α} {failed : EngineError → DatabaseError}
    (finished : engine.finish transaction other failed = (.done result, opened)) :
    engine.faults.strike .commit = (false, opened.faults) := by
  unfold finish commit strike at finished
  cases struck : engine.faults.strike .commit with
  | mk isStruck later =>
    rw [struck] at finished
    cases isStruck with
    | true => cases finished
    | false =>
      dsimp only at finished
      split at finished
      · rename_i committed
        cases finished
        rw [← (Prod.mk.inj committed).2]
      · cases finished

end Engine

namespace TableSchema

variable {table : TableSchema} {engine after : Engine} {handle : HandleId} {store : StoreId}
  {record : StoreRecord} {content changed : Table} {row : Row} {mode : WriteMode} {key : Value}

theorem passes_of_addRow (added : table.addRow engine handle row mode = (.done key, after)) :
    engine.faults.Passes after.faults := by
  unfold addRow transact at added
  dsimp only at added
  split at added
  · cases added
  · split at added
    · cases added
    · cases added
    · rename_i began
      split at added
      · cases added
      · rename_i written
        exact ⟨_, _, Engine.strike_of_beginWrite began, Engine.strike_of_write written,
          Engine.strike_of_finish added⟩

/-- A row is written exactly if its calls pass and the table takes it. -/
theorem addRow_eq_done_iff (idle : engine.registry.Idle)
    (lends : engine.registry.Lends handle store record)
    (found : record.data.table? table.name = .ok content) :
    table.addRow engine handle row mode = (.done key, after) ↔ table.Admits row ∧ ∃ changed,
      content.put row mode = (.ok key, changed) ∧ engine.faults.Passes after.faults ∧
      after.registry = engine.registry.publish store table.name changed := by
  constructor
  · intro added
    have posts := @posts_addRow table engine handle idle row mode
    rw [added] at posts
    cases posts with
    | done lends' found' ok published =>
      obtain ⟨rfl, rfl⟩ := lends.unique lends'
      cases found.symm.trans found'
      exact ⟨admits_of_addRow added, _, ok, passes_of_addRow added, published⟩
  · rintro ⟨admits, changed, ok, passes, published⟩
    rw [addRow_of_passes passes lends found admits ok, ← published]

end TableSchema

/-! ### When a batch is written -/

/-- The calls that write so many rows pass, one row after the other. -/
def Faults.PassesTimes : Nat → Faults → Faults → Prop
  | 0, faults, later => later = faults
  | count + 1, faults, later => ∃ between, faults.Passes between ∧ between.PassesTimes count later

theorem runItems_cons_eq_done_iff {α β : Type} {operate : Engine → α → Reply β × Engine}
    {engine after : Engine} {item : α} {rest : List α} {results : List β} :
    runItems operate engine (item :: rest) = (results.map .done, after) ↔
      ∃ result others between, results = result :: others ∧
        operate engine item = (.done result, between) ∧
        runItems operate between rest = (others.map .done, after) := by
  rw [runItems_cons]
  cases operated : operate engine item with
  | mk reply between =>
    cases results with
    | nil => simp
    | cons result others => simp [Prod.ext_iff, and_assoc]

namespace TableSchema

variable {table : TableSchema} {engine after : Engine} {handle : HandleId} {store : StoreId}
  {record : StoreRecord} {content : Table} {rows rows' : List Row} {keys : List Value}

/-- A batch is inserted exactly if its calls pass and the table takes its rows one after the
other. -/
theorem runItems_insert_eq_done_iff (idle : engine.registry.Idle)
    (lends : engine.registry.Lends handle store record)
    (found : record.data.table? table.name = .ok content) :
    runItems (fun engine row => table.addRow engine handle row .insert) engine rows =
        (keys.map .done, after) ↔
      (∀ row ∈ rows, table.Admits row) ∧ ∃ changed, content.Inserts rows keys changed ∧
        engine.faults.PassesTimes rows.length after.faults ∧
        after.registry = engine.registry.publish store table.name changed := by
  induction rows generalizing engine record content keys with
  | nil =>
    constructor
    · intro ran
      obtain ⟨none, rfl⟩ := Prod.mk.inj ran
      cases List.map_eq_nil_iff.mp none.symm
      exact ⟨nofun, content, .nil, rfl, (Registry.publish_of_table? lends.here found).symm⟩
    · rintro ⟨-, changed, inserts, same, published⟩
      cases inserts
      rw [Registry.publish_of_table? lends.here found] at published
      cases after
      cases same
      cases published
      rfl
  | cons row rest inductionHypothesis =>
    rw [runItems_cons_eq_done_iff, List.forall_mem_cons]
    constructor
    · rintro ⟨key, others, between, rfl, added, ran⟩
      have idleBetween := @idle_addRow table engine handle idle row .insert
      rw [added] at idleBetween
      obtain ⟨admits, middle, ok, passes, published⟩ :=
        (addRow_eq_done_iff idle lends found).mp added
      obtain ⟨admitsRest, changed, inserts, passesRest, publishedRest⟩ :=
        (inductionHypothesis idleBetween (published ▸ lends.publish table.name middle)
          StoreData.table?_setTable).mp ran
      rw [published, Registry.publish_publish] at publishedRest
      exact ⟨⟨admits, admitsRest⟩, changed, .cons ok inserts, ⟨_, passes, passesRest⟩,
        publishedRest⟩
    · rintro ⟨⟨admits, admitsRest⟩, changed, inserts, ⟨later, passes, passesRest⟩, published⟩
      cases inserts with
      | @cons _ middle _ _ _ key others ok inserts =>
        have added := (@addRow_eq_done_iff table engine
          ⟨engine.registry.publish store table.name middle, later⟩ handle store record content row
          .insert key idle lends found).mpr ⟨admits, middle, ok, passes, rfl⟩
        have idleBetween := @idle_addRow table engine handle idle row .insert
        rw [added] at idleBetween
        refine ⟨key, others, _, rfl, added, ?_⟩
        refine (inductionHypothesis idleBetween (lends.publish table.name middle)
          StoreData.table?_setTable).mpr ⟨admitsRest, changed, inserts, passesRest, ?_⟩
        rw [Registry.publish_publish]
        exact published

end TableSchema

/-! ### What cannot be told apart -/

/-- Whoever reads cannot tell tables apart that resemble each other. -/
theorem Table.Resembles.alike {content other : Table} (resembles : content.Resembles other)
    (sound : content.Sound) (sound' : other.Sound) (transaction : Transaction) (name : String) :
    { transaction with data := transaction.data.setTable name content : Transaction }.Alike
      { transaction with data := transaction.data.setTable name other } := by
  have either (table : String) :
      ((transaction.data.setTable name content).table? table = .ok content ∧
        (transaction.data.setTable name other).table? table = .ok other) ∨
      (transaction.data.setTable name other).table? table =
        (transaction.data.setTable name content).table? table := by
    by_cases same : table = name
    · subst same
      exact .inl ⟨StoreData.table?_setTable, StoreData.table?_setTable⟩
    · exact .inr (by simp [same])
  constructor
  · intro table field range
    unfold Transaction.scanIndex
    rcases either table with ⟨here, here'⟩ | same
    · rw [here, here']
      exact resembles.scanIndex sound sound' field range
    · rw [same]
  · intro table range
    unfold Transaction.scanPrimary
    rcases either table with ⟨here, here'⟩ | same
    · rw [here, here']
      exact resembles.scanPrimary range
    · rw [same]
  · intro table
    rcases either table with ⟨here, here'⟩ | same
    · rw [here, here']
      exact congrArg Except.ok resembles.nextKey
    · rw [same]

/-- Whoever reads a store finds the table that has been published in it. -/
theorem Registry.beginRead_publish {registry : Registry} {store : StoreId} {name : String}
    {table : Table} {handle : HandleId} : (registry.publish store name table).beginRead handle =
      (registry.beginRead handle).map fun transaction =>
        if store = transaction.store then
          { transaction with data := transaction.data.setTable name table }
        else transaction := by
  unfold Registry.beginRead
  rw [Registry.publish, Registry.handles_modifyStore]
  cases registry.handles[handle]? with
  | none => rfl
  | some entry =>
    dsimp only
    by_cases isStore : store = entry.store
    · subst isStore
      rw [Registry.getElem?_modifyStore]
      cases entry.isClosed <;> cases registry.stores[entry.store]? <;> simp [Except.map]
    · rw [Registry.getElem?_modifyStore_of_ne (Ne.symm isStore)]
      cases entry.isClosed <;> cases registry.stores[entry.store]? <;> simp [Except.map, isStore]

/-- Whoever reads cannot tell which of two tables has been published that resemble each other. -/
theorem Table.Resembles.alike_publish {content other : Table} (resembles : content.Resembles other)
    (sound : content.Sound) (sound' : other.Sound) (registry : Registry) (store : StoreId)
    (name : String) (faults : Faults) :
    (⟨registry.publish store name content, faults⟩ : Engine).Alike
      ⟨registry.publish store name other, faults⟩ := by
  refine ⟨rfl, fun handle => ?_⟩
  rw [Registry.beginRead_publish, Registry.beginRead_publish]
  cases registry.beginRead handle with
  | error failure => exact .refused failure
  | ok transaction =>
    refine .begun ?_
    dsimp only
    split
    · exact resembles.alike sound sound' transaction name
    · exact .refl transaction

/-! ### Batches in another order -/

/-- A batch of rows with keys that is inserted may be inserted in any order. -/
theorem TableSchema.runItems_insert_perm {table : TableSchema} {engine after : Engine}
    {handle : HandleId} {store : StoreId} {record : StoreRecord} {content : Table}
    {rows rows' : List Row} {keys : List Value} (idle : engine.registry.Idle)
    (lends : engine.registry.Lends handle store record)
    (found : record.data.table? table.name = .ok content) (sound : content.Sound)
    (keyed : content.Keyed rows) (reordered : rows.Perm rows')
    (ran : runItems (fun engine row => table.addRow engine handle row .insert) engine rows =
      (keys.map .done, after)) :
    ∃ (keys' : List Value) (after' : Engine),
      runItems (fun engine row => table.addRow engine handle row .insert) engine rows' =
        (keys'.map .done, after') ∧ keys'.Perm keys ∧ after.Alike after' := by
  obtain ⟨admits, changed, inserts, passes, published⟩ :=
    (runItems_insert_eq_done_iff idle lends found).mp ran
  obtain ⟨keys', changed', inserts', sameKeys, resembles⟩ := inserts.perm reordered sound keyed
  refine ⟨keys', ⟨engine.registry.publish store table.name changed', after.faults⟩,
    (runItems_insert_eq_done_iff idle lends found).mpr
      ⟨fun row member => admits row (reordered.mem_iff.mpr member), changed', inserts',
        reordered.length_eq ▸ passes, rfl⟩, sameKeys, ?_⟩
  have alike := resembles.alike_publish (inserts.sound sound) (inserts'.sound sound)
    engine.registry store table.name after.faults
  rw [← published] at alike
  exact alike

/-- Only a handle that lends a store with the table writes a row. -/
theorem TableSchema.lends_of_addRow {table : TableSchema} {engine after : Engine}
    {handle : HandleId} {row : Row} {mode : WriteMode} {key : Value} (idle : engine.registry.Idle)
    (added : table.addRow engine handle row mode = (.done key, after)) :
    ∃ store record content, engine.registry.Lends handle store record ∧
      record.data.table? table.name = .ok content := by
  have posts := @posts_addRow table engine handle idle row mode
  rw [added] at posts
  cases posts with
  | done lends found => exact ⟨_, _, _, lends, found⟩

namespace Connection

variable {connection : Connection} {engine after : Engine} {handle : HandleId}
  {table : TableSchema} {name : String} {mode : WriteMode} {schedule : Schedule}
  {rows rows' : List Row} {keys : List Value}

/-- A batch is done exactly if every row is in its turn. -/
theorem addMany_eq_done_iff (resolved : connection.resolve name = .ok (handle, table)) :
    connection.addMany engine name rows mode schedule = (.done keys, after) ↔
      runItems (fun engine row => table.addRow engine handle row mode) engine
          (schedule.arrange rows) =
        ((schedule.arrange keys).map .done, after) := by
  rw [addMany, resolved]
  dsimp only
  rw [Prod.mk.injEq, Reply.collect_eq_done_iff, fst_runAll, snd_runAll, Schedule.restore_eq_iff,
    Schedule.arrange_map, Prod.ext_iff]

/-- A batch of rows with keys that is done may be done in any order, and nobody can tell. -/
theorem addMany_perm (reached : engine.Reached)
    (keyed : ∀ table content, connection.Sees engine name table content → content.Keyed rows)
    (reordered : rows.Perm rows') (schedule' : Schedule)
    (added : connection.addMany engine name rows .insert schedule = (.done keys, after)) :
    ∃ keys' after',
      connection.addMany engine name rows' .insert schedule' = (.done keys', after') ∧
        keys'.Perm keys ∧ after.Alike after' := by
  have turns : (schedule.arrange rows).Perm (schedule'.arrange rows') :=
    (schedule.perm_arrange rows).trans (reordered.trans (schedule'.perm_arrange rows').symm)
  cases resolved : connection.resolve name with
  | error failure =>
    rw [addMany, resolved] at added
    cases added
  | ok entry =>
    obtain ⟨handle, table⟩ := entry
    have ran := (addMany_eq_done_iff resolved).mp added
    suffices others : ∃ (keys' : List Value) (after' : Engine),
        runItems (fun engine row => table.addRow engine handle row .insert) engine
            (schedule'.arrange rows') = (keys'.map .done, after') ∧
          keys'.Perm (schedule.arrange keys) ∧ after.Alike after' by
      obtain ⟨keys', after', ran', sameKeys, alike⟩ := others
      refine ⟨schedule'.restore keys', after', (addMany_eq_done_iff resolved).mpr ?_, ?_, alike⟩
      · rw [Schedule.arrange_restore]
        exact ran'
      · exact (schedule'.perm_restore keys').trans (sameKeys.trans (schedule.perm_arrange keys))
    cases listed : schedule.arrange rows with
    | nil =>
      rw [listed] at turns ran
      rw [List.nil_perm.mp turns]
      exact ⟨schedule.arrange keys, after, ran, .refl _, .refl after⟩
    | cons row rest =>
      rw [listed] at turns ran
      obtain ⟨_, _, _, -, first, -⟩ := runItems_cons_eq_done_iff.mp ran
      obtain ⟨store, record, content, lends, found⟩ :=
        TableSchema.lends_of_addRow reached.idle first
      have sees : connection.Sees engine name table content :=
        sees_iff.mpr ⟨handle, record.data, resolved, lends.published, found⟩
      have keyedTurns : content.Keyed (row :: rest) := fun row member =>
        keyed table content sees row (Schedule.mem_arrange.mp (listed ▸ member))
      exact TableSchema.runItems_insert_perm reached.idle lends found (sound_of_sees reached sees)
        keyedTurns turns ran

/-- A batch of rows with keys may be inserted in any order. If it is done in one order, it is done
in every order, and with every order of turns, whichever calls are going to be struck, and gives the
same keys. Nobody can tell afterwards which order it was: every scan of every table finds the same
through whatever handle, the generated keys go on alike, and through every connection the same is
selected and counted. -/
theorem batch_order_is_immaterial (reached : engine.Reached)
    (keyed : ∀ table content, connection.Sees engine name table content → content.Keyed rows)
    (reordered : rows.Perm rows') (schedule' : Schedule)
    (added : connection.addMany engine name rows .insert schedule = (.done keys, after)) :
    ∃ keys' after',
      connection.addMany engine name rows' .insert schedule' = (.done keys', after') ∧
        keys'.Perm keys ∧ after.Alike after' ∧
        ∀ (other : Connection) (name' : String) (query : Query),
          (other.select after' name' query).1 = (other.select after name' query).1 ∧
          (other.count after' name' query).1 = (other.count after name' query).1 := by
  obtain ⟨keys', after', added', sameKeys, alike⟩ :=
    addMany_perm reached keyed reordered schedule' added
  exact ⟨keys', after', added', sameKeys, alike, fun other name' query =>
    ⟨(sameAnswer_select alike other name' query).answer_eq,
      (sameAnswer_count alike other name' query).answer_eq⟩⟩

end Connection

namespace People

/-- Twins of one age, which is an integer with one of them and a double with the other. -/
def twins : List Row :=
  [person 3 "Rory" "Gilmore" 22, (person 4 "Jane" "Gilmore" 22).set "age" (.float (.ofInt 22))]

/-- The twins may be added in either order. -/
theorem twins_in_either_order : ∃ keys after keys' after',
    two.connection.addMany two.engine people.name twins .insert .inOrder = (.done keys, after) ∧
      two.connection.addMany two.engine people.name twins.reverse .insert .inOrder =
          (.done keys', after') ∧
      keys'.Perm keys ∧ after.Alike after' := by
  have accepted :
      (two.connection.addMany two.engine people.name twins .insert .inOrder).1.result?.isSome := by
    decide +kernel
  have keyField : two.connection.inspect? two.engine people.name Table.keyField = some "id" := by
    decide +kernel
  have keyed (table : TableSchema) (content : Table)
      (sees : two.connection.Sees two.engine people.name table content) : content.Keyed twins := by
    rw [Connection.inspect?_of_sees sees] at keyField
    rw [Table.Keyed, show content.keyField = "id" from Option.some.inj keyField]
    decide
  cases added : two.connection.addMany two.engine people.name twins .insert .inOrder with
  | mk reply after =>
    rw [added] at accepted
    cases reply with
    | failed failure => cases accepted
    | waiting => cases accepted
    | done keys =>
      obtain ⟨keys', after', added', sameKeys, alike, -⟩ := Connection.batch_order_is_immaterial
        reached_two keyed (List.reverse_perm twins).symm .inOrder added
      exact ⟨keys, after, keys', after', rfl, added', sameKeys, alike⟩

end People

end IndexedStore
