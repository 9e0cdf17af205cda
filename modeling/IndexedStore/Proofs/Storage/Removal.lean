/-
This file says what a deletion inside a transaction does. Whatever has happened before, all bytes
that a table keeps are those of rows. A deletion that succeeds takes out the row under the key and
its index entries, and nothing else. A deletion that fails leaves the data as it was, so that
nothing of it is published when the transaction commits, unless the row under the key is one that
no reader can take: such a row is taken out although the deletion fails, and its index entries
stay.
-/

import IndexedStore.Proofs.Storage.Holdings
import IndexedStore.Proofs.Storage.Upgrades
import IndexedStore.Proofs.Storage.Writers
import Mathlib.Data.List.Forall2

namespace IndexedStore

/-! ### Tables -/

namespace Table

variable {table changed after : Table} {key : Value} {row : Row}

/-- All bytes that a table keeps are those of rows. -/
def HoldsRows (table : Table) : Prop :=
  ∀ entry ∈ table.rows.entries, ∃ row : Row, row.encode = .ok entry.2

theorem HoldsRows.put (holds : table.HoldsRows) {mode : WriteMode}
    (ok : table.put row mode = (.ok key, changed)) : changed.HoldsRows := by
  obtain ⟨full, _, bytes, -, -, written, -, rfl⟩ := put_eq_ok_iff.mp ok
  intro entry member
  rcases KeyMap.mem_insertEntry member with before | ⟨isNew, -⟩
  · exact holds entry before
  · exact ⟨full, isNew ▸ written⟩

theorem HoldsRows.erase (holds : table.HoldsRows) (key : Value) :
    ({ table with rows := table.rows.erase key } : Table).HoldsRows :=
  fun entry member => holds entry (List.mem_filter.mp member).1

/-- A deletion keeps this true even if it fails. -/
theorem HoldsRows.delete (holds : table.HoldsRows) (key : Value) :
    (table.delete key).2.HoldsRows := by
  unfold Table.delete
  split
  · exact holds
  · dsimp only
    split <;> exact holds.erase key

theorem HoldsRows.createIndex (holds : table.HoldsRows) {field : String} {options : IndexOptions}
    {result : Except EngineError Unit}
    (called : table.createIndex field options = (result, changed)) : changed.HoldsRows := by
  cases result with
  | error failure => exact createIndex_eq_error called ▸ holds
  | ok _ =>
    obtain ⟨-, _, -, rfl⟩ := createIndex_eq_ok called
    exact holds

theorem HoldsRows.exists_stores (holds : table.HoldsRows) (present : table.rows.contains key) :
    ∃ row, table.rows.Stores key row := by
  obtain ⟨bytes, found⟩ := Option.isSome_iff_exists.mp present
  obtain ⟨entry, member, -, rfl⟩ := KeyMap.exists_entry_of_lookup found
  obtain ⟨row, written⟩ := holds entry member
  exact ⟨row, entry.2, found, written⟩

/-- The row under a key has been taken out, and its keys out of every index. -/
structure Removes (table after : Table) (key : Value) (row : Row) : Prop where
  /-- Everything but the rows and the indexes stays. -/
  same : after = { table with rows := after.rows, indexes := after.indexes }
  /-- The key has no row, and every other key has the row that it had. -/
  rows : ∀ other, after.rows.get? other = if other == key then none else table.rows.get? other
  /-- The key is no owner of the index keys of the row any more. Every index stays, and has all its
  other owners. -/
  indexes : List.Forall₂ (fun before after => after.1 = before.1 ∧
    after.2.options = before.2.options ∧ ∀ own,
      (row.HasKey before.1 before.2.options.multiEntry own →
        after.2.ownersOf own = (before.2.ownersOf own).erase key) ∧
      (¬row.HasKey before.1 before.2.options.multiEntry own →
        after.2.ownersOf own = before.2.ownersOf own)) table.indexes after.indexes

/-- Dropping the index keys of a row. -/
theorem ownersOf_dropOwners_keysFor {field : String} {index : Index} {own : Value} :
    (row.HasKey field index.options.multiEntry own →
      (index.dropOwners key (index.keysFor field row)).ownersOf own =
        (index.ownersOf own).erase key) ∧
    (¬row.HasKey field index.options.multiEntry own →
      (index.dropOwners key (index.keysFor field row)).ownersOf own = index.ownersOf own) := by
  rw [Index.ownersOf_dropOwners, ← Index.exists_mem_keysFor]
  simp +contextual [List.any_eq_true]

theorem removes_dropOwners :
    table.Removes { table with
      rows := table.rows.erase key
      indexes := table.indexes.map fun (field, index) =>
        (field, index.dropOwners key (index.keysFor field row)) } key row where
  same := rfl
  rows _ := KeyMap.get?_erase
  indexes := by
    rw [List.forall₂_map_right_iff]
    exact List.forall₂_same.mpr fun entry _ =>
      ⟨rfl, Index.options_dropOwners, fun _ => ownersOf_dropOwners_keysFor⟩

/-- Rows that are stored under one key are taken out together. -/
theorem Removes.congr {other : Row} (removes : table.Removes after key row)
    (stored : table.rows.Stores key row) (stored' : table.rows.Stores key other) :
    table.Removes after key other := by
  refine ⟨removes.same, removes.rows, removes.indexes.imp fun before after kept => ?_⟩
  simpa only [KeyMap.hasKey_of_stores stored stored'] using kept

/-- What a deletion does: there is nothing to delete, or the row is taken out, or the row cannot be
read and only its bytes are taken out. -/
theorem delete_cases (holds : table.HoldsRows) (key : Value) :
    (table.rows.get? key = none ∧ table.delete key = (.ok (), table)) ∨
    (∃ row after, table.rows.Stores key row ∧ row.Readable ∧
      table.delete key = (.ok (), after) ∧ table.Removes after key row) ∨
    ∃ row cause, table.rows.Stores key row ∧ ¬row.Readable ∧
      table.delete key = (.error (.codec cause), { table with rows := table.rows.erase key }) := by
  unfold delete
  cases found : table.rows.get? key with
  | none => exact .inl ⟨rfl, rfl⟩
  | some bytes =>
    right
    obtain ⟨row, stored⟩ := holds.exists_stores (Option.isSome_iff_exists.mpr ⟨bytes, found⟩)
    obtain ⟨_, here, written⟩ := id stored
    cases found.symm.trans here
    have readable := Row.readable_iff written
    dsimp only
    cases read : Row.decode bytes with
    | error cause =>
      refine .inr ⟨row, cause, stored, fun isReadable => ?_, rfl⟩
      obtain ⟨_, read'⟩ := readable.mp isReadable
      cases read.symm.trans read'
    | ok previous =>
      have stored' : table.rows.Stores key previous :=
        ⟨bytes, found, Row.encode_of_decode written read⟩
      exact .inl ⟨row, _, stored, readable.mpr ⟨previous, read⟩, rfl,
        removes_dropOwners.congr stored' stored⟩

/-- Of the rows stored under one key a reader can take all or none. -/
theorem readable_congr {other : Row} (stored : table.rows.Stores key row)
    (stored' : table.rows.Stores key other) : row.Readable ↔ other.Readable := by
  obtain ⟨bytes, found, written⟩ := stored
  obtain ⟨_, found', written'⟩ := stored'
  cases found.symm.trans found'
  rw [Row.readable_iff written, Row.readable_iff written']

end Table

/-! ### Stores -/

namespace StoreData

variable {data changed : StoreData} {name : String} {table : Table}

/-- All bytes that the tables of a store keep are those of rows. -/
def HoldsRows (data : StoreData) : Prop := ∀ entry ∈ data.tables, entry.2.HoldsRows

theorem holdsRows_empty : ({} : StoreData).HoldsRows := nofun

theorem HoldsRows.table? (holds : data.HoldsRows) (found : data.table? name = .ok table) :
    table.HoldsRows :=
  holds (name, table) (mem_of_lookup (table?_eq_ok_iff.mp found))

theorem HoldsRows.setTable (holds : data.HoldsRows) (holdsTable : table.HoldsRows) :
    (data.setTable name table).HoldsRows := by
  intro entry member
  rcases mem_assign member with rfl | before
  · exact holdsTable
  · exact holds entry before

/-- Every change keeps this true, whether it succeeds or not. -/
theorem HoldsRows.apply (holds : data.HoldsRows) (change : Change) :
    (change.apply data).HoldsRows := by
  cases change with
  | write table row mode =>
    rw [Change.apply]
    split
    · rename_i content found
      split
      · rename_i key changed ok
        exact holds.setTable ((holds.table? found).put ok)
      · exact holds
    · exact holds
  | delete table key =>
    rw [Change.apply]
    split
    · rename_i content found
      exact holds.setTable ((holds.table? found).delete key)
    · exact holds

theorem HoldsRows.applyAll (holds : data.HoldsRows) (asked : List Change) :
    (asked.foldl Change.apply data).HoldsRows := by
  induction asked generalizing data with
  | nil => exact holds
  | cons change rest inductionHypothesis => exact inductionHypothesis (holds.apply change)

theorem HoldsRows.createTable (holds : data.HoldsRows) {keyField : String} {autoIncrement : Bool}
    {result : Except EngineError Unit}
    (called : data.createTable name keyField autoIncrement = (result, changed)) :
    changed.HoldsRows := by
  rcases createTable_cases called with ⟨-, rfl⟩ | ⟨-, -, rfl⟩
  · exact holds
  · exact holds.setTable (List.forall_mem_nil _)

theorem HoldsRows.createIndex (holds : data.HoldsRows) {field : String} {options : IndexOptions}
    {result : Except EngineError Unit}
    (called : data.createIndex name field options = (result, changed)) : changed.HoldsRows := by
  rcases onTable_cases called with ⟨-, rfl⟩ | ⟨content, after, found, created, rfl⟩
  · exact holds
  · exact holds.setTable ((holds.table? found).createIndex created)

/-- Every action keeps this true, whether it succeeds or not. -/
theorem HoldsRows.act (holds : data.HoldsRows) {action : UpgradeAction} {old new : Nat}
    {result : Except EngineError UpgradeAnswer}
    (ran : action.run old new data = (result, changed)) : changed.HoldsRows := by
  cases action with
  | createTable table keyField autoIncrement =>
    exact holds.createTable (Prod.ext rfl (Prod.mk.inj ran).2)
  | createIndex table field options =>
    exact holds.createIndex (Prod.ext rfl (Prod.mk.inj ran).2)
  | hasTable | hasIndex | indexOptions | versions | fail =>
    cases ran
    exact holds

theorem HoldsRows.becomes (holds : data.HoldsRows) {old new : Nat} {made : List UpgradeAction}
    (becomes : Becomes old new data made changed) : changed.HoldsRows := by
  induction becomes with
  | refl => exact holds
  | step ran _ inductionHypothesis => exact inductionHypothesis (holds.act ran)

end StoreData

/-- What a deletion by a writer does. -/
inductive Deletes (data : StoreData) (name : String) (key : Value) :
    Except EngineError Unit → StoreData → Prop where
  /-- There is no such table. -/
  | absent {failure : EngineError} (absent : data.table? name = .error failure) :
    Deletes data name key (.error failure) data
  /-- There is no row to delete. -/
  | nothing {table : Table} (found : data.table? name = .ok table)
    (free : table.rows.get? key = none) : Deletes data name key (.ok ()) data
  /-- The row is taken out. -/
  | removed {table after : Table} {row : Row} (found : data.table? name = .ok table)
    (stored : table.rows.Stores key row) (readable : row.Readable)
    (removes : table.Removes after key row) :
    Deletes data name key (.ok ()) (data.setTable name after)
  /-- The row cannot be read. -/
  | stuck {table : Table} {row : Row} {cause : CodecError} (found : data.table? name = .ok table)
    (stored : table.rows.Stores key row) (unreadable : ¬row.Readable) :
    Deletes data name key (.error (.codec cause))
      (data.setTable name { table with rows := table.rows.erase key })

theorem Transaction.deletes_delete {transaction : Transaction}
    (mode : transaction.mode = .readWrite) (holds : transaction.data.HoldsRows) (name : String)
    (key : Value) :
    Deletes transaction.data name key (transaction.delete name key).1
      (transaction.delete name key).2.data := by
  cases found : transaction.data.table? name with
  | error failure => simpa [Transaction.delete, mode, found] using Deletes.absent found
  | ok table =>
    rcases table.delete_cases (holds.table? found) key with
      ⟨free, deleted⟩ | ⟨row, after, stored, readable, deleted, removes⟩ |
      ⟨row, cause, stored, unreadable, deleted⟩
    · simpa [Transaction.delete, mode, found, deleted] using Deletes.nothing found free
    · simpa [Transaction.delete, mode, found, deleted] using
        Deletes.removed found stored readable removes
    · simpa [Transaction.delete, mode, found, deleted] using Deletes.stuck found stored unreadable

namespace Deletes

variable {data changed : StoreData} {name : String} {key : Value}
  {result : Except EngineError Unit} {failure : EngineError} {table : Table}

theorem eq_ok_iff (deletes : Deletes data name key result changed) :
    result = .ok () ↔ ∃ table, data.table? name = .ok table ∧
      ∀ row, table.rows.Stores key row → row.Readable := by
  cases deletes with
  | absent absent =>
    refine iff_of_false nofun ?_
    rintro ⟨table, found, -⟩
    cases absent.symm.trans found
  | nothing found free =>
    refine iff_of_true rfl ⟨_, found, ?_⟩
    rintro row ⟨bytes, here, -⟩
    cases free.symm.trans here
  | removed found stored readable removes =>
    exact iff_of_true rfl ⟨_, found, fun other stored' =>
      (Table.readable_congr stored stored').mp readable⟩
  | stuck found stored unreadable =>
    refine iff_of_false nofun ?_
    rintro ⟨table, found', readable⟩
    cases found.symm.trans found'
    exact unreadable (readable _ stored)

/-- A deletion that has succeeded has taken out what there was under the key, and nothing else. -/
theorem of_eq_ok (deletes : Deletes data name key (.ok ()) changed) :
    ∃ table, data.table? name = .ok table ∧
      (table.rows.get? key = none ∧ changed = data ∨
        ∃ row after, table.rows.Stores key row ∧ changed = data.setTable name after ∧
          table.Removes after key row) := by
  cases deletes with
  | nothing found free => exact ⟨_, found, .inl ⟨free, rfl⟩⟩
  | removed found stored readable removes =>
    exact ⟨_, found, .inr ⟨_, _, stored, rfl, removes⟩⟩

/-- A deletion that has failed has left the data as it was, unless the row cannot be read. -/
theorem eq_iff_of_eq_error (deletes : Deletes data name key (.error failure) changed) :
    changed = data ↔ ¬∃ table row, data.table? name = .ok table ∧ table.rows.Stores key row ∧
      ¬row.Readable := by
  cases deletes with
  | absent absent =>
    refine iff_of_true rfl ?_
    rintro ⟨table, row, found, -⟩
    cases absent.symm.trans found
  | @stuck table row cause found stored unreadable =>
    refine iff_of_false (fun same => ?_) (not_not.mpr ⟨table, row, found, stored, unreadable⟩)
    -- The row was there, and is not there any more.
    have erased := congrArg (StoreData.table? · name) same
    simp only [StoreData.table?_setTable, found, Except.ok.injEq] at erased
    obtain ⟨bytes, here, -⟩ := stored
    rw [← erased] at here
    simp at here

/-- A deletion that has failed on a table has met a row that cannot be read, and has taken out its
bytes. -/
theorem of_eq_error (deletes : Deletes data name key (.error failure) changed)
    (found : data.table? name = .ok table) :
    (∃ row, table.rows.Stores key row ∧ ¬row.Readable) ∧ (∃ cause, failure = .codec cause) ∧
      changed = data.setTable name { table with rows := table.rows.erase key } := by
  cases deletes with
  | absent absent => cases absent.symm.trans found
  | stuck found' stored unreadable =>
    cases found.symm.trans found'
    exact ⟨⟨_, stored, unreadable⟩, ⟨_, rfl⟩, rfl⟩

end Deletes

/-! ### What is published -/

section Contributions

variable {ρ : Type} {data : StoreData} {store : StoreId}

/-- An upgrade decides what to do from the answers that it gets. -/
def Upgrade.IsProgram (upgrade : Upgrade ρ) : Prop :=
  ∃ program : UpgradeProgram ρ, upgrade = program.upgrade

/-- What is published are the changes of a transaction, or an upgrade that decides what to do from
the answers that it gets. -/
def Contribution.IsProgram : Contribution ρ → Prop
  | .changes _ => True
  | .upgrade run _ _ => run.IsProgram

theorem StoreData.HoldsRows.contribution (holds : data.HoldsRows) {contribution : Contribution ρ}
    (isProgram : contribution.IsProgram) : (contribution.apply data).HoldsRows := by
  cases contribution with
  | changes asked => exact holds.applyAll asked
  | upgrade upgrade old new =>
    obtain ⟨program, rfl⟩ := isProgram
    rw [Contribution.apply]
    split
    · exact holds.becomes UpgradeProgram.becomes_run
    · exact holds

theorem StoreData.HoldsRows.contribute (holds : data.HoldsRows)
    {contributions : List (StoreId × Contribution ρ)}
    (programs : ∀ entry ∈ contributions, entry.2.IsProgram) :
    (contribute store data contributions).HoldsRows := by
  unfold IndexedStore.contribute
  induction contributions generalizing data with
  | nil => exact holds
  | cons entry rest inductionHypothesis =>
    rw [List.forall_mem_cons] at programs
    refine inductionHypothesis ?_ programs.2
    dsimp only
    split
    · exact holds.contribution programs.1
    · exact holds

end Contributions

namespace Activity

variable {ρ : Type} {activity later : Activity} {store : StoreId} {id : WorkId} {work : Work}

/-- All upgrades among some steps decide what to do from the answers that they get. -/
def ProgramsOnly (actions : List (Action ρ)) : Prop :=
  ∀ name version upgrade, .openStore name version upgrade ∈ actions → upgrade.IsProgram

theorem isProgram_of_publication? {action : Action ρ} {entry : StoreId × Contribution ρ}
    (programs : ∀ name version upgrade, action = .openStore name version upgrade →
      upgrade.IsProgram)
    (published : activity.publication? action = some entry) : entry.2.IsProgram := by
  unfold publication? at published
  split at published
  · rename_i name version upgrade
    split at published
    · cases published
      exact programs name version upgrade rfl
    · cases published
  · split at published
    · split at published
      · cases published
        trivial
      · cases published
    · cases published
  · cases published

theorem isProgram_of_mem_publications {actions : List (Action ρ)}
    (programs : ProgramsOnly actions) :
    ∀ entry ∈ activity.publications actions, entry.2.IsProgram := by
  induction actions generalizing activity with
  | nil => exact nofun
  | cons action rest inductionHypothesis =>
    refine List.forall_mem_append.mpr ⟨fun entry member => ?_, ?_⟩
    · refine isProgram_of_publication? (fun name version upgrade same => ?_)
        (Option.mem_toList.mp member)
      exact programs name version upgrade (same ▸ List.mem_cons_self)
    · exact inductionHypothesis fun name version upgrade member =>
        programs name version upgrade (List.mem_cons_of_mem _ member)

/-- All bytes that a writer works on are those of rows. -/
theorem holdsRows_of_writes {actions : List (Action ρ)} (programs : ProgramsOnly actions)
    (ran : Activity.run {} actions = activity) (writes : activity.Writes id work store) :
    work.transaction.data.HoldsRows := by
  have sound : activity.Sound (Activity.publications {} actions) := by
    rw [← ran]
    exact sound_start.run actions
  obtain ⟨-, own, -⟩ := (sound.stands store).of_writes writes
  have published : (contribute store {} (Activity.publications {} actions)).HoldsRows :=
    StoreData.holdsRows_empty.contribute (isProgram_of_mem_publications programs)
  exact own ▸ published.applyAll work.asked

/-! ### A writer that goes on -/

/-- A transaction has been asked for more changes, and has made them. -/
structure Continues (before later : Work) (more : List Change) : Prop where
  /-- The changes were asked for last. -/
  asked : later.asked = before.asked ++ more
  /-- They were made to what there was. -/
  data : later.transaction.data = more.foldl Change.apply before.transaction.data

theorem Continues.refl : Continues work work [] := ⟨(List.append_nil _).symm, rfl⟩

theorem Continues.trans {first second third : Work} {more most : List Change}
    (near : Continues first second more) (far : Continues second third most) :
    Continues first third (more ++ most) where
  asked := by simp [far.asked, near.asked]
  data := by simp [far.data, near.data]

theorem continues_ask (mode : work.transaction.mode = .readWrite) (change : Change) :
    Continues work (work.ask change) [change] where
  asked := rfl
  data := by simp [Work.ask, mode]

/-- A writer that was there before a step goes on with what it had. -/
theorem continues_act (begun : id < activity.works.length) (action : Action ρ)
    (writes : (activity.act action).Writes id work store) :
    ∃ before more, activity.Writes id before store ∧ Continues before work more := by
  cases action with
  | begin handle mode =>
    cases began : activity.registry.begin handle mode with
    | mk outcome after =>
      rw [act, began] at writes
      cases outcome with
      | failed cause => exact ⟨work, [], writes, .refl⟩
      | waiting => exact ⟨work, [], writes, .refl⟩
      | done transaction =>
        rcases writes_concat_iff.mp writes with before | ⟨isNew, -⟩
        · exact ⟨work, [], before, .refl⟩
        · exact absurd isNew (Nat.ne_of_lt begun)
  | change target change =>
    obtain ⟨before, writing, rfl⟩ := writes_modify_iff.mp writes
    split
    · exact ⟨before, [change], writing, continues_ask writing.2.1 change⟩
    · exact ⟨before, [], writing, .refl⟩
  | commit target => exact ⟨work, [], (writes_finish_iff.mp writes).2, .refl⟩
  | drop target => exact ⟨work, [], (writes_finish_iff.mp writes).2, .refl⟩
  | openStore | deleteStore | close | scanIndex | scanPrimary =>
    exact ⟨work, [], writes, .refl⟩

theorem continues_run (begun : id < activity.works.length) (actions : List (Action ρ))
    (writes : (activity.run actions).Writes id work store) :
    ∃ before more, activity.Writes id before store ∧ Continues before work more := by
  induction actions generalizing activity with
  | nil => exact ⟨work, [], writes, .refl⟩
  | cons action rest inductionHypothesis =>
    obtain ⟨between, most, writing, far⟩ :=
      inductionHypothesis (Nat.lt_of_lt_of_le begun (length_works_act action)) writes
    obtain ⟨before, more, writing', near⟩ := continues_act begun action writing
    exact ⟨before, more ++ most, writing', near.trans far⟩

theorem lt_length_of_writes (writes : activity.Writes id work store) :
    id < activity.works.length := by
  by_contra beyond
  have alive := writes.1
  rw [work?, List.getElem?_eq_none (Nat.le_of_not_lt beyond)] at alive
  cases alive

/-- Whatever a writer does after a change, its commit publishes what its later changes make of what
the change has made. -/
theorem commit_after_change {history : List (StoreId × Contribution ρ)} {final : Work}
    {rest : List (Action ρ)} (sound : activity.Sound history)
    (writes : activity.Writes id work store) (change : Change)
    (ran : (activity.act (.change id change : Action ρ)).run rest = later)
    (writing : later.Writes id final store) :
    ∃ more published, final.asked = work.asked ++ change :: more ∧
      later.registry.state? store = some ⟨published, true⟩ ∧
      (later.act (.commit id : Action ρ)).registry.state? store =
        some ⟨if (later.registry.commit final.transaction).1.isOk then
          more.foldl Change.apply (change.ask work.transaction).data else published, false⟩ := by
  have soundLater := (sound.act (.change id change)).run rest
  rw [ran] at soundLater
  have asked : (activity.act (.change id change : Action ρ)).Writes id (work.ask change) store :=
    writes_modify_iff.mpr ⟨work, writes, by rw [if_pos rfl]⟩
  obtain ⟨before, more, writing', continues⟩ :=
    continues_run (lt_length_of_writes asked) rest (ran ▸ writing)
  cases Option.some.inj (writing'.1.symm.trans asked.1)
  obtain ⟨published, stands⟩ : ∃ published, later.Stands store published :=
    ⟨_, soundLater.stands store⟩
  obtain ⟨known, own, -⟩ := stands.of_writes writing
  refine ⟨more, published, ?_, known, ?_⟩
  · simp [continues.asked, Work.ask]
  · have committed := stands.state?_commit writing (soundLater.tracked id final writing.1)
    rw [← own, continues.data] at committed
    simp [writing.1, committed, Work.ask]

/-! ### Deletions -/

/-- A deletion in a transaction that writes, at any time, succeeds exactly if there is the table and
the row under the key, if there is one, is one that a reader can take. Then the row and its index
entries are gone, if there was one, and nothing else has changed. A deletion that fails changes the
data only by taking out the bytes of a row that no reader can take. A later commit publishes what
the later changes of the transaction make of the data that the deletion has left. -/
theorem deletion_is_atomic_if_readable {actions : List (Action ρ)}
    (programs : ProgramsOnly actions) (ran : Activity.run {} actions = activity)
    (writes : activity.Writes id work store) (name : String) (key : Value)
    {result : Except EngineError Unit} {changed : Transaction}
    (deleted : work.transaction.delete name key = (result, changed)) :
    (result = .ok () ↔ ∃ table, work.transaction.data.table? name = .ok table ∧
      ∀ row, table.rows.Stores key row → row.Readable) ∧
    (result = .ok () → ∃ table, work.transaction.data.table? name = .ok table ∧
      (table.rows.get? key = none ∧ changed.data = work.transaction.data ∨
        ∃ row after, table.rows.Stores key row ∧
          changed.data = work.transaction.data.setTable name after ∧
          table.Removes after key row)) ∧
    (∀ failure, result = .error failure →
      (changed.data = work.transaction.data ↔ ¬∃ table row,
        work.transaction.data.table? name = .ok table ∧ table.rows.Stores key row ∧
          ¬row.Readable) ∧
      ∀ table, work.transaction.data.table? name = .ok table →
        (∃ row, table.rows.Stores key row ∧ ¬row.Readable) ∧
        (∃ cause, failure = .codec cause) ∧
        changed.data = work.transaction.data.setTable name
          { table with rows := table.rows.erase key }) ∧
    ∀ (rest : List (Action ρ)) later final,
      (activity.act (.change id (.delete name key) : Action ρ)).run rest = later →
      later.Writes id final store →
      ∃ more published, final.asked = work.asked ++ .delete name key :: more ∧
        later.registry.state? store = some ⟨published, true⟩ ∧
        (later.act (.commit id : Action ρ)).registry.state? store =
          some ⟨if (later.registry.commit final.transaction).1.isOk then
            more.foldl Change.apply changed.data else published, false⟩ := by
  have deletes := Transaction.deletes_delete writes.2.1 (holdsRows_of_writes programs ran writes)
    name key
  rw [deleted] at deletes
  refine ⟨deletes.eq_ok_iff, ?gone, ?fails, ?published⟩
  case gone =>
    rintro rfl
    exact deletes.of_eq_ok
  case fails =>
    rintro failure rfl
    exact ⟨deletes.eq_iff_of_eq_error, fun _ => deletes.of_eq_error⟩
  case published =>
    intro rest later final ran' writing
    have sound : activity.Sound (Activity.publications {} actions) := by
      rw [← ran]
      exact sound_start.run actions
    have left : (Change.ask work.transaction (.delete name key)).data = changed.data := by
      rw [Change.ask, deleted]
    exact left ▸ commit_after_change sound writes _ ran' writing

/-- A store of notes is opened, and two notes are written by a transaction that goes on. -/
def twoNotes : List (Action UpgradeLog) := [
  .openStore "notes" 1 (.ofSteps [{ action := .createTable "notes" "id" true }]),
  .begin 0 .readWrite,
  .change 0 (.write "notes" (.ofFields [("topic", .text "tea")]) .put),
  .change 0 (.write "notes" (.ofFields [("topic", .text "ink")]) .put)]

/-- The first note is deleted. It is gone, the second one is there, and a commit publishes just
that. -/
theorem first_note_is_deleted : ∃ work after published,
    (Activity.run {} twoNotes).Writes 0 work 0 ∧
      (work.transaction.delete "notes" (.integer 1)).1 = .ok () ∧
      (work.transaction.delete "notes" (.integer 1)).2.data =
        work.transaction.data.setTable "notes" after ∧
      after.rows.get? (.integer 1) = none ∧ (after.rows.get? (.integer 2)).isSome ∧
      (((Activity.run {} twoNotes).act
        (.change 0 (.delete "notes" (.integer 1)) : Action UpgradeLog)).act
          (.commit 0 : Action UpgradeLog)).registry.state? 0 = some ⟨published, false⟩ ∧
      published = work.transaction.data.setTable "notes" after := by
  have programs : ProgramsOnly twoNotes := by
    intro name version upgrade member
    simp only [twoNotes, List.mem_cons, Action.openStore.injEq, reduceCtorEq, or_false,
      List.not_mem_nil] at member
    exact ⟨_, member.2.2 ▸ UpgradeProgram.upgrade_ofSteps _⟩
  have writes : (Activity.run {} twoNotes).Writes 0 _ 0 := ⟨rfl, rfl, rfl⟩
  obtain ⟨-, gone, -, commits⟩ :=
    deletion_is_atomic_if_readable programs rfl writes "notes" (.integer 1) rfl
  obtain ⟨table, found, ⟨free, -⟩ | ⟨row, after, -, left, removes⟩⟩ := gone rfl
  · cases found
    cases free
  · cases found
    obtain ⟨more, published, asked, -, committed⟩ := commits [] _ _ rfl ⟨rfl, rfl, rfl⟩
    refine ⟨_, after, _, writes, rfl, left, ?_, ?_, committed, ?_⟩
    · exact removes.rows (.integer 1)
    · rw [removes.rows (.integer 2)]
      rfl
    · cases asked
      exact left

end Activity

end IndexedStore
