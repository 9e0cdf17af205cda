/-
This file says what writing several rows comes to when calls are struck on its way. Each row is
written in a transaction of its own. A row that could not be written leaves nothing behind: the
registry is what it was, to the generated keys and the lock. So the batch has done exactly what
writing the other rows does where no call is struck, and they get the same keys.
-/

import IndexedStore.Proofs.Connection.FaultyDeletion
import IndexedStore.Proofs.Connection.Posting

namespace IndexedStore

/-! ### One row whose calls pass -/

/-- The calls that write one row pass, one after the other. -/
def Faults.Passes (faults later : Faults) : Prop :=
  ∃ begun written, faults.strike .begin = (false, begun) ∧
    begun.strike .write = (false, written) ∧ written.strike .commit = (false, later)

namespace Engine

variable {engine opened : Engine} {handle : HandleId} {store : StoreId} {record : StoreRecord}
  {registry : Registry} {later : Faults}

theorem Quiet.passes (quiet : engine.Quiet) : engine.faults.Passes engine.faults := by
  have unstruck (call : EngineCall) : engine.faults.strike call = (false, engine.faults) := by
    rw [Faults.strike, quiet call]
  exact ⟨_, _, unstruck .begin, unstruck .write, unstruck .commit⟩

theorem beginWrite_of_passes (passes : engine.faults.strike .begin = (false, later))
    (lends : engine.registry.Lends handle store record) :
    engine.beginWrite handle = (.done (.begun .readWrite store handle record.data),
      ⟨engine.registry.modifyStore store fun record => { record with hasWriter := true },
        later⟩) := by
  obtain ⟨entry, there, isOpen, rfl⟩ := lends.isOpen
  simp [beginWrite, strike, passes, Registry.beginWrite, there, isOpen, lends.here, lends.idle,
    Transaction.begun]

/-- A writer that has changed a table publishes it. -/
theorem finish_of_passes {α : Type} {result : α} {failed : EngineError → DatabaseError}
    {name : String} {changed : Table} (passes : opened.faults.strike .commit = (false, later))
    (lends : registry.Lends handle store record)
    (locked : opened.registry = registry.modifyStore store fun record =>
      { record with hasWriter := true }) :
    opened.finish { Transaction.begun .readWrite store handle record.data with
        isDirty := true, data := record.data.setTable name changed } result failed =
      (.done result, ⟨registry.publish store name changed, later⟩) := by
  have isOpen : opened.registry.isOpen handle := by
    simpa [locked] using lends.isOpen_handle
  rw [finish, commit, strike, passes]
  simp only [Transaction.begun, Bool.false_eq_true, if_false, Registry.commit, isOpen, if_true,
    Registry.discard]
  rw [locked, Registry.modifyStore_modifyStore, ← lends.committed]
  rfl

end Engine

namespace TableSchema

variable {table : TableSchema} {engine calm after : Engine} {handle : HandleId} {store : StoreId}
  {record : StoreRecord} {content changed : Table} {row : Row} {mode : WriteMode} {key : Value}

/-- A row has a key, or the engine may generate one. -/
def Admits (table : TableSchema) (row : Row) : Prop :=
  ¬((row.get? table.keyColumn).isNone ∧ !table.autoIncrement)

theorem admits_of_addRow
    (added : table.addRow engine handle row mode = (.done key, after)) : table.Admits row := by
  intro refused
  rw [addRow, if_pos refused] at added
  cases added

/-- A row that the table takes is written. -/
theorem addRow_of_passes {later : Faults} (passes : engine.faults.Passes later)
    (lends : engine.registry.Lends handle store record)
    (found : record.data.table? table.name = .ok content) (admits : table.Admits row)
    (ok : content.put row mode = (.ok key, changed)) :
    table.addRow engine handle row mode =
      (.done key, ⟨engine.registry.publish store table.name changed, later⟩) := by
  obtain ⟨begun, written, begins, writes, commits⟩ := passes
  have made : (Transaction.begun .readWrite store handle record.data).write table.name row mode =
      (.ok key, { Transaction.begun .readWrite store handle record.data with
        isDirty := true, data := record.data.setTable table.name changed }) := by
    simp [found, ok]
  rw [addRow, if_neg admits, transact, Engine.beginWrite_of_passes begins lends]
  simp only [Engine.write, Engine.alter, Engine.strike, writes, made, Bool.false_eq_true, if_false]
  exact Engine.finish_of_passes commits lends rfl

/-- A row that was written among faults is written without them, with the same key and the same
result. -/
theorem addRow_of_done (idle : engine.registry.Idle) (quiet : calm.Quiet)
    (same : calm.registry = engine.registry)
    (added : table.addRow engine handle row mode = (.done key, after)) :
    table.addRow calm handle row mode = (.done key, ⟨after.registry, calm.faults⟩) := by
  have admits := admits_of_addRow added
  have posts := @posts_addRow table engine handle idle row mode
  rw [added] at posts
  cases posts with
  | done lends found ok published =>
    rw [addRow_of_passes quiet.passes (same ▸ lends) found admits ok, published, same]

end TableSchema

/-! ### Several items -/

section Items

variable {α β : Type} {operate : Engine → α → Reply β × Engine} {engine : Engine} {items : List α}
  {index : Nat} {item : α}

/-- The reply on an item is that of its operation after those on the items before. -/
theorem runItems_take_succ (here : items[index]? = some item) :
    (runItems operate engine items).1[index]? =
        some (operate (runItems operate engine (items.take index)).2 item).1 ∧
      (runItems operate engine (items.take (index + 1))).2 =
        (operate (runItems operate engine (items.take index)).2 item).2 := by
  induction items generalizing engine index with
  | nil => cases here
  | cons first rest inductionHypothesis =>
    cases index with
    | zero =>
      cases here
      exact ⟨rfl, rfl⟩
    | succ index => exact inductionHypothesis here

/-- The items whose operations have had a result. -/
def doneItems (items : List α) (replies : List (Reply β)) : List α :=
  ((items.zip replies).filter fun entry => entry.2.result?.isSome).map Prod.fst

theorem doneItems_cons {reply : Reply β} {replies : List (Reply β)} :
    doneItems (item :: items) (reply :: replies) =
      if reply.result?.isSome then item :: doneItems items replies
      else doneItems items replies := by
  rw [doneItems, List.zip_cons_cons, List.filter_cons]
  split <;> rfl

end Items

/-! ### Several rows -/

namespace TableSchema

variable {table : TableSchema} {engine calm after : Engine} {handle : HandleId} {mode : WriteMode}
  {rows : List Row} {replies : List (Reply Value)}

/-- Several rows are written one by one, and those that are done are written without faults
too. -/
theorem runItems_addRow (idle : engine.registry.Idle) (quiet : calm.Quiet)
    (same : calm.registry = engine.registry)
    (ran : runItems (fun engine row => table.addRow engine handle row mode) engine rows =
      (replies, after)) :
    (∀ reply ∈ replies, reply.isWaiting = false) ∧ after.registry.Idle ∧
      runItems (fun engine row => table.addRow engine handle row mode) calm
          (doneItems rows replies) =
        ((Outcome.results replies).map .done, ⟨after.registry, calm.faults⟩) := by
  induction rows generalizing engine calm replies with
  | nil =>
    cases ran
    exact ⟨nofun, idle, by rw [← same]; rfl⟩
  | cons row rest inductionHypothesis =>
    cases added : table.addRow engine handle row mode with
    | mk reply between =>
      cases ranRest : runItems (fun engine row => table.addRow engine handle row mode) between
          rest with
      | mk others last =>
        rw [runItems_cons, added, ranRest] at ran
        cases ran
        have idleBetween := @idle_addRow table engine handle idle row mode
        have posts := @posts_addRow table engine handle idle row mode
        rw [added] at idleBetween posts
        cases posts with
        | failed unchanged =>
          -- Nothing was written, and so the row may be left out.
          obtain ⟨finished, idleLast, kept⟩ :=
            inductionHypothesis idleBetween quiet (same.trans unchanged.symm) ranRest
          exact ⟨List.forall_mem_cons.mpr ⟨rfl, finished⟩, idleLast, kept⟩
        | @done _ _ _ _ key _ lends found ok published =>
          obtain ⟨finished, idleLast, kept⟩ :=
            @inductionHypothesis between ⟨between.registry, calm.faults⟩ others idleBetween quiet
              rfl ranRest
          refine ⟨List.forall_mem_cons.mpr ⟨rfl, finished⟩, idleLast, ?_⟩
          simp [doneItems_cons, addRow_of_done idle quiet same added, kept, Outcome.results]

/-- A row that fails leaves the registry as it was before it. -/
theorem registry_of_failed (idle : engine.registry.Idle) {index : Nat} {cause : DatabaseError}
    (failed : (runItems (fun engine row => table.addRow engine handle row mode) engine
      rows).1[index]? = some (.failed cause)) :
    (runItems (fun engine row => table.addRow engine handle row mode) engine
        (rows.take (index + 1))).2.registry =
      (runItems (fun engine row => table.addRow engine handle row mode) engine
        (rows.take index)).2.registry := by
  have bound : index < rows.length :=
    length_runItems ▸ (List.getElem?_eq_some_iff.mp failed).1
  obtain ⟨reply, engineAfter⟩ := @runItems_take_succ _ _
    (fun engine row => table.addRow engine handle row mode) engine rows index rows[index]
    (List.getElem?_eq_getElem bound)
  rw [failed, Option.some_inj] at reply
  have before : (runItems (fun engine row => table.addRow engine handle row mode) engine
      (rows.take index)).2.registry.Idle :=
    idle_runItems (fun _ row known => idle_addRow known row mode) idle _
  have posts := @posts_addRow table _ handle before rows[index] mode
  rw [engineAfter]
  generalize table.addRow (runItems (fun engine row => table.addRow engine handle row mode) engine
    (rows.take index)).2 handle rows[index] mode = ended at reply posts ⊢
  cases posts with
  | failed same => exact same
  | done => cases reply

end TableSchema

/-- Failures among replies that are all there are reported together. -/
theorem Reply.collect_of_failures {α : Type} {name : String} {replies : List (Reply α)}
    (finished : ∀ reply ∈ replies, reply.isWaiting = false)
    (failed : Outcome.failures 0 replies ≠ []) : Reply.collect name replies =
      .failed (.batch name replies.length (Outcome.failures 0 replies)) := by
  have counted := (@Reply.collect_of_finished _ name _ finished).2 failed
  cases collected : Reply.collect name replies <;> simp_all [Outcome.map]

namespace Connection

variable {connection : Connection} {engine after calm : Engine} {handle : HandleId}
  {table : TableSchema} {name : String} {mode : WriteMode} {schedule : Schedule} {rows : List Row}
  {replies : List (Reply Value)}

/-- The operation on a row of a table that the connection has. -/
theorem add_of_resolve (resolved : connection.resolve name = .ok (handle, table)) :
    (fun engine row => connection.add engine name row mode) =
      fun engine row => table.addRow engine handle row mode := by
  funext engine row
  rw [add, resolved]

theorem addMany_of_resolve (resolved : connection.resolve name = .ok (handle, table))
    (ran : runAll schedule (fun engine row => connection.add engine name row mode) engine rows =
      (replies, after)) :
    connection.addMany engine name rows mode schedule = (Reply.collect name replies, after) := by
  rw [add_of_resolve resolved] at ran
  simp [addMany, resolved, ran]

/-- What comes of several rows is what comes of adding one after the other, each in a transaction
of its own, in the order of their turns. The batch gives all keys in the order of the rows exactly
if every row has been added, and else reports exactly the rows that have failed, in their order. The
store is then the one that comes of adding the others where no call is struck, which gives them the
same keys; a row that has failed has left the registry as it was, and nobody is left writing. -/
theorem batch_is_its_successful_rows (reached : engine.Reached)
    (resolved : connection.resolve name = .ok (handle, table))
    (ran : runAll schedule (fun engine row => connection.add engine name row mode) engine rows =
      (replies, after)) :
    let turns := schedule.arrange rows
    let answers := schedule.arrange replies
    (connection.addMany engine name rows mode schedule).2 = after ∧ replies.length = rows.length ∧
      (∀ reply ∈ replies, (∃ key, reply = .done key) ∨ ∃ cause, reply = .failed cause) ∧
      (∀ keys, (connection.addMany engine name rows mode schedule).1 = .done keys ↔
        replies = keys.map .done) ∧
      ((∃ cause, .failed cause ∈ replies) → ∃ failures,
        (connection.addMany engine name rows mode schedule).1 =
            .failed (.batch name rows.length failures) ∧
          (∀ index cause, (index, cause) ∈ failures ↔ replies[index]? = some (.failed cause)) ∧
          (failures.map Prod.fst).Pairwise (· < ·)) ∧
      -- The rows that have been added are added without faults too.
      (∀ calm : Engine, calm.Quiet → calm.registry = engine.registry →
        runItems (fun engine row => connection.add engine name row mode) calm
            (doneItems turns answers) =
          ((Outcome.results answers).map .done, ⟨after.registry, calm.faults⟩)) ∧
      -- The others leave no trace.
      (∀ (index : Nat) cause, answers[index]? = some (.failed cause) →
        (runItems (fun engine row => connection.add engine name row mode) engine
            (turns.take (index + 1))).2.registry =
          (runItems (fun engine row => connection.add engine name row mode) engine
            (turns.take index)).2.registry) ∧
      (∀ record ∈ after.registry.stores, record.hasWriter = false) ∧
      -- Rows that get their turns as they are given are the turns.
      (schedule = .inOrder → turns = rows ∧ answers = replies) := by
  intro turns answers
  have idle := reached.idle
  have added := addMany_of_resolve resolved ran
  have sizes : replies.length = rows.length :=
    (congrArg (·.1.length) ran).symm.trans length_runAll
  have worked := runItems_of_runAll ran
  rw [add_of_resolve resolved] at worked ⊢
  have calmly (calm : Engine) (quiet : calm.Quiet) (same : calm.registry = engine.registry) :=
    TableSchema.runItems_addRow idle quiet same worked
  obtain ⟨finished, idleAfter, -⟩ := calmly ⟨engine.registry, {}⟩ (fun _ => rfl) rfl
  replace finished : ∀ reply ∈ replies, reply.isWaiting = false :=
    fun reply member => finished reply (Schedule.mem_arrange.mpr member)
  rw [added]
  refine ⟨rfl, sizes, fun reply member => ?_, fun keys => Reply.collect_eq_done_iff, ?_,
    fun calm quiet same => (calmly calm quiet same).2.2, fun index cause here => ?_,
    fun record member => idleAfter.hasWriter_eq_false member, ?_⟩
  · have ends := finished reply member
    cases reply with
    | done key => exact .inl ⟨key, rfl⟩
    | failed cause => exact .inr ⟨cause, rfl⟩
    | waiting => cases ends
  · rintro ⟨cause, member⟩
    have listed (index : Nat) (cause : DatabaseError) :
        (index, cause) ∈ Outcome.failures 0 replies ↔ replies[index]? = some (.failed cause) := by
      simp [mem_failures_iff]
    obtain ⟨index, here⟩ := List.mem_iff_getElem?.mp member
    have some : Outcome.failures 0 replies ≠ [] :=
      List.ne_nil_of_mem ((listed index cause).mpr here)
    exact ⟨_, sizes ▸ Reply.collect_of_failures finished some, listed, pairwise_failures⟩
  · refine @TableSchema.registry_of_failed table engine handle mode turns idle index cause ?_
    rw [worked]
    exact here
  · rintro rfl
    exact ⟨Schedule.arrange_inOrder, Schedule.arrange_inOrder⟩

end Connection

namespace People

/-- The first commit is going to be struck. -/
def struckCommit : Engine := { two.engine with faults := Faults.arm {} .commit 0 }

/-- Three people, of whom the first meets with the fault, and the second has a key that is
taken. -/
def threeMore : List Row := [person 3 "Rory" "Gilmore" 22, person 1 "Jane" "Doe" 17,
  person 4 "Jane" "Doe" 17]

/-- Of three people the last one is added, as without the others. -/
theorem struck_batch_keeps_the_last : ∃ failures after,
    two.connection.addMany struckCommit people.name threeMore .insert .inOrder =
        (.failed (.batch people.name 3 failures), after) ∧
      failures.map Prod.fst = [0, 1] ∧
      runItems (fun engine row => two.connection.add engine people.name row .insert) two.engine
          [person 4 "Jane" "Doe" 17] =
        ([.done (.integer 4)], ⟨after.registry, two.engine.faults⟩) := by
  have quiet : two.engine.Quiet := by
    intro call
    cases call <;> decide +kernel
  have answers : (runAll .inOrder (fun engine row => two.connection.add engine people.name row
      .insert) struckCommit threeMore).1.map (fun reply => reply.result?.bind Value.asInteger?) =
        [none, none, some 4] := by decide +kernel
  have isDone : (runAll .inOrder (fun engine row => two.connection.add engine people.name row
      .insert) struckCommit threeMore).1.map (fun reply => reply.result?.isSome) =
        [false, false, true] := by decide +kernel
  have report : failedBatch? (two.connection.addMany struckCommit people.name threeMore .insert
      .inOrder).1 = some (3, [0, 1]) := by decide +kernel
  have reached : struckCommit.Reached := .arm reached_two _
  cases ran : runAll .inOrder (fun engine row => two.connection.add engine people.name row .insert)
      struckCommit threeMore with
  | mk replies after =>
    rw [ran] at answers isDone
    obtain ⟨sameEngine, size, finished, -, failed, kept, -, -, -⟩ :=
      Connection.batch_is_its_successful_rows reached rfl ran
    obtain ⟨first, second, third, rfl⟩ := List.length_eq_three.mp size
    -- The first two have failed, and the third has got its key.
    obtain ⟨key, rfl⟩ | ⟨cause, rfl⟩ := finished first (by simp)
    · cases isDone
    obtain ⟨key, rfl⟩ | ⟨other, rfl⟩ := finished second (by simp)
    · cases isDone
    obtain ⟨key, rfl⟩ | ⟨none, rfl⟩ := finished third (by simp)
    · obtain ⟨failures, batch, -, -⟩ := failed ⟨cause, by simp⟩
      rw [batch] at report
      cases key with
      | integer number =>
        cases answers
        obtain ⟨-, positions⟩ := Prod.mk.inj (Option.some.inj report)
        exact ⟨failures, after, Prod.ext batch sameEngine, positions, kept two.engine quiet rfl⟩
      | _ => cases answers
    · cases isDone

end People

end IndexedStore
