/-
This file says what a deletion comes to when calls are struck on its way. Each row is deleted in a
transaction of its own. So a fault keeps back the one row that it strikes, whichever call it hits,
and the deletion goes on with the next; its report names exactly the rows that are still there.

The faults may also strike the query that looks for the rows. Then nothing is deleted at all.
-/

import IndexedStore.Proofs.Connection.DeletedRow
import IndexedStore.Proofs.Connection.FaultyQuery
import IndexedStore.Proofs.Connection.ReadBack

namespace IndexedStore

/-! ### Several rows -/

namespace Registry

variable {registry : Registry} {store : StoreId} {record : StoreRecord} {name : String}
  {table table' : Table}

@[simp]
theorem publish_publish : (registry.publish store name table).publish store name table' =
    registry.publish store name table' := by
  unfold publish
  rw [modifyStore_modifyStore]
  refine congrArg (registry.modifyStore store) (funext fun record => ?_)
  simp

/-- Publishing what is published changes nothing. -/
theorem publish_of_table? (here : registry.stores[store]? = some record)
    (found : record.data.table? name = .ok table) :
    registry.publish store name table = registry := by
  exact modifyStore_of_eq here (by simp [found])

end Registry

/-- A key is the one of an operation that is done. -/
def DoneOn (keys : List Value) (replies : List (Reply Unit)) (key : Value) : Prop :=
  ∃ own, (own, .done ()) ∈ keys.zip replies ∧ key == own

/-- A deletion of several rows that can be read takes out those whose own deletions are done, and
changes nothing else. The others were kept back by faults. -/
theorem TableSchema.runItems_deleteKey_of_lends {table : TableSchema} {handle : HandleId}
    {store : StoreId} {engine : Engine} {record : StoreRecord} {content : Table} {keys : List Value}
    (lends : engine.registry.Lends handle store record)
    (found : record.data.table? table.name = .ok content) (sound : content.Sound)
    (deletes : ∀ key ∈ keys, content.Deletes key) :
    ∃ replies after altered, runItems (fun engine key => table.deleteKey engine handle key)
        engine keys = (replies, after) ∧
      after.registry = engine.registry.publish store table.name altered ∧ altered.Sound ∧
      content.Loses altered (DoneOn keys replies) ∧
      ∀ reply ∈ replies, reply = .done () ∨ ∃ failure, reply = .failed failure ∧
        failure.source? = some .closed := by
  induction keys generalizing engine record content with
  | nil =>
    refine ⟨[], engine, content, rfl, (Registry.publish_of_table? lends.here found).symm, sound,
      .refl fun key ⟨_, nothing, _⟩ => ?_, nofun⟩
    cases nothing
  | cons key rest inductionHypothesis =>
    rw [List.forall_mem_cons] at deletes
    rcases deleteKey_of_lends lends found deletes.1 with
      ⟨failure, between, ended, isFault, same⟩ | ⟨between, ended, published⟩
    · obtain ⟨replies, after, altered, ran, changed, sound', loses, each⟩ :=
        inductionHypothesis (same ▸ lends) found sound deletes.2
      refine ⟨.failed failure :: replies, after, altered, by simp [ended, ran], same ▸ changed,
        sound', loses.congr fun other => ?_,
        List.forall_mem_cons.mpr ⟨.inr ⟨failure, rfl, isFault⟩, each⟩⟩
      simp [DoneOn]
    · have lends' := lends.publish table.name (content.delete key).2
      have ok : content.delete key = (.ok (), (content.delete key).2) :=
        Prod.ext (Table.delete_eq_ok deletes.1) rfl
      obtain ⟨replies, after, altered, ran, changed, sound', loses, each⟩ :=
        inductionHypothesis (published ▸ lends') StoreData.table?_setTable
          (Table.sound_delete sound ok) fun other member => (deletes.2 other member).delete
      refine ⟨.done () :: replies, after, altered, by simp [ended, ran], ?_, sound',
        ((Table.loses_delete deletes.1).trans loses).congr fun other => ?_,
        List.forall_mem_cons.mpr ⟨.inl rfl, each⟩⟩
      · simp [changed, published]
      · simp [DoneOn, or_and_right, exists_or]

/-- So it does in any order of their turns. -/
theorem TableSchema.runAll_deleteKey_of_lends {table : TableSchema} {handle : HandleId}
    {store : StoreId} {engine : Engine} {record : StoreRecord} {content : Table} {keys : List Value}
    (schedule : Schedule) (lends : engine.registry.Lends handle store record)
    (found : record.data.table? table.name = .ok content) (sound : content.Sound)
    (deletes : ∀ key ∈ keys, content.Deletes key) :
    ∃ replies after altered, runAll schedule (fun engine key => table.deleteKey engine handle key)
        engine keys = (replies, after) ∧
      after.registry = engine.registry.publish store table.name altered ∧ altered.Sound ∧
      content.Loses altered (DoneOn keys replies) ∧
      ∀ reply ∈ replies, reply = .done () ∨ ∃ failure, reply = .failed failure ∧
        failure.source? = some .closed := by
  obtain ⟨turns, after, altered, ran, changed, sound', loses, each⟩ :=
    runItems_deleteKey_of_lends lends found sound fun key (member : key ∈ schedule.arrange keys) =>
      deletes key (Schedule.mem_arrange.mp member)
  have sizes : turns.length = keys.length :=
    (congrArg (·.1.length) ran).symm.trans (length_runItems.trans Schedule.length_arrange)
  refine ⟨schedule.restore turns, after, altered, runAll_of_runItems ran, changed, sound',
    loses.congr fun key => exists_congr fun own => and_congr_left fun _ => ?_,
    fun reply member => each reply (Schedule.mem_restore.mp member)⟩
  exact (Schedule.perm_zip_restore sizes).mem_iff

/-! ### What is reported -/

section Replies

variable {ε α : Type} {outcomes : List (Outcome ε α)} {start index : Nat}

theorem mem_failures_iff {cause : ε} : (index, cause) ∈ Outcome.failures start outcomes ↔
    ∃ offset, index = start + offset ∧ outcomes[offset]? = some (.failed cause) := by
  induction outcomes generalizing start with
  | nil => simp [Outcome.failures]
  | cons outcome rest inductionHypothesis =>
    have shift : (∃ offset, index = start + 1 + offset ∧ rest[offset]? = some (.failed cause)) ↔
        ∃ offset, index = start + (offset + 1) ∧
          (outcome :: rest)[offset + 1]? = some (.failed cause) := by
      simp [Nat.add_assoc, Nat.add_comm 1]
    rw [← Nat.or_exists_add_one, ← shift, List.getElem?_cons_zero, Nat.add_zero, Option.some_inj]
    cases outcome with
    | failed other =>
      rw [Outcome.failures, List.mem_cons, inductionHypothesis, Prod.mk.injEq, Outcome.failed.injEq,
        eq_comm (a := cause)]
    | done result =>
      rw [Outcome.failures, inductionHypothesis]
      · simp
      · simp
    | waiting =>
      rw [Outcome.failures, inductionHypothesis]
      · simp
      · simp

theorem start_le_of_mem_failures {entry : Nat × ε}
    (member : entry ∈ Outcome.failures start outcomes) : start ≤ entry.1 := by
  obtain ⟨offset, same, -⟩ := mem_failures_iff.mp member
  omega

/-- Failures are reported in the order of their positions. -/
theorem pairwise_failures :
    ((Outcome.failures start outcomes).map Prod.fst).Pairwise (· < ·) := by
  induction outcomes generalizing start with
  | nil => exact .nil
  | cons outcome rest inductionHypothesis =>
    cases outcome with
    | failed cause =>
      rw [Outcome.failures, List.map_cons, List.pairwise_cons]
      refine ⟨fun index member => ?_, inductionHypothesis⟩
      obtain ⟨entry, inside, rfl⟩ := List.mem_map.mp member
      exact start_le_of_mem_failures inside
    | done result => exact inductionHypothesis
    | waiting => exact inductionHypothesis

end Replies

/-- Replies that are all there come to their number, or to all the failures among them. -/
theorem Reply.collect_of_finished {α : Type} {name : String} {replies : List (Reply α)}
    (finished : ∀ reply ∈ replies, reply.isWaiting = false) :
    (Outcome.failures 0 replies = [] →
        (Reply.collect name replies).map List.length = .done replies.length) ∧
      (Outcome.failures 0 replies ≠ [] → (Reply.collect name replies).map List.length =
        .failed (.batch name replies.length (Outcome.failures 0 replies))) := by
  have none : replies.any Outcome.isWaiting = false := by
    rw [List.any_eq_false]
    exact fun reply member => Bool.eq_false_iff.mp (finished reply member)
  constructor
  · intro succeeded
    have all := map_done_results none succeeded
    rw [Reply.collect_eq_done_iff.mpr all, Outcome.map]
    conv => rhs; rw [all, List.length_map]
  · intro failed
    rw [Reply.collect, none, if_neg Bool.false_ne_true]
    split
    · rename_i succeeded
      exact absurd succeeded failed
    · rfl

/-- The keys whose deletions are done are those whose positions are not among the failures. -/
theorem doneOn_iff {keys : List Value} {replies : List (Reply Unit)} {key : Value}
    (sizes : replies.length = keys.length)
    (each : ∀ reply ∈ replies, reply = .done () ∨ ∃ failure, reply = .failed failure ∧
      failure.source? = some .closed) :
    DoneOn keys replies key ↔ ∃ index own, keys[index]? = some own ∧ key == own ∧
      index ∉ (Outcome.failures 0 replies).map Prod.fst := by
  have failed_iff (index : Nat) : index ∈ (Outcome.failures 0 replies).map Prod.fst ↔
      ∃ cause, replies[index]? = some (.failed cause) := by
    simp [mem_failures_iff]
  constructor
  · rintro ⟨own, member, same⟩
    obtain ⟨index, here⟩ := List.mem_iff_getElem?.mp member
    obtain ⟨isOwn, isDone⟩ := List.getElem?_zip_eq_some.mp here
    refine ⟨index, own, isOwn, same, fun failed => ?_⟩
    obtain ⟨cause, there⟩ := (failed_iff index).mp failed
    cases isDone.symm.trans there
  · rintro ⟨index, own, isOwn, same, notFailed⟩
    obtain ⟨reply, here⟩ : ∃ reply, replies[index]? = some reply := by
      refine ⟨_, List.getElem?_eq_getElem ?_⟩
      exact sizes ▸ (List.getElem?_eq_some_iff.mp isOwn).1
    rcases each reply (List.mem_of_getElem? here) with rfl | ⟨cause, rfl, -⟩
    · refine ⟨own, List.mem_iff_getElem?.mpr ⟨index, ?_⟩, same⟩
      exact List.getElem?_zip_eq_some.mpr ⟨isOwn, here⟩
    · exact absurd ((failed_iff index).mpr ⟨cause, here⟩) notFailed

/-- A table after a deletion of several keys. Where the deletion of a key has failed, its row is
still there, and all other rows of the keys are gone. -/
structure Table.Leaves (table altered : Table) (keys : List Value) (failed : List Nat) : Prop where
  /-- The rows of the keys. -/
  asked : ∀ (index : Nat) own, keys[index]? = some own →
    altered.rows.get? own = if index ∈ failed then table.rows.get? own else none
  /-- All other rows stay. -/
  others : ∀ key, (∀ own ∈ keys, ¬key == own) → altered.rows.get? key = table.rows.get? key
  /-- So do the key field, the generated keys and all else. -/
  same : altered = { table with rows := altered.rows, indexes := altered.indexes }
  /-- There are the same indexes, with the same options. -/
  options : altered.indexes.map (fun entry => (entry.1, entry.2.options)) =
    table.indexes.map fun entry => (entry.1, entry.2.options)
  /-- They mirror the rows that are left. -/
  sound : altered.Sound

theorem Table.Loses.leaves {table altered : Table} {keys : List Value} {failed : List Nat}
    (ascending : keys.Pairwise fun first second => first.compareKey second = .lt)
    (loses : table.Loses altered fun key => ∃ index own, keys[index]? = some own ∧ key == own ∧
      index ∉ failed)
    (sound : altered.Sound) : table.Leaves altered keys failed where
  asked index own here := by
    split
    · rename_i isFailed
      -- No other position has this key.
      refine loses.kept own fun ⟨other, own', there, equal, notFailed⟩ => ?_
      have differs (first second : Nat) (before : first < second) (left right : Value)
          (isLeft : keys[first]? = some left) (isRight : keys[second]? = some right) :
          ¬left == right := by
        obtain ⟨inside, rfl⟩ := List.getElem?_eq_some_iff.mp isLeft
        obtain ⟨inside', rfl⟩ := List.getElem?_eq_some_iff.mp isRight
        have less := List.pairwise_iff_getElem.mp ascending first second inside inside' before
        rw [KeyMap.beq_eq_false_of_lt less]
        exact Bool.false_ne_true
      rcases Nat.lt_trichotomy index other with before | rfl | before
      · exact differs index other before own own' here there equal
      · exact notFailed isFailed
      · exact differs other index before own' own there here (BEq.symm equal)
    · rename_i notFailed
      exact loses.lost own ⟨index, own, here, BEq.rfl, notFailed⟩
  others key apart := by
    refine loses.kept key fun ⟨index, own, here, equal, _⟩ => ?_
    exact apart own (List.mem_of_getElem? here) equal
  same := loses.same
  options := loses.options
  sound := sound

/-- The reply to a deletion of several keys: their number, or the failures with their positions. -/
structure Reply.Reports (reply : Reply Nat) (name : String) (total : Nat)
    (failures : List (Nat × DatabaseError)) : Prop where
  /-- Without failures it is the number. -/
  done : failures = [] → reply = .done total
  /-- Otherwise it is a report of all the failures. -/
  failed : failures ≠ [] → reply = .failed (.batch name total failures)
  /-- The positions ascend. -/
  ascending : (failures.map Prod.fst).Pairwise (· < ·)
  /-- They are positions of keys. -/
  inside : ∀ failure ∈ failures, failure.1 < total
  /-- The failures come from faults. -/
  faults : ∀ failure ∈ failures, failure.2.source? = some .closed

/-- The distinct keys of rows in ascending order. -/
structure TableSchema.ListsKeys (table : TableSchema) (rows : List Row) (keys : List Value) :
    Prop where
  /-- The keys ascend. -/
  ascending : keys.Pairwise fun first second => first.compareKey second = .lt
  /-- They are those of the rows. -/
  exact : ∀ key, (∃ own ∈ keys, key == own) ↔ ∃ row ∈ rows, row.HasOwnKey table.keyColumn key

theorem TableSchema.listsKeys_keysToDelete {table : TableSchema} {rows : List Row} :
    table.ListsKeys rows (keysToDelete table rows).keys where
  ascending := List.pairwise_map.mpr sorted_keysToDelete
  exact _ := KeyMap.contains_iff_mem_keys.symm.trans contains_keysToDelete

theorem Reply.reports_collect {name : String} {total : Nat} {replies : List (Reply Unit)}
    (sizes : replies.length = total)
    (each : ∀ reply ∈ replies, reply = .done () ∨ ∃ failure, reply = .failed failure ∧
      failure.source? = some .closed) :
    Reports ((Reply.collect name replies).map List.length) name total
      (Outcome.failures 0 replies) := by
  have finished : ∀ reply ∈ replies, reply.isWaiting = false := by
    intro reply member
    rcases each reply member with rfl | ⟨failure, rfl, -⟩ <;> rfl
  have here : ∀ failure ∈ Outcome.failures 0 replies,
      replies[failure.1]? = some (.failed failure.2) := by
    intro failure member
    obtain ⟨offset, same, here⟩ := mem_failures_iff.mp member
    rwa [same, Nat.zero_add]
  refine ⟨sizes ▸ (collect_of_finished finished).1, sizes ▸ (collect_of_finished finished).2,
    pairwise_failures, fun failure member => ?_, fun failure member => ?_⟩
  · exact sizes ▸ (List.getElem?_eq_some_iff.mp (here failure member)).1
  · rcases each _ (List.mem_of_getElem? (here failure member)) with isDone | ⟨other, isOther, fault⟩
    · cases isDone
    · cases isOther
      exact fault

/-! ### Every deletion -/

namespace Connection

variable {connection : Connection} {engine after : Engine} {name : String} {query : Query}
  {schedule : Schedule} {reply : Reply Nat} {warnings : List Warning}

/-- Where the query for the rows fails, so does the deletion, and nothing has changed. -/
theorem delete_of_select_eq_error {failure : DatabaseError}
    (failed : (connection.select engine name query).1 = .error failure)
    (deleted : connection.delete engine name query schedule = (reply, warnings, after)) :
    reply = .failed failure ∧ after.registry = engine.registry := by
  unfold delete at deleted
  unfold select at failed
  split at deleted
  · rename_i resolved
    rw [resolved] at failed
    cases deleted
    cases failed
    exact ⟨rfl, rfl⟩
  · rename_i handle table resolved
    rw [resolved] at failed
    have same := @registry_find connection engine handle table query
    split at deleted
    · rename_i found
      rw [found] at same
      dsimp only at failed
      rw [found] at failed
      cases deleted
      cases failed
      exact ⟨rfl, same⟩
    · rename_i found
      dsimp only at failed
      rw [found] at failed
      cases failed

/-- A deletion that has found rows where the table has the key column of the schema. It takes out
the rows of their keys, but for those that faults keep back, and reports these. -/
theorem leaves_of_delete {rows : List Row} {table : TableSchema} {content : Table}
    (reached : engine.Reached) (ok : (connection.select engine name query).1 = .ok rows)
    (sees : connection.Sees engine name table content) (named : content.keyField = table.keyColumn)
    (deleted : connection.delete engine name query schedule = (reply, warnings, after)) :
    ∃ keys failures store altered, table.ListsKeys rows keys ∧
      (∀ own ∈ keys, (content.rows.get? own).isSome) ∧
      reply.Reports name keys.length failures ∧
      content.Leaves altered keys (failures.map Prod.fst) ∧
      connection.Sees after name table altered ∧
      after.registry = engine.registry.publish store table.name altered := by
  have sound := sound_of_sees reached sees
  have reads := reads_of_select reached sees ok
  obtain ⟨handle, transaction, _, resolved, isFound, began, there, -⟩ := runPlan_of_select sees ok
  have same := @registry_find connection engine handle table query
  obtain ⟨store, record, lends, isData⟩ := reached.idle.lends_of_beginRead began
  unfold delete at deleted
  rw [resolved] at deleted
  dsimp only at deleted
  cases found : connection.find engine handle table query with
  | mk result opened =>
    rw [found] at deleted same isFound
    cases isFound
    change opened.registry = engine.registry at same
    obtain ⟨replies, final, altered, deletions, changed, sound', loses, each⟩ :=
      TableSchema.runAll_deleteKey_of_lends schedule (same ▸ lends) (isData ▸ there) sound
        fun key => deletes_of_mem sound named reads
    have sizes : replies.length = (keysToDelete table rows).keys.length :=
      (congrArg (·.1.length) deletions).symm.trans length_runAll
    dsimp only at deleted
    rw [deletions] at deleted
    cases deleted
    have listed := @TableSchema.listsKeys_keysToDelete table rows
    refine ⟨_, _, store, altered, listed, fun own member => ?_, Reply.reports_collect sizes each,
      (loses.congr fun key => (doneOn_iff sizes each).symm).leaves listed.ascending sound', ?_, ?_⟩
    · obtain ⟨entry, isEntry, equal, -⟩ :=
        exists_entry_of_mem_keysToDelete sound named reads member
      rw [get?_of_entry sound isEntry equal]
      rfl
    · have published := (lends.publish table.name altered).published
      rw [← same, ← changed] at published
      exact sees_iff.mpr ⟨handle, _, resolved, published, StoreData.table?_setTable⟩
    · rw [changed, same]

/-- A deletion and its report agree, whatever calls are struck and in whatever order the rows get
their turns. Either the query for the rows has failed, and nothing has changed, or it has found what
it finds without faults. Where the table has the key column of the schema, the deletion then gives
the number of the keys of these rows, or it reports the positions of those that were kept back, and
exactly these have still their rows. In all cases nobody is writing afterwards. -/
theorem deletion_reports_what_is_left (reached : engine.Reached)
    (deleted : connection.delete engine name query schedule = (reply, warnings, after)) :
    (∀ record ∈ after.registry.stores, record.hasWriter = false) ∧
    ((∃ failure, (connection.select engine name query).1 = .error failure ∧ ¬failure.IsBatch ∧
        reply = .failed failure ∧ after.registry = engine.registry) ∨
      ∃ rows table content,
        (connection.select { engine with faults := {} } name query).1 = .ok rows ∧
        connection.Sees engine name table content ∧ (content.keyField = table.keyColumn →
          ∃ keys failures store altered, table.ListsKeys rows keys ∧
            (∀ own ∈ keys, (content.rows.get? own).isSome) ∧
            reply.Reports name keys.length failures ∧
            content.Leaves altered keys (failures.map Prod.fst) ∧
            connection.Sees after name table altered ∧
            -- All other tables and stores are as before, and so are the handles and names.
            after.registry = engine.registry.publish store table.name altered)) := by
  have idle : after.registry.Idle := by
    have ended := @idle_delete connection engine reached.idle name query schedule
    rwa [deleted] at ended
  refine ⟨fun record member => idle.hasWriter_eq_false member, ?_⟩
  rcases @select_cases connection engine name query reached with
    ⟨failure, failed, -⟩ | ⟨table, content, rows, ok, sees, -⟩
  · refine .inl ⟨failure, failed, not_isBatch_of_select failed, ?_⟩
    exact delete_of_select_eq_error failed deleted
  · refine .inr ⟨rows, table, content, ?_, sees, fun named => ?_⟩
    · exact @select_of_quiet connection engine _ query rows name (fun _ => rfl) rfl ok
    · exact leaves_of_delete reached ok sees named deleted

end Connection

namespace People

/-- The query for everybody older than ten. -/
def olderThanTen : Query := Query.withGreater {} "age" (.integer 10)

/-- The first deletion of a row is going to be struck. -/
def struck : Engine := { two.engine with faults := Faults.arm {} .delete 0 }

/-- The size of a batch that failed, with the positions at which it did. -/
def failedBatch? {α : Type} : Reply α → Option (Nat × List Nat)
  | .failed (.batch _ total failures) => some (total, failures.map Prod.fst)
  | _ => none

/-- When both people are deleted, a fault keeps back the first. -/
theorem struck_deletion_reports_the_first : ∃ reply warnings after content altered failures,
    ∃ keys : List Value,
      two.connection.delete struck people.name olderThanTen .inOrder = (reply, warnings, after) ∧
      reply = .failed (.batch people.name keys.length failures) ∧ keys.length = 2 ∧
      failures.map Prod.fst = [0] ∧ two.connection.Sees struck people.name people content ∧
      two.connection.Sees after people.name people altered ∧
      ∀ (index : Nat) own, keys[index]? = some own →
        altered.rows.get? own = if index ∈ [0] then content.rows.get? own else none := by
  have found : (two.connection.select struck people.name olderThanTen).1.toBool := by
    decide +kernel
  have keyField : two.connection.inspect? struck people.name Table.keyField = some "id" := by
    decide +kernel
  have report : failedBatch? (two.connection.delete struck people.name olderThanTen .inOrder).1 =
      some (2, [0]) := by decide +kernel
  have reached : struck.Reached := .arm reached_two _
  cases deleted : two.connection.delete struck people.name olderThanTen .inOrder with
  | mk reply rest =>
    obtain ⟨warnings, after⟩ := rest
    rw [deleted] at report
    obtain ⟨-, ⟨failure, failed, -⟩ | ⟨rows, table, content, -, sees, deletes⟩⟩ :=
      Connection.deletion_reports_what_is_left reached deleted
    · rw [failed] at found
      cases found
    · rw [Connection.inspect?_of_sees sees] at keyField
      obtain ⟨handle, transaction, resolved, -, -⟩ := id sees
      cases resolved
      obtain ⟨keys, failures, store, altered, -, -, reports, leaves, sees', -⟩ :=
        deletes (Option.some.inj keyField)
      have some : failures ≠ [] := fun none => by
        rw [reports.done none] at report
        cases report
      rw [reports.failed some] at report ⊢
      obtain ⟨total, positions⟩ := Prod.mk.inj (Option.some.inj report)
      exact ⟨_, warnings, after, content, altered, failures, keys, rfl, rfl, total, positions, sees,
        sees', positions ▸ leaves.asked⟩

end People

end IndexedStore
