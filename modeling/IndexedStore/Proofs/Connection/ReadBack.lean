/-
This file says which accepted rows can be read back. A write asks only whether a row has
canonical bytes, and every scan, overwriting and deletion reads them. A row whose arrays and
maps nest deeper than the reader follows is therefore accepted and then in the way: it is
not found, and it makes fail whatever meets it.

Every other row is read back, and whatever later fails to read a row has met one that
cannot be read.
-/

import IndexedStore.Proofs.Connection.Schedule
import IndexedStore.Proofs.Connection.Select
import IndexedStore.Proofs.Storage.Write

namespace IndexedStore

/-! ### Calls that meet a row that cannot be read -/

namespace Table

variable {table : Table} {bytes : List UInt8} {cause : CodecError}

/-- Bytes that are kept and cannot be read are those of a row that no reader can take. -/
theorem Sound.exists_unreadable (sound : table.Sound) (member : bytes ∈ table.rows.contents)
    (stopped : Row.decode bytes = .error cause) :
    ∃ key row, table.rows.Stores key row ∧ ¬row.Readable := by
  obtain ⟨entry, inside, rfl⟩ := List.mem_map.mp member
  obtain ⟨row, _, written, -⟩ := sound.keyed entry inside
  refine ⟨entry.1, row, ⟨entry.2, KeyMap.get?_of_mem sound.sorted inside, written⟩,
    fun readable => ?_⟩
  obtain ⟨found, read, -⟩ := Row.exists_decode written readable
  rw [stopped] at read
  cases read

theorem exists_of_delete_eq_error {key : Value}
    (failed : (table.delete key).1 = .error (.codec cause)) :
    ∃ bytes ∈ table.rows.contents, Row.decode bytes = .error cause := by
  rw [delete] at failed
  split at failed
  · cases failed
  · rename_i bytes found
    refine ⟨bytes, KeyMap.mem_contents_of_get? found, ?_⟩
    split at failed
    · rename_i stopped
      cases failed
      exact stopped
    · cases failed

/-- A deletion leaves only bytes that were there. -/
theorem contents_delete_subset {key : Value} :
    (table.delete key).2.rows.contents ⊆ table.rows.contents := by
  have fewer := (List.filter_sublist (p := fun entry => !(key == entry.1))
    (l := table.rows.entries)).map Prod.snd
  unfold delete
  split
  · exact List.Subset.refl _
  · split
    · exact fewer.subset
    · exact fewer.subset

theorem not_codec_of_assignKey {row : Row} :
    table.assignKey row ≠ .error (.codec cause) := by
  intro failed
  unfold assignKey at failed
  repeat' split at failed
  all_goals cases failed

theorem not_codec_of_checkUnique {key : Value} {row : Row} {indexes : List (String × Index)} :
    table.checkUnique key row indexes ≠ .error (.codec cause) := by
  induction indexes with
  | nil =>
    intro failed
    cases failed
  | cons head rest inductionHypothesis =>
    rw [checkUnique]
    split
    · intro failed
      cases failed
    · exact inductionHypothesis

theorem exists_of_replaced?_eq_error {key : Value} {mode : WriteMode}
    (failed : table.replaced? key mode = .error (.codec cause)) :
    ∃ bytes ∈ table.rows.contents, Row.decode bytes = .error cause := by
  unfold replaced? at failed
  split at failed
  · cases failed
  · rename_i bytes found
    refine ⟨bytes, KeyMap.mem_contents_of_get? found, ?_⟩
    cases mode with
    | insert => cases failed
    | put => exact EngineError.eq_error_of_ofCodec (eq_error_of_map failed)

/-- A write that fails to read or write a row has met stored bytes that cannot be read, or it was
to write a row without bytes. -/
theorem exists_of_put_eq_error {row : Row} {mode : WriteMode}
    (failed : (table.put row mode).1 = .error (.codec cause)) :
    (∃ bytes ∈ table.rows.contents, Row.decode bytes = .error cause) ∨ cause = .nanForbidden := by
  obtain ⟨-, assigning | ⟨key, full, -, replacing | ⟨_, -, writing | ⟨_, -, checking⟩⟩⟩⟩ :=
    put_eq_error_iff.mp (Prod.ext failed rfl)
  · exact absurd assigning not_codec_of_assignKey
  · exact .inl (exists_of_replaced?_eq_error replacing)
  · exact .inr (Value.encode_eq_error_iff.mp (EngineError.eq_error_of_ofCodec writing)).2
  · exact absurd checking not_codec_of_checkUnique

end Table

/-! ### Operations that meet a row that cannot be read -/

namespace Connection

variable {connection : Connection} {engine after : Engine} {name : String} {table : TableSchema}
  {content : Table} {query : Query} {failure : DatabaseError} {cause : CodecError}

theorem sees_iff : connection.Sees engine name table content ↔ ∃ handle data,
    connection.resolve name = .ok (handle, table) ∧
    engine.registry.published handle = some data ∧ data.table? table.name = .ok content := by
  constructor
  · rintro ⟨handle, transaction, resolved, began, found⟩
    exact ⟨handle, transaction.data, resolved,
      Registry.beginRead_eq_ok_iff.mp ⟨transaction, began, rfl⟩, found⟩
  · rintro ⟨handle, data, resolved, sees, found⟩
    obtain ⟨transaction, began, rfl⟩ := Registry.beginRead_eq_ok_iff.mpr sees
    exact ⟨handle, transaction, resolved, began, found⟩

/-- In the table that a connection sees is a row that no reader can take. -/
def MeetsUnreadable (connection : Connection) (engine : Engine) (name : String) : Prop :=
  ∃ table content key row, connection.Sees engine name table content ∧
    content.rows.Stores key row ∧ ¬row.Readable

/-- A selection, a deletion or an overwriting write of a connection fails to read a row. That a
row to be written has no bytes does not count. -/
inductive FailsToRead (connection : Connection) (engine : Engine) (name : String) : Prop
  | select {query : Query} {failure : DatabaseError} {cause : CodecError}
    (failed : (connection.select engine name query).1 = .error failure)
    (codec : failure.HasCodec cause) : FailsToRead connection engine name
  | delete {query : Query} {schedule : Schedule} {failure : DatabaseError} {cause : CodecError}
    (failed : (connection.delete engine name query schedule).1 = .failed failure)
    (codec : failure.HasCodec cause) : FailsToRead connection engine name
  | upsert {row : Row} {failure : DatabaseError} {cause : CodecError}
    (failed : (connection.add engine name row .put).1 = .failed failure)
    (codec : failure.HasCodec cause) (other : cause ≠ .nanForbidden) :
    FailsToRead connection engine name

theorem meetsUnreadable_of_mem (reached : engine.Reached)
    (sees : connection.Sees engine name table content) {bytes : List UInt8}
    (member : bytes ∈ content.rows.contents) (stopped : Row.decode bytes = .error cause) :
    connection.MeetsUnreadable engine name := by
  obtain ⟨key, row, stored⟩ := (sound_of_sees reached sees).exists_unreadable member stopped
  exact ⟨table, content, key, row, sees, stored⟩

/-- A selection that fails to read a row has met one that no reader can take. -/
theorem meetsUnreadable_of_select (reached : engine.Reached)
    (failed : (connection.select engine name query).1 = .error failure)
    (codec : failure.HasCodec cause) : connection.MeetsUnreadable engine name := by
  rcases @select_cases connection engine name query reached with
    ⟨other, isFailure, blames⟩ | ⟨_, _, rows, ok, _⟩
  · rw [isFailure] at failed
    cases failed
    obtain ⟨-, table, content, sees, bytes, member, stopped⟩ := blames cause codec
    exact meetsUnreadable_of_mem reached sees member stopped
  · rw [ok] at failed
    cases failed

/-- So has a write, unless it was to write a row without bytes. -/
theorem meetsUnreadable_of_add (reached : engine.Reached) {row : Row} {mode : WriteMode}
    (failed : connection.add engine name row mode = (.failed failure, after))
    (codec : failure.HasCodec cause) :
    connection.MeetsUnreadable engine name ∨ cause = .nanForbidden := by
  unfold add at failed
  split at failed
  · rename_i refused
    cases failed
    exact absurd codec (not_hasCodec_of_resolve refused)
  · rename_i handle table resolved
    have performs := @TableSchema.performs_addRow table engine handle row mode
    rw [failed] at performs
    cases performs with
    | failed same blames =>
      obtain ⟨data, content, sees, found, stopped⟩ := blames cause codec
      rcases Table.exists_of_put_eq_error stopped with ⟨bytes, member, unread⟩ | noBytes
      · exact .inl (meetsUnreadable_of_mem reached
          (sees_iff.mpr ⟨handle, data, resolved, sees, found⟩) member unread)
      · exact .inr noBytes

/-- What every operation on an item keeps, and says of its reply, holds of all replies. -/
theorem forall_mem_runItems {α β : Type} {operate : Engine → α → Reply β × Engine}
    (kept : Engine → Prop) (said : Reply β → Prop)
    (step : ∀ engine item, kept engine →
      said (operate engine item).1 ∧ kept (operate engine item).2)
    (holds : kept engine) (items : List α) :
    ∀ reply ∈ (runItems operate engine items).1, said reply := by
  induction items generalizing engine with
  | nil => exact nofun
  | cons item rest inductionHypothesis =>
    obtain ⟨isSaid, isKept⟩ := step engine item holds
    exact List.forall_mem_cons.mpr ⟨isSaid, inductionHypothesis isKept⟩

theorem mem_of_mem_failures {ε α : Type} {outcomes : List (Outcome ε α)} {start : Nat}
    {entry : Nat × ε} (member : entry ∈ Outcome.failures start outcomes) :
    .failed entry.2 ∈ outcomes := by
  induction outcomes generalizing start with
  | nil => cases member
  | cons outcome rest inductionHypothesis =>
    cases outcome with
    | failed cause =>
      rcases List.mem_cons.mp member with rfl | inRest
      · exact List.mem_cons_self
      · exact List.mem_cons_of_mem _ (inductionHypothesis inRest)
    | done result => exact List.mem_cons_of_mem _ (inductionHypothesis member)
    | waiting => exact List.mem_cons_of_mem _ (inductionHypothesis member)

/-- A handle sees a table that keeps certain bytes. -/
def Keeps (engine : Engine) (handle : HandleId) (name : String) (bytes : List UInt8) : Prop :=
  ∃ data content, engine.registry.published handle = some data ∧
    data.table? name = .ok content ∧ bytes ∈ content.rows.contents

/-- Deleting the row of a key adds no bytes, and it fails to read a row only on bytes that are
kept. -/
theorem keeps_deleteKey (table : TableSchema) (engine : Engine) (handle : HandleId) (key : Value) :
    (∀ failure cause, (table.deleteKey engine handle key).1 = .failed failure →
      failure.HasCodec cause → ∃ bytes, Keeps engine handle table.name bytes ∧
        Row.decode bytes = .error cause) ∧
    ∀ bytes, Keeps (table.deleteKey engine handle key).2 handle table.name bytes →
      Keeps engine handle table.name bytes := by
  have performs := @TableSchema.performs_deleteKey table engine handle key
  cases ended : table.deleteKey engine handle key with
  | mk reply after =>
    rw [ended] at performs
    cases performs with
    | @done _ content altered _ _ sees found ok publishes =>
      refine ⟨nofun, fun bytes ⟨data, _, sees', found', member⟩ => ?_⟩
      cases publishes.symm.trans sees'
      cases StoreData.table?_setTable.symm.trans found'
      have same : altered = (content.delete key).2 := congrArg Prod.snd ok.symm
      exact ⟨_, _, sees, found, Table.contents_delete_subset (same ▸ member)⟩
    | failed same blames =>
      constructor
      · intro failure cause isFailure codec
        cases isFailure
        obtain ⟨data, content, sees, found, stopped⟩ := blames cause codec
        obtain ⟨bytes, member, unread⟩ := Table.exists_of_delete_eq_error stopped
        exact ⟨bytes, ⟨data, content, sees, found, member⟩, unread⟩
      · intro bytes keeps
        rw [Keeps, same] at keeps
        exact keeps
    | waiting same =>
      refine ⟨nofun, fun bytes keeps => ?_⟩
      rw [Keeps, same] at keeps
      exact keeps

/-- Several deletions fail to read a row only on bytes that were kept before the first of them. -/
theorem keeps_of_deleteKeys (table : TableSchema) (engine : Engine) (handle : HandleId)
    (keys : List Value) :
    ∀ reply ∈ (runItems (fun engine key => table.deleteKey engine handle key) engine keys).1,
      ∀ failure cause, reply = .failed failure → failure.HasCodec cause →
        ∃ bytes, Keeps engine handle table.name bytes ∧ Row.decode bytes = .error cause := by
  refine forall_mem_runItems (fun opened => ∀ bytes, Keeps opened handle table.name bytes →
    Keeps engine handle table.name bytes) _ ?_ (fun _ => id) keys
  intro opened key kept
  obtain ⟨blames, fewer⟩ := keeps_deleteKey table opened handle key
  refine ⟨fun failure cause isFailure codec => ?_,
    fun bytes keeps => kept bytes (fewer bytes keeps)⟩
  obtain ⟨bytes, keeps, stopped⟩ := blames failure cause isFailure codec
  exact ⟨bytes, kept bytes keeps, stopped⟩

/-- A failure to read a row that several replies come to is one of theirs. -/
theorem exists_of_collect_eq_failed {α : Type} {replies : List (Reply α)}
    (failed : Reply.collect name replies = .failed failure) (codec : failure.HasCodec cause) :
    ∃ single : DatabaseError, .failed single ∈ replies ∧ single.HasCodec cause := by
  unfold Reply.collect at failed
  split at failed
  · cases failed
  · split at failed
    · cases failed
    · cases failed
      cases codec with
      | batch member beneath => exact ⟨_, mem_of_mem_failures member, beneath⟩

/-- A deletion that fails to read a row has met one that no reader can take. -/
theorem meetsUnreadable_of_delete (reached : engine.Reached) {schedule : Schedule}
    (failed : (connection.delete engine name query schedule).1 = .failed failure)
    (codec : failure.HasCodec cause) : connection.MeetsUnreadable engine name := by
  unfold delete at failed
  split at failed
  · rename_i refused
    cases failed
    exact absurd codec (not_hasCodec_of_resolve refused)
  · rename_i handle table resolved
    have same := @registry_find connection engine handle table query
    split at failed
    · rename_i other _ found
      cases failed
      rcases @find_cases connection engine name query reached handle table resolved with
        ⟨_, isFailure, blames⟩ | ⟨_, _, ok, _⟩
      · rw [found] at isFailure
        cases isFailure
        obtain ⟨-, content, sees, bytes, member, stopped⟩ := blames cause codec
        exact meetsUnreadable_of_mem reached sees member stopped
      · rw [found] at ok
        cases ok
    · rename_i rows opened found
      rw [found] at same
      change opened.registry = engine.registry at same
      have replies := keeps_of_deleteKeys table opened handle
        (schedule.arrange (keysToDelete table rows).keys)
      cases collected : Reply.collect name (runAll schedule (fun engine key =>
          table.deleteKey engine handle key) opened (keysToDelete table rows).keys).1 with
      | done keys =>
        simp only [collected] at failed
        cases failed
      | waiting =>
        simp only [collected] at failed
        cases failed
      | failed batch =>
        simp only [collected] at failed
        cases failed
        obtain ⟨single, member, beneath⟩ := exists_of_collect_eq_failed collected codec
        obtain ⟨bytes, ⟨data, content, sees, found, inside⟩, stopped⟩ :=
          replies _ (mem_runAll.mp member) single cause rfl beneath
        rw [same] at sees
        exact meetsUnreadable_of_mem reached (sees_iff.mpr ⟨handle, data, resolved, sees, found⟩)
          inside stopped

/-! ### Calls that are not struck -/

/-- Counting a call leaves the faults of the other kinds to come. -/
theorem strike_other {faults : Faults} {call other : EngineCall} (different : other ≠ call) :
    ((faults.strike call).2.strike other).1 = (faults.strike other).1 := by
  have same : (faults.strike call).2.gaps other = faults.gaps other := by
    unfold Faults.strike
    split
    · rfl
    · exact if_neg different
    · exact if_neg different
  rw [Faults.strike, same]
  conv => rhs; rw [Faults.strike]
  split <;> rfl

/-! ### The row that was accepted -/

/-- A write that is done has changed the table as the call on it does. -/
theorem add_eq_done {row : Row} {mode : WriteMode} {key : Value}
    (added : connection.add engine name row mode = (.done key, after)) :
    ∃ table content altered, connection.Sees engine name table content ∧
      content.put row mode = (.ok key, altered) ∧ connection.Sees after name table altered := by
  unfold add at added
  split at added
  · cases added
  · rename_i handle table resolved
    have performs := @TableSchema.performs_addRow table engine handle row mode
    rw [added] at performs
    cases performs with
    | done sees found ok publishes =>
      exact ⟨table, _, _, sees_iff.mpr ⟨handle, _, resolved, sees, found⟩, ok,
        sees_iff.mpr ⟨handle, _, resolved, publishes, StoreData.table?_setTable⟩⟩

/-- The query for the row of a key. -/
def byKey (table : TableSchema) (key : Value) : Query := Query.withEqual {} table.keyColumn key

/-- Where no call is struck, a selection by key is a scan by primary key. -/
theorem select_byKey (sees : connection.Sees engine name table content) {key : Value}
    (quiet : ∀ call, (engine.faults.strike call).1 = false) :
    ∃ clause, (connection.select engine name (byKey table key)).1 =
      (content.scanPrimary (some (.only key))).mapError (.scan table.name clause) := by
  obtain ⟨handle, transaction, resolved, began, found⟩ := sees
  have isKey : table.isKey table.keyColumn := beq_self_eq_true table.keyColumn
  have target : table.target? table.keyColumn = some .primary := if_pos isKey
  have plan : (byKey table key).plan =
      ⟨[⟨table.keyColumn, .equality, .only key⟩], []⟩ := rfl
  have known : table.checkColumns (byKey table key).plan = .ok () := by
    simp [plan, TableSchema.checkColumns, Plan.clauses, TableSchema.hasIndex, target]
  have first : (engine.strike .begin).1 = false := quiet .begin
  have second : ((engine.strike .begin).2.strike .scanPrimary).1 = false :=
    (strike_other (by decide)).trans (quiet .scanPrimary)
  refine ⟨Clause.display ⟨table.keyColumn, .equality, .only key⟩, ?_⟩
  rw [select, resolved]
  dsimp only
  rw [find, if_neg (fun both => Bool.false_ne_true both.1), known]
  cases scanned : content.scanPrimary (some (.only key)) <;>
    simp [Engine.beginRead, Engine.scanPrimary, first, began, plan, TableSchema.runPlan,
      TableSchema.scanInclusions, TableSchema.scanClauses, TableSchema.scanClause, target, second,
      found, scanned, merge]

/-- The row under a key is read back if a reader can take it, and the scan for it fails
otherwise. -/
theorem scanPrimary_only (sound : content.Sound) {key : Value} {row : Row}
    (stored : content.rows.Stores key row) :
    (row.Readable → ∃ found, content.scanPrimary (some (.only key)) = .ok [found] ∧ found == row) ∧
    (¬row.Readable → ∃ cause, content.scanPrimary (some (.only key)) = .error (.codec cause)) := by
  obtain ⟨bytes, here, written⟩ := stored
  have scanned : content.scanPrimary (some (.only key)) = Table.readRows [bytes] := by
    rw [Table.scanPrimary_some, KeyRange.contentsIn_only sound.sorted here]
  rw [scanned]
  constructor
  · intro readable
    obtain ⟨found, read, -⟩ := Row.exists_decode written readable
    exact ⟨found, by simp [Table.readRows, read], Row.beq_of_decode written read⟩
  · intro unreadable
    obtain ⟨cause, stopped⟩ := Row.decode_eq_error written unreadable
    exact ⟨cause, by simp [Table.readRows, stopped]⟩

/-- Whatever fails to read a row has met one that no reader can take. -/
theorem FailsToRead.meetsUnreadable (reached : engine.Reached)
    (fails : connection.FailsToRead engine name) : connection.MeetsUnreadable engine name := by
  cases fails with
  | select failed codec => exact meetsUnreadable_of_select reached failed codec
  | delete failed codec => exact meetsUnreadable_of_delete reached failed codec
  | upsert failed codec other =>
    exact (meetsUnreadable_of_add reached (Prod.ext failed rfl) codec).resolve_right other

/-- A row that is accepted is read back by its key exactly if a reader can take it, that is, if
its arrays and maps nest no deeper than the reader follows. Where no call is struck, the selection
by key then gives one row, the one that was written with its key set, and otherwise it fails to
read it. A row that can be taken is never what a later operation fails to read: whatever does has
met another row, one that cannot. -/
theorem accepted_row_reads_back {row : Row} {mode : WriteMode} {key : Value}
    (reached : engine.Reached)
    (added : connection.add engine name row mode = (.done key, after))
    (quiet : ∀ call, (after.faults.strike call).1 = false) :
    ∃ table content full, connection.Sees after name table content ∧
      full = row.set content.keyField key ∧ content.rows.Stores key full ∧
      (full.Readable → ∃ found,
        (connection.select after name (byKey table key)).1 = .ok [found] ∧ found == full) ∧
      (¬full.Readable → ∃ failure cause,
        (connection.select after name (byKey table key)).1 = .error failure ∧
          failure.HasCodec cause) ∧
      (full.Readable → ∀ (later : Engine) (other : Connection) (name' : String), later.Reached →
        other.FailsToRead later name' → ∃ table' content' key' culprit,
          other.Sees later name' table' content' ∧ content'.rows.Stores key' culprit ∧
          ¬culprit.Readable ∧ ¬(culprit == full)) := by
  obtain ⟨table, before, content, -, put, sees⟩ := add_eq_done added
  have reachedAfter : after.Reached := by
    have := Engine.Reached.add reached connection name row mode
    rw [added] at this
    exact this
  have stored := Table.stores_of_put put
  obtain ⟨clause, selected⟩ := @select_byKey connection after name table content sees key quiet
  obtain ⟨success, stop⟩ := scanPrimary_only (sound_of_sees reachedAfter sees) stored
  refine ⟨table, content, _, sees, rfl, stored, fun readable => ?_, fun unreadable => ?_,
    fun readable later other name' reachedLater fails => ?_⟩
  · obtain ⟨found, scanned, same⟩ := success readable
    exact ⟨found, by rw [selected, scanned]; rfl, same⟩
  · obtain ⟨cause, scanned⟩ := stop unreadable
    exact ⟨_, cause, by rw [selected, scanned]; rfl, .scan⟩
  · obtain ⟨table', content', key', culprit, seen, kept, unreadable⟩ :=
      fails.meetsUnreadable reachedLater
    refine ⟨table', content', key', culprit, seen, kept, unreadable, fun same => unreadable ?_⟩
    obtain ⟨_, -, written⟩ := stored
    obtain ⟨_, -, written'⟩ := kept
    exact Row.readable_of_beq written' written same readable

end Connection

/-! ### A row that is not read back -/

namespace People

/-- Arrays around an empty one. -/
def nested : Nat → Value
  | 0 => .array []
  | depth + 1 => .array [nested depth]

theorem nesting_nested (depth : Nat) : (nested depth).nesting = depth + 1 := by
  induction depth with
  | zero => rfl
  | succ depth inductionHypothesis =>
    rw [nested, Value.nesting, Value.itemsNesting, Value.itemsNesting, inductionHypothesis]
    rfl

/-- A person with a deeply nested field. -/
def deep : Row := { fields := [("id", .integer 3), ("nested", nested 255)] }

/-- The row with 256 nested arrays is accepted, and the selection by its key fails to read it. -/
theorem deep_is_not_read_back : ∃ key after failure cause,
    two.connection.add two.engine people.name deep .insert = (.done key, after) ∧
      (two.connection.select after people.name (Connection.byKey people key)).1 = .error failure ∧
      failure.HasCodec cause := by
  have accepted : (two.connection.add two.engine people.name deep .insert).1.result?.isSome := by
    decide +kernel
  have quiet : ∀ call, ((two.connection.add two.engine people.name deep
      .insert).2.faults.strike call).1 = false := by
    intro call
    cases call <;> decide +kernel
  have keyField : two.connection.inspect? (two.connection.add two.engine people.name deep
      .insert).2 people.name Table.keyField = some "id" := by
    decide +kernel
  cases added : two.connection.add two.engine people.name deep .insert with
  | mk reply after =>
    rw [added] at accepted quiet keyField
    cases reply with
    | failed failure => cases accepted
    | waiting => cases accepted
    | done key =>
      obtain ⟨table, content, full, sees, rfl, -, -, fails, -⟩ :=
        Connection.accepted_row_reads_back reached_two added quiet
      rw [Connection.inspect?_of_sees sees] at keyField
      have named := Option.some.inj keyField
      obtain ⟨handle, transaction, resolved, -, -⟩ := sees
      cases resolved
      obtain ⟨failure, cause, failed, codec⟩ := fails fun readable => by
        have bounded := readable.2
        rw [named] at bounded
        have depth : (deep.set "id" key).toValue.nesting =
            max key.nesting (max (nested 255).nesting 0) + 1 := rfl
        rw [depth, nesting_nested, Cbor.nestingLimit] at bounded
        omega
      exact ⟨key, after, failure, cause, rfl, failed, codec⟩

end People

end IndexedStore
