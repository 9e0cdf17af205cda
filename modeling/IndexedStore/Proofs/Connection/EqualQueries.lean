/-
This file says what equal queries find. The scans of a table depend on a range only through the
keys that lie in it, so two queries that are equal both ways find the same rows: whenever both
succeed, and where no call is struck any more, one succeeds exactly if the other does.

Equality one way is not enough. A query that asks twice for one field is equal to a query with one
more condition, which the other way round is not equal to it.
-/

import IndexedStore.Proofs.Connection.QuietQuery
import IndexedStore.Proofs.Connection.Reopening
import IndexedStore.Proofs.Query.Equality

namespace IndexedStore

/-! ### Scans -/

namespace Table

variable {table : Table} {range range' : KeyRange}

theorem scanPrimary_congr (same : range.contains = range'.contains) :
    table.scanPrimary (some range) = table.scanPrimary (some range') := by
  rw [scanPrimary_some, scanPrimary_some, KeyMap.contentsIn, KeyMap.contentsIn, same]

theorem scanIndex_congr {field : String} (same : range.contains = range'.contains) :
    table.scanIndex field range = table.scanIndex field range' := by
  cases found : table.indexes.lookup field with
  | none => rw [scanIndex_of_lookup_eq_none found, scanIndex_of_lookup_eq_none found]
  | some index =>
    rw [scanIndex_of_lookup found, scanIndex_of_lookup found, KeyMap.contentsIn,
      KeyMap.contentsIn, same]

/-- A row that was read is among rows that were read if its bytes are. -/
theorem Reads.mem_of_bytes {rows : List Row} {row : Row} (sound : table.Sound)
    (reads : table.Reads row) (readsRows : ∀ other ∈ rows, table.Reads other)
    (member : row.bytes ∈ rows.map Row.bytes) : row ∈ rows := by
  obtain ⟨other, inside, same⟩ := List.mem_map.mp member
  have read : ∀ row, table.Reads row → Row.decode row.bytes = .ok row := by
    rintro row ⟨_, kept, read⟩
    obtain ⟨entry, isEntry, rfl⟩ := List.mem_map.mp kept
    obtain ⟨stored, _, written, -⟩ := sound.keyed entry isEntry
    rw [(Row.encode_eq_ok_iff.mp (Row.encode_of_decode written read)).2]
    exact read
  have ofRow := read row reads
  rw [← same, read other (readsRows other inside)] at ofRow
  cases ofRow
  exact inside

end Table

namespace TableSchema

variable {table : TableSchema} {content : Table} {clause other : Clause} {plan plan' : Plan}
  {row : Row}

theorem finds_congr (alike : clause.Alike other) :
    table.Finds content clause row ↔ table.Finds content other row := by
  unfold Finds Row.FoundBy Row.HasKeyIn
  rw [alike.field, alike.range]

theorem Scans.congr (alike : clause.Alike other) (scans : table.Scans content clause) :
    table.Scans content other := by
  unfold Scans at scans ⊢
  rw [← alike.field, ← Table.scanPrimary_congr alike.range, ← Table.scanIndex_congr alike.range]
  exact scans

/-- A plan that covers another one and is covered by it asks for the same rows. -/
theorem meets_congr (covered : plan.Covered plan') (covered' : plan'.Covered plan) :
    table.Meets content plan row ↔ table.Meets content plan' row := by
  have finds : ∀ {clauses others : List Clause}, Clause.Covered clauses others →
      (∀ other ∈ others, table.Finds content other row) →
      ∀ clause ∈ clauses, table.Finds content clause row :=
    fun covers => covers.forall_mem fun _ _ alike => (finds_congr alike).mpr
  have inclusions : (∀ clause ∈ plan.inclusions, table.Finds content clause row) ↔
      ∀ clause ∈ plan'.inclusions, table.Finds content clause row :=
    ⟨finds covered'.inclusions, finds covered.inclusions⟩
  have exclusions : (∀ clause ∈ plan.exclusions, table.Finds content clause row) ↔
      ∀ clause ∈ plan'.exclusions, table.Finds content clause row :=
    ⟨finds covered'.exclusions, finds covered.exclusions⟩
  have some : plan.exclusions ≠ [] ↔ plan'.exclusions ≠ [] :=
    not_congr ⟨covered'.exclusions.eq_nil, covered.exclusions.eq_nil⟩
  rw [Meets, Meets, inclusions, exclusions, some]

theorem Runs.congr (runs : table.Runs content plan) (covered : plan.Covered plan')
    (covered' : plan'.Covered plan) : table.Runs content plan' where
  declared := covered'.clauses.forall_mem (fun _ _ alike declared => alike.field ▸ declared)
    runs.declared
  whole none := runs.whole (covered.inclusions.eq_nil none)
  scans := covered'.clauses.forall_mem
    (fun _ _ alike => Scans.congr ⟨alike.field.symm, alike.range.symm⟩) runs.scans

end TableSchema

/-! ### Selections -/

namespace Connection

variable {connection : Connection} {engine later : Engine} {name : String} {first second : Query}
  {rows rows' : List Row}

theorem Permits.congr (permitted : connection.Permits first)
    (covered : first.plan.Covered second.plan) : connection.Permits second := by
  refine fun refused => permitted ⟨?_, refused.2⟩
  have empty := refused.1
  rw [Plan.isEmpty, Bool.and_eq_true, List.isEmpty_iff, List.isEmpty_iff] at empty ⊢
  exact ⟨covered.inclusions.eq_nil empty.1, covered.exclusions.eq_nil empty.2⟩

/-- A row that one of two queries finds is found by the other one too, if they have each other's
conditions. -/
theorem mem_of_select (reached : engine.Reached) (within : first.Within second)
    (within' : second.Within first) (ok : (connection.select engine name first).1 = .ok rows)
    (ok' : (connection.select engine name second).1 = .ok rows') :
    ∀ row ∈ rows, row ∈ rows' := by
  rcases @select_cases connection engine name second reached with
    ⟨failure, failed, -⟩ | ⟨table, content, found, isFound, sees, collects⟩
  · cases ok'.symm.trans failed
  cases ok'.symm.trans isFound
  have sound := sound_of_sees reached sees
  have reads := reads_of_select reached sees ok
  intro row member
  obtain ⟨key, bytes, here, written⟩ := (reads row member).exists_stores sound
  obtain ⟨writable, same⟩ := Row.encode_eq_ok_iff.mp written
  obtain ⟨stored, holds⟩ := Table.exists_holds sound
  have kept : row.bytes ∈ stored.map Row.bytes := by
    rw [(Table.holds_iff.mp holds).2, same]
    exact KeyMap.mem_contents_of_get? here
  obtain ⟨own, holdsOwn, inside⟩ := holds.exists_mem writable kept
  have asked := (TableSchema.meets_congr within.covered within'.covered).mp
    (meets_of_select reached sees ok row member)
  exact (reads row member).mem_of_bytes sound (reads_of_select reached sees ok')
    (((collects own holdsOwn).1.exact row inside).mpr asked)

/-- A query succeeds where one with the same conditions has succeeded, if no call is struck. -/
theorem exists_select_of_within (quiet : engine.Quiet) (reached : engine.Reached)
    (within : first.Within second) (within' : second.Within first)
    (ok : (connection.select engine name first).1 = .ok rows) :
    ∃ rows', (connection.select engine name second).1 = .ok rows' := by
  rcases @select_cases connection engine name first reached with
    ⟨failure, failed, -⟩ | ⟨table, content, _, -, sees, -⟩
  · cases ok.symm.trans failed
  obtain ⟨permitted, runs⟩ := runs_of_select sees ok
  obtain ⟨rows', succeeds⟩ := exists_select quiet reached sees (permitted.congr within.covered)
    (runs.congr within.covered within'.covered)
  exact ⟨rows', congrArg Prod.fst succeeds⟩

/-- The equality of queries is reflexive and transitive. It is symmetric where the fields of the
first query are distinct, as they are in queries that were built and in queries from maps that
repeat no field; in general an equality holds the other way round exactly if each condition of the
second query is among those of the first. In an engine that connections lead to, queries that are
equal both ways find the same rows whenever both succeed, whatever faults there are and although
one is asked after the other; and where no call is struck, one succeeds exactly if the other
does. -/
theorem equal_queries_find_the_same (reached : engine.Reached) (connection : Connection)
    (name : String) :
    (∀ query : Query, query == query) ∧
    (∀ first second third : Query, first == second → second == third → first == third) ∧
    (∀ query : Query, query.Built → query.Distinct) ∧
    (∀ fields, (Query.ofFields fields).Distinct ↔ (fields.map Prod.fst).Nodup) ∧
    ∀ first second : Query, first == second →
      (first.Distinct → second == first) ∧
      (second == first ↔ ∀ wanted ∈ second.conditions, first.Asks wanted) ∧
      (second == first →
        (∀ later rows rows', later.registry = engine.registry →
          (connection.select engine name first).1 = .ok rows →
          (connection.select later name second).1 = .ok rows' →
          ∀ row, row ∈ rows ↔ row ∈ rows') ∧
        (engine.Quiet →
          ((∃ rows, (connection.select engine name first).1 = .ok rows) ↔
            ∃ rows, (connection.select engine name second).1 = .ok rows))) := by
  refine ⟨Query.beq_refl, fun _ _ _ => Query.beq_trans, fun _ => Query.Built.distinct,
    fun _ => Query.distinct_ofFields, fun first second same => ?_⟩
  obtain ⟨size, within⟩ := Query.beq_iff.mp same
  refine ⟨Query.beq_symm_of_distinct same, ?_, fun same' => ?_⟩
  · rw [Query.beq_iff]
    exact and_iff_right size.symm
  have within' := (Query.beq_iff.mp same').2
  refine ⟨fun later rows rows' unchanged ok ok' row => ?_, fun quiet => ⟨?_, ?_⟩⟩
  · -- Without faults both find what they have found.
    let calm : Engine := ⟨engine.registry, {}⟩
    have quiet : calm.Quiet := fun _ => rfl
    have still : calm.registry = engine.registry := rfl
    have found := select_of_quiet quiet still ok
    have found' := select_of_quiet quiet (still.trans unchanged.symm) ok'
    have reachedCalm : calm.Reached := reached.arm {}
    exact ⟨mem_of_select reachedCalm within within' found found' row,
      mem_of_select reachedCalm within' within found' found row⟩
  · rintro ⟨rows, ok⟩
    exact exists_select_of_within quiet reached within within' ok
  · rintro ⟨rows, ok⟩
    exact exists_select_of_within quiet reached within' within ok

end Connection

/-! ### Two people -/

namespace People

/-- The query for people called Smith who are older than twenty. -/
def olderSmiths : Query := older.withEqual "lastName" (.text "Smith")

/-- The same query, with the conditions the other way round and the age as a float. -/
def smithsOlder : Query :=
  (Query.withEqual {} "lastName" (.text "Smith")).withGreater "age" (.float ⟨0x4034000000000000⟩)

/-- Of two people both queries find the one who is called Smith, and both ways they are equal. -/
theorem smithsOlder_finds_olderSmiths : ∃ rows rows',
    (two.connection.select two.engine people.name olderSmiths).1 = .ok rows ∧ rows.length = 1 ∧
      (two.connection.select two.engine people.name smithsOlder).1 = .ok rows' ∧
      smithsOlder == olderSmiths ∧ ∀ row, row ∈ rows ↔ row ∈ rows' := by
  have size : ((two.connection.select two.engine people.name olderSmiths).1.map
      List.length).toOption = some 1 := by decide +kernel
  have same : olderSmiths == smithsOlder := by decide +kernel
  have quiet : two.engine.Quiet := by
    intro call
    cases call <;> decide +kernel
  have built : olderSmiths.Built :=
    (Query.Built.start.withOperator "age" _).withEqual "lastName" (.text "Smith")
  obtain ⟨-, -, distinct, -, equal⟩ :=
    Connection.equal_queries_find_the_same reached_two two.connection people.name
  obtain ⟨symmetric, -, findTheSame⟩ := equal olderSmiths smithsOlder same
  have same' := symmetric (distinct olderSmiths built)
  obtain ⟨rowsAgree, succeedTogether⟩ := findTheSame same'
  cases ok : (two.connection.select two.engine people.name olderSmiths).1 with
  | error failure =>
    rw [ok] at size
    cases size
  | ok rows =>
    obtain ⟨rows', ok'⟩ := (succeedTogether quiet).mp ⟨rows, ok⟩
    rw [ok] at size
    exact ⟨rows, rows', rfl, Option.some.inj size, ok', same',
      rowsAgree two.engine rows rows' rfl ok ok'⟩

/-- A query that asks twice for one field is equal to one with another condition, which is not
equal to it. -/
example : (Query.ofFields [("age", .integer 12), ("age", .integer 12)] ==
      Query.ofFields [("age", .integer 12), ("lastName", .text "Lee")]) = true ∧
    (Query.ofFields [("age", .integer 12), ("lastName", .text "Lee")] ==
      Query.ofFields [("age", .integer 12), ("age", .integer 12)]) = false := by
  decide +kernel

end People

end IndexedStore
