/-
This file keeps a record beside the database of people: the rows that were written, by
their keys. What the database answers is checked against what queries mean on the
record, and the first disagreement ends the work.
-/

import IndexedStore.People.Basic
import IndexedStore.Query.Meaning

namespace IndexedStore.People

/-- The database together with the record of its rows. -/
structure Tracked where
  /-- The database. -/
  store : Store := Store.empty
  /-- The rows that it is expected to hold. -/
  rows : KeyMap Row := {}

/-- How the database disagrees with the record. -/
inductive Disagreement where
  /-- An operation that should have succeeded did not. -/
  | refused
  /-- Another number of rows was deleted than the query means. -/
  | count (deleted expected : Nat)
  /-- Other rows were found than the query means. -/
  | content (found expected : List Row)

namespace Tracked

/-- The number of rows on record. -/
def size (tracked : Tracked) : Nat := tracked.rows.size

/-- Writes a person. -/
def put (tracked : Tracked) (row : Row) : Except Disagreement Tracked :=
  match tracked.store.add row .put with
  | (.done key, store) => .ok { store, rows := tracked.rows.insert key row }
  | _ => .error .refused

/-- Deletes the people that a query finds, and gives their number. -/
def delete (tracked : Tracked) (query : Query) (schedule : Schedule := .inOrder) :
    Except Disagreement (Nat × Tracked) :=
  let expected := tracked.rows.entries.filter fun entry => query.accepts entry.2
  match tracked.store.delete query schedule with
  | (.done deleted, store) =>
    if deleted = expected.length then
      let rows := expected.foldl (fun rows entry => rows.erase entry.1) tracked.rows
      .ok (deleted, { store, rows })
    else .error (.count deleted expected.length)
  | _ => .error .refused

/-- The order of keys that may be missing: no key comes first. -/
def compareIds : Option Value → Option Value → Ordering
  | none, none => .eq
  | none, some _ => .lt
  | some _, none => .gt
  | some first, some second => first.compareKey second

/-- Rows in ascending order of their keys. -/
def sortById (rows : List Row) : List Row :=
  rows.mergeSort fun first second => (compareIds (first.get? "id") (second.get? "id")).isLE

/-- The people that a query finds, in ascending order of their keys. -/
def select (tracked : Tracked) (query : Query) : Except Disagreement (List Row × Tracked) :=
  match tracked.store.select query with
  | (.ok rows, store) =>
    let found := sortById rows
    let expected := query.filter tracked.rows.contents
    if found == expected then .ok (found, { tracked with store })
    else .error (.content found expected)
  | _ => .error .refused

end Tracked

end IndexedStore.People
