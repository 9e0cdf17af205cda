/-
This file defines workloads on the database of people: many operations over a few
keys, taken up round robin. They either all write, or write, select and delete in
turn.
-/

import IndexedStore.People.Basic

namespace IndexedStore.People

/-- How many operations are run, and over how many keys. -/
structure Workload where
  /-- The number of operations. -/
  operations : Nat
  /-- The number of keys. -/
  keys : Nat
  /-- Whether selections and deletions are mixed in. -/
  mixed : Bool := false

/-- One operation of a workload. -/
inductive Operation where
  | upsert (row : Row)
  | select (query : Query)
  | delete (query : Query)

/-- Runs an operation, and says whether it succeeds. -/
def Operation.run (store : Store) : Operation → Bool × Store
  | upsert row =>
    match store.add row .put with
    | (.done _, store) => (true, store)
    | (_, store) => (false, store)
  | select query =>
    match store.select query with
    | (.ok _, store) => (true, store)
    | (.error _, store) => (false, store)
  | delete query =>
    match store.delete query with
    | (.done _, store) => (true, store)
    | (_, store) => (false, store)

namespace Workload

/-- The row that a workload writes. -/
def row (id age : Int64) : Row := person id "Stress" "Test" age

/-- The operation at a position of a workload. -/
def operation (workload : Workload) (position : Nat) : Operation :=
  let id := Int64.ofNat (position % workload.keys)
  if workload.mixed then
    match position % 3 with
    | 0 => .upsert (row id id)
    | 1 => .select (Query.withAtLeast {} "age" (.integer id))
    | _ => .delete (Query.withEqual {} "id" (.integer id))
  else .upsert (row id (Int64.ofNat position))

/-- Runs a workload in order of the positions, and gives the number of failures. -/
def run (workload : Workload) (store : Store) : Nat × Store :=
  (List.range workload.operations).foldl (fun (failed, store) position =>
    let (succeeded, store) := (workload.operation position).run store
    (if succeeded then failed else failed + 1, store)) (0, store)

end Workload

end IndexedStore.People
