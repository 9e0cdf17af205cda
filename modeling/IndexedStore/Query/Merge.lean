/-
This file joins the batches of rows that the scans of a query have found. The
answer has the rows that are in every inclusion batch and not in every exclusion
batch, in the order of the first inclusion batch. Rows are recognised by their
canonical bytes.

A query with at most one inclusion batch and no exclusion batch has nothing to
join, and its batch is the answer as it stands.
-/

import IndexedStore.Row

namespace IndexedStore

/-- A row together with its canonical bytes. -/
structure KeyedRow where
  /-- The canonical bytes. -/
  key : List UInt8
  /-- The row. -/
  row : Row

namespace Merge

/-- The canonical bytes of rows. -/
def keysOf (rows : List Row) : Except CodecError (List (List UInt8)) := rows.mapM Row.encode

/-- Rows with their canonical bytes. -/
def keyed (rows : List Row) : Except CodecError (List KeyedRow) :=
  rows.mapM fun row => do return ⟨← row.encode, row⟩

/-- Keeps the first of the rows with the same bytes. -/
def dedupe : List KeyedRow → List KeyedRow
  | [] => []
  | first :: rest => first :: (dedupe rest).filter fun other => other.key != first.key

/-- Keeps the rows that are in every one of the batches. Nothing more is looked at
once no row is left. -/
def intersect (rows : List KeyedRow) : List (List Row) → Except CodecError (List KeyedRow)
  | [] => .ok rows
  | batch :: batches =>
    if rows.isEmpty then .ok rows
    else do
      let keys ← keysOf batch
      intersect (rows.filter fun row => keys.contains row.key) batches

/-- Keeps the bytes that are in every one of the batches. Nothing more is looked at
once none are left. -/
def commonKeys (keys : List (List UInt8)) :
    List (List Row) → Except CodecError (List (List UInt8))
  | [] => .ok keys
  | batch :: batches =>
    if keys.isEmpty then .ok keys
    else do
      let others ← keysOf batch
      commonKeys (keys.filter fun key => others.contains key) batches

/-- Takes away the rows that are in every exclusion batch, if there is any batch. -/
def subtract (rows : List KeyedRow) : List (List Row) → Except CodecError (List KeyedRow)
  | [] => .ok rows
  | batch :: batches => do
    let excluded ← commonKeys (← keysOf batch) batches
    return rows.filter fun row => !excluded.contains row.key

end Merge

open Merge in
/-- Joins the inclusion batches and takes away the exclusion batches. -/
def merge (inclusions exclusions : List (List Row)) : Except CodecError (List Row) :=
  match inclusions, exclusions with
  | [], [] => .ok []
  | [batch], [] => .ok batch
  | _, _ => do
    let first ← keyed (inclusions.headD [])
    let common ← intersect (dedupe first) inclusions.tail
    let kept ← subtract common exclusions
    return kept.map KeyedRow.row

end IndexedStore
