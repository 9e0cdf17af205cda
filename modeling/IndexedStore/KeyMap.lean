/-
This file defines maps from keys to contents, in ascending order of keys. Tables
hold their rows in such a map, and indexes hold the owners of each index key. Two
keys that compare as equal are one key, and the one that came first is kept.
-/

import IndexedStore.KeyRange

namespace IndexedStore

/-- Entries in ascending order of their keys. -/
structure KeyMap (α : Type) where
  /-- The entries, from the smallest key on. -/
  entries : List (Value × α) := []

namespace KeyMap

variable {α : Type}

/-- The map without entries. -/
def empty : KeyMap α := {}

/-- Whether there is no entry. -/
def isEmpty (map : KeyMap α) : Bool := map.entries.isEmpty

/-- The number of entries. -/
def size (map : KeyMap α) : Nat := map.entries.length

/-- The keys in ascending order. -/
def keys (map : KeyMap α) : List Value := map.entries.map Prod.fst

/-- The contents in ascending order of their keys. -/
def contents (map : KeyMap α) : List α := map.entries.map Prod.snd

/-- The content of a key in a list of entries. -/
def lookup (key : Value) : List (Value × α) → Option α
  | [] => none
  | (other, content) :: rest => if key == other then some content else lookup key rest

/-- The content of a key. -/
def get? (map : KeyMap α) (key : Value) : Option α := lookup key map.entries

/-- Whether a key has an entry. -/
def contains (map : KeyMap α) (key : Value) : Bool := (map.get? key).isSome

/-- Puts an entry at its place in a list of entries, or changes the content there. -/
def insertEntry (key : Value) (content : α) : List (Value × α) → List (Value × α)
  | [] => [(key, content)]
  | (other, old) :: rest =>
    match key.compareKey other with
    | .lt => (key, content) :: (other, old) :: rest
    | .eq => (other, content) :: rest
    | .gt => (other, old) :: insertEntry key content rest

/-- Gives a key its content. -/
def insert (map : KeyMap α) (key : Value) (content : α) : KeyMap α :=
  ⟨insertEntry key content map.entries⟩

/-- Removes a key. -/
def erase (map : KeyMap α) (key : Value) : KeyMap α :=
  ⟨map.entries.filter fun entry => !(key == entry.1)⟩

/-- The stretch of entries between two edges. Edges that are not in order bound no
stretch, and asking for one is refused. -/
def slice? (map : KeyMap α) (low high : Edge) : Option (List (Value × α)) :=
  if Edge.ordered low high then
    some (map.entries.filter fun entry =>
      low.admitsFromBelow entry.1 && high.admitsFromAbove entry.1)
  else none

/-- The contents of the keys in a range, in ascending order, or nothing if the stretch between
the edges of the range is refused. -/
def contentsIn? (map : KeyMap α) (range : KeyRange) : Option (List α) :=
  match range.edges? with
  | some (low, high) => (map.slice? low high).map (List.map Prod.snd)
  | none => some []

/-- No range is refused. -/
theorem isSome_contentsIn? (map : KeyMap α) (range : KeyRange) :
    (map.contentsIn? range).isSome := by
  rw [contentsIn?]
  split
  · rename_i edges
    rw [slice?, if_pos (KeyRange.ordered_of_edges? edges)]
    rfl
  · rfl

end KeyMap

/-- Sets of keys in ascending order. -/
abbrev KeySet := KeyMap Unit

end IndexedStore
