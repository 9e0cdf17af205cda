/-
This file proves that the answers of a table depend on the rows that it keeps and on the indexes
that it was given, but not on how it came to have them. An index does remember more than that: a
key that several rows have is written as the first of them has written it, as an integer or as the
float of the same number. No scan shows the difference.
-/

import IndexedStore.Proofs.Storage.ScanOrder

namespace IndexedStore

section Ascending

variable {α : Type} {order : α → α → Ordering} [Std.TransCmp order]

/-- The least items of two lists are equal in order if each of them is found in the other list. -/
theorem eq_of_least {head head' : α} {rest rest' : List α}
    (least : ∀ item ∈ rest, order head item = .lt)
    (least' : ∀ other ∈ rest', order head' other = .lt)
    (found : ∃ other ∈ head' :: rest', order head other = .eq)
    (found' : ∃ item ∈ head :: rest, order item head' = .eq) : order head head' = .eq := by
  obtain ⟨other, member', same⟩ := found
  obtain ⟨item, member, same'⟩ := found'
  rcases List.mem_cons.mp member' with rfl | inRest'
  · exact same
  rcases List.mem_cons.mp member with rfl | inRest
  · exact same'
  -- Otherwise each of the two heads would come before the other.
  have before := Std.TransCmp.lt_of_lt_of_eq (least item inRest) same'
  have before' := Std.TransCmp.lt_of_lt_of_eq (least' other inRest') (Std.OrientedCmp.eq_symm same)
  rw [Std.OrientedCmp.gt_of_lt before] at before'
  cases before'

/-- Ascending lists in which the same items are found, but for equality in order, are the same item
by item. -/
theorem forall₂_of_ascending {items others : List α}
    (ascending : items.Pairwise fun first second => order first second = .lt)
    (ascending' : others.Pairwise fun first second => order first second = .lt)
    (found : ∀ item ∈ items, ∃ other ∈ others, order item other = .eq)
    (found' : ∀ other ∈ others, ∃ item ∈ items, order item other = .eq) :
    List.Forall₂ (fun item other => order item other = .eq) items others := by
  induction items generalizing others with
  | nil =>
    cases others with
    | nil => exact .nil
    | cons head' rest' =>
      obtain ⟨_, nothing, -⟩ := found' head' List.mem_cons_self
      cases nothing
  | cons head rest inductionHypothesis =>
    cases others with
    | nil =>
      obtain ⟨_, nothing, -⟩ := found head List.mem_cons_self
      cases nothing
    | cons head' rest' =>
      obtain ⟨least, restAscending⟩ := List.pairwise_cons.mp ascending
      obtain ⟨least', restAscending'⟩ := List.pairwise_cons.mp ascending'
      have heads := eq_of_least least least' (found head List.mem_cons_self)
        (found' head' List.mem_cons_self)
      refine .cons heads (inductionHypothesis restAscending restAscending' (fun item member => ?_)
        fun other member => ?_)
      · obtain ⟨other, member', same⟩ := found item (List.mem_cons_of_mem _ member)
        rcases List.mem_cons.mp member' with rfl | inRest
        · have before := Std.TransCmp.lt_of_lt_of_eq (least item member) same
          rw [heads] at before
          cases before
        · exact ⟨other, inRest, same⟩
      · obtain ⟨item, member', same⟩ := found' other (List.mem_cons_of_mem _ member)
        rcases List.mem_cons.mp member' with rfl | inRest
        · have before := Std.TransCmp.lt_of_eq_of_lt heads (least' other member)
          rw [same] at before
          cases before
        · exact ⟨item, inRest, same⟩

end Ascending

/-- What is kept under keys does not depend on how the keys are written. -/
theorem KeyMap.filterMap_get?_congr {α : Type} {map : KeyMap α}
    {visits visits' : List (Value × Value)}
    (same : List.Forall₂ (fun visit visit' => visit.1 == visit'.1 ∧ visit.2 == visit'.2) visits
      visits') :
    (visits.map Prod.snd).filterMap map.get? = (visits'.map Prod.snd).filterMap map.get? := by
  induction same with
  | nil => rfl
  | cons equal _ inductionHypothesis =>
    rw [List.map_cons, List.map_cons, List.filterMap_cons, List.filterMap_cons,
      inductionHypothesis, KeyMap.get?_congr equal.2]

namespace Index

variable {index other : Index} {range : KeyRange}

/-- Indexes that say the same of all keys and owners are visited in step. -/
theorem forall₂_visits (wellFormed : index.WellFormed) (wellFormed' : other.WellFormed)
    (same : ∀ key owner, index.Owns key owner ↔ other.Owns key owner) :
    List.Forall₂ (fun visit visit' => visit.1 == visit'.1 ∧ visit.2 == visit'.2)
      (index.visits range) (other.visits range) := by
  have equal (visit visit' : Value × Value) :
      compareLex (compareOn Prod.fst) (compareOn Prod.snd) visit visit' = .eq ↔
        visit.1 == visit'.1 ∧ visit.2 == visit'.2 := by
    rw [Value.beq_iff, Value.beq_iff]
    exact Ordering.then_eq_eq
  have visited {index other : Index} (wellFormed : index.WellFormed)
      (wellFormed' : other.WellFormed)
      (same : ∀ key owner, index.Owns key owner → other.Owns key owner) :
      ∀ visit ∈ index.visits range, ∃ visit' ∈ other.visits range,
        visit.1 == visit'.1 ∧ visit.2 == visit'.2 := by
    intro visit member
    obtain ⟨contains, owns⟩ := (exists_visit_iff wellFormed).mp ⟨visit, member, BEq.rfl, BEq.rfl⟩
    obtain ⟨visit', member', sameKey, sameOwner⟩ :=
      (exists_visit_iff wellFormed').mpr ⟨contains, same _ _ owns⟩
    exact ⟨visit', member', BEq.symm sameKey, BEq.symm sameOwner⟩
  simp only [← equal] at visited ⊢
  refine forall₂_of_ascending (pairwise_visits wellFormed) (pairwise_visits wellFormed')
    (visited wellFormed wellFormed' fun _ _ => (same _ _).mp) fun visit' member => ?_
  obtain ⟨visit, member', equal⟩ :=
    visited wellFormed' wellFormed (fun _ _ => (same _ _).mpr) visit' member
  exact ⟨visit, member', Std.OrientedCmp.eq_symm equal⟩

end Index

namespace Table

variable {table other third : Table}

/-- The options of the indexes with their fields. -/
def settings (table : Table) : List (String × IndexOptions) :=
  table.indexes.map fun entry => (entry.1, entry.2.options)

/-- A table is made like another one and keeps the same rows under the same keys. Only in its
indexes keys and owners may be written in another way. -/
structure Resembles (table other : Table) : Prop where
  /-- The same name. -/
  name : other.name = table.name
  /-- The same key field. -/
  keyField : other.keyField = table.keyField
  /-- Both generate keys, or none does. -/
  autoIncrement : other.autoIncrement = table.autoIncrement
  /-- The same next key. -/
  nextKey : other.nextKey = table.nextKey
  /-- The same rows. -/
  rows : other.rows = table.rows
  /-- Indexes on the same fields with the same options. -/
  settings : other.settings = table.settings

theorem Resembles.refl (table : Table) : table.Resembles table := ⟨rfl, rfl, rfl, rfl, rfl, rfl⟩

theorem Resembles.trans (near : table.Resembles other) (far : other.Resembles third) :
    table.Resembles third :=
  ⟨far.name.trans near.name, far.keyField.trans near.keyField,
    far.autoIncrement.trans near.autoIncrement, far.nextKey.trans near.nextKey,
    far.rows.trans near.rows, far.settings.trans near.settings⟩

theorem Resembles.scanPrimary (resembles : table.Resembles other) (range : Option KeyRange) :
    other.scanPrimary range = table.scanPrimary range := by
  cases range with
  | none => rw [scanPrimary_none, scanPrimary_none, resembles.rows]
  | some range => rw [scanPrimary_some, scanPrimary_some, resembles.rows]

/-- Tables that keep the same rows have the same owners in indexes that take the same keys. -/
theorem owns_iff_of_resembles (resembles : table.Resembles other) {field : String}
    {index index' : Index} (mirrors : index.Mirrors field table.rows)
    (mirrors' : index'.Mirrors field other.rows) (same : index'.options = index.options)
    (key owner : Value) : index.Owns key owner ↔ index'.Owns key owner := by
  rw [mirrors.owns, mirrors'.owns, resembles.rows, same]

/-- A scan of an index gives the same, be it rows or a failure. -/
theorem Resembles.scanIndex (resembles : table.Resembles other) (sound : table.Sound)
    (sound' : other.Sound) (field : String) (range : KeyRange) :
    other.scanIndex field range = table.scanIndex field range := by
  have options : (other.indexes.lookup field).map Index.options =
      (table.indexes.lookup field).map Index.options := by
    rw [← lookup_map, ← lookup_map]
    exact congrArg (List.lookup field) resembles.settings
  cases found : table.indexes.lookup field with
  | none =>
    rw [found, Option.map_none, Option.map_eq_none_iff] at options
    rw [scanIndex_of_lookup_eq_none options, scanIndex_of_lookup_eq_none found, resembles.name]
  | some index =>
    rw [found, Option.map_some, Option.map_eq_some_iff] at options
    obtain ⟨index', found', same⟩ := options
    have mirrors := sound.mirrored _ (mem_of_lookup found)
    have mirrors' := sound'.mirrored _ (mem_of_lookup found')
    have visits := @Index.forall₂_visits index index' range mirrors.wellFormed
      mirrors'.wellFormed (owns_iff_of_resembles resembles mirrors mirrors' same)
    rw [scanIndex_of_lookup found', scanIndex_of_lookup found, ← Index.map_snd_visits,
      ← Index.map_snd_visits, resembles.rows, KeyMap.filterMap_get?_congr visits]

end Table

end IndexedStore
