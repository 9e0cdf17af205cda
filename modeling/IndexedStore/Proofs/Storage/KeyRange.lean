/-
This file proves what the ranges of keys contain. The edges of a range are always in
order, so that no scan is refused, and a range with two bounds contains the keys that are
within both, whichever way round the bounds are.
-/

import IndexedStore.KeyMap
import IndexedStore.Proofs.Storage.IndexKeys
import IndexedStore.Proofs.Storage.KeyMap

namespace IndexedStore

/-! ### Edges -/

namespace Edge

variable {edge : Edge} {key key' : Value}

theorem admitsFromBelow_congr (same : key == key') :
    edge.admitsFromBelow key = edge.admitsFromBelow key' := by
  have equal := Value.beq_iff.mp same
  cases edge <;>
    simp only [admitsFromBelow, @Std.TransCmp.congr_left _ Value.compareKey _ _ _ _ equal]

theorem admitsFromAbove_congr (same : key == key') :
    edge.admitsFromAbove key = edge.admitsFromAbove key' := by
  have equal := Value.beq_iff.mp same
  cases edge <;>
    simp only [admitsFromAbove, @Std.TransCmp.congr_left _ Value.compareKey _ _ _ _ equal]

theorem admitsFromBelow_ofBound (value : Value) (isOpen : Bool) (key : Value) :
    (ofBound value isOpen).admitsFromBelow key =
      if isOpen then (key.compareKey value).isGT else (key.compareKey value).isGE := by
  cases isOpen <;> rfl

theorem admitsFromAbove_ofBound (value : Value) (isOpen : Bool) (key : Value) :
    (ofBound value isOpen).admitsFromAbove key =
      if isOpen then (key.compareKey value).isLT else (key.compareKey value).isLE := by
  cases isOpen <;> rfl

end Edge

/-! ### Ranges -/

/-- The contents of the entries whose keys lie in a range. -/
def KeyMap.contentsIn {α : Type} (map : KeyMap α) (range : KeyRange) : List α :=
  (map.entries.filter fun entry => range.contains entry.1).map Prod.snd

namespace KeyRange

variable {range : KeyRange} {key key' : Value}

/-- Which keys lie in a range depends on the keys only up to equality. -/
theorem contains_congr (same : key == key') : range.contains key = range.contains key' := by
  rw [contains, contains]
  split
  · rw [Edge.admitsFromBelow_congr same, Edge.admitsFromAbove_congr same]
  · rfl

/-- A map gives what is in a range, and refuses no range. -/
theorem contentsIn?_eq {α : Type} (map : KeyMap α) (range : KeyRange) :
    map.contentsIn? range = some (map.contentsIn range) := by
  rw [KeyMap.contentsIn?, KeyMap.contentsIn]
  cases edges : range.edges? with
  | none => simp [contains, edges]
  | some ends =>
    obtain ⟨low, high⟩ := ends
    simp only [KeyMap.slice?, ordered_of_edges? edges, if_true, Option.map_some, contains, edges]

@[simp]
theorem contains_only (value : Value) : (only value).contains = fun key => key == value := by
  funext key
  show ((key.compareKey value).isGE && (key.compareKey value).isLE) = (key.compareKey value).isEq
  cases key.compareKey value <;> rfl

/-- The range of one key has at most one entry. -/
theorem contentsIn_only {α : Type} {map : KeyMap α} {content : α} (sorted : map.Sorted)
    (found : map.get? key = some content) : map.contentsIn (only key) = [content] := by
  rw [KeyMap.contentsIn, contains_only]
  obtain ⟨entries⟩ := map
  change KeyMap.lookup key entries = some content at found
  change entries.Pairwise _ at sorted
  show (entries.filter fun entry => entry.1 == key).map Prod.snd = [content]
  induction entries with
  | nil => cases found
  | cons entry rest inductionHypothesis =>
    obtain ⟨least, restSorted⟩ := List.pairwise_cons.mp sorted
    rw [KeyMap.lookup] at found
    by_cases isKey : key == entry.1
    · rw [if_pos isKey, Option.some_inj] at found
      have others : rest.filter (fun other => other.1 == key) = [] := by
        refine List.filter_eq_nil_iff.mpr fun other member same => ?_
        have equal := BEq.symm (BEq.trans same isKey)
        rw [KeyMap.beq_eq_false_of_lt (least other member)] at equal
        cases equal
      rw [List.filter_cons, if_pos (BEq.symm isKey), others, List.map_singleton, found]
    · rw [if_neg isKey] at found
      rw [List.filter_cons, if_neg fun same => isKey (BEq.symm same)]
      exact inductionHypothesis found restSorted

/-- A range with two bounds has the keys that are on the inner side of both, also where the
bounds leave no room. -/
theorem contains_between (lower upper : Value) (lowerOpen upperOpen : Bool) :
    (between lower upper lowerOpen upperOpen).contains key =
      ((Edge.ofBound lower lowerOpen).admitsFromBelow key &&
        (Edge.ofBound upper upperOpen).admitsFromAbove key) := by
  rw [contains, edges?, Edge.admitsFromBelow_ofBound, Edge.admitsFromAbove_ofBound]
  cases order : lower.compareKey upper with
  | lt => simp only [Edge.admitsFromBelow_ofBound, Edge.admitsFromAbove_ofBound]
  | eq =>
    have same := @Std.TransCmp.congr_right _ Value.compareKey _ key _ _ order
    cases lowerOpen with
    | true =>
      show false = ((key.compareKey lower).isGT && _)
      rw [same]
      cases upperOpen <;> cases key.compareKey upper <;> rfl
    | false =>
      cases upperOpen with
      | true =>
        show false = ((key.compareKey lower).isGE && (key.compareKey upper).isLT)
        rw [same]
        cases key.compareKey upper <;> rfl
      | false => rfl
  | gt =>
    -- A key from the lower bound on is above the upper bound.
    have apart : (key.compareKey lower).isGE → key.compareKey upper = .gt := fun above =>
      Std.TransCmp.gt_of_isGE_of_gt above order
    cases place : key.compareKey lower with
    | lt => cases lowerOpen <;> rfl
    | eq | gt =>
      rw [apart (by rw [place]; rfl)]
      cases lowerOpen <;> cases upperOpen <;> rfl

theorem contains_above (value : Value) (isOpen : Bool) :
    (above value isOpen).contains key = (Edge.ofBound value isOpen).admitsFromBelow key :=
  Bool.and_true _

theorem contains_below (value : Value) (isOpen : Bool) :
    (below value isOpen).contains key = (Edge.ofBound value isOpen).admitsFromAbove key :=
  Bool.true_and _

end KeyRange

/-! ### Rows with a key in a range -/

namespace Row

variable {row other : Row} {field : String} {multiEntry : Bool} {range : KeyRange}

/-- One of the keys of a row for a field lies in a range. -/
def HasKeyIn (row : Row) (field : String) (multiEntry : Bool) (range : KeyRange) : Prop :=
  ∃ key ∈ row.indexKeys field multiEntry, range.contains key

theorem hasKeyIn_iff : row.HasKeyIn field multiEntry range ↔
    ∃ key, range.contains key ∧ row.HasKey field multiEntry key := by
  constructor
  · rintro ⟨key, member, inside⟩
    exact ⟨key, inside, key, member, BEq.rfl⟩
  · rintro ⟨key, inside, own, member, same⟩
    exact ⟨own, member, KeyRange.contains_congr same ▸ inside⟩

/-- At most one of the keys of a row for a field lies in a range. -/
def HasOneKeyIn (row : Row) (field : String) (multiEntry : Bool) (range : KeyRange) : Prop :=
  ∀ key key', range.contains key → range.contains key' → row.HasKey field multiEntry key →
    row.HasKey field multiEntry key' → key == key'

/-- Where an array is one key, a row has at most one key. -/
theorem beq_of_hasKey_single {key key' : Value} (has : row.HasKey field false key)
    (has' : row.HasKey field false key') : key == key' := by
  obtain ⟨own, member, same⟩ := has
  obtain ⟨own', member', same'⟩ := has'
  unfold indexKeys at member member'
  cases found : row.get? field with
  | none =>
    rw [found] at member
    cases member
  | some value =>
    rw [found, Option.map_some, Option.getD_some, Value.indexKeys_single] at member member'
    split at member
    · rw [List.mem_singleton.mp member] at same
      rw [if_pos ‹_›] at member'
      rw [List.mem_singleton.mp member'] at same'
      exact BEq.trans same (BEq.symm same')
    · cases member

theorem hasOneKeyIn_single : row.HasOneKeyIn field false range :=
  fun _ _ _ _ => beq_of_hasKey_single

end Row

end IndexedStore
