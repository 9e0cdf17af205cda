/-
This file proves the laws of maps from keys to contents. Looking a key up depends on the
key only up to equality in key order, and it finds what was put there last. Insertion and
removal keep the keys in strictly ascending order, so that no two entries have one key.
-/

import IndexedStore.KeyMap
import IndexedStore.Proofs.Value.KeyOrder

namespace IndexedStore.KeyMap

variable {α : Type} {map : KeyMap α} {key other : Value} {content : α}

/-! ### Looking up -/

theorem lookup_congr (same : key == other) (entries : List (Value × α)) :
    lookup key entries = lookup other entries := by
  induction entries with
  | nil => rfl
  | cons entry rest inductionHypothesis =>
    rw [lookup, lookup, inductionHypothesis, BEq.congr_left same]

theorem get?_congr (same : key == other) : map.get? key = map.get? other :=
  lookup_congr same map.entries

theorem contains_congr (same : key == other) : map.contains key = map.contains other := by
  rw [contains, contains, get?_congr same]

theorem exists_entry_of_lookup {entries : List (Value × α)}
    (found : lookup key entries = some content) :
    ∃ entry ∈ entries, key == entry.1 ∧ entry.2 = content := by
  induction entries with
  | nil => cases found
  | cons entry rest inductionHypothesis =>
    rw [lookup] at found
    split at found
    · exact ⟨entry, List.mem_cons_self, ‹_›, Option.some_inj.mp found⟩
    · obtain ⟨entry, member, same⟩ := inductionHypothesis found
      exact ⟨entry, List.mem_cons_of_mem _ member, same⟩

theorem mem_contents_of_get? (found : map.get? key = some content) : content ∈ map.contents := by
  obtain ⟨entry, inside, -, rfl⟩ := exists_entry_of_lookup found
  exact List.mem_map_of_mem inside

theorem isSome_lookup_iff {entries : List (Value × α)} :
    (lookup key entries).isSome ↔ ∃ entry ∈ entries, key == entry.1 := by
  induction entries with
  | nil => simp [lookup]
  | cons entry rest inductionHypothesis =>
    rw [lookup]
    split <;> simp_all

/-- A map contains a key exactly if one of its entries has it. -/
theorem contains_iff : map.contains key ↔ ∃ entry ∈ map.entries, key == entry.1 :=
  isSome_lookup_iff

theorem contains_of_mem_keys (member : key ∈ map.keys) : map.contains key := by
  obtain ⟨entry, inside, rfl⟩ := List.mem_map.mp member
  exact contains_iff.mpr ⟨entry, inside, BEq.rfl⟩

theorem contains_iff_mem_keys : map.contains key ↔ ∃ other ∈ map.keys, key == other := by
  rw [contains_iff]
  constructor
  · rintro ⟨entry, member, same⟩
    exact ⟨entry.1, List.mem_map_of_mem member, same⟩
  · rintro ⟨other, member, same⟩
    obtain ⟨entry, inside, rfl⟩ := List.mem_map.mp member
    exact ⟨entry, inside, same⟩

theorem isEmpty_eq_false_iff : map.isEmpty = false ↔ map.entries ≠ [] := by
  rw [isEmpty]
  simp

theorem entries_ne_nil_of_contains (inside : map.contains key) : map.entries ≠ [] := by
  intro empty
  rw [contains, get?, empty] at inside
  cases inside

/-! ### Inserting and erasing -/

@[simp]
theorem lookup_insertEntry (entries : List (Value × α)) :
    lookup other (insertEntry key content entries) =
      if other == key then some content else lookup other entries := by
  induction entries with
  | nil => rfl
  | cons entry rest inductionHypothesis =>
    obtain ⟨head, old⟩ := entry
    rw [insertEntry]
    split
    · rw [lookup]
    · rename_i same
      have equal : (other == head) = (other == key) :=
        BEq.congr_right (BEq.symm (Value.beq_iff.mpr same))
      rw [lookup, lookup, equal]
      split <;> rfl
    · rename_i after
      rw [lookup, lookup, inductionHypothesis]
      by_cases isHead : other == head
      · have notKey : ¬(other == key) := by
          intro isKey
          have equal := Value.beq_iff.mp (BEq.trans (BEq.symm isKey) isHead)
          rw [after] at equal
          cases equal
        rw [if_pos isHead, if_neg notKey, if_pos isHead]
      · rw [if_neg isHead, if_neg isHead]

/-- Inserting changes the content of one key. -/
@[simp, grind =]
theorem get?_insert : (map.insert key content).get? other =
    if other == key then some content else map.get? other :=
  lookup_insertEntry map.entries

@[simp, grind =]
theorem contains_insert :
    (map.insert key content).contains other ↔ other == key ∨ map.contains other := by
  rw [contains, contains, get?_insert]
  split <;> simp_all

@[simp]
theorem lookup_filter (entries : List (Value × α)) :
    lookup other (entries.filter fun entry => !(key == entry.1)) =
      if other == key then none else lookup other entries := by
  induction entries with
  | nil => simp [lookup]
  | cons entry rest inductionHypothesis =>
    rw [List.filter_cons]
    by_cases isKey : key == entry.1
    · have check : ¬(!(key == entry.1)) = true := by simp [isKey]
      rw [if_neg check, inductionHypothesis, lookup, BEq.congr_right (BEq.symm isKey)]
      split <;> rfl
    · have check : (!(key == entry.1)) = true := by simp [isKey]
      rw [if_pos check, lookup, lookup, inductionHypothesis]
      by_cases isHead : other == entry.1
      · have notKey : ¬(other == key) := fun same =>
          isKey (BEq.trans (BEq.symm same) isHead)
        rw [if_pos isHead, if_neg notKey, if_pos isHead]
      · rw [if_neg isHead, if_neg isHead]

/-- Erasing takes the content of one key. -/
@[simp, grind =]
theorem get?_erase : (map.erase key).get? other =
    if other == key then none else map.get? other :=
  lookup_filter map.entries

@[simp, grind =]
theorem contains_erase :
    (map.erase key).contains other ↔ ¬(other == key) ∧ map.contains other := by
  rw [contains, contains, get?_erase]
  split <;> simp_all

/-- A key that has been erased is not erased again. -/
@[simp]
theorem erase_erase : (map.erase key).erase key = map.erase key :=
  congrArg KeyMap.mk (List.filter_filter.trans (by simp only [Bool.and_self]))

/-- A key that is not there cannot be erased. -/
theorem erase_of_not_contains (absent : ¬map.contains key) : map.erase key = map := by
  refine congrArg KeyMap.mk (List.filter_eq_self.mpr fun entry member => ?_)
  rw [Bool.not_eq_true', ← Bool.not_eq_true]
  exact fun same => absent (contains_iff.mpr ⟨entry, member, same⟩)

/-- What was inserted last is erased, and nothing else. -/
@[simp]
theorem erase_insert : (map.insert key content).erase key = map.erase key := by
  obtain ⟨entries⟩ := map
  refine congrArg KeyMap.mk ?_
  show (insertEntry key content entries).filter _ = entries.filter _
  induction entries with
  | nil => simp [insertEntry]
  | cons head rest inductionHypothesis =>
    rw [insertEntry]
    split
    · rw [List.filter_cons_of_neg (by simp)]
    · rename_i same
      have isHead : key == head.1 := Value.beq_iff.mpr same
      rw [List.filter_cons_of_neg (by simp [isHead]), List.filter_cons_of_neg (by simp [isHead])]
    · rw [List.filter_cons, List.filter_cons, inductionHypothesis]

/-- A key keeps the content that it was given last. -/
@[simp]
theorem insert_insert {content' : α} :
    (map.insert key content).insert key content' = map.insert key content' := by
  obtain ⟨entries⟩ := map
  refine congrArg KeyMap.mk ?_
  show insertEntry key content' (insertEntry key content entries) = insertEntry key content' entries
  induction entries with
  | nil => simp [insertEntry, Std.ReflCmp.compare_self]
  | cons head rest inductionHypothesis =>
    cases order : key.compareKey head.1 with
    | lt => simp [insertEntry, order, Std.ReflCmp.compare_self]
    | eq => simp [insertEntry, order]
    | gt => simp [insertEntry, order, inductionHypothesis]

theorem insertEntry_comm_of_lt {content' : α} (before : key.compareKey other = .lt)
    (entries : List (Value × α)) :
    insertEntry other content' (insertEntry key content entries) =
      insertEntry key content (insertEntry other content' entries) := by
  have after : other.compareKey key = .gt := Std.OrientedCmp.gt_of_lt before
  induction entries with
  | nil => simp [insertEntry, before, after]
  | cons head rest inductionHypothesis =>
    cases order : key.compareKey head.1 with
    | lt =>
      cases order' : other.compareKey head.1 <;> simp [insertEntry, order, order', before, after]
    | eq =>
      have order' : other.compareKey head.1 = .gt :=
        Std.OrientedCmp.gt_of_lt
          (Std.TransCmp.lt_of_eq_of_lt (Std.OrientedCmp.eq_symm order) before)
      simp [insertEntry, order, order']
    | gt =>
      have order' : other.compareKey head.1 = .gt :=
        Std.OrientedCmp.gt_of_lt (Std.TransCmp.lt_trans (Std.OrientedCmp.lt_of_gt order) before)
      simp [insertEntry, order, order', inductionHypothesis]

/-- Different keys may be inserted in any order. -/
theorem insert_comm {content' : α} (different : ¬(key == other)) :
    (map.insert key content).insert other content' =
      (map.insert other content').insert key content := by
  refine congrArg KeyMap.mk ?_
  show insertEntry other content' (insertEntry key content map.entries) =
    insertEntry key content (insertEntry other content' map.entries)
  cases order : key.compareKey other with
  | lt => exact insertEntry_comm_of_lt order map.entries
  | eq => exact absurd (Value.beq_iff.mpr order) different
  | gt => exact (insertEntry_comm_of_lt (Std.OrientedCmp.lt_of_gt order) map.entries).symm

/-! ### Ascending keys -/

/-- The keys stand in strictly ascending order. -/
def Sorted (map : KeyMap α) : Prop :=
  map.entries.Pairwise fun first second => first.1.compareKey second.1 = .lt

/-- An entry that stands before another one has another key. -/
theorem beq_eq_false_of_lt (before : key.compareKey other = .lt) : (key == other) = false := by
  rw [← Bool.not_eq_true, Value.beq_iff, before]
  nofun

/-- A key that comes before all entries is not among them. -/
theorem lookup_eq_none_of_lt {entries : List (Value × α)}
    (before : ∀ entry ∈ entries, key.compareKey entry.1 = .lt) : lookup key entries = none := by
  cases found : lookup key entries with
  | none => rfl
  | some content =>
    obtain ⟨entry, member, same, -⟩ := exists_entry_of_lookup found
    rw [beq_eq_false_of_lt (before entry member)] at same
    cases same

/-- An entry after an insertion was there before, or it has the new content, under the new
key or under a key that was there. -/
theorem mem_insertEntry {entries : List (Value × α)} {entry : Value × α}
    (member : entry ∈ insertEntry key content entries) :
    entry ∈ entries ∨
      entry.2 = content ∧ (entry.1 = key ∨ ∃ old ∈ entries, old.1 = entry.1) := by
  induction entries with
  | nil =>
    rw [List.mem_singleton.mp member]
    exact .inr ⟨rfl, .inl rfl⟩
  | cons head rest inductionHypothesis =>
    obtain ⟨headKey, old⟩ := head
    rw [insertEntry] at member
    split at member
    · rcases List.mem_cons.mp member with rfl | inside
      · exact .inr ⟨rfl, .inl rfl⟩
      · exact .inl inside
    · rcases List.mem_cons.mp member with rfl | inside
      · exact .inr ⟨rfl, .inr ⟨_, List.mem_cons_self, rfl⟩⟩
      · exact .inl (List.mem_cons_of_mem _ inside)
    · rcases List.mem_cons.mp member with rfl | inside
      · exact .inl List.mem_cons_self
      · rcases inductionHypothesis inside with before | ⟨new, isKey | ⟨other, inRest, same⟩⟩
        · exact .inl (List.mem_cons_of_mem _ before)
        · exact .inr ⟨new, .inl isKey⟩
        · exact .inr ⟨new, .inr ⟨other, List.mem_cons_of_mem _ inRest, same⟩⟩

theorem insert_sorted (sorted : map.Sorted) : (map.insert key content).Sorted := by
  obtain ⟨entries⟩ := map
  show (insertEntry key content entries).Pairwise _
  change entries.Pairwise _ at sorted
  induction entries with
  | nil => exact List.pairwise_singleton _ _
  | cons head rest inductionHypothesis =>
    obtain ⟨headKey, old⟩ := head
    obtain ⟨least, restSorted⟩ := List.pairwise_cons.mp sorted
    rw [insertEntry]
    split
    · rename_i before
      refine List.pairwise_cons.mpr ⟨fun entry member => ?_, sorted⟩
      rcases List.mem_cons.mp member with rfl | inRest
      · exact before
      · exact Std.TransCmp.lt_trans before (least entry inRest)
    · exact List.pairwise_cons.mpr ⟨least, restSorted⟩
    · rename_i after
      refine List.pairwise_cons.mpr ⟨fun entry member => ?_, inductionHypothesis restSorted⟩
      rcases mem_insertEntry member with inRest | ⟨-, isKey | ⟨other, inRest, same⟩⟩
      · exact least entry inRest
      · rw [isKey]
        exact Std.OrientedCmp.lt_of_gt after
      · rw [← same]
        exact least other inRest

theorem erase_sorted (sorted : map.Sorted) : (map.erase key).Sorted :=
  List.Pairwise.filter _ sorted

/-- In a sorted map every entry is the one that is found under its key. -/
theorem get?_of_mem (sorted : map.Sorted) {entry : Value × α} (member : entry ∈ map.entries) :
    map.get? entry.1 = some entry.2 := by
  obtain ⟨entries⟩ := map
  show lookup entry.1 entries = some entry.2
  change entries.Pairwise _ at sorted
  change entry ∈ entries at member
  induction entries with
  | nil => cases member
  | cons head rest inductionHypothesis =>
    obtain ⟨least, restSorted⟩ := List.pairwise_cons.mp sorted
    rw [lookup]
    rcases List.mem_cons.mp member with rfl | inRest
    · rw [if_pos BEq.rfl]
    · have different : ¬(entry.1 == head.1) := by
        intro same
        have := beq_eq_false_of_lt (least entry inRest)
        rw [BEq.symm same] at this
        cases this
      rw [if_neg different, inductionHypothesis restSorted inRest]

/-- No two entries of a sorted map have one key. -/
theorem eq_of_mem_of_beq (sorted : map.Sorted) {first second : Value × α}
    (member : first ∈ map.entries) (member' : second ∈ map.entries)
    (same : first.1 == second.1) : first = second := by
  have distinct : ∀ first second : Value × α, first.1.compareKey second.1 = .lt →
      first.1 == second.1 → first = second := by
    intro first second before same
    rw [beq_eq_false_of_lt before] at same
    cases same
  exact List.Pairwise.forall_of_forall_of_flip (fun _ _ _ => rfl)
    (sorted.imp fun before => distinct _ _ before)
    (sorted.imp fun before same => (distinct _ _ before (BEq.symm same)).symm) member member' same

/-! ### Maps that agree -/

section Agreement

variable {β : Type} {changed : KeyMap β} {change : α → β}

variable {head : Value × α} {rest : List (Value × α)}

@[simp]
theorem lookup_head : lookup head.1 (head :: rest) = some head.2 := if_pos BEq.rfl

/-- The entries after the first of a sorted map have its other keys. -/
theorem lookup_of_least (least : ∀ entry ∈ rest, head.1.compareKey entry.1 = .lt) :
    lookup key rest = if key == head.1 then none else lookup key (head :: rest) := by
  rw [lookup]
  split
  · rename_i isHead
    cases found : lookup key rest with
    | none => rfl
    | some content =>
      obtain ⟨entry, member, same, -⟩ := exists_entry_of_lookup found
      have different := beq_eq_false_of_lt (least entry member)
      rw [BEq.trans (BEq.symm isHead) same] at different
      cases different
  · rfl

/-- Sorted maps in which the same keys are found have their contents in the same order. -/
theorem contents_eq_map (sorted : map.Sorted) (sorted' : changed.Sorted)
    (same : ∀ key, changed.get? key = (map.get? key).map change) :
    changed.contents = map.contents.map change := by
  obtain ⟨entries⟩ := map
  obtain ⟨entries'⟩ := changed
  change ∀ key, lookup key entries' = (lookup key entries).map change at same
  show entries'.map Prod.snd = (entries.map Prod.snd).map change
  change entries.Pairwise _ at sorted
  change entries'.Pairwise _ at sorted'
  induction entries generalizing entries' with
  | nil =>
    cases entries' with
    | nil => rfl
    | cons head' rest' => cases lookup_head.symm.trans (same head'.1)
  | cons head rest inductionHypothesis =>
    obtain ⟨least, restSorted⟩ := List.pairwise_cons.mp sorted
    have here := same head.1
    rw [lookup_head, Option.map_some] at here
    cases entries' with
    | nil => cases here
    | cons head' rest' =>
      obtain ⟨least', restSorted'⟩ := List.pairwise_cons.mp sorted'
      -- Each of the two first keys is in the other map, so that neither comes before the other.
      have isHead : head.1 == head'.1 := by
        obtain ⟨content, there, -⟩ := Option.map_eq_some_iff.mp
          ((same head'.1).symm.trans lookup_head)
        obtain ⟨entry, member, equal, -⟩ := exists_entry_of_lookup there
        obtain ⟨entry', member', equal', -⟩ := exists_entry_of_lookup here
        rcases List.mem_cons.mp member' with rfl | inRest'
        · exact equal'
        rcases List.mem_cons.mp member with rfl | inRest
        · exact BEq.symm equal
        have before := least entry inRest
        have before' := least' entry' inRest'
        rw [← Std.TransCmp.congr_right (Value.beq_iff.mp equal)] at before
        rw [← Std.TransCmp.congr_right (Value.beq_iff.mp equal'),
          Std.OrientedCmp.gt_of_lt before] at before'
        cases before'
      rw [lookup, if_pos isHead, Option.some_inj] at here
      rw [List.map_cons, List.map_cons, List.map_cons, here]
      refine congrArg _ (inductionHypothesis rest' (fun key => ?_) restSorted restSorted')
      rw [lookup_of_least least', lookup_of_least least, ← BEq.congr_right isHead, same key]
      split <;> rfl

end Agreement

/-! ### Leaving out contents -/

/-- The entries whose contents have a property. -/
def keep (map : KeyMap α) (property : α → Bool) : KeyMap α :=
  ⟨map.entries.filter fun entry => property entry.2⟩

theorem keep_sorted (sorted : map.Sorted) (property : α → Bool) : (map.keep property).Sorted :=
  List.Pairwise.filter _ sorted

theorem get?_keep (sorted : map.Sorted) (property : α → Bool) :
    (map.keep property).get? key = (map.get? key).filter property := by
  obtain ⟨entries⟩ := map
  show lookup key (entries.filter fun entry => property entry.2) =
    (lookup key entries).filter property
  change entries.Pairwise _ at sorted
  induction entries with
  | nil => rfl
  | cons head rest inductionHypothesis =>
    obtain ⟨least, restSorted⟩ := List.pairwise_cons.mp sorted
    have others := inductionHypothesis restSorted
    rw [List.filter_cons]
    by_cases isHead : key == head.1
    · rw [lookup_of_least least, if_pos isHead] at others
      rw [lookup, if_pos isHead, Option.filter_some]
      split
      · rw [lookup, if_pos isHead]
      · exact others
    · rw [lookup, if_neg isHead, ← others]
      split
      · rw [lookup, if_neg isHead]
      · rfl

/-- Erasing the keys of all entries with a property leaves the other entries. -/
theorem foldl_erase_eq_keep (sorted : map.Sorted) (property : α → Bool) :
    (map.entries.filter fun entry => property entry.2).foldl (fun map entry => map.erase entry.1)
      map = map.keep fun content => !property content := by
  have erased (gone : List (Value × α)) (map : KeyMap α) :
      (gone.foldl (fun map entry => map.erase entry.1) map).entries =
        map.entries.filter fun entry => gone.all fun other => !(other.1 == entry.1) := by
    induction gone generalizing map with
    | nil => exact (List.filter_eq_self.mpr fun _ _ => rfl).symm
    | cons head rest inductionHypothesis =>
      rw [List.foldl_cons, inductionHypothesis, erase, List.filter_filter]
      exact List.filter_congr fun entry _ => by rw [List.all_cons, Bool.and_comm]
  refine congrArg KeyMap.mk ((erased _ map).trans (List.filter_congr fun entry member => ?_))
  show _ = !property entry.2
  cases has : property entry.2 with
  | true =>
    exact List.all_eq_false.mpr ⟨entry, List.mem_filter.mpr ⟨member, has⟩, by simp⟩
  | false =>
    refine List.all_eq_true.mpr fun other isGone => ?_
    obtain ⟨member', has'⟩ := List.mem_filter.mp isGone
    rw [Bool.not_eq_true', ← Bool.not_eq_true]
    intro same
    rw [eq_of_mem_of_beq sorted member' member same, has] at has'
    cases has'

end IndexedStore.KeyMap
