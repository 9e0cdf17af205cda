/-
This file proves what adding and dropping owners does to an index. Everything is said
about one relation, which keys are owned by which primary keys, both of them up to
equality in key order.
-/

import IndexedStore.Proofs.Storage.IndexKeys
import IndexedStore.Proofs.Storage.KeyMap
import Mathlib.Data.List.Basic

namespace IndexedStore.Index

variable {index : Index} {key key' owner owner' : Value} {keys : List Value}

/-- An index key is owned by a primary key. -/
def Owns (index : Index) (key owner : Value) : Prop := (index.ownersOf key).contains owner

theorem owns_congr (same : key == key') (same' : owner == owner') :
    index.Owns key owner ↔ index.Owns key' owner' := by
  rw [Owns, Owns, ownersOf, ownersOf, KeyMap.get?_congr same, KeyMap.contains_congr same']

theorem owns_iff : index.Owns key owner ↔
    ∃ owners, index.owners.get? key = some owners ∧ owners.contains owner := by
  rw [Owns, ownersOf]
  cases index.owners.get? key with
  | none => exact iff_of_false nofun nofun
  | some owners => exact ⟨fun inside => ⟨owners, rfl, inside⟩, fun ⟨_, rfl, inside⟩ => inside⟩

/-- An index without owners. -/
theorem not_owns_of_empty {options : IndexOptions} :
    ¬({ options } : Index).Owns key owner := by
  rw [owns_iff]
  rintro ⟨_, found, -⟩
  cases found

/-- The keys stand in order, and so do the owners of each key, of which there are some. -/
structure WellFormed (index : Index) : Prop where
  /-- The keys are sorted. -/
  sorted : index.owners.Sorted
  /-- The owners of a key are sorted. -/
  ownersSorted : ∀ entry ∈ index.owners.entries, entry.2.Sorted
  /-- A key has an owner. -/
  owned : ∀ entry ∈ index.owners.entries, entry.2.entries ≠ []

theorem wellFormed_empty {options : IndexOptions} : ({ options } : Index).WellFormed :=
  ⟨.nil, nofun, nofun⟩

/-! ### One owner of one key -/

theorem ownersOf_sorted (wellFormed : index.WellFormed) (key : Value) :
    (index.ownersOf key).Sorted := by
  unfold ownersOf
  cases found : index.owners.get? key with
  | none => exact .nil
  | some owners =>
    obtain ⟨entry, member, -, rfl⟩ := KeyMap.exists_entry_of_lookup found
    exact wellFormed.ownersSorted entry member

theorem wellFormed_insert (wellFormed : index.WellFormed) {owners : KeySet} (sorted : owners.Sorted)
    (owned : owners.entries ≠ []) :
    ({ index with owners := index.owners.insert key owners } : Index).WellFormed where
  sorted := KeyMap.insert_sorted wellFormed.sorted
  ownersSorted entry member := by
    rcases KeyMap.mem_insertEntry member with before | ⟨new, -⟩
    · exact wellFormed.ownersSorted entry before
    · exact new ▸ sorted
  owned entry member := by
    rcases KeyMap.mem_insertEntry member with before | ⟨new, -⟩
    · exact wellFormed.owned entry before
    · exact new ▸ owned

theorem wellFormed_addOwner (wellFormed : index.WellFormed) :
    (index.addOwner owner key).WellFormed := by
  refine wellFormed_insert wellFormed (KeyMap.insert_sorted (ownersOf_sorted wellFormed key)) ?_
  exact KeyMap.entries_ne_nil_of_contains (KeyMap.contains_insert.mpr (.inl (BEq.refl owner)))

/-- Adding an owner to a key adds it to the owners of that key. -/
@[simp, grind =]
theorem ownersOf_addOwner : (index.addOwner owner key).ownersOf key' =
    if key' == key then (index.ownersOf key').insert owner () else index.ownersOf key' := by
  rw [ownersOf, addOwner, KeyMap.get?_insert]
  split
  · rename_i same
    rw [ownersOf, ownersOf, KeyMap.get?_congr same, Option.getD_some]
  · rfl

theorem owns_addOwner : (index.addOwner owner key).Owns key' owner' ↔
    (key' == key ∧ owner' == owner) ∨ index.Owns key' owner' := by
  rw [Owns, ownersOf_addOwner, Owns]
  split <;> simp [*]

theorem wellFormed_dropOwner (wellFormed : index.WellFormed) :
    (index.dropOwner owner key).WellFormed := by
  unfold dropOwner
  split
  · rename_i owners found
    obtain ⟨entry, member, -, rfl⟩ := KeyMap.exists_entry_of_lookup found
    show (if (entry.2.erase owner).isEmpty then _ else _ : Index).WellFormed
    split
    · exact ⟨KeyMap.erase_sorted wellFormed.sorted,
        fun other inside => wellFormed.ownersSorted other (List.mem_filter.mp inside).1,
        fun other inside => wellFormed.owned other (List.mem_filter.mp inside).1⟩
    · rename_i remaining
      exact wellFormed_insert wellFormed
        (KeyMap.erase_sorted (wellFormed.ownersSorted entry member))
        (KeyMap.isEmpty_eq_false_iff.mp (Bool.eq_false_iff.mpr remaining))
  · exact wellFormed

/-- Dropping an owner from a key takes it out of the owners of that key. -/
@[simp, grind =]
theorem ownersOf_dropOwner : (index.dropOwner owner key).ownersOf key' =
    if key' == key then (index.ownersOf key').erase owner else index.ownersOf key' := by
  unfold dropOwner
  cases found : index.owners.get? key with
  | none =>
    show index.ownersOf key' = _
    split
    · rename_i same
      rw [ownersOf, KeyMap.get?_congr same, found]
      rfl
    · rfl
  | some owners =>
    have atKey (same : key' == key) : index.ownersOf key' = owners := by
      rw [ownersOf, KeyMap.get?_congr same, found, Option.getD_some]
    show (if (owners.erase owner).isEmpty then _ else _ : Index).ownersOf key' = _
    by_cases same : key' == key
    · rw [if_pos same, atKey same]
      split
      · rename_i empty
        simp only [ownersOf, KeyMap.get?_erase, if_pos same, Option.getD_none]
        exact congrArg KeyMap.mk (List.isEmpty_iff.mp empty).symm
      · simp [ownersOf, same]
    · split <;> simp [ownersOf, same]

theorem owns_dropOwner : (index.dropOwner owner key).Owns key' owner' ↔
    index.Owns key' owner' ∧ ¬(key' == key ∧ owner' == owner) := by
  rw [Owns, ownersOf_dropOwner, Owns]
  split <;> simp [*, and_comm]

/-! ### One owner of several keys -/

@[simp]
theorem addOwners_nil : index.addOwners owner [] = index := rfl

@[simp]
theorem addOwners_cons : index.addOwners owner (key :: keys) =
    (index.addOwner owner key).addOwners owner keys := rfl

@[simp]
theorem dropOwners_nil : index.dropOwners owner [] = index := rfl

@[simp]
theorem dropOwners_cons : index.dropOwners owner (key :: keys) =
    (index.dropOwner owner key).dropOwners owner keys := rfl

theorem wellFormed_addOwners (wellFormed : index.WellFormed) :
    (index.addOwners owner keys).WellFormed := by
  induction keys generalizing index with
  | nil => exact wellFormed
  | cons key rest inductionHypothesis => exact inductionHypothesis (wellFormed_addOwner wellFormed)

theorem wellFormed_dropOwners (wellFormed : index.WellFormed) :
    (index.dropOwners owner keys).WellFormed := by
  induction keys generalizing index with
  | nil => exact wellFormed
  | cons key rest inductionHypothesis => exact inductionHypothesis (wellFormed_dropOwner wellFormed)

/-- Adding an owner to keys makes it an owner of these keys, and changes nothing else. -/
theorem owns_addOwners : (index.addOwners owner keys).Owns key' owner' ↔
    ((∃ own ∈ keys, key' == own) ∧ owner' == owner) ∨ index.Owns key' owner' := by
  induction keys generalizing index with
  | nil => simp
  | cons key rest inductionHypothesis =>
    rw [addOwners_cons, inductionHypothesis, owns_addOwner, exists_mem_cons, or_and_right, or_assoc,
      or_left_comm]

/-- Dropping an owner from keys takes it from these keys, and changes nothing else. -/
theorem owns_dropOwners : (index.dropOwners owner keys).Owns key' owner' ↔
    index.Owns key' owner' ∧ ¬((∃ own ∈ keys, key' == own) ∧ owner' == owner) := by
  induction keys generalizing index with
  | nil => simp
  | cons key rest inductionHypothesis =>
    rw [dropOwners_cons, inductionHypothesis, owns_dropOwner, exists_mem_cons, or_and_right, not_or,
      and_assoc]

/-- Dropping an owner from keys takes it out of the owners of these keys, and leaves the owners of
all other keys as they are. -/
@[grind =]
theorem ownersOf_dropOwners : (index.dropOwners owner keys).ownersOf key' =
    if keys.any (key' == ·) then (index.ownersOf key').erase owner else index.ownersOf key' := by
  induction keys generalizing index with
  | nil => rfl
  | cons key rest inductionHypothesis =>
    rw [dropOwners_cons, inductionHypothesis, ownersOf_dropOwner]
    by_cases isKey : key' == key <;> simp [isKey]

@[simp]
theorem options_addOwner : (index.addOwner owner key).options = index.options := rfl

@[simp]
theorem options_addOwners : (index.addOwners owner keys).options = index.options := by
  induction keys generalizing index with
  | nil => rfl
  | cons key rest inductionHypothesis => simp [inductionHypothesis]

@[simp]
theorem options_dropOwner : (index.dropOwner owner key).options = index.options := by
  unfold dropOwner
  split
  · show (if _ then _ else _ : Index).options = _
    split <;> rfl
  · rfl

@[simp]
theorem options_dropOwners : (index.dropOwners owner keys).options = index.options := by
  induction keys generalizing index with
  | nil => rfl
  | cons key rest inductionHypothesis => simp [inductionHypothesis]

/-! ### The other owners -/

/-- Adding an owner to keys leaves their other owners. -/
theorem erase_ownersOf_addOwners :
    ((index.addOwners owner keys).ownersOf key').erase owner =
      (index.ownersOf key').erase owner := by
  induction keys generalizing index with
  | nil => rfl
  | cons key rest inductionHypothesis =>
    rw [addOwners_cons, inductionHypothesis, ownersOf_addOwner]
    split <;> simp

/-- Dropping an owner from keys leaves their other owners. -/
theorem erase_ownersOf_dropOwners :
    ((index.dropOwners owner keys).ownersOf key').erase owner =
      (index.ownersOf key').erase owner := by
  rw [ownersOf_dropOwners]
  split <;> simp

/-- What remains of an entry when an owner is taken out of it, if anything does. -/
def entryWithout? (owner : Value) (entry : Value × KeySet) : Option (Value × KeySet) :=
  if (entry.2.erase owner).isEmpty then none else some (entry.1, entry.2.erase owner)

/-- An index from which an owner has been taken out, whatever its keys. -/
def without (index : Index) (owner : Value) : Index :=
  { index with owners := ⟨index.owners.entries.filterMap (entryWithout? owner)⟩ }

/-- An owner without keys is not missed. -/
theorem without_eq_self (wellFormed : index.WellFormed)
    (absent : ∀ key, ¬index.Owns key owner) : index.without owner = index := by
  have kept : ∀ entry ∈ index.owners.entries, entryWithout? owner entry = some entry := by
    intro entry member
    have lacks : entry.2.erase owner = entry.2 := KeyMap.erase_of_not_contains fun inside =>
      absent entry.1 (owns_iff.mpr ⟨entry.2, KeyMap.get?_of_mem wellFormed.sorted member, inside⟩)
    have owned : entry.2.isEmpty = false :=
      KeyMap.isEmpty_eq_false_iff.mpr (wellFormed.owned entry member)
    rw [entryWithout?, lacks, owned, if_neg Bool.false_ne_true]
  obtain ⟨options, entries⟩ := index
  refine congrArg (fun entries => Index.mk options ⟨entries⟩) ?_
  exact (List.filterMap_congr kept).trans List.filterMap_some

/-- The entries without an owner depend on the other owners only. -/
theorem filterMap_insertEntry {entries : List (Value × KeySet)} {owners : KeySet}
    (sorted : entries.Pairwise fun first second => first.1.compareKey second.1 = .lt)
    (others : owners.erase owner = ((KeyMap.lookup key entries).getD {}).erase owner) :
    (KeyMap.insertEntry key owners entries).filterMap (entryWithout? owner) =
      entries.filterMap (entryWithout? owner) := by
  have nothing (key : Value) (owners : KeySet) (free : owners.erase owner = {}) :
      entryWithout? owner (key, owners) = none := by
    rw [entryWithout?, free]
    rfl
  induction entries with
  | nil => exact List.filterMap_cons_none (nothing key owners others)
  | cons head rest inductionHypothesis =>
    obtain ⟨least, restSorted⟩ := List.pairwise_cons.mp sorted
    cases order : key.compareKey head.1 with
    | lt =>
      have before : ∀ entry ∈ head :: rest, key.compareKey entry.1 = .lt := by
        intro entry member
        rcases List.mem_cons.mp member with rfl | inRest
        · exact order
        · exact Std.TransCmp.lt_trans order (least entry inRest)
      rw [KeyMap.lookup_eq_none_of_lt before] at others
      rw [KeyMap.insertEntry, order]
      exact List.filterMap_cons_none (nothing key owners others)
    | eq =>
      have isHead : key == head.1 := Value.beq_iff.mpr order
      rw [KeyMap.lookup, if_pos isHead] at others
      rw [KeyMap.insertEntry, order]
      have same : entryWithout? owner (head.1, owners) = entryWithout? owner head := by
        rw [entryWithout?, others]
        rfl
      show (((head.1, owners) :: rest).filterMap _) = _
      rw [List.filterMap_cons, List.filterMap_cons, same]
    | gt =>
      have notHead : ¬(key == head.1) := by
        rw [Value.beq_iff, order]
        decide
      rw [KeyMap.lookup, if_neg notHead] at others
      rw [KeyMap.insertEntry, order]
      show ((head :: KeyMap.insertEntry key owners rest).filterMap _) = _
      rw [List.filterMap_cons, List.filterMap_cons, inductionHypothesis restSorted others]

theorem without_insert (wellFormed : index.WellFormed) {owners : KeySet}
    (others : owners.erase owner = (index.ownersOf key).erase owner) :
    ({ index with owners := index.owners.insert key owners } : Index).without owner =
      index.without owner :=
  congrArg (fun entries => Index.mk index.options ⟨entries⟩)
    (filterMap_insertEntry wellFormed.sorted others)

theorem without_addOwner (wellFormed : index.WellFormed) :
    (index.addOwner owner key).without owner = index.without owner :=
  without_insert wellFormed KeyMap.erase_insert

theorem without_dropOwner (wellFormed : index.WellFormed) :
    (index.dropOwner owner key).without owner = index.without owner := by
  unfold dropOwner
  cases found : index.owners.get? key with
  | none => rfl
  | some owners =>
    have atKey : index.ownersOf key = owners := by
      rw [ownersOf, found]
      rfl
    show (if (owners.erase owner).isEmpty then _ else _ : Index).without owner = _
    split
    · rename_i empty
      refine congrArg (fun entries => Index.mk index.options ⟨entries⟩) ?_
      show (index.owners.entries.filter _).filterMap (entryWithout? owner) = _
      rw [List.filterMap_filter]
      refine List.filterMap_congr fun entry member => ?_
      split
      · rfl
      · rename_i isKey
        have atEntry : entry.2 = owners := by
          have there := KeyMap.get?_of_mem wellFormed.sorted member
          rw [← KeyMap.get?_congr (by simpa using isKey), found] at there
          exact (Option.some_inj.mp there).symm
        rw [entryWithout?, atEntry, if_pos empty]
    · exact without_insert wellFormed (by rw [KeyMap.erase_erase, atKey])

theorem without_addOwners (wellFormed : index.WellFormed) :
    (index.addOwners owner keys).without owner = index.without owner := by
  induction keys generalizing index with
  | nil => rfl
  | cons key rest inductionHypothesis =>
    exact (inductionHypothesis (wellFormed_addOwner wellFormed)).trans (without_addOwner wellFormed)

theorem without_dropOwners (wellFormed : index.WellFormed) :
    (index.dropOwners owner keys).without owner = index.without owner := by
  induction keys generalizing index with
  | nil => rfl
  | cons key rest inductionHypothesis =>
    exact (inductionHypothesis (wellFormed_dropOwner wellFormed)).trans
      (without_dropOwner wellFormed)

/-- Dropping an owner from the keys that it was given leads back to the index without it. -/
theorem dropOwners_addOwners (wellFormed : index.WellFormed) {keys' : List Value}
    (absent : ∀ key, ¬index.Owns key owner)
    (same : ∀ key, (∃ own ∈ keys, key == own) → ∃ own ∈ keys', key == own) :
    (index.addOwners owner keys).dropOwners owner keys' = index := by
  have added : (index.addOwners owner keys).WellFormed := wellFormed_addOwners wellFormed
  have gone : ∀ key, ¬((index.addOwners owner keys).dropOwners owner keys').Owns key owner := by
    intro key owns
    obtain ⟨owned, kept⟩ := owns_dropOwners.mp owns
    rcases owns_addOwners.mp owned with ⟨given, -⟩ | before
    · exact kept ⟨same key given, BEq.rfl⟩
    · exact absent key before
  rw [← without_eq_self (wellFormed_dropOwners added) gone, without_dropOwners added,
    without_addOwners wellFormed, without_eq_self wellFormed absent]

/-! ### Unique indexes -/

/-- No key has two owners. -/
def SingleOwners (index : Index) : Prop :=
  ∀ key owner owner', index.Owns key owner → index.Owns key owner' → owner == owner'

/-- There is no conflict exactly if the index, should it be unique, has the given keys for no other
owner. -/
theorem conflict?_eq_none_iff : index.conflict? keys owner = none ↔
    (index.options.unique → ∀ own ∈ keys, ∀ other, index.Owns own other → other == owner) := by
  unfold conflict?
  split
  · rename_i unique
    rw [List.find?_eq_none, forall_prop_of_true unique]
    refine forall₂_congr fun own _ => ?_
    rw [Bool.not_eq_true, List.any_eq_false]
    constructor
    · intro single other owns
      obtain ⟨other', inside, same⟩ := KeyMap.contains_iff_mem_keys.mp owns
      exact BEq.trans same (by simpa using single other' inside)
    · intro single other inside
      simpa using single other (KeyMap.contains_of_mem_keys inside)
  · rename_i shared
    exact iff_of_true rfl fun unique => absurd unique shared

/-- Adding an owner that is in conflict with no other keeps owners single. -/
theorem singleOwners_addOwners (unique : index.options.unique)
    (free : index.conflict? keys owner = none) {kept : Index} (single : kept.SingleOwners)
    (fewer : ∀ key owner, kept.Owns key owner → index.Owns key owner) :
    (kept.addOwners owner keys).SingleOwners := by
  have known : ∀ {key owner'}, (∃ own ∈ keys, key == own) → kept.Owns key owner' →
      owner' == owner := fun ⟨own, member, same⟩ owns =>
    conflict?_eq_none_iff.mp free unique own member _
      ((owns_congr same BEq.rfl).mp (fewer _ _ owns))
  intro key first second firstOwns secondOwns
  rcases owns_addOwners.mp firstOwns with ⟨isNew, isOwner⟩ | firstOwns
  · rcases owns_addOwners.mp secondOwns with ⟨-, isOwner'⟩ | secondOwns
    · exact BEq.trans isOwner (BEq.symm isOwner')
    · exact BEq.trans isOwner (BEq.symm (known isNew secondOwns))
  · rcases owns_addOwners.mp secondOwns with ⟨isNew, isOwner'⟩ | secondOwns
    · exact BEq.trans (known isNew firstOwns) (BEq.symm isOwner')
    · exact single key first second firstOwns secondOwns

/-- A key with single owners has exactly one of them. -/
theorem length_eq_one_of_singleOwners (wellFormed : index.WellFormed) (single : index.SingleOwners)
    {entry : Value × KeySet} (member : entry ∈ index.owners.entries) :
    entry.2.entries.length = 1 := by
  have found := KeyMap.get?_of_mem wellFormed.sorted member
  have owns : ∀ owned ∈ entry.2.entries, index.Owns entry.1 owned.1 := fun owned inside =>
    owns_iff.mpr ⟨entry.2, found, KeyMap.contains_iff.mpr ⟨owned, inside, BEq.rfl⟩⟩
  cases owners : entry.2.entries with
  | nil => exact absurd owners (wellFormed.owned entry member)
  | cons first rest =>
    cases rest with
    | nil => rfl
    | cons second rest =>
      have sorted := wellFormed.ownersSorted entry member
      rw [owners] at owns
      rw [KeyMap.Sorted, owners] at sorted
      have before := (List.pairwise_cons.mp sorted).1 second List.mem_cons_self
      have same := single entry.1 first.1 second.1 (owns first List.mem_cons_self)
        (owns second (List.mem_cons_of_mem _ List.mem_cons_self))
      rw [KeyMap.beq_eq_false_of_lt before] at same
      cases same

end IndexedStore.Index
