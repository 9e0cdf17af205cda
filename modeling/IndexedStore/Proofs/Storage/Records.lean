/-
This file says what stays of the stores when the registry changes. No record goes away, a name
keeps its store until it is deleted, and handles and names always refer to stores that have a
record.
-/

import IndexedStore.Proofs.Storage.StoreState

namespace IndexedStore.Registry

variable {ρ : Type} {registry after : Registry} {store : StoreId} {handle : HandleId}
  {transaction : Transaction} {name : String} {version : Nat} {upgrade : Upgrade ρ}
  {outcome : Outcome EngineError HandleId} {report : Option ρ} {mode : TransactionMode}
  {begun : Outcome EngineError Transaction}

/-! ### Names -/

@[simp]
theorem lookup_register (name : String) :
    (registry.register name).2.2.names.lookup name = some (registry.register name).1 := by
  unfold register
  split
  · rename_i found _
    exact found
  · exact lookup_assign_self

/-- Registering a name takes no store away from a name. -/
theorem lookup_register_of_known {other : String}
    (named : registry.names.lookup other = some store)
    (known : (registry.state? store).isSome) :
    (registry.register name).2.2.names.lookup other = some store := by
  rw [state?, Option.isSome_map] at known
  obtain ⟨record, here⟩ := Option.isSome_iff_exists.mp known
  by_cases same : other = name
  · subst same
    rw [register, find?, named, Option.bind_some, here]
    exact named
  · unfold register
    split
    · exact named
    · exact (lookup_assign_other same).trans named

theorem getElem?_addHandle (version : Nat) :
    (registry.addHandle store version).2.handles[(registry.addHandle store version).1]? =
      some { store, version } := by
  simp [addHandle]

/-- Opening a store changes names only as it registers the name. -/
theorem names_of_openStore
    (opened : registry.openStore name version upgrade = (outcome, report, after)) :
    after.names = registry.names ∨ after.names = (registry.register name).2.2.names := by
  rcases openStore_cases opened rfl with
    ⟨-, rfl | rfl, -⟩ | ⟨-, -, -, rfl⟩ | ⟨_, _, -, -, -, -, rfl, -, -, rfl⟩
  · exact .inl rfl
  · exact .inr rfl
  · exact .inr rfl
  · exact .inr rfl

/-- A handle that is opened under a name is open, and one to the store that has the name. -/
theorem openStore_eq_done
    (opened : registry.openStore name version upgrade = (.done handle, report, after)) :
    ∃ entry, after.handles[handle]? = some entry ∧ entry.isClosed = false ∧
      after.names.lookup name = some entry.store := by
  have named := @lookup_register registry name
  rcases openStore_cases opened rfl with
    ⟨refused, -⟩ | ⟨-, done, -, rfl⟩ | ⟨_, _, -, -, -, -, rfl, done, -, rfl⟩
  · cases refused
  · cases done
    exact ⟨_, getElem?_addHandle version, rfl, named⟩
  · cases done
    exact ⟨_, getElem?_addHandle version, rfl, named⟩

@[simp]
theorem names_close : (registry.close handle).names = registry.names := by
  unfold close
  split
  · split <;> rfl
  · rfl

theorem names_of_begin (began : registry.begin handle mode = (begun, after)) :
    after.names = registry.names := by
  rcases begin_cases began with ⟨-, rfl⟩ | ⟨_, _, -, -, -, -, ⟨-, rfl⟩ | ⟨-, -, rfl⟩⟩
  · rfl
  · rfl
  · rfl

@[simp]
theorem names_discard : (registry.discard transaction).names = registry.names := by
  unfold discard
  split <;> rfl

@[simp]
theorem names_commit : (registry.commit transaction).2.names = registry.names := by
  have released := @names_discard registry transaction
  unfold commit
  split
  · split <;> exact released
  · exact released

/-! ### Records -/

/-- One registry may come after another. -/
structure Follows (before after : Registry) : Prop where
  /-- No record goes away. -/
  records : ∀ store, (before.state? store).isSome → (after.state? store).isSome
  /-- New handles are to stores that have a record. -/
  handles : ∀ entry ∈ after.handles, (after.state? entry.store).isSome ∨
    ∃ old ∈ before.handles, old.store = entry.store
  /-- New names are names of stores that have a record. -/
  names : ∀ name store, after.names.lookup name = some store →
    (after.state? store).isSome ∨ before.names.lookup name = some store

theorem Follows.refl : registry.Follows registry where
  records _ known := known
  handles entry member := .inr ⟨entry, member, rfl⟩
  names _ _ named := .inr named

theorem Follows.trans {last : Registry} (first : registry.Follows after)
    (second : after.Follows last) : registry.Follows last where
  records store known := second.records store (first.records store known)
  handles entry member := by
    rcases second.handles entry member with known | ⟨between, known, same⟩
    · exact .inl known
    · rcases first.handles between known with known | old
      · exact .inl (second.records _ (same ▸ known))
      · exact .inr (same ▸ old)
  names name store named := by
    rcases second.names name store named with known | between
    · exact .inl known
    · exact (first.names name store between).imp_left (second.records store)

theorem follows_modifyStore (change : StoreRecord → StoreRecord) :
    registry.Follows (registry.modifyStore store change) where
  records other known := by
    rw [state?, Option.isSome_map] at known ⊢
    by_cases same : other = store
    · rwa [same, getElem?_modifyStore, Option.isSome_map, ← same]
    · rwa [getElem?_modifyStore_of_ne same]
  handles entry member := .inr ⟨entry, member, rfl⟩
  names _ _ named := .inr named

theorem follows_register (name : String) : registry.Follows (registry.register name).2.2 := by
  obtain ⟨here, grows, same⟩ := @register_spec registry name
  refine ⟨fun store known => ?_, fun entry member => .inr ⟨entry, same ▸ member, rfl⟩,
    fun other store named => ?_⟩
  · rcases grows store with kept | ⟨-, created⟩
    · rwa [kept]
    · rw [created, Option.isSome_some]
  · by_cases isName : other = name
    · subst isName
      rw [lookup_register] at named
      rw [← Option.some.inj named, here]
      exact .inl rfl
    · right
      unfold register at named
      split at named
      · exact named
      · rwa [lookup_assign_other isName] at named

theorem follows_addHandle (known : (registry.state? store).isSome) (version : Nat) :
    registry.Follows (registry.addHandle store version).2 := by
  refine (follows_modifyStore _).trans ⟨fun _ => id, fun entry member => ?_, fun _ _ => .inr⟩
  rcases List.mem_append.mp member with before | isNew
  · exact .inr ⟨entry, before, rfl⟩
  · rw [List.mem_singleton.mp isNew]
    exact .inl ((follows_modifyStore _).records store known)

theorem follows_of_openStore
    (opened : registry.openStore name version upgrade = (outcome, report, after)) :
    registry.Follows after := by
  have registered := @follows_register registry name
  have known : ((registry.register name).2.2.state? (registry.register name).1).isSome := by
    rw [(register_spec name).1, Option.isSome_some]
  rcases openStore_cases opened rfl with
    ⟨-, rfl | rfl, -⟩ | ⟨-, -, -, rfl⟩ | ⟨_, _, -, -, -, -, rfl, -, -, rfl⟩
  · exact .refl
  · exact registered
  · exact registered.trans (follows_addHandle known version)
  · have published := @follows_modifyStore (registry.register name).2.2
      (registry.register name).1
    exact (registered.trans (published _)).trans
      (follows_addHandle ((published _).records _ known) version)

theorem follows_deleteStore (name : String) : registry.Follows (registry.deleteStore name).2 := by
  unfold deleteStore
  split
  · split
    · exact .refl
    · refine ⟨fun _ => id, fun entry member => .inr ⟨entry, member, rfl⟩,
        fun other store named => .inr ?_⟩
      rw [lookup_unassign] at named
      split at named
      · cases named
      · exact named
  · exact .refl

theorem follows_close : registry.Follows (registry.close handle) := by
  unfold close
  split
  · rename_i before here
    split
    · exact .refl
    · refine (follows_modifyStore _).trans
        ⟨fun _ => id, fun entry member => .inr ?_, fun _ _ => .inr⟩
      rcases List.mem_or_eq_of_mem_set member with other | rfl
      · exact ⟨entry, other, rfl⟩
      · exact ⟨before, List.mem_of_getElem? here, rfl⟩
  · exact .refl

theorem follows_of_begin (began : registry.begin handle mode = (begun, after)) :
    registry.Follows after := by
  rcases begin_cases began with ⟨-, rfl⟩ | ⟨_, _, -, -, -, -, ⟨-, rfl⟩ | ⟨-, -, rfl⟩⟩
  · exact .refl
  · exact .refl
  · exact follows_modifyStore _

theorem follows_discard : registry.Follows (registry.discard transaction) := by
  unfold discard
  split
  · exact .refl
  · exact follows_modifyStore _

theorem follows_commit : registry.Follows (registry.commit transaction).2 := by
  unfold commit
  split
  · split
    · exact follows_discard.trans (follows_modifyStore _)
    · exact follows_discard
  · exact follows_discard

/-- The stores of all handles and names have records. -/
structure KnowsStores (registry : Registry) : Prop where
  handles : ∀ entry ∈ registry.handles, (registry.state? entry.store).isSome
  names : ∀ name store, registry.names.lookup name = some store → (registry.state? store).isSome

theorem KnowsStores.follow (knows : registry.KnowsStores) (follows : registry.Follows after) :
    after.KnowsStores where
  handles entry member := by
    rcases follows.handles entry member with known | ⟨old, before, same⟩
    · exact known
    · exact follows.records _ (same ▸ knows.handles old before)
  names name store named := by
    rcases follows.names name store named with known | before
    · exact known
    · exact follows.records store (knows.names name store before)

end IndexedStore.Registry
