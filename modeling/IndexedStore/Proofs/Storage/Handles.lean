/-
This file says what the operations of the registry do to handles, and to the versions that
these guard. A handle is held from the call that opens it until the first call that closes it.
The registry accounts for the handles that are held: these are the ones that it keeps as open,
each has the version on record, and the record of a store counts its own.

Whatever is done, versions on record only rise, and a handle that is closed stays closed.
-/

import IndexedStore.Proofs.Storage.StoreState
import Mathlib.Data.List.Nodup

namespace IndexedStore

/-- A handle that was opened and has not been closed since. -/
structure Holding where
  /-- The handle. -/
  handle : HandleId
  /-- The store to which it was opened. -/
  store : StoreId
  /-- The version at which it was opened. -/
  version : Nat

/-- What the record of a store says of its handles. -/
structure Tally where
  /-- The version on record. -/
  version : Nat
  /-- The number of open handles. -/
  handles : Nat

/-- The tally of a store that has a record. -/
def StoreRecord.tally (record : StoreRecord) : Tally := ⟨record.version, record.handles⟩

/-- Taking out the one holding of a handle takes one from every count that it is part of. -/
theorem countP_of_mem {held : List Holding} {holding : Holding}
    (distinct : (held.map Holding.handle).Nodup) (member : holding ∈ held)
    (property : Holding → Bool) :
    held.countP property = (if property holding then 1 else 0) +
      (held.filter fun other => other.handle ≠ holding.handle).countP property := by
  have perm : held.Perm (holding :: held.filter fun other => other.handle ≠ holding.handle) := by
    refine (List.perm_ext_iff_of_nodup (.of_map _ distinct) ?_).mpr fun other => ?_
    · refine List.nodup_cons.mpr ⟨fun inside => ?_, (List.Nodup.of_map _ distinct).filter _⟩
      simpa using (List.mem_filter.mp inside).2
    · rw [List.mem_cons, List.mem_filter, decide_eq_true_eq]
      constructor
      · intro inside
        by_cases same : other.handle = holding.handle
        · exact .inl (List.inj_on_of_nodup_map distinct inside member same)
        · exact .inr ⟨inside, same⟩
      · rintro (rfl | ⟨inside, -⟩)
        · exact member
        · exact inside
  rw [perm.countP_eq, List.countP_cons, Nat.add_comm]

namespace Registry

variable {registry after : Registry} {store : StoreId} {handle : HandleId} {name : String}
  {transaction : Transaction} {held : List Holding} {version : Nat}

/-- The tally of a store. -/
def tally? (registry : Registry) (store : StoreId) : Option Tally :=
  registry.stores[store]?.map StoreRecord.tally

theorem tally?_modifyStore {change : StoreRecord → StoreRecord} (alter : Tally → Tally)
    (alters : ∀ record, (change record).tally = alter record.tally) :
    (registry.modifyStore store change).tally? =
      Function.update registry.tally? store ((registry.tally? store).map alter) :=
  map_modifyStore alter alters

/-! ### Operations that leave handles alone -/

/-- Handles, versions and counts are what they were. -/
structure LeavesHandles (before after : Registry) : Prop where
  /-- The handles stay. -/
  handles : after.handles = before.handles
  /-- Versions and counts stay. -/
  tallies : after.tally? = before.tally?

theorem leavesHandles_modifyStore {change : StoreRecord → StoreRecord}
    (keeps : ∀ record, (change record).tally = record.tally) :
    registry.LeavesHandles (registry.modifyStore store change) where
  handles := handles_modifyStore
  tallies := funext (map_modifyStore_of_keeps keeps)

theorem LeavesHandles.trans {last : Registry} (first : registry.LeavesHandles after)
    (second : after.LeavesHandles last) : registry.LeavesHandles last :=
  ⟨second.handles.trans first.handles, second.tallies.trans first.tallies⟩

theorem leavesHandles_deleteStore (name : String) :
    registry.LeavesHandles (registry.deleteStore name).2 := by
  unfold deleteStore
  split
  · split <;> exact ⟨rfl, rfl⟩
  · exact ⟨rfl, rfl⟩

theorem leavesHandles_of_begin {mode : TransactionMode} {begun : Outcome EngineError Transaction}
    (began : registry.begin handle mode = (begun, after)) : registry.LeavesHandles after := by
  rcases begin_cases began with ⟨-, rfl⟩ | ⟨_, _, -, -, -, -, ⟨-, rfl⟩ | ⟨-, -, rfl⟩⟩
  · exact ⟨rfl, rfl⟩
  · exact ⟨rfl, rfl⟩
  · exact leavesHandles_modifyStore fun _ => rfl

theorem leavesHandles_discard : registry.LeavesHandles (registry.discard transaction) := by
  unfold discard
  split
  · exact ⟨rfl, rfl⟩
  · exact leavesHandles_modifyStore fun _ => rfl

theorem leavesHandles_commit : registry.LeavesHandles (registry.commit transaction).2 := by
  unfold commit
  split
  · split
    · exact leavesHandles_discard.trans (leavesHandles_modifyStore fun _ => rfl)
    · exact leavesHandles_discard
  · exact leavesHandles_discard

/-! ### Closing -/

theorem exists_of_isOpen (isOpen : registry.isOpen handle) :
    ∃ entry, registry.handles[handle]? = some entry ∧ entry.isClosed = false := by
  unfold Registry.isOpen at isOpen
  split at isOpen
  · rename_i entry here
    exact ⟨entry, here, by simpa using isOpen⟩
  · cases isOpen

/-- Closing a handle that is not open changes nothing. -/
theorem close_of_not_isOpen (notOpen : ¬registry.isOpen handle) :
    registry.close handle = registry := by
  rw [isOpen] at notOpen
  rw [close]
  cases here : registry.handles[handle]? with
  | none => rfl
  | some entry =>
    rw [here] at notOpen
    have isClosed : entry.isClosed := by simpa using notOpen
    simp [isClosed]

/-- Closing an open handle takes it off the count of its store. -/
theorem close_of_isOpen {entry : Handle} (here : registry.handles[handle]? = some entry)
    (isOpen : entry.isClosed = false) :
    (registry.close handle).handles = registry.handles.set handle { entry with isClosed := true } ∧
      (registry.close handle).tally? = Function.update registry.tally? entry.store
        ((registry.tally? entry.store).map fun tally =>
          { tally with handles := tally.handles - 1 }) := by
  simp only [close, here, isOpen, Bool.false_eq_true, if_false, handles_modifyStore, true_and]
  exact tally?_modifyStore (fun tally => { tally with handles := tally.handles - 1 }) fun _ => rfl

/-! ### The account of handles -/

/-- A registry accounts for the handles that are held. -/
structure Accounts (registry : Registry) (held : List Holding) : Prop where
  /-- The handles that are held are those that are open. -/
  mem_iff : ∀ holding, holding ∈ held ↔
    registry.handles[holding.handle]? = some ⟨holding.store, holding.version, false⟩
  /-- No handle is held twice. -/
  distinct : (held.map Holding.handle).Nodup
  /-- The count of a store is the number of its handles that are held. -/
  counted : ∀ store tally, registry.tally? store = some tally →
    tally.handles = held.countP fun holding => holding.store = store
  /-- A handle that is held has the version on record. -/
  current : ∀ holding ∈ held,
    (registry.tally? holding.store).map Tally.version = some holding.version

namespace Accounts

theorem congr (accounts : registry.Accounts held) (leaves : registry.LeavesHandles after) :
    after.Accounts held where
  mem_iff holding := leaves.handles ▸ accounts.mem_iff holding
  distinct := accounts.distinct
  counted := leaves.tallies ▸ accounts.counted
  current := leaves.tallies ▸ accounts.current

/-- Where no handle is counted, none is held. -/
theorem ne_of_handles_eq_zero (accounts : registry.Accounts held) {tally : Tally}
    (known : registry.tally? store = some tally) (isZero : tally.handles = 0) :
    ∀ holding ∈ held, holding.store ≠ store := by
  have none := (accounts.counted store tally known).symm.trans isZero
  simpa [List.countP_eq_zero] using none

theorem register (accounts : registry.Accounts held) (name : String) :
    (registry.register name).2.2.Accounts held := by
  cases entered : registry.register name with
  | mk store rest =>
    obtain ⟨record, registered⟩ := rest
    rcases register_cases entered with ⟨-, -, rfl⟩ | ⟨-, rfl, rfl, rfl⟩
    · exact accounts
    · -- The record that is new has no handle yet, and neither is one of it held.
      have old : ∀ holding ∈ held, holding.store ≠ registry.stores.length := by
        rintro holding member isNew
        have current := accounts.current holding member
        rw [isNew, tally?, List.getElem?_eq_none (Nat.le_refl _)] at current
        cases current
      refine ⟨accounts.mem_iff, accounts.distinct, fun store tally known => ?_,
        fun holding member => ?_⟩
      · rw [tally?, getElem?_concat] at known
        split at known
        · rename_i isNew
          cases known
          refine (List.countP_eq_zero.mpr fun holding member => ?_).symm
          simpa [isNew] using old holding member
        · exact accounts.counted store tally known
      · rw [tally?, getElem?_concat, if_neg (old holding member)]
        exact accounts.current holding member

theorem addHandle (accounts : registry.Accounts held)
    (known : (registry.tally? store).map Tally.version = some version) :
    (registry.addHandle store version).2.Accounts
      (held ++ [⟨registry.handles.length, store, version⟩]) := by
  have tallies : (registry.addHandle store version).2.tally? = Function.update registry.tally? store
      ((registry.tally? store).map fun tally => { tally with handles := tally.handles + 1 }) :=
    tally?_modifyStore _ fun _ => rfl
  refine ⟨fun holding => ?_, ?_, fun other tally here => ?_, fun holding member => ?_⟩
  · show _ ↔ (registry.handles ++ [{ store := store, version := version }])[holding.handle]? = _
    obtain ⟨handle, store', version'⟩ := holding
    rw [getElem?_concat, List.mem_append, List.mem_singleton, accounts.mem_iff]
    by_cases isNew : handle = registry.handles.length
    · subst isNew
      simp [eq_comm]
    · simp [isNew]
  · rw [List.map_append, List.nodup_append']
    refine ⟨accounts.distinct, List.nodup_singleton _, fun handle inside isLast => ?_⟩
    obtain ⟨holding, member, rfl⟩ := List.mem_map.mp inside
    have here := (accounts.mem_iff holding).mp member
    rw [List.mem_singleton.mp isLast, List.getElem?_eq_none (Nat.le_refl _)] at here
    cases here
  · rw [tallies, Function.update_apply] at here
    rw [List.countP_append, List.countP_singleton]
    by_cases same : other = store
    · subst same
      rw [if_pos rfl] at here
      obtain ⟨before, found, rfl⟩ := Option.map_eq_some_iff.mp here
      rw [← accounts.counted other before found]
      simp
    · rw [if_neg same] at here
      rw [accounts.counted other tally here]
      simp [Ne.symm same]
  · have kept : ∀ other, ((registry.addHandle store version).2.tally? other).map Tally.version =
        (registry.tally? other).map Tally.version := by
      intro other
      rw [tallies, Function.update_apply]
      split
      · rename_i same
        rw [same, Option.map_map]
        rfl
      · rfl
    rw [kept]
    rcases List.mem_append.mp member with before | isNew
    · exact accounts.current holding before
    · rw [List.mem_singleton.mp isNew]
      exact known

/-- An upgrade changes the version of a store of which no handle is held. -/
theorem publish (accounts : registry.Accounts held)
    (none : ∀ holding ∈ held, holding.store ≠ store) (data : StoreData) (version : Nat) :
    (registry.modifyStore store fun record => { record with data, version }).Accounts held := by
  have tallies : (registry.modifyStore store fun record =>
      { record with data, version }).tally? = Function.update registry.tally? store
        ((registry.tally? store).map fun tally => { tally with version }) :=
    tally?_modifyStore _ fun _ => rfl
  refine ⟨accounts.mem_iff, accounts.distinct, fun other tally here => ?_, fun holding member => ?_⟩
  · rw [tallies, Function.update_apply] at here
    split at here
    · rename_i same
      obtain ⟨before, found, rfl⟩ := Option.map_eq_some_iff.mp here
      exact accounts.counted other before (same ▸ found)
    · exact accounts.counted other tally here
  · rw [tallies, Function.update_of_ne (none holding member)]
    exact accounts.current holding member

/-- The open handles are those that are held. -/
theorem isOpen_iff (accounts : registry.Accounts held) :
    registry.isOpen handle ↔ ∃ holding ∈ held, holding.handle = handle := by
  constructor
  · intro isOpen
    obtain ⟨entry, here, notClosed⟩ := exists_of_isOpen isOpen
    refine ⟨⟨handle, entry.store, entry.version⟩, (accounts.mem_iff _).mpr ?_, rfl⟩
    rw [here, ← notClosed]
  · rintro ⟨holding, member, rfl⟩
    rw [isOpen, (accounts.mem_iff holding).mp member]
    rfl

/-- A record counts the handles of its store that are held, and has the version of each. -/
theorem of_record (accounts : registry.Accounts held) {record : StoreRecord}
    (here : registry.stores[store]? = some record) :
    record.handles = held.countP (fun holding => holding.store = store) ∧
      ∀ holding ∈ held, holding.store = store → holding.version = record.version ∧
        registry.handles[holding.handle]? = some ⟨store, record.version, false⟩ := by
  have known : registry.tally? store = some record.tally :=
    congrArg (Option.map StoreRecord.tally) here
  refine ⟨accounts.counted store _ known, ?_⟩
  rintro holding member rfl
  have current := accounts.current holding member
  rw [known] at current
  have same : record.version = holding.version := Option.some.inj current
  exact ⟨same.symm, same ▸ (accounts.mem_iff holding).mp member⟩

theorem close (accounts : registry.Accounts held) (handle : HandleId) :
    (registry.close handle).Accounts (held.filter fun holding => holding.handle ≠ handle) := by
  by_cases isOpen : registry.isOpen handle
  · obtain ⟨own, member, rfl⟩ := accounts.isOpen_iff.mp isOpen
    have here := (accounts.mem_iff own).mp member
    obtain ⟨handles, tallies⟩ := close_of_isOpen here rfl
    refine ⟨fun holding => ?_, accounts.distinct.sublist (List.filter_sublist.map _),
      fun other tally known => ?_, fun holding inside => ?_⟩
    · rw [handles, List.mem_filter, accounts.mem_iff, List.getElem?_set, decide_eq_true_eq]
      by_cases same : own.handle = holding.handle
      · rw [if_pos same]
        refine iff_of_false (fun both => both.2 same.symm) fun absurd => ?_
        split at absurd
        · exact Bool.false_ne_true (congrArg Handle.isClosed (Option.some.inj absurd)).symm
        · cases absurd
      · rw [if_neg same]
        exact and_iff_left (Ne.symm same)
    · rw [tallies, Function.update_apply] at known
      have counts := countP_of_mem accounts.distinct member fun holding => holding.store = other
      split at known
      · rename_i same
        obtain ⟨before, found, rfl⟩ := Option.map_eq_some_iff.mp known
        rw [← accounts.counted other before (same ▸ found), if_pos (by simp [same])] at counts
        exact Nat.sub_eq_of_eq_add' counts
      · rename_i different
        rw [if_neg (by simpa using Ne.symm different), Nat.zero_add] at counts
        exact (accounts.counted other tally known).trans counts
    · have before := accounts.current holding (List.mem_filter.mp inside).1
      rw [tallies, Function.update_apply]
      split
      · rename_i same
        rw [Option.map_map, ← before, same]
        rfl
      · exact before
  · -- A handle that is not open is not held either.
    rw [close_of_not_isOpen isOpen, List.filter_eq_self.mpr]
    · exact accounts
    · intro holding member
      exact decide_eq_true fun same => isOpen (accounts.isOpen_iff.mpr ⟨holding, member, same⟩)

end Accounts

theorem version?_of_record {record : StoreRecord} (named : registry.names.lookup name = some store)
    (here : registry.stores[store]? = some record) :
    registry.version? name = some record.version := by
  rw [version?, find?, named, Option.bind_some, here, Option.map_some]

/-! ### Ageing -/

/-- One registry may come after another. Versions on record only rise, and a handle that is
closed stays closed. -/
structure Ages (before after : Registry) : Prop where
  /-- No version falls. -/
  versions : ∀ store tally, before.tally? store = some tally →
    ∃ later, after.tally? store = some later ∧ tally.version ≤ later.version
  /-- No handle goes away, changes its store or opens again. -/
  handles : ∀ (handle : HandleId) entry, before.handles[handle]? = some entry →
    ∃ later, after.handles[handle]? = some later ∧ later.store = entry.store ∧
      (entry.isClosed → later.isClosed)

namespace Ages

theorem of_leavesHandles (leaves : registry.LeavesHandles after) : registry.Ages after where
  versions _ tally known := ⟨tally, leaves.tallies ▸ known, Nat.le_refl _⟩
  handles _ entry here := ⟨entry, leaves.handles ▸ here, rfl, id⟩

theorem refl : registry.Ages registry := of_leavesHandles ⟨rfl, rfl⟩

theorem trans {last : Registry} (first : registry.Ages after) (second : after.Ages last) :
    registry.Ages last where
  versions store tally known := by
    obtain ⟨between, known', le⟩ := first.versions store tally known
    obtain ⟨later, known'', le'⟩ := second.versions store between known'
    exact ⟨later, known'', Nat.le_trans le le'⟩
  handles handle entry here := by
    obtain ⟨between, here', same, closed⟩ := first.handles handle entry here
    obtain ⟨later, here'', same', closed'⟩ := second.handles handle between here'
    exact ⟨later, here'', same'.trans same, fun isClosed => closed' (closed isClosed)⟩

/-- The version of a record does not fall. -/
theorem exists_record (ages : registry.Ages after) {record : StoreRecord}
    (here : registry.stores[store]? = some record) :
    ∃ later, after.stores[store]? = some later ∧ record.version ≤ later.version := by
  obtain ⟨tally, there, le⟩ :=
    ages.versions store record.tally (congrArg (Option.map StoreRecord.tally) here)
  obtain ⟨later, here', rfl⟩ := Option.map_eq_some_iff.mp there
  exact ⟨later, here', le⟩

/-- A change of a record that does not lower its version. -/
theorem modifyStore {change : StoreRecord → StoreRecord}
    (rises : ∀ record, registry.stores[store]? = some record →
      record.version ≤ (change record).version) :
    registry.Ages (registry.modifyStore store change) where
  versions other tally known := by
    obtain ⟨record, here, rfl⟩ := Option.map_eq_some_iff.mp known
    by_cases same : other = store
    · subst same
      exact ⟨(change record).tally, by simp [tally?, here], rises record here⟩
    · exact ⟨record.tally, by simp [tally?, getElem?_modifyStore_of_ne same, here], Nat.le_refl _⟩
  handles handle entry here := ⟨entry, here, rfl, id⟩

theorem register (name : String) : registry.Ages (registry.register name).2.2 := by
  cases entered : registry.register name with
  | mk store rest =>
    obtain ⟨record, registered⟩ := rest
    rcases register_cases entered with ⟨-, -, rfl⟩ | ⟨-, rfl, rfl, rfl⟩
    · exact refl
    · refine ⟨fun store tally known => ⟨tally, ?_, Nat.le_refl _⟩,
        fun handle entry here => ⟨entry, here, rfl, id⟩⟩
      rw [tally?, getElem?_concat, if_neg, ← tally?, known]
      rintro rfl
      rw [tally?, List.getElem?_eq_none (Nat.le_refl _)] at known
      cases known

theorem addHandle (store : StoreId) (version : Nat) :
    registry.Ages (registry.addHandle store version).2 := by
  have counted : registry.Ages (registry.modifyStore store fun record =>
      { record with handles := record.handles + 1 }) := modifyStore fun _ _ => Nat.le_refl _
  refine counted.trans ⟨fun _ tally known => ⟨tally, known, Nat.le_refl _⟩,
    fun handle entry here => ⟨entry, ?_, rfl, id⟩⟩
  exact (List.getElem?_append_left (List.getElem?_eq_some_iff.mp here).1).trans here

theorem openStore {ρ : Type} {upgrade : Upgrade ρ} {outcome : Outcome EngineError HandleId}
    {report : Option ρ}
    (opened : registry.openStore name version upgrade = (outcome, report, after)) :
    registry.Ages after := by
  cases entered : registry.register name with
  | mk target rest =>
    obtain ⟨record, registered⟩ := rest
    have registering := @register registry name
    rw [entered] at registering
    have here := getElem?_of_register entered
    rcases openStore_cases opened entered with
      ⟨-, rfl | rfl, -⟩ | ⟨-, -, -, rfl⟩ | ⟨data, published, isOlder, -, -, -, rfl, -, -, rfl⟩
    · exact refl
    · exact registering
    · exact registering.trans (addHandle target version)
    · refine (registering.trans (modifyStore fun other there => ?_)).trans
        (addHandle target version)
      cases here.symm.trans there
      exact Nat.le_of_lt isOlder

theorem close (handle : HandleId) : registry.Ages (registry.close handle) := by
  by_cases isOpen : registry.isOpen handle
  · obtain ⟨entry, here, notClosed⟩ := exists_of_isOpen isOpen
    obtain ⟨handles, tallies⟩ := close_of_isOpen here notClosed
    refine ⟨fun store tally known => ?_, fun other before there => ?_⟩
    · rw [tallies, Function.update_apply]
      split
      · rename_i same
        rw [← same, known]
        exact ⟨_, rfl, Nat.le_refl _⟩
      · exact ⟨tally, known, Nat.le_refl _⟩
    · rw [handles, List.getElem?_set]
      by_cases same : handle = other
      · subst same
        cases here.symm.trans there
        rw [if_pos rfl, if_pos (List.getElem?_eq_some_iff.mp here).1]
        exact ⟨_, rfl, rfl, fun _ => rfl⟩
      · rw [if_neg same]
        exact ⟨before, there, rfl, id⟩
  · rw [close_of_not_isOpen isOpen]
    exact refl

end Ages

end Registry

end IndexedStore
