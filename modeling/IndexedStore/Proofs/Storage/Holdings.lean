/-
This file proves that held handles guard a store, in every order of steps. As long as a handle
of it is held, a store is neither upgraded nor deleted; and a transaction commits only while the
handle that began it is held, so that none that was begun before an upgrade or a deletion commits
after it.

Which handles are held is read off the steps alone. So the count in the record of a store is
compared with what was asked of the registry, and not with what the registry remembers of it.
-/

import IndexedStore.Proofs.Storage.Activity
import IndexedStore.Proofs.Storage.Handles

namespace IndexedStore

namespace Activity

variable {ρ : Type} {activity : Activity} {held : List Holding} {store : StoreId} {id : WorkId}
  {work : Work}

/-- The handles that are held after a step: one that was opened is, and one that was closed is
not. -/
def hold (activity : Activity) (held : List Holding) : Action ρ → List Holding
  | .openStore name version upgrade =>
    match activity.registry.openStore name version upgrade with
    | (.done handle, _, _) => held ++ [⟨handle, (activity.registry.register name).1, version⟩]
    | _ => held
  | .close handle => held.filter fun holding => holding.handle ≠ handle
  | _ => held

/-- The handles that are held after several steps. -/
def holdings (activity : Activity) (held : List Holding) : List (Action ρ) → List Holding
  | [] => held
  | action :: rest => (activity.act action).holdings (activity.hold held action) rest

/-- A step runs an upgrade of a store, or takes the store away. -/
def Overhauls (activity : Activity) (store : StoreId) : Action ρ → Prop
  | .openStore name version upgrade =>
    (activity.registry.openStore name version upgrade).2.1.isSome ∧
      (activity.registry.register name).1 = store
  | .deleteStore name =>
    activity.registry.names.lookup name = some store ∧
      (activity.registry.deleteStore name).1 = .ok ()
  | _ => False

/-! ### One step -/

theorem accounts_act (accounts : activity.registry.Accounts held) (action : Action ρ) :
    (activity.act action).registry.Accounts (activity.hold held action) := by
  have accounts_finish {id : WorkId} {close : Registry → Transaction → Registry}
      (leaves : ∀ (registry : Registry) transaction,
        registry.LeavesHandles (close registry transaction)) :
      (activity.finish id close).registry.Accounts held := by
    unfold finish
    split
    · exact accounts.congr (leaves _ _)
    · exact accounts
  cases action with
  | openStore name version upgrade =>
    cases opened : activity.registry.openStore name version upgrade with
    | mk outcome rest =>
      obtain ⟨report, after⟩ := rest
      cases entered : activity.registry.register name with
      | mk target rest =>
        obtain ⟨record, registered⟩ := rest
        have known := accounts.register name
        rw [entered] at known
        have here := Registry.getElem?_of_register entered
        rw [act, hold, opened, entered]
        rcases Registry.openStore_cases opened entered with
          ⟨refused, rfl | rfl, -⟩ | ⟨rfl, rfl, rfl, rfl⟩ |
          ⟨data, published, -, noHandle, -, -, rfl, rfl, rfl, rfl⟩
        · cases outcome with
          | done handle => cases refused
          | failed cause => exact accounts
          | waiting => exact accounts
        · cases outcome with
          | done handle => cases refused
          | failed cause => exact known
          | waiting => exact known
        · refine known.addHandle ?_
          simp [Registry.tally?, here, StoreRecord.tally]
        · have unheld : ∀ holding ∈ held, holding.store ≠ target :=
            known.ne_of_handles_eq_zero (congrArg (Option.map StoreRecord.tally) here) noHandle
          refine (known.publish unheld data version).addHandle ?_
          simp [Registry.tally?, here, StoreRecord.tally]
  | deleteStore name => exact accounts.congr (Registry.leavesHandles_deleteStore name)
  | close handle => exact accounts.close handle
  | begin handle mode =>
    cases began : activity.registry.begin handle mode with
    | mk outcome after =>
      rw [act, began]
      cases outcome <;> exact accounts.congr (Registry.leavesHandles_of_begin began)
  | commit id => exact accounts_finish fun _ _ => Registry.leavesHandles_commit
  | drop id => exact accounts_finish fun _ _ => Registry.leavesHandles_discard
  | scanIndex | scanPrimary | change => exact accounts

theorem ages_act (action : Action ρ) :
    activity.registry.Ages (activity.act action).registry := by
  have ages_finish {id : WorkId} {close : Registry → Transaction → Registry}
      (leaves : ∀ (registry : Registry) transaction,
        registry.LeavesHandles (close registry transaction)) :
      activity.registry.Ages (activity.finish id close).registry := by
    unfold finish
    split
    · exact .of_leavesHandles (leaves _ _)
    · exact .refl
  cases action with
  | openStore name version upgrade =>
    cases opened : activity.registry.openStore name version upgrade with
    | mk outcome rest =>
      obtain ⟨report, after⟩ := rest
      rw [act, opened]
      exact .openStore opened
  | deleteStore name => exact .of_leavesHandles (Registry.leavesHandles_deleteStore name)
  | close handle => exact .close handle
  | begin handle mode =>
    cases began : activity.registry.begin handle mode with
    | mk outcome after =>
      rw [act, began]
      cases outcome <;> exact .of_leavesHandles (Registry.leavesHandles_of_begin began)
  | commit id => exact ages_finish fun _ _ => Registry.leavesHandles_commit
  | drop id => exact ages_finish fun _ _ => Registry.leavesHandles_discard
  | scanIndex | scanPrimary | change => exact .refl

/-- A transaction that is under way after a step was so before it, with the same handle, or it has
just been begun. -/
theorem work_act (action : Action ρ) (alive : (activity.act action).work? id = some work) :
    (∃ before, activity.work? id = some before ∧
        work.transaction.handle = before.transaction.handle ∧
        work.transaction.store = before.transaction.store) ∨
      id = activity.works.length ∧ ∃ entry,
        activity.registry.handles[work.transaction.handle]? = some entry ∧
        entry.store = work.transaction.store := by
  have work_finish {target : WorkId} {close : Registry → Transaction → Registry}
      (alive : (activity.finish target close).work? id = some work) :
      activity.work? id = some work := by
    rw [work?_finish, Function.update_apply] at alive
    split at alive
    · cases alive
    · exact alive
  cases action with
  | begin handle mode =>
    cases began : activity.registry.begin handle mode with
    | mk outcome after =>
      rw [act, began] at alive
      rcases Registry.begin_cases began with ⟨nothing, -⟩ | ⟨entry, state, here, -, -, rfl, -⟩
      · cases outcome with
        | done transaction => cases nothing
        | failed cause => exact .inl ⟨work, alive, rfl, rfl⟩
        | waiting => exact .inl ⟨work, alive, rfl, rfl⟩
      · rw [work?_concat, Function.update_apply] at alive
        split at alive
        · rename_i isNew
          cases alive
          exact .inr ⟨isNew, entry, here, rfl⟩
        · exact .inl ⟨work, alive, rfl, rfl⟩
  | change target change =>
    rw [act, work?_modify, Function.update_apply] at alive
    split at alive
    · rename_i same
      obtain ⟨before, here, rfl⟩ := Option.map_eq_some_iff.mp alive
      exact .inl ⟨before, same ▸ here, Change.handle_ask change, Change.store_ask change⟩
    · exact .inl ⟨work, alive, rfl, rfl⟩
  | commit target => exact .inl ⟨work, work_finish alive, rfl, rfl⟩
  | drop target => exact .inl ⟨work, work_finish alive, rfl, rfl⟩
  | openStore | deleteStore | close | scanIndex | scanPrimary =>
    exact .inl ⟨work, alive, rfl, rfl⟩

theorem length_works_act (action : Action ρ) :
    activity.works.length ≤ (activity.act action).works.length := by
  have length_finish {id : WorkId} {close : Registry → Transaction → Registry} :
      activity.works.length ≤ (activity.finish id close).works.length := by
    unfold finish
    split
    · exact Nat.le_of_eq (List.length_set ..).symm
    · exact Nat.le_refl _
  cases action with
  | begin handle mode =>
    rw [act]
    split
    · rw [List.length_append]
      exact Nat.le_add_right _ _
    · exact Nat.le_refl _
  | change id change => exact Nat.le_of_eq (List.length_modify ..).symm
  | commit id => exact length_finish
  | drop id => exact length_finish
  | openStore | deleteStore | close | scanIndex | scanPrimary => exact Nat.le_refl _

/-! ### Every sequence of steps -/

/-- What holds at all times, given the handles that are held. -/
structure Guarded (activity : Activity) (held : List Holding) : Prop where
  /-- The registry accounts for them. -/
  accounts : activity.registry.Accounts held
  /-- The stores of all handles and names have records. -/
  knows : activity.registry.KnowsStores
  /-- A transaction works on the store of its handle. -/
  begun : ∀ id work, activity.work? id = some work → ∃ entry,
    activity.registry.handles[work.transaction.handle]? = some entry ∧
    entry.store = work.transaction.store

theorem guarded_start : ({} : Activity).Guarded [] where
  accounts := {
    mem_iff := fun _ => iff_of_false nofun nofun
    distinct := .nil
    counted := nofun
    current := nofun }
  knows := ⟨nofun, nofun⟩
  begun _ _ alive := nomatch alive

theorem Guarded.act (guarded : activity.Guarded held) (action : Action ρ) :
    (activity.act action).Guarded (activity.hold held action) where
  accounts := accounts_act guarded.accounts action
  knows := guarded.knows.follow (follows_act action)
  begun id work alive := by
    have known : ∃ entry, activity.registry.handles[work.transaction.handle]? = some entry ∧
        entry.store = work.transaction.store := by
      rcases work_act action alive with ⟨before, alive, handle, store⟩ | ⟨-, known⟩
      · rw [handle, store]
        exact guarded.begun id before alive
      · exact known
    obtain ⟨entry, here, same⟩ := known
    obtain ⟨later, there, same', -⟩ := (ages_act action).handles _ entry here
    exact ⟨later, there, same'.trans same⟩

theorem Guarded.run (guarded : activity.Guarded held) (actions : List (Action ρ)) :
    (activity.run actions).Guarded (activity.holdings held actions) := by
  induction actions generalizing activity held with
  | nil => exact guarded
  | cons action rest inductionHypothesis => exact inductionHypothesis (guarded.act action)

theorem ages_run (actions : List (Action ρ)) :
    activity.registry.Ages (activity.run actions).registry := by
  induction actions generalizing activity with
  | nil => exact .refl
  | cons action rest inductionHypothesis => exact (ages_act action).trans inductionHypothesis

/-- A transaction keeps the handle that began it. -/
theorem handle_run (actions : List (Action ρ)) (begun : id < activity.works.length)
    (alive : (activity.run actions).work? id = some work) :
    ∃ before, activity.work? id = some before ∧
      work.transaction.handle = before.transaction.handle := by
  induction actions generalizing activity with
  | nil => exact ⟨work, alive, rfl⟩
  | cons action rest inductionHypothesis =>
    obtain ⟨between, alive', same⟩ :=
      inductionHypothesis (Nat.lt_of_lt_of_le begun (length_works_act action)) alive
    rcases work_act action alive' with ⟨before, alive'', same', -⟩ | ⟨isNew, -⟩
    · exact ⟨before, alive'', same.trans same'⟩
    · exact absurd isNew (Nat.ne_of_lt begun)

/-- A name that has a store has a record. -/
theorem Guarded.exists_record (guarded : activity.Guarded held) {name : String}
    (named : activity.registry.names.lookup name = some store) :
    ∃ record, activity.registry.stores[store]? = some record := by
  have known := guarded.knows.names name store named
  rwa [Registry.state?, Option.isSome_map, Option.isSome_iff_exists] at known

/-- A store is upgraded or taken away only while none of its handles is held. -/
theorem Guarded.ne_of_overhauls (guarded : activity.Guarded held) {action : Action ρ}
    (overhauls : activity.Overhauls store action) : ∀ holding ∈ held, holding.store ≠ store := by
  cases action with
  | openStore name version upgrade =>
    obtain ⟨ran, rfl⟩ := overhauls
    cases opened : activity.registry.openStore name version upgrade with
    | mk outcome rest =>
      obtain ⟨report, after⟩ := rest
      rw [opened] at ran
      obtain ⟨given, isReport⟩ := Option.isSome_iff_exists.mp ran
      cases entered : activity.registry.register name with
      | mk target rest =>
        obtain ⟨record, registered⟩ := rest
        have known := guarded.accounts.register name
        rw [entered] at known
        have here := Registry.getElem?_of_register entered
        refine known.ne_of_handles_eq_zero (congrArg (Option.map StoreRecord.tally) here) ?_
        rcases Registry.openStore_cases opened entered with
          ⟨-, -, -, failed⟩ | ⟨-, -, absent, -⟩ | ⟨_, _, -, noHandle, -⟩
        · exact (failed given isReport).2.1
        · cases absent.symm.trans isReport
        · exact noHandle
  | deleteStore name =>
    obtain ⟨named, ok⟩ := overhauls
    obtain ⟨record, here⟩ := guarded.exists_record named
    refine guarded.accounts.ne_of_handles_eq_zero
      (congrArg (Option.map StoreRecord.tally) here) ?_
    rw [Registry.deleteStore, Registry.find?, named, Option.bind_some, here] at ok
    dsimp only at ok
    split at ok
    · cases ok
    · rename_i noHandle
      exact Nat.eq_zero_of_not_pos noHandle
  | close | begin | scanIndex | scanPrimary | change | commit | drop => cases overhauls

/-- A name loses its store exactly if it is deleted while no handle of the store is held. -/
theorem Guarded.lookup_ne_iff (guarded : activity.Guarded held) (action : Action ρ) {name : String}
    (named : activity.registry.names.lookup name = some store) :
    (activity.act action).registry.names.lookup name ≠ some store ↔
      action = .deleteStore name ∧ ∀ holding ∈ held, holding.store ≠ store := by
  constructor
  · intro loses
    obtain rfl := (lookup_act guarded.knows named action).resolve_left loses
    have deletes : (activity.registry.deleteStore name).1 = .ok () := by
      rw [Activity.act, Registry.deleteStore] at loses
      rw [Registry.deleteStore]
      split at loses
      · split at loses
        · exact absurd named loses
        · rename_i found noHandle
          rw [if_neg noHandle]
      · rfl
    have overhauls : activity.Overhauls store (.deleteStore name : Action ρ) := ⟨named, deletes⟩
    exact ⟨rfl, guarded.ne_of_overhauls overhauls⟩
  · rintro ⟨rfl, unheld⟩
    obtain ⟨record, here⟩ := guarded.exists_record named
    have noHandle : record.handles = 0 := by
      rw [(guarded.accounts.of_record here).1]
      simpa [List.countP_eq_zero] using unheld
    have found : activity.registry.find? name = some record := by
      rw [Registry.find?, named, Option.bind_some, here]
    simp [Registry.deleteStore, found, noHandle]

/-- A transaction that was begun before its store is upgraded or taken away cannot commit any
more: its handle was closed before, and stays closed. -/
theorem Guarded.commit_of_overhauls (guarded : activity.Guarded held) {action : Action ρ}
    (overhauls : activity.Overhauls store action) (alive : activity.work? id = some work)
    (works : work.transaction.store = store) {later : List (Action ρ)} {work' : Work}
    (alive' : ((activity.act action).run later).work? id = some work') :
    (((activity.act action).run later).registry.commit work'.transaction).1 = .error .closed := by
  have begun : id < activity.works.length := by
    by_contra absent
    rw [work?, List.getElem?_eq_none (Nat.le_of_not_lt absent)] at alive
    cases alive
  obtain ⟨before, alive'', same⟩ : ∃ before, activity.work? id = some before ∧
      work'.transaction.handle = before.transaction.handle :=
    handle_run (action :: later) begun alive'
  cases alive.symm.trans alive''
  obtain ⟨entry, here, sameStore⟩ := guarded.begun id work alive
  have isClosed : entry.isClosed := by
    by_contra isOpen
    rw [Bool.not_eq_true] at isOpen
    refine guarded.ne_of_overhauls overhauls ⟨work.transaction.handle, entry.store, entry.version⟩
      ((guarded.accounts.mem_iff _).mpr ?_) (sameStore.trans works)
    rw [here, ← isOpen]
  have ages : activity.registry.Ages ((activity.act action).run later).registry :=
    (ages_act action).trans (ages_run later)
  obtain ⟨entry', there, -, stays⟩ := ages.handles _ entry here
  have notOpen : ((activity.act action).run later).registry.isOpen
      work'.transaction.handle = false := by
    rw [Registry.isOpen, same, there]
    simpa using stays isClosed
  rw [Registry.commit, notOpen]
  rfl

/-- Whatever steps are taken, held handles guard their stores. -/
theorem handles_guard_stores {actions : List (Action ρ)} (ran : Activity.run {} actions = activity)
    (holds : Activity.holdings {} [] actions = held) :
    -- The handles that were opened and not closed since are the open ones, each of them once.
    (held.map Holding.handle).Nodup ∧
    (∀ handle, activity.registry.isOpen handle ↔ ∃ holding ∈ held, holding.handle = handle) ∧
    -- A store counts its own, and the version of each is the one on record.
    (∀ store record, activity.registry.stores[store]? = some record →
      record.handles = held.countP (fun holding => holding.store = store) ∧
      ∀ holding ∈ held, holding.store = store → holding.version = record.version ∧
        activity.registry.handles[holding.handle]? = some ⟨store, record.version, false⟩) ∧
    -- Closing a handle that is not held, for instance for the second time, changes nothing.
    (∀ handle, (∀ holding ∈ held, holding.handle ≠ handle) →
      activity.act (.close handle : Action ρ) = activity) ∧
    -- The version on record never falls, neither that of a record nor, as long as a name keeps
    -- its store, that under the name.
    (∀ (later : List (Action ρ)) (store : StoreId) (record : StoreRecord),
      activity.registry.stores[store]? = some record → ∃ record' : StoreRecord,
        (activity.run later).registry.stores[store]? = some record' ∧
        record.version ≤ record'.version) ∧
    (∀ (later : List (Action ρ)) name store, activity.registry.names.lookup name = some store →
      (activity.run later).registry.names.lookup name = some store → ∃ version version',
        activity.registry.version? name = some version ∧
        (activity.run later).registry.version? name = some version' ∧ version ≤ version') ∧
    -- An upgrade runs only while no handle of the store is held, and a name loses its store
    -- exactly if it is deleted while none is.
    (∀ name version (upgrade : Upgrade ρ),
      (activity.registry.openStore name version upgrade).2.1.isSome →
        ∀ holding ∈ held, holding.store ≠ (activity.registry.register name).1) ∧
    (∀ (action : Action ρ) name store, activity.registry.names.lookup name = some store →
      ((activity.act action).registry.names.lookup name ≠ some store ↔
        action = .deleteStore name ∧ ∀ holding ∈ held, holding.store ≠ store)) ∧
    -- A transaction that was begun before an upgrade or a deletion of its store never commits
    -- after it.
    ∀ (action : Action ρ) store, activity.Overhauls store action →
      ∀ id work, activity.work? id = some work → work.transaction.store = store →
        ∀ (later : List (Action ρ)) work',
          ((activity.act action).run later).work? id = some work' →
            (((activity.act action).run later).registry.commit work'.transaction).1 =
              .error .closed := by
  have guarded : activity.Guarded held := by
    rw [← ran, ← holds]
    exact guarded_start.run actions
  have accounts := guarded.accounts
  refine ⟨accounts.distinct, fun _ => accounts.isOpen_iff, fun _ _ => accounts.of_record,
    fun handle unheld => ?closed, fun later _ _ => (ages_run later).exists_record, ?named,
    fun name version upgrade ran => ?upgraded,
    fun action name store => guarded.lookup_ne_iff action,
    fun action store overhauls id work alive works later work' alive' => ?stale⟩
  case closed =>
    have notOpen : ¬activity.registry.isOpen handle := fun isOpen => by
      obtain ⟨holding, member, same⟩ := accounts.isOpen_iff.mp isOpen
      exact unheld holding member same
    rw [act, Registry.close_of_not_isOpen notOpen]
  case named =>
    intro later name store named keeps
    obtain ⟨record, here⟩ := guarded.exists_record named
    obtain ⟨record', there, le⟩ := (ages_run later).exists_record here
    exact ⟨record.version, record'.version, Registry.version?_of_record named here,
      Registry.version?_of_record keeps there, le⟩
  case upgraded =>
    have overhauls : activity.Overhauls _ (.openStore name version upgrade) := ⟨ran, rfl⟩
    exact guarded.ne_of_overhauls overhauls
  case stale => exact guarded.commit_of_overhauls overhauls alive works alive'

/-- The upgrade that creates a table of notes. -/
def notes : Upgrade UpgradeLog := .ofSteps [{ action := .createTable "notes" "id" true }]

/-- The handle is closed while a note is being written. -/
def abandoned : List (Action UpgradeLog) := [
  .openStore "notes" 1 notes,
  .begin 0 .readWrite,
  .change 0 (.write "notes" { fields := [("topic", .text "tea")] } .put),
  .close 0]

/-- The note does not get into the store of the same name that is created after a deletion. -/
theorem abandoned_note_is_refused : ∃ activity work,
    Activity.run {} (abandoned ++ [.deleteStore "notes", .openStore "notes" 1 notes]) = activity ∧
      activity.work? 0 = some work ∧
      (activity.registry.commit work.transaction).1 = .error .closed := by
  obtain ⟨-, -, -, -, -, -, -, -, stale⟩ :=
    handles_guard_stores (rfl : Activity.run {} abandoned = _) rfl
  have deletes : (Activity.run {} abandoned).Overhauls 0
      (.deleteStore "notes" : Action UpgradeLog) := ⟨rfl, rfl⟩
  exact ⟨_, _, rfl, rfl, stale _ 0 deletes 0 _ rfl rfl [.openStore "notes" 1 notes] _ rfl⟩

end Activity

end IndexedStore
