/-
This file sets out the steps in which stores are worked on: stores are opened and deleted,
handles closed, transactions begun, used and ended, in any order and by any number of
parties. What would have to wait is given up.

Beside what the registry keeps, it keeps track of the changes that each transaction has been
asked for, and says what a step publishes: nothing, the changes of a transaction whose commit
succeeds, or an upgrade that does.
-/

import IndexedStore.Proofs.Storage.Records
import IndexedStore.Proofs.Storage.Registry

namespace IndexedStore

/-! ### Changes -/

/-- A change that a transaction may be asked for. -/
inductive Change where
  | write (table : String) (row : Row) (mode : WriteMode)
  | delete (table : String) (key : Value)

namespace Change

/-- What a change makes of the data. A write that fails makes nothing of it. -/
def apply (data : StoreData) : Change → StoreData
  | write table row mode =>
    match data.table? table with
    | .ok content =>
      match content.put row mode with
      | (.ok _, changed) => data.setTable table changed
      | (.error _, _) => data
    | .error _ => data
  | delete table key =>
    match data.table? table with
    | .ok content => data.setTable table (content.delete key).2
    | .error _ => data

/-- Asks a transaction for a change. -/
def ask (transaction : Transaction) : Change → Transaction
  | write table row mode => (transaction.write table row mode).2
  | delete table key => (transaction.delete table key).2

variable {transaction : Transaction}

@[simp]
theorem ask_of_readOnly (reads : transaction.mode = .readOnly) (change : Change) :
    change.ask transaction = transaction := by
  cases change with
  | write table row mode => simp [ask, Transaction.write, reads]
  | delete table key => simp [ask, Transaction.delete, reads]

/-- A write that fails leaves the table as it was, and so the data. -/
theorem onTable_put (data : StoreData) (table : String) (row : Row) (mode : WriteMode) :
    (data.onTable table fun content => content.put row mode).2 =
      (write table row mode).apply data := by
  cases found : data.table? table with
  | error failure => simp [apply, found]
  | ok content =>
    rcases put : content.put row mode with ⟨failure | key, changed⟩
    · simp [apply, found, put, (Table.put_eq_error_iff.mp put).1]
    · simp [apply, found, put]

/-- A writer makes the change to its own copy of the data, and counts as one that has changed
something even if the change has failed. -/
@[simp]
theorem ask_of_readWrite (writes : transaction.mode = .readWrite) (change : Change) :
    change.ask transaction =
      { transaction with isDirty := true, data := change.apply transaction.data } := by
  cases change with
  | write table row mode =>
    simp [ask, Transaction.write, writes, onTable_put]
  | delete table key =>
    cases found : transaction.data.table? table <;>
      simp [ask, Transaction.delete, writes, apply, found]

@[simp]
theorem mode_ask (change : Change) : (change.ask transaction).mode = transaction.mode := by
  cases mode : transaction.mode <;> simp [mode]

@[simp]
theorem store_ask (change : Change) : (change.ask transaction).store = transaction.store := by
  cases mode : transaction.mode <;> simp [mode]

@[simp]
theorem handle_ask (change : Change) : (change.ask transaction).handle = transaction.handle := by
  cases mode : transaction.mode <;> simp [mode]

end Change

/-- What is published at once. -/
inductive Contribution (ρ : Type) where
  /-- All the changes that a transaction was asked for. -/
  | changes (asked : List Change)
  /-- An upgrade between two versions. -/
  | upgrade (run : Upgrade ρ) (old new : Nat)

/-- What a contribution makes of the data. -/
def Contribution.apply {ρ : Type} (data : StoreData) : Contribution ρ → StoreData
  | .changes asked => asked.foldl Change.apply data
  | .upgrade run old new =>
    match (run old new data).result with
    | .ok () => (run old new data).data
    | .error _ => data

/-- What the contributions to a store make of its data, one after the other. Those to other
stores are passed over. -/
def contribute {ρ : Type} (store : StoreId) (data : StoreData)
    (contributions : List (StoreId × Contribution ρ)) : StoreData :=
  contributions.foldl (fun data entry =>
    if entry.1 = store then entry.2.apply data else data) data

/-! ### Steps -/

/-- A transaction that is under way. -/
structure Work where
  /-- The transaction. -/
  transaction : Transaction
  /-- The changes that it was asked for, in order. -/
  asked : List Change := []

/-- Asks for a change. -/
def Work.ask (work : Work) (change : Change) : Work :=
  { transaction := change.ask work.transaction, asked := work.asked ++ [change] }

/-- A transaction counts as one that has changed something exactly if it may write and was
asked for a change. -/
def Work.IsTracked (work : Work) : Prop :=
  work.transaction.isDirty ↔ work.transaction.mode = .readWrite ∧ work.asked ≠ []

theorem Work.IsTracked.ask {work : Work} (tracked : work.IsTracked) (change : Change) :
    (work.ask change).IsTracked := by
  unfold IsTracked at tracked ⊢
  cases mode : work.transaction.mode with
  | readOnly => simp [Work.ask, mode, tracked]
  | readWrite => simp [Work.ask, mode]

/-- The position of a transaction among those that were begun. -/
abbrev WorkId := Nat

/-- The stores, and the transactions on them. -/
structure Activity where
  /-- The stores. -/
  registry : Registry := {}
  /-- All transactions that were ever begun, as far as they are still under way. -/
  works : List (Option Work) := []

/-- One step. -/
inductive Action (ρ : Type) where
  | openStore (name : String) (version : Nat) (upgrade : Upgrade ρ)
  | deleteStore (name : String)
  /-- A handle is closed, or dropped, which closes it. -/
  | close (handle : HandleId)
  | begin (handle : HandleId) (mode : TransactionMode)
  | scanIndex (id : WorkId) (table field : String) (range : KeyRange)
  | scanPrimary (id : WorkId) (table : String) (range : Option KeyRange)
  | change (id : WorkId) (change : Change)
  | commit (id : WorkId)
  | drop (id : WorkId)

namespace Activity

variable {ρ : Type}

/-- A transaction that is under way. -/
def work? (activity : Activity) (id : WorkId) : Option Work := activity.works[id]?.join

/-- Ends a transaction that is under way. -/
def finish (activity : Activity) (id : WorkId) (close : Registry → Transaction → Registry) :
    Activity :=
  match activity.work? id with
  | some work =>
    { registry := close activity.registry work.transaction, works := activity.works.set id none }
  | none => activity

@[simp]
theorem finish_of_work? {activity : Activity} {id : WorkId} {work : Work}
    {close : Registry → Transaction → Registry} (alive : activity.work? id = some work) :
    activity.finish id close =
      ⟨close activity.registry work.transaction, activity.works.set id none⟩ := by
  simp [finish, alive]

@[simp]
theorem finish_of_work?_eq_none {activity : Activity} {id : WorkId}
    {close : Registry → Transaction → Registry} (ended : activity.work? id = none) :
    activity.finish id close = activity := by
  simp [finish, ended]

/-- Takes a step. Scans give rows and change nothing. -/
@[simp]
def act (activity : Activity) : Action ρ → Activity
  | .openStore name version upgrade =>
    { activity with registry := (activity.registry.openStore name version upgrade).2.2 }
  | .deleteStore name => { activity with registry := (activity.registry.deleteStore name).2 }
  | .close handle => { activity with registry := activity.registry.close handle }
  | .begin handle mode =>
    match activity.registry.begin handle mode with
    | (.done transaction, registry) =>
      { registry, works := activity.works ++ [some { transaction }] }
    | (_, registry) => { activity with registry }
  | .scanIndex .. => activity
  | .scanPrimary .. => activity
  | .change id change =>
    { activity with works := activity.works.modify id (Option.map (·.ask change)) }
  | .commit id => activity.finish id fun registry transaction => (registry.commit transaction).2
  | .drop id => activity.finish id Registry.discard

/-- What a step publishes, and the store that it does so for. -/
def publication? (activity : Activity) : Action ρ → Option (StoreId × Contribution ρ)
  | .openStore name version upgrade =>
    match activity.registry.openStore name version upgrade with
    | (.done _, some _, _) =>
      let (store, record, _) := activity.registry.register name
      some (store, .upgrade upgrade record.version version)
    | _ => none
  | .commit id =>
    match activity.work? id with
    | some work =>
      if work.transaction.mode = .readWrite ∧
          (activity.registry.commit work.transaction).1.isOk then
        some (work.transaction.store, .changes work.asked)
      else none
    | none => none
  | _ => none

/-- Takes steps one after the other. -/
def run (activity : Activity) : List (Action ρ) → Activity
  | [] => activity
  | action :: rest => (activity.act action).run rest

/-- What steps publish, in order. -/
def publications (activity : Activity) : List (Action ρ) → List (StoreId × Contribution ρ)
  | [] => []
  | action :: rest =>
    (activity.publication? action).toList ++ (activity.act action).publications rest

/-! ### Transactions under way -/

variable {activity : Activity} {store : StoreId}

theorem work?_concat (registry : Registry) (begun : Work) :
    (⟨registry, activity.works ++ [some begun]⟩ : Activity).work? =
      Function.update activity.work? activity.works.length (some begun) := by
  funext id
  rw [Function.update_apply, work?, getElem?_concat]
  split <;> rfl

theorem work?_modify (registry : Registry) (id : WorkId) (change : Work → Work) :
    (⟨registry, activity.works.modify id (Option.map change)⟩ : Activity).work? =
      Function.update activity.work? id ((activity.work? id).map change) := by
  funext other
  by_cases same : other = id
  · subst same
    rcases entry : activity.works[other]? with - | - | work <;> simp [work?, entry]
  · simp [work?, same, Ne.symm same]

theorem work?_finish (id : WorkId) (close : Registry → Transaction → Registry) :
    (activity.finish id close).work? = Function.update activity.work? id none := by
  funext other
  rw [Function.update_apply]
  by_cases same : other = id
  · subst same
    cases alive : activity.work? other with
    | none => simp [alive]
    | some work =>
      rw [if_pos rfl, finish_of_work? alive, work?, List.getElem?_set, if_pos rfl]
      split <;> rfl
  · cases alive : activity.work? id with
    | none => simp [alive, same]
    | some work => simp [finish_of_work? alive, work?, same, Ne.symm same]

/-- Every step keeps track of which transactions have changed anything. -/
theorem tracked_act (tracked : ∀ id work, activity.work? id = some work → work.IsTracked)
    (action : Action ρ) :
    ∀ id work, (activity.act action).work? id = some work → work.IsTracked := by
  intro other found alive
  have tracked_finish {id : WorkId} {close : Registry → Transaction → Registry}
      (alive : (activity.finish id close).work? other = some found) : found.IsTracked := by
    rw [work?_finish, Function.update_apply] at alive
    split at alive
    · cases alive
    · exact tracked other found alive
  cases action with
  | begin handle mode =>
    cases began : activity.registry.begin handle mode with
    | mk outcome after =>
      rw [act, began] at alive
      rcases Registry.begin_cases began with ⟨nothing, -⟩ | ⟨entry, state, -, -, -, rfl, -⟩
      · cases outcome with
        | done transaction => cases nothing
        | failed cause => exact tracked other found alive
        | waiting => exact tracked other found alive
      · rw [work?_concat, Function.update_apply] at alive
        split at alive
        · cases alive
          simp [Work.IsTracked]
        · exact tracked other found alive
  | change id change =>
    rw [act, work?_modify, Function.update_apply] at alive
    split at alive
    · obtain ⟨before, here, rfl⟩ := Option.map_eq_some_iff.mp alive
      exact (tracked id before here).ask change
    · exact tracked other found alive
  | commit id => exact tracked_finish alive
  | drop id => exact tracked_finish alive
  | openStore | deleteStore | close | scanIndex | scanPrimary => exact tracked other found alive

/-! ### Stores -/

theorem follows_finish {close : Registry → Transaction → Registry}
    (follows : ∀ (registry : Registry) transaction, registry.Follows (close registry transaction))
    (id : WorkId) : activity.registry.Follows (activity.finish id close).registry := by
  cases alive : activity.work? id with
  | none => simpa [alive] using Registry.Follows.refl
  | some work => simpa [alive] using follows _ _

/-- No step loses a store. -/
theorem follows_act (action : Action ρ) :
    activity.registry.Follows (activity.act action).registry := by
  cases action with
  | openStore name version upgrade =>
    cases opened : activity.registry.openStore name version upgrade with
    | mk outcome rest =>
      rw [act, opened]
      exact Registry.follows_of_openStore opened
  | deleteStore name => exact Registry.follows_deleteStore name
  | close handle => exact Registry.follows_close
  | begin handle mode =>
    cases began : activity.registry.begin handle mode with
    | mk outcome after =>
      rw [act, began]
      cases outcome <;> exact Registry.follows_of_begin began
  | commit id => exact follows_finish (fun _ _ => Registry.follows_commit) id
  | drop id => exact follows_finish (fun _ _ => Registry.follows_discard) id
  | scanIndex | scanPrimary | change => exact .refl

theorem names_finish {close : Registry → Transaction → Registry}
    (keeps : ∀ (registry : Registry) transaction,
      (close registry transaction).names = registry.names)
    (id : WorkId) : (activity.finish id close).registry.names = activity.registry.names := by
  cases alive : activity.work? id <;> simp [alive, keeps]

/-- A name keeps its store until it is deleted. -/
theorem lookup_act {name : String} (knows : activity.registry.KnowsStores)
    (named : activity.registry.names.lookup name = some store) (action : Action ρ) :
    (activity.act action).registry.names.lookup name = some store ∨
      action = .deleteStore name := by
  cases action with
  | openStore entered version upgrade =>
    left
    cases opened : activity.registry.openStore entered version upgrade with
    | mk outcome rest =>
      rw [act, opened]
      rcases Registry.names_of_openStore opened with same | same
      · exact (congrArg _ same).trans named
      · refine (congrArg _ same).trans ?_
        exact Registry.lookup_register_of_known named (knows.names name store named)
  | deleteStore deleted =>
    by_cases same : name = deleted
    · exact .inr (same ▸ rfl)
    · left
      rw [act, Registry.deleteStore]
      split
      · split
        · exact named
        · simp [same, named]
      · exact named
  | close handle => exact .inl (by simpa using named)
  | begin handle mode =>
    left
    cases began : activity.registry.begin handle mode with
    | mk outcome after =>
      rw [act, began]
      have same := Registry.names_of_begin began
      cases outcome <;> exact (congrArg _ same).trans named
  | commit id => exact .inl (by simpa [names_finish] using named)
  | drop id => exact .inl (by simpa [names_finish] using named)
  | scanIndex | scanPrimary | change => exact .inl named

end Activity

end IndexedStore
