/-
This file proves that between two operations of connections nobody is writing. An operation that
takes the lock of a store gives it back before it ends, also when a call in it has failed or was
struck: a writer is either committed or thrown away, and both free the lock.
-/

import IndexedStore.Proofs.Connection.Mutation
import IndexedStore.Proofs.Connection.Reached

namespace IndexedStore

/-! ### The registry -/

namespace Registry

variable {registry after : Registry} {handle : HandleId} {transaction : Transaction}
  {store : StoreId}

/-- Nobody is writing to any store, except perhaps to this one. -/
def IdleBut (registry : Registry) (held : StoreId) : Prop :=
  ∀ store ≠ held, ∀ state, registry.state? store = some state → state.isLocked = false

/-- Nobody is writing to any store. -/
def Idle (registry : Registry) : Prop :=
  ∀ store state, registry.state? store = some state → state.isLocked = false

theorem Idle.congr (idle : registry.Idle) (same : after.state? = registry.state?) : after.Idle := by
  rw [Idle, same]
  exact idle

theorem Idle.hasWriter_eq_false (idle : registry.Idle) {record : StoreRecord}
    (member : record ∈ registry.stores) : record.hasWriter = false := by
  obtain ⟨store, here⟩ := List.mem_iff_getElem?.mp member
  exact idle store record.state (congrArg (Option.map StoreRecord.state) here)

theorem Idle.grows (idle : registry.Idle) (grows : registry.Grows after) : after.Idle := by
  intro store state known
  rcases grows store with same | ⟨-, isNew⟩
  · exact idle store state (same.symm.trans known)
  · cases isNew.symm.trans known
    rfl

/-- Beginning to write takes one lock. -/
theorem Idle.beginWrite {outcome : Outcome EngineError Transaction} (idle : registry.Idle)
    (began : registry.beginWrite handle = (outcome, after)) :
    (∀ transaction, outcome = .done transaction →
        transaction.mode = .readWrite ∧ after.IdleBut transaction.store) ∧
      (outcome.result? = none → after = registry) := by
  have begun : registry.begin handle .readWrite = (outcome, after) := began
  rcases begin_cases begun with ⟨nothing, rfl⟩ |
    ⟨entry, state, -, -, known, rfl, ⟨absurd, -⟩ | ⟨-, -, rfl⟩⟩
  · refine ⟨?_, fun _ => rfl⟩
    rintro transaction rfl
    cases nothing
  · cases absurd
  · refine ⟨fun transaction isDone => ?_, nofun⟩
    cases isDone
    refine ⟨rfl, fun store different state' known' => ?_⟩
    change store ≠ entry.store at different
    rw [state?_lock known, Function.update_of_ne different] at known'
    exact idle store state' known'

/-- Whoever frees the one lock that may be taken leaves nobody writing. -/
theorem IdleBut.free {change : StoreState → StoreState} (idle : registry.IdleBut store)
    (frees : ∀ state, (change state).isLocked = false)
    (changed : after.state? =
      Function.update registry.state? store ((registry.state? store).map change)) :
    after.Idle := by
  intro other state known
  rw [changed, Function.update_apply] at known
  split at known
  · obtain ⟨before, -, rfl⟩ := Option.map_eq_some_iff.mp known
    exact frees before
  · rename_i different
    exact idle other different state known

theorem IdleBut.discard (idle : registry.IdleBut transaction.store)
    (writes : transaction.mode = .readWrite) : (registry.discard transaction).Idle :=
  idle.free (fun _ => rfl) (state?_discard writes)

theorem IdleBut.commit (idle : registry.IdleBut transaction.store)
    (writes : transaction.mode = .readWrite) : (registry.commit transaction).2.Idle :=
  idle.free (fun _ => rfl) (state?_commit writes)

theorem Idle.openStore {ρ : Type} {upgrade : Upgrade ρ} (idle : registry.Idle) (name : String)
    (version : Nat) : (registry.openStore name version upgrade).2.2.Idle := by
  cases entered : registry.register name with
  | mk target rest =>
    obtain ⟨record, registered⟩ := rest
    have grown := (@register_spec registry name).2.1
    rw [entered] at grown
    have known := idle.grows grown
    cases opened : registry.openStore name version upgrade with
    | mk outcome rest =>
      obtain ⟨report, after⟩ := rest
      rcases openStore_cases opened entered with
        ⟨-, rfl | rfl, -⟩ | ⟨-, -, -, rfl⟩ | ⟨data, _, -, -, -, -, rfl, -, -, rfl⟩
      · exact idle
      · exact known
      · exact known.congr (state?_addHandle version)
      · intro store state here
        rw [state?_addHandle, state?_modifyStore (fun state => ⟨data, state.isLocked⟩) fun _ => rfl,
          Function.update_apply] at here
        split at here
        · obtain ⟨before, there, rfl⟩ := Option.map_eq_some_iff.mp here
          exact known _ before there
        · exact known store state here

end Registry

/-! ### Operations on rows -/

namespace Engine

variable {engine opened : Engine} {handle : HandleId} {transaction altered : Transaction}

theorem idle_beginWrite {outcome : Outcome EngineError Transaction} (idle : engine.registry.Idle)
    (began : engine.beginWrite handle = (outcome, opened)) :
    (∀ transaction, outcome = .done transaction →
        transaction.mode = .readWrite ∧ opened.registry.IdleBut transaction.store) ∧
      (outcome.result? = none → opened.registry = engine.registry) := by
  unfold beginWrite at began
  dsimp only at began
  split at began
  · cases began
    exact ⟨nofun, fun _ => rfl⟩
  · cases began
    exact @Registry.Idle.beginWrite engine.registry _ handle _ idle rfl

theorem idle_finish {α : Type} {result : α} {failed : EngineError → DatabaseError}
    (idle : engine.registry.IdleBut transaction.store) (writes : transaction.mode = .readWrite) :
    (engine.finish transaction result failed).2.registry.Idle := by
  have committed : (engine.commit transaction).2.registry.Idle := by
    unfold commit
    dsimp only
    split
    · exact idle.discard writes
    · exact idle.commit writes
  unfold finish
  split <;> rename_i ended <;> rw [ended] at committed <;> exact committed

end Engine

namespace TableSchema

variable {table : TableSchema} {engine : Engine} {handle : HandleId}

/-- A call on one row leaves nobody writing: its transaction has ended, whatever came of it. -/
theorem idle_transact {α : Type} {work : Table → Except EngineError α × Table}
    {call : Engine → Transaction → Except EngineError α × Transaction × Engine}
    (idle : engine.registry.Idle) (applies : Engine.Applies table.name work call)
    (failed : EngineError → DatabaseError) :
    (table.transact engine handle call failed).2.registry.Idle := by
  unfold transact
  cases began : engine.beginWrite handle with
  | mk outcome opened =>
    obtain ⟨begun, same⟩ := Engine.idle_beginWrite idle began
    cases outcome with
    | waiting => exact same rfl ▸ idle
    | failed failure => exact same rfl ▸ idle
    | done transaction =>
      obtain ⟨writes, held⟩ := begun transaction rfl
      obtain ⟨makes, kept⟩ := applies opened transaction writes
      dsimp only
      cases called : call opened transaction with
      | mk result rest =>
        obtain ⟨altered, after⟩ := rest
        rw [called] at makes kept
        obtain ⟨sameMode, sameStore, -⟩ := makes.same
        have held' : after.registry.IdleBut altered.store := sameStore ▸ kept ▸ held
        cases result with
        | error failure => exact held'.discard (sameMode.trans writes)
        | ok result => exact Engine.idle_finish held' (sameMode.trans writes)

theorem idle_addRow (idle : engine.registry.Idle) (row : Row) (mode : WriteMode) :
    (table.addRow engine handle row mode).2.registry.Idle := by
  rw [addRow]
  split
  · exact idle
  · exact idle_transact idle (Engine.applies_write row mode) _

theorem idle_deleteKey (idle : engine.registry.Idle) (key : Value) :
    (table.deleteKey engine handle key).2.registry.Idle :=
  idle_transact idle (Engine.applies_delete key) _

end TableSchema

/-- An operation on several items leaves nobody writing if each of its operations does so. -/
theorem idle_runItems {α β : Type} {operate : Engine → α → Reply β × Engine}
    (keeps : ∀ engine item, engine.registry.Idle → (operate engine item).2.registry.Idle)
    {engine : Engine} (idle : engine.registry.Idle) (items : List α) :
    (runItems operate engine items).2.registry.Idle := by
  induction items generalizing engine with
  | nil => exact idle
  | cons item rest inductionHypothesis => exact inductionHypothesis (keeps engine item idle)

/-! ### Every sequence of operations -/

namespace Connection

variable {connection : Connection} {engine : Engine}

theorem idle_add (idle : engine.registry.Idle) (table : String) (row : Row) (mode : WriteMode) :
    (connection.add engine table row mode).2.registry.Idle := by
  unfold add
  split
  · exact idle
  · exact TableSchema.idle_addRow idle row mode

theorem idle_addMany (idle : engine.registry.Idle) (table : String) (rows : List Row)
    (mode : WriteMode) (schedule : Schedule) :
    (connection.addMany engine table rows mode schedule).2.registry.Idle := by
  unfold addMany
  split
  · exact idle
  · exact idle_runItems (fun _ row known => TableSchema.idle_addRow known row mode) idle _

theorem idle_delete (idle : engine.registry.Idle) (table : String) (query : Query)
    (schedule : Schedule) :
    (connection.delete engine table query schedule).2.2.registry.Idle := by
  unfold delete
  split
  · exact idle
  · rename_i handle schema _
    have same := @registry_find connection engine handle schema query
    split <;> rename_i found <;> rw [found] at same
    · exact same ▸ idle
    · exact idle_runItems (fun _ key known => TableSchema.idle_deleteKey known key) (same ▸ idle) _

theorem idle_close (idle : engine.registry.Idle) : (connection.close engine).2.registry.Idle := by
  unfold close
  split
  · exact idle.congr Registry.state?_close
  · exact idle

end Connection

/-- Whatever connections have done, nobody is writing afterwards. -/
theorem Engine.Reached.idle {engine : Engine} (reached : engine.Reached) :
    engine.registry.Idle := by
  induction reached with
  | start faults => exact nofun
  | arm before faults inductionHypothesis => exact inductionHypothesis
  | openStore before database config inductionHypothesis =>
    exact inductionHypothesis.openStore database.name config.version
  | close before connection inductionHypothesis => exact Connection.idle_close inductionHypothesis
  | add before connection table row mode inductionHypothesis =>
    exact Connection.idle_add inductionHypothesis table row mode
  | addMany before connection table rows mode schedule inductionHypothesis =>
    exact Connection.idle_addMany inductionHypothesis table rows mode schedule
  | delete before connection table query schedule inductionHypothesis =>
    exact Connection.idle_delete inductionHypothesis table query schedule
  | select before connection table query inductionHypothesis =>
    simpa using inductionHypothesis

end IndexedStore
