/-
This file proves that the writers of a store take turns, in every order of steps and with any
number of stores, handles and transactions.

A store stands in one of three ways. It has no record yet, or nobody writes to it and its
lock is free, or exactly one transaction writes to it, holds the lock and works on what its
own changes make of the published data. Each step takes a store from one of these to another,
and what the store has published is at all times what the contributions to it, in the order
in which they were published, make of no data.
-/

import IndexedStore.Proofs.Storage.Activity

namespace IndexedStore

namespace Activity

variable {ρ : Type} {activity : Activity} {registry : Registry} {store : StoreId} {data : StoreData}
  {id other : WorkId} {work : Work}

/-! ### Writers -/

/-- A transaction that is under way writes to the store. -/
def Writes (activity : Activity) (id : WorkId) (work : Work) (store : StoreId) : Prop :=
  activity.work? id = some work ∧ work.transaction.mode = .readWrite ∧
    work.transaction.store = store

theorem writes_concat_iff {begun : Work} :
    (⟨registry, activity.works ++ [some begun]⟩ : Activity).Writes other work store ↔
      activity.Writes other work store ∨ other = activity.works.length ∧ work = begun ∧
        begun.transaction.mode = .readWrite ∧ begun.transaction.store = store := by
  unfold Writes
  rw [work?_concat, Function.update_apply]
  by_cases isNew : other = activity.works.length
  · subst isNew
    have absent : activity.work? activity.works.length = none := by simp [work?]
    rw [absent, if_pos rfl]
    constructor
    · rintro ⟨same, mode, rfl⟩
      cases same
      exact .inr ⟨rfl, rfl, mode, rfl⟩
    · rintro (⟨absurd, -⟩ | ⟨-, rfl, mode, same⟩)
      · cases absurd
      · exact ⟨rfl, mode, same⟩
  · simp [isNew]

theorem writes_finish_iff {close : Registry → Transaction → Registry} :
    (activity.finish id close).Writes other work store ↔
      other ≠ id ∧ activity.Writes other work store := by
  unfold Writes
  rw [work?_finish, Function.update_apply]
  by_cases same : other = id <;> simp [same]

theorem writes_modify_iff {change : Change} :
    (⟨registry, activity.works.modify id (Option.map (·.ask change))⟩ : Activity).Writes
        other work store ↔
      ∃ before, activity.Writes other before store ∧
        work = if other = id then before.ask change else before := by
  unfold Writes
  rw [work?_modify, Function.update_apply]
  by_cases same : other = id
  · subst same
    simp only [if_true, Option.map_eq_some_iff]
    constructor
    · rintro ⟨⟨before, alive, rfl⟩, mode, kept⟩
      exact ⟨before, ⟨alive, by simpa [Work.ask] using mode, by simpa [Work.ask] using kept⟩, rfl⟩
    · rintro ⟨before, ⟨alive, mode, kept⟩, rfl⟩
      exact ⟨⟨before, alive, rfl⟩, by simpa [Work.ask] using mode, by simpa [Work.ask] using kept⟩
  · simp [same]

/-! ### How a store stands -/

/-- How a store may stand that has published the data. -/
inductive Stands (activity : Activity) (store : StoreId) (data : StoreData) : Prop where
  /-- It has no record yet. -/
  | absent (unknown : activity.registry.state? store = none) (isEmpty : data = {})
      (nobody : ∀ id work, ¬ activity.Writes id work store)
  /-- Nobody writes to it, and the lock is free. -/
  | free (known : activity.registry.state? store = some ⟨data, false⟩)
      (nobody : ∀ id work, ¬ activity.Writes id work store)
  /-- One transaction writes to it, which holds the lock. -/
  | taken {id : WorkId} {work : Work}
      (known : activity.registry.state? store = some ⟨data, true⟩)
      (writes : activity.Writes id work store)
      (own : work.transaction.data = work.asked.foldl Change.apply data)
      (only : ∀ other work, activity.Writes other work store → other = id)

theorem Stands.of_writes (stands : activity.Stands store data)
    (writes : activity.Writes id work store) :
    activity.registry.state? store = some ⟨data, true⟩ ∧
      work.transaction.data = work.asked.foldl Change.apply data ∧
      ∀ other work, activity.Writes other work store → other = id := by
  cases stands with
  | absent unknown isEmpty nobody => exact absurd writes (nobody id work)
  | free known nobody => exact absurd writes (nobody id work)
  | taken known writer own only =>
    cases only id work writes
    cases Option.some.inj (writer.1.symm.trans writes.1)
    exact ⟨known, own, only⟩

theorem Stands.data_eq {state : StoreState} (stands : activity.Stands store data)
    (known : activity.registry.state? store = some state) : state.data = data := by
  cases stands with
  | absent unknown isEmpty nobody =>
    rw [unknown] at known
    cases known
  | free here nobody => rw [← Option.some.inj (here.symm.trans known)]
  | taken here writes own only => rw [← Option.some.inj (here.symm.trans known)]

/-- The lock is taken exactly as long as somebody writes. -/
theorem Stands.isLocked_iff {state : StoreState} (stands : activity.Stands store data)
    (known : activity.registry.state? store = some state) :
    state.isLocked ↔ ∃ id work, activity.Writes id work store := by
  cases stands with
  | absent unknown isEmpty nobody =>
    rw [unknown] at known
    cases known
  | free here nobody =>
    rw [← Option.some.inj (here.symm.trans known)]
    exact iff_of_false Bool.false_ne_true fun ⟨id, work, writes⟩ => nobody id work writes
  | taken here writes own only =>
    rw [← Option.some.inj (here.symm.trans known)]
    exact iff_of_true rfl ⟨_, _, writes⟩

/-- A step that leaves a store and its writers alone leaves it standing as it does. -/
theorem Stands.congr {after : Activity} (stands : activity.Stands store data)
    (same : after.registry.state? store = activity.registry.state? store)
    (writers : ∀ id work, after.Writes id work store ↔ activity.Writes id work store) :
    after.Stands store data := by
  have nobodyAfter (nobody : ∀ id work, ¬ activity.Writes id work store) (id work) :
      ¬ after.Writes id work store := (writers id work).not.mpr (nobody id work)
  cases stands with
  | absent unknown isEmpty nobody =>
    exact .absent (same.trans unknown) isEmpty (nobodyAfter nobody)
  | free known nobody => exact .free (same.trans known) (nobodyAfter nobody)
  | taken known writes own only =>
    exact .taken (same.trans known) ((writers _ _).mpr writes) own
      fun other work writing => only other work ((writers other work).mp writing)

/-! ### One step -/

/-- The creation of stores leaves the others alone. A new store is empty. -/
theorem Stands.grow (stands : activity.Stands store data)
    (grows : activity.registry.Grows registry) :
    ({ activity with registry } : Activity).Stands store data := by
  rcases grows store with same | ⟨unknown, created⟩
  · exact stands.congr same fun _ _ => Iff.rfl
  · cases stands with
    | absent _ isEmpty nobody =>
      subst isEmpty
      exact .free created nobody
    | free known nobody =>
      rw [unknown] at known
      cases known
    | taken known writes own only =>
      rw [unknown] at known
      cases known

/-- Opening a store may publish an upgrade of it. That takes a store whose lock is free, so there
is no writer whose copy of the data would grow old. -/
theorem Stands.openStore (stands : activity.Stands store data) (name : String) (version : Nat)
    (upgrade : Upgrade ρ) :
    (activity.act (.openStore name version upgrade)).Stands store
      (contribute store data (activity.publication? (.openStore name version upgrade)).toList) := by
  cases opened : activity.registry.openStore name version upgrade with
  | mk outcome rest =>
    obtain ⟨report, after⟩ := rest
    cases entered : activity.registry.register name with
    | mk target rest =>
      obtain ⟨record, registered⟩ := rest
      obtain ⟨here, grows, -⟩ := @Registry.register_spec activity.registry name
      rw [entered] at here grows
      have grown := stands.grow grows
      rw [act, publication?, opened, entered]
      rcases Registry.openStore_cases opened entered with
        ⟨refused, same, -⟩ | ⟨-, rfl, rfl, same⟩ |
        ⟨_, published, -, -, noWriter, ⟨ok, rfl⟩, rfl, rfl, rfl, same⟩
      · have kept : ({ activity with registry := after } : Activity).Stands store data := by
          rcases same with rfl | rfl
          · exact stands
          · exact grown
        cases outcome with
        | done handle => cases refused
        | failed cause => exact kept
        | waiting => exact kept
      · exact grown.congr (by simp [same]) fun _ _ => Iff.rfl
      · dsimp only [Option.toList, contribute, List.foldl]
        have upgraded : after.state? = Function.update registered.state? target
            (some ⟨(upgrade record.version version record.data).data, false⟩) := by
          rw [same, Registry.state?_addHandle, Registry.state?_modifyStore (fun state =>
            { state with data := (upgrade record.version version record.data).data })
            fun _ => rfl, here]
          simp [StoreRecord.state, noWriter]
        by_cases isTarget : target = store
        · subst isTarget
          have nobody := (grown.isLocked_iff here).not.mp (by simp [StoreRecord.state, noWriter])
          have before : record.data = data := grown.data_eq here
          rw [if_pos rfl, Contribution.apply, ← before, ok]
          refine .free ?_ fun id work writes => nobody ⟨id, work, writes⟩
          rw [upgraded, Function.update_self]
        · rw [if_neg isTarget]
          refine grown.congr ?_ fun _ _ => Iff.rfl
          rw [upgraded, Function.update_of_ne (Ne.symm isTarget)]

/-- A writer begins where nobody writes, on what is published. -/
theorem Stands.begin (stands : activity.Stands store data) (handle : HandleId)
    (mode : TransactionMode) :
    (activity.act (.begin handle mode : Action ρ)).Stands store data := by
  cases began : activity.registry.begin handle mode with
  | mk outcome after =>
    rw [act, began]
    rcases Registry.begin_cases began with ⟨nothing, rfl⟩ |
      ⟨entry, state, -, -, known, rfl, ⟨rfl, rfl⟩ | ⟨rfl, isFree, rfl⟩⟩
    · cases outcome with
      | done transaction => cases nothing
      | failed cause => exact stands
      | waiting => exact stands
    · refine stands.congr rfl fun other work => writes_concat_iff.trans ?_
      simp
    · have locked := Registry.state?_lock known
      by_cases isTarget : entry.store = store
      · subst isTarget
        have nobody := (stands.isLocked_iff known).not.mp (by simp [isFree])
        cases stands.data_eq known
        refine .taken ?_ (writes_concat_iff.mpr (.inr ⟨rfl, rfl, rfl, rfl⟩)) rfl ?_
        · exact (congrFun locked entry.store).trans (Function.update_self ..)
        · intro other work writes
          rcases writes_concat_iff.mp writes with old | ⟨isNew, -⟩
          · exact absurd ⟨other, work, old⟩ nobody
          · exact isNew
      · refine stands.congr ?_ fun other work => writes_concat_iff.trans ?_
        · exact (congrFun locked store).trans (Function.update_of_ne (Ne.symm isTarget) ..)
        · simp [isTarget]

/-- A change adds to what a transaction was asked for, and to its own copy of the data. -/
theorem Stands.change (stands : activity.Stands store data) (id : WorkId) (change : Change) :
    (activity.act (.change id change : Action ρ)).Stands store data := by
  have nobodyAfter (nobody : ∀ id work, ¬ activity.Writes id work store) (other work) :
      ¬ (activity.act (.change id change : Action ρ)).Writes other work store := by
    intro writes
    obtain ⟨before, writes, -⟩ := writes_modify_iff.mp writes
    exact nobody other before writes
  cases stands with
  | absent unknown isEmpty nobody => exact .absent unknown isEmpty (nobodyAfter nobody)
  | free known nobody => exact .free known (nobodyAfter nobody)
  | taken known writes own only =>
    rename_i writer work
    refine .taken known (writes_modify_iff.mpr ⟨work, writes, rfl⟩) ?_ ?_
    · by_cases asked : writer = id
      · simp [asked, Work.ask, Change.ask_of_readWrite writes.2.1, own]
      · rw [if_neg asked]
        exact own
    · intro other _ writing
      obtain ⟨before, writing, -⟩ := writes_modify_iff.mp writing
      exact only other before writing

/-! ### The end of a transaction -/

variable {close : Registry → Transaction → Registry}

/-- The end of a transaction that does not write to a store leaves the store alone. -/
theorem Stands.finish_of_not_writes (stands : activity.Stands store data)
    (alive : activity.work? id = some work) (elsewhere : ¬ activity.Writes id work store)
    (same : (close activity.registry work.transaction).state? store =
      activity.registry.state? store) :
    (activity.finish id close).Stands store data := by
  refine stands.congr ?_ fun other found => writes_finish_iff.trans
    (and_iff_right_of_imp fun writes => ?_)
  · rwa [finish_of_work? alive]
  · rintro rfl
    cases Option.some.inj (alive.symm.trans writes.1)
    exact elsewhere writes

/-- The end of a writer leaves nobody that writes to its store. -/
theorem Stands.finish_of_writes {published : StoreData} (stands : activity.Stands store data)
    (writes : activity.Writes id work store)
    (known : (close activity.registry work.transaction).state? store = some ⟨published, false⟩) :
    (activity.finish id close).Stands store published := by
  obtain ⟨-, -, only⟩ := stands.of_writes writes
  refine .free ?_ fun other work writing => ?_
  · rwa [finish_of_work? writes.1]
  · obtain ⟨isOther, writing⟩ := writes_finish_iff.mp writing
    exact isOther (only other work writing)

/-- The commit of a writer gives the lock back. If it succeeds, what it publishes is what the
changes of the writer make of the data that was published until then. -/
theorem Stands.state?_commit (stands : activity.Stands store data)
    (writes : activity.Writes id work store) (tracked : work.IsTracked) :
    (activity.registry.commit work.transaction).2.state? =
      Function.update activity.registry.state? store (some
        ⟨if (activity.registry.commit work.transaction).1.isOk then
          work.asked.foldl Change.apply data else data, false⟩) := by
  obtain ⟨known, own, -⟩ := stands.of_writes writes
  obtain ⟨-, mode, rfl⟩ := writes
  rw [Registry.state?_commit mode, known, Option.map_some]
  congr 3
  by_cases ok : (activity.registry.commit work.transaction).1.isOk
  · by_cases isDirty : work.transaction.isDirty
    · simp [ok, isDirty, own]
    · have nothing : work.asked = [] := by
        by_contra asked
        exact isDirty (tracked.mpr ⟨mode, asked⟩)
      simp [isDirty, nothing]
  · simp [ok]

/-- Dropping a writer gives the lock back. -/
theorem Stands.state?_discard (stands : activity.Stands store data)
    (writes : activity.Writes id work store) :
    (activity.registry.discard work.transaction).state? =
      Function.update activity.registry.state? store (some ⟨data, false⟩) := by
  obtain ⟨known, -, -⟩ := stands.of_writes writes
  obtain ⟨-, mode, rfl⟩ := writes
  rw [Registry.state?_discard mode, known, Option.map_some]

theorem Stands.commit (stands : activity.Stands store data)
    (tracked : ∀ id work, activity.work? id = some work → work.IsTracked) (id : WorkId) :
    (activity.act (.commit id : Action ρ)).Stands store
      (contribute store data (activity.publication? (.commit id : Action ρ)).toList) := by
  rw [act, publication?]
  cases alive : activity.work? id with
  | none => simpa [alive, contribute] using stands
  | some work =>
    dsimp only
    cases mode : work.transaction.mode with
    | readOnly =>
      have isClean : work.transaction.isDirty = false := by
        rw [← Bool.not_eq_true]
        intro isDirty
        cases mode.symm.trans ((tracked id work alive).mp isDirty).1
      rw [if_neg (by simp)]
      refine stands.finish_of_not_writes alive ?_ ?_
      · intro writes
        cases mode.symm.trans writes.2.1
      · rw [Registry.commit_of_readOnly mode isClean]
    | readWrite =>
      by_cases same : work.transaction.store = store
      · have writes : activity.Writes id work store := ⟨alive, mode, same⟩
        refine stands.finish_of_writes writes ?_
        rw [stands.state?_commit writes (tracked id work alive), Function.update_self]
        by_cases ok : (activity.registry.commit work.transaction).1.isOk
        · simp [ok, contribute, same, Contribution.apply]
        · simp [ok, contribute]
      · have others : contribute store data (if TransactionMode.readWrite = .readWrite ∧
            (activity.registry.commit work.transaction).1.isOk then
              some (work.transaction.store, (.changes work.asked : Contribution ρ))
            else none).toList = data := by
          split
          · exact if_neg same
          · rfl
        rw [others]
        refine stands.finish_of_not_writes alive (fun writes => same writes.2.2) ?_
        rw [Registry.state?_commit mode, Function.update_of_ne (Ne.symm same)]

theorem Stands.drop (stands : activity.Stands store data) (id : WorkId) :
    (activity.act (.drop id : Action ρ)).Stands store data := by
  rw [act]
  cases alive : activity.work? id with
  | none => simpa [alive] using stands
  | some work =>
    cases mode : work.transaction.mode with
    | readOnly =>
      refine stands.finish_of_not_writes alive ?_ ?_
      · intro writes
        cases mode.symm.trans writes.2.1
      · rw [Registry.discard_of_readOnly mode]
    | readWrite =>
      by_cases same : work.transaction.store = store
      · have writes : activity.Writes id work store := ⟨alive, mode, same⟩
        refine stands.finish_of_writes writes ?_
        rw [stands.state?_discard writes, Function.update_self]
      · refine stands.finish_of_not_writes alive (fun writes => same writes.2.2) ?_
        rw [Registry.state?_discard mode, Function.update_of_ne (Ne.symm same)]

/-! ### Every sequence of steps -/

/-- What holds at all times, given what was published so far. -/
structure Sound (activity : Activity) (history : List (StoreId × Contribution ρ)) : Prop where
  /-- What a store has published is what the contributions to it have made of no data. -/
  stands : ∀ store, activity.Stands store (contribute store {} history)
  /-- It is known of every transaction whether it has changed anything. -/
  tracked : ∀ id work, activity.work? id = some work → work.IsTracked
  /-- The stores of all handles and names have records. -/
  knows : activity.registry.KnowsStores

variable {history : List (StoreId × Contribution ρ)}

theorem stands_act (stands : activity.Stands store data)
    (tracked : ∀ id work, activity.work? id = some work → work.IsTracked) (action : Action ρ) :
    (activity.act action).Stands store
      (contribute store data (activity.publication? action).toList) := by
  cases action with
  | openStore name version upgrade => exact stands.openStore name version upgrade
  | deleteStore name =>
    exact stands.congr (congrFun (Registry.state?_deleteStore name) store) fun _ _ => Iff.rfl
  | close handle => exact stands.congr (congrFun Registry.state?_close store) fun _ _ => Iff.rfl
  | begin handle mode => exact stands.begin handle mode
  | scanIndex => exact stands
  | scanPrimary => exact stands
  | change id change => exact stands.change id change
  | commit id => exact stands.commit tracked id
  | drop id => exact stands.drop id

theorem Sound.act (sound : activity.Sound history) (action : Action ρ) :
    (activity.act action).Sound (history ++ (activity.publication? action).toList) where
  stands store := by
    rw [contribute, List.foldl_append]
    exact stands_act (sound.stands store) sound.tracked action
  tracked := tracked_act sound.tracked action
  knows := sound.knows.follow (follows_act action)

theorem Sound.run (sound : activity.Sound history) (actions : List (Action ρ)) :
    (activity.run actions).Sound (history ++ activity.publications actions) := by
  induction actions generalizing activity history with
  | nil => simpa [Activity.run, publications] using sound
  | cons action rest inductionHypothesis =>
    have later := inductionHypothesis (sound.act action)
    rwa [List.append_assoc] at later

theorem sound_start : ({} : Activity).Sound ([] : List (StoreId × Contribution ρ)) where
  stands _ := .absent rfl rfl fun _ _ writes => nomatch writes.1
  tracked _ _ alive := nomatch alive
  knows := ⟨nofun, nofun⟩

/-- Whatever steps are taken, the writers of a store take turns, and what each of them commits
goes on top of what was published until then. -/
theorem writers_take_turns {actions : List (Action ρ)} (ran : Activity.run {} actions = activity) :
    -- A name keeps its store until it is deleted, and a handle is one to the store that had the
    -- name when it was opened.
    (∀ name store (action : Action ρ), activity.registry.names.lookup name = some store →
      (activity.act action).registry.names.lookup name = some store ∨
        action = .deleteStore name) ∧
    (∀ name version (upgrade : Upgrade ρ) handle report registry,
      activity.registry.openStore name version upgrade = (.done handle, report, registry) →
        ∃ entry, registry.handles[handle]? = some entry ∧ entry.isClosed = false ∧
          registry.names.lookup name = some entry.store) ∧
    -- At most one writer of a store is under way.
    (∀ store first second one other, activity.Writes first one store →
      activity.Writes second other store → first = second) ∧
    -- On an open handle, beginning to write waits exactly as long as one is. Otherwise it
    -- begins on what the store has published.
    (∀ handle entry, activity.registry.handles[handle]? = some entry → entry.isClosed = false →
      ∃ state, activity.registry.state? entry.store = some state ∧
        ((activity.registry.beginWrite handle).1 = .waiting ↔
          ∃ id work, activity.Writes id work entry.store) ∧
        ((activity.registry.beginWrite handle).1 ≠ .waiting →
          (activity.registry.beginWrite handle).1 =
            .done (.begun .readWrite entry.store handle state.data))) ∧
    -- A commit of a writer succeeds exactly if the handle that began it is still open. Then it
    -- publishes what the changes that the writer was asked for make of the data that was
    -- published until then. A commit that fails and a drop leave the published data as it is.
    -- All of them give the lock back.
    (∀ id work store, activity.Writes id work store → ∃ data,
      activity.registry.state? store = some ⟨data, true⟩ ∧
        work.transaction.data = work.asked.foldl Change.apply data ∧
        (activity.registry.commit work.transaction).1.isOk =
          activity.registry.isOpen work.transaction.handle ∧
        (activity.act (.commit id : Action ρ)).registry.state? store =
          some ⟨if (activity.registry.commit work.transaction).1.isOk then
            work.asked.foldl Change.apply data else data, false⟩ ∧
        (activity.act (.drop id : Action ρ)).registry.state? store = some ⟨data, false⟩) ∧
    -- Every step makes of the data of a store exactly what it publishes for it, which is nothing
    -- but the changes of a commit that succeeds, or an upgrade that does.
    (∀ (action : Action ρ) store state, activity.registry.state? store = some state →
      ∃ isLocked, (activity.act action).registry.state? store =
        some ⟨contribute store state.data (activity.publication? action).toList, isLocked⟩) ∧
    -- A call that would have to wait and is given up changes nothing at all.
    (∀ handle mode, (activity.registry.begin handle mode).1 = .waiting →
      activity.act (.begin handle mode : Action ρ) = activity) ∧
    (∀ name version (upgrade : Upgrade ρ),
      (activity.registry.openStore name version upgrade).1 = .waiting →
        activity.act (.openStore name version upgrade) = activity) ∧
    -- Nothing that was published is lost, or applied twice.
    ∀ store state, activity.registry.state? store = some state →
      state.data = contribute store {} (Activity.publications {} actions) := by
  have sound : activity.Sound (Activity.publications {} actions) := by
    rw [← ran]
    exact sound_start.run actions
  refine ⟨?named, ?opened, ?unique, ?waits, ?ends, ?steps, ?begins, ?opens, ?published⟩
  case named => exact fun name store action named => lookup_act sound.knows named action
  case opened =>
    intro name version upgrade handle report registry done
    exact Registry.openStore_eq_done done
  case unique =>
    intro store first second one other writes writing
    obtain ⟨-, -, only⟩ := (sound.stands store).of_writes writing
    exact only first one writes
  case waits =>
    intro handle entry here isOpen
    obtain ⟨state, known⟩ :=
      Option.isSome_iff_exists.mp (sound.knows.handles entry (List.mem_of_getElem? here))
    have stands := sound.stands entry.store
    rw [Registry.beginWrite_of_isOpen here isOpen known]
    refine ⟨state, known, ?_, ?_⟩
    · rw [← stands.isLocked_iff known]
      split <;> simp [*]
    · split <;> simp
  case ends =>
    intro id work store writes
    have stands := sound.stands store
    obtain ⟨known, own, -⟩ := stands.of_writes writes
    refine ⟨_, known, own, Registry.isOk_commit, ?_, ?_⟩
    · simp [writes.1, stands.state?_commit writes (sound.tracked id work writes.1)]
    · simp [writes.1, stands.state?_discard writes]
  case steps =>
    intro action store state known
    have before := (sound.stands store).data_eq known
    have after := stands_act (sound.stands store) sound.tracked action
    obtain ⟨changed, here⟩ := Option.isSome_iff_exists.mp
      ((follows_act action).records store (by rw [known, Option.isSome_some]))
    refine ⟨changed.isLocked, ?_⟩
    rw [here, before, ← after.data_eq here]
  case begins =>
    intro handle mode waits
    rw [act]
    cases began : activity.registry.begin handle mode with
    | mk outcome after =>
      rw [began] at waits
      cases waits
      rw [Registry.begin_eq_waiting began]
  case opens =>
    intro name version upgrade waits
    rw [act]
    cases opened : activity.registry.openStore name version upgrade with
    | mk outcome rest =>
      rw [opened] at waits
      cases waits
      rw [Registry.openStore_eq_waiting opened]
  case published =>
    intro store state known
    exact (sound.stands store).data_eq known

/-- A store of notes is opened, and a note is written. Meanwhile a second writer is refused. -/
def rivals : List (Action UpgradeLog) := [
  .openStore "notes" 1 (.ofSteps [{ action := .createTable "notes" "id" true }]),
  .begin 0 .readWrite,
  .change 0 (.write "notes" (.ofFields [("topic", .text "tea")]) .put),
  .begin 0 .readWrite]

/-- The second writer has to wait until the first one has committed its note. -/
theorem rivals_take_turns : ∃ activity, Activity.run {} rivals = activity ∧
    (activity.registry.beginWrite 0).1 = .waiting ∧ ∃ data,
      (activity.act (.commit 0 : Action UpgradeLog)).registry.state? 0 = some ⟨data, false⟩ ∧
        (data.table? "notes").toOption.map (fun table => table.rows.size) = some 1 := by
  obtain ⟨-, -, -, waits, ends, -⟩ := writers_take_turns (rfl : Activity.run {} rivals = _)
  have writes : (Activity.run {} rivals).Writes 0 _ 0 := ⟨rfl, rfl, rfl⟩
  obtain ⟨state, -, waiting, -⟩ := waits 0 _ rfl rfl
  obtain ⟨data, before, -, -, committed, -⟩ := ends 0 _ 0 writes
  cases before
  exact ⟨_, rfl, waiting.mpr ⟨0, _, writes⟩, _, committed, rfl⟩

end Activity

end IndexedStore
