/-
This file puts faults between connections and the storage engine. A call that is
struck by a fault fails as if the engine were closed, and does not reach it. Which
calls are struck is laid down beforehand, for each kind of call on its own.
-/

import IndexedStore.Storage.Registry

namespace IndexedStore

/-- The calls of the storage engine that may be struck. -/
inductive EngineCall where
  | begin
  | scanIndex
  | scanPrimary
  | write
  | delete
  | commit
deriving DecidableEq

/-- The faults to come. -/
structure Faults where
  /-- For each kind of call, how many calls pass before the first one that is struck,
  then before the next one, and so on. After the last one all calls pass. -/
  gaps : EngineCall → List Nat := fun _ => []

namespace Faults

/-- Lays down the faults for one kind of call anew. -/
def schedule (faults : Faults) (call : EngineCall) (gaps : List Nat) : Faults :=
  ⟨fun other => if other = call then gaps else faults.gaps other⟩

/-- Lays down a single fault for a kind of call, after a number of calls that pass. -/
def arm (faults : Faults) (call : EngineCall) (skip : Nat) : Faults :=
  faults.schedule call [skip]

/-- Counts a call, and says whether it is struck. -/
def strike (faults : Faults) (call : EngineCall) : Bool × Faults :=
  match faults.gaps call with
  | [] => (false, faults)
  | 0 :: rest => (true, faults.schedule call rest)
  | (passing + 1) :: rest => (false, faults.schedule call (passing :: rest))

end Faults

/-- The storage engine as connections see it. -/
structure Engine where
  /-- The stores and their handles. -/
  registry : Registry := {}
  /-- The faults to come. -/
  faults : Faults := {}

namespace Engine

/-- Counts a call, and says whether it is struck. -/
def strike (engine : Engine) (call : EngineCall) : Bool × Engine :=
  let (struck, faults) := engine.faults.strike call
  (struck, { engine with faults })

@[simp]
theorem registry_strike (engine : Engine) (call : EngineCall) :
    (engine.strike call).2.registry = engine.registry := rfl

@[simp]
theorem strike_of_quiet {engine : Engine} {call : EngineCall}
    (quiet : engine.faults.gaps call = []) : engine.strike call = (false, engine) := by
  simp [strike, Faults.strike, quiet]

/-! ### Calls that may be struck -/

section

variable {α : Type}

/-- Makes a call that changes nothing, unless it is struck. -/
def read (engine : Engine) (call : EngineCall) (answer : Except EngineError α) :
    Except EngineError α × Engine :=
  let (struck, engine) := engine.strike call
  (if struck then .error .closed else answer, engine)

/-- Makes a call that changes a transaction, unless it is struck. -/
def alter (engine : Engine) (call : EngineCall) (transaction : Transaction)
    (change : Transaction → Except EngineError α × Transaction) :
    Except EngineError α × Transaction × Engine :=
  let (struck, engine) := engine.strike call
  if struck then (.error .closed, transaction, engine)
  else
    let (result, transaction) := change transaction
    (result, transaction, engine)

variable {engine : Engine} {call : EngineCall} {answer : Except EngineError α}

@[simp]
theorem read_of_passes (passes : (engine.strike call).1 = false) :
    engine.read call answer = (answer, (engine.strike call).2) := by
  simp [read, passes]

/-- A call that reads gives its answer, or it was struck. -/
theorem read_cases (engine : Engine) (call : EngineCall) (answer : Except EngineError α) :
    (engine.read call answer).1 = .error .closed ∨ (engine.read call answer).1 = answer := by
  dsimp only [read]
  split
  · exact .inl rfl
  · exact .inr rfl

theorem eq_ok_of_read {result : α} (ok : (engine.read call answer).1 = .ok result) :
    answer = .ok result := by
  rcases read_cases engine call answer with struck | passed
  · cases struck.symm.trans ok
  · exact passed.symm.trans ok

theorem eq_codec_of_read {cause : CodecError}
    (failed : (engine.read call answer).1 = .error (.codec cause)) :
    answer = .error (.codec cause) := by
  rcases read_cases engine call answer with struck | passed
  · cases struck.symm.trans failed
  · exact passed.symm.trans failed

/-- A call that changes a transaction does so, or it was struck and has changed nothing. The
registry stays as it is in both cases. -/
theorem alter_cases (engine : Engine) (call : EngineCall) (transaction : Transaction)
    (change : Transaction → Except EngineError α × Transaction) :
    ∃ after, after.registry = engine.registry ∧
      (engine.alter call transaction change = (.error .closed, transaction, after) ∨
        engine.alter call transaction change =
          ((change transaction).1, (change transaction).2, after)) := by
  refine ⟨(engine.strike call).2, rfl, ?_⟩
  dsimp only [alter]
  split
  · exact .inl rfl
  · exact .inr rfl

end

/-! ### The engine's calls -/

/-- Begins a transaction that reads. -/
def beginRead (engine : Engine) (handle : HandleId) : Except EngineError Transaction × Engine :=
  engine.read .begin (engine.registry.beginRead handle)

/-- Begins a transaction that writes. A call that has to wait counts as well. -/
def beginWrite (engine : Engine) (handle : HandleId) :
    Outcome EngineError Transaction × Engine :=
  let (struck, engine) := engine.strike .begin
  if struck then (.failed .closed, engine)
  else
    let (outcome, registry) := engine.registry.beginWrite handle
    (outcome, { engine with registry })

/-- Scans the index on a field of a table. -/
def scanIndex (engine : Engine) (transaction : Transaction) (table field : String)
    (range : KeyRange) : Except EngineError (List Row) × Engine :=
  engine.read .scanIndex (transaction.scanIndex table field range)

/-- Scans a table by primary key. -/
def scanPrimary (engine : Engine) (transaction : Transaction) (table : String)
    (range : Option KeyRange) : Except EngineError (List Row) × Engine :=
  engine.read .scanPrimary (transaction.scanPrimary table range)

/-- Writes a row. -/
def write (engine : Engine) (transaction : Transaction) (table : String) (row : Row)
    (mode : WriteMode) : Except EngineError Value × Transaction × Engine :=
  engine.alter .write transaction fun transaction => transaction.write table row mode

/-- Deletes a row. -/
def delete (engine : Engine) (transaction : Transaction) (table : String) (key : Value) :
    Except EngineError Unit × Transaction × Engine :=
  engine.alter .delete transaction fun transaction => transaction.delete table key

/-- Ends a transaction without effect. -/
def discard (engine : Engine) (transaction : Transaction) : Engine :=
  { engine with registry := engine.registry.discard transaction }

/-- Ends a transaction and publishes its data. A commit that is struck has no effect. -/
def commit (engine : Engine) (transaction : Transaction) : Except EngineError Unit × Engine :=
  let (struck, engine) := engine.strike .commit
  if struck then (.error .closed, engine.discard transaction)
  else
    let (result, registry) := engine.registry.commit transaction
    (result, { engine with registry })

end Engine

end IndexedStore
