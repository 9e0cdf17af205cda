/-
This file lists the failures of the storage engine and their texts. It also says how work
on a state runs that may fail midway: what has been changed until then stays changed.
-/

import IndexedStore.Value.Canonical
import IndexedStore.Value.Display

namespace IndexedStore

/-- What is wrong with the key of a row. -/
inductive KeyProblem where
  /-- Values of this kind, or holding such values, cannot be keys. -/
  | notIndexable (typeName : String)
  /-- The row lacks its key field. -/
  | missing (field : String)

/-- Which rule of a table a write would break. -/
inductive Violation where
  /-- No key is left to be generated. -/
  | keysExhausted
  /-- A row with the key is there. -/
  | keyExists (key : Value)
  /-- Another row has the value in a unique index. -/
  | uniqueTaken (field : String) (value : Value)
  /-- Two rows have the value for which a unique index is to be made. -/
  | uniqueDuplicate (field : String) (value : Value)

/-- Why the storage engine refused an operation. -/
inductive EngineError where
  | closed
  | blocked (store : String)
  | versionMismatch (store : String) (requested current : Nat)
  | invalidVersion (version : Nat)
  | tableNotFound (table : String)
  | indexNotFound (table field : String)
  /-- What there is already, in the words of the message. -/
  | alreadyExists (what : String)
  | invalidKey (table : String) (problem : KeyProblem)
  | constraint (table : String) (violation : Violation)
  | readOnly
  | codec (cause : CodecError)

/-- The text of a problem with a key. -/
def KeyProblem.message : KeyProblem → String
  | notIndexable typeName => typeName ++ " value cannot be a key"
  | missing field => "row has no " ++ field ++ " field"

/-- The text of a violation. -/
def Violation.message : Violation → String
  | keysExhausted => "auto-increment key space exhausted"
  | keyExists key => "key " ++ key.display ++ " already exists"
  | uniqueTaken field value =>
    "unique index " ++ field ++ " already has key " ++ value.display
  | uniqueDuplicate field value =>
    "unique index " ++ field ++ " has duplicate key " ++ value.display

/-- The decimal text of a natural number. -/
def natText (n : Nat) : String := String.ofList (renderInt n)

/-- The text of a failure of the storage engine. -/
def EngineError.message : EngineError → String
  | closed => "storage engine is closed"
  | blocked store => "store " ++ store ++ " is blocked by another open connection"
  | versionMismatch store requested current =>
    "store " ++ store ++ " is at version " ++ natText current ++ ", cannot open at version " ++
      natText requested
  | invalidVersion version => "invalid store version " ++ natText version
  | tableNotFound table => "table not found: " ++ table
  | indexNotFound table field => "index " ++ field ++ " not found on table " ++ table
  | alreadyExists what => "already exists: " ++ what
  | invalidKey table problem => "invalid key for table " ++ table ++ ": " ++ problem.message
  | constraint table violation =>
    "constraint violated on table " ++ table ++ ": " ++ violation.message
  | readOnly => "transaction is read-only"
  | codec cause => "codec error: " ++ cause.message

/-- A failure of reading or writing a row is a failure of the storage engine. -/
def EngineError.ofCodec {α : Type} (result : Except CodecError α) : Except EngineError α :=
  result.mapError codec

/-! ### Work that may fail midway -/

/-- Work on a state that may fail. -/
abbrev Edit (σ α : Type) := ExceptT EngineError (StateM σ) α

/-- Runs work on a state. A failure comes with the state as it was changed until then. -/
def editing {σ α : Type} (state : σ) (edit : Edit σ α) : Except EngineError α × σ :=
  edit.run.run state

section Edit

variable {σ α β : Type} {state after : σ} {result : β} {failure : EngineError}

@[simp]
theorem editing_pure {value : α} : editing state (pure value : Edit σ α) = (.ok value, state) := rfl

@[simp]
theorem editing_throw : editing state (throw failure : Edit σ α) = (.error failure, state) := rfl

@[simp]
theorem editing_modify {change : σ → σ} :
    editing state (modify change : Edit σ PUnit) = (.ok ⟨⟩, change state) := rfl

@[simp]
theorem editing_get_bind {next : σ → Edit σ β} :
    editing state (get >>= next) = editing state (next state) := rfl

@[simp]
theorem editing_modify_bind {change : σ → σ} {next : PUnit → Edit σ β} :
    editing state (modify change >>= next) = editing (change state) (next ⟨⟩) := rfl

@[simp]
theorem editing_ok_bind {value : α} {next : α → Edit σ β} :
    editing state (liftM (Except.ok value : Except EngineError α) >>= next) =
      editing state (next value) := rfl

@[simp]
theorem editing_error_bind {next : α → Edit σ β} :
    editing state (liftM (Except.error failure : Except EngineError α) >>= next) =
      (.error failure, state) := rfl

/-- Work that reads and then goes on succeeds if both do. -/
@[simp]
theorem editing_lift_bind_eq_ok_iff {read : Except EngineError α} {next : α → Edit σ β} :
    editing state (liftM read >>= next) = (.ok result, after) ↔
      ∃ value, read = .ok value ∧ editing state (next value) = (.ok result, after) := by
  cases read <;> simp

/-- If reading fails, the state is the one before. -/
@[simp]
theorem editing_lift_bind_eq_error_iff {read : Except EngineError α} {next : α → Edit σ β} :
    editing state (liftM read >>= next) = (.error failure, after) ↔
      read = .error failure ∧ state = after ∨
        ∃ value, read = .ok value ∧ editing state (next value) = (.error failure, after) := by
  cases read <;> simp

end Edit

end IndexedStore
