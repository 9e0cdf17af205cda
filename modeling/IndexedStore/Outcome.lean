/-
This file defines how work ends that may have to wait for a writer: it is done, it has
failed, or it was given up because it would have to wait.
-/

namespace IndexedStore

/-- The end of work that may have to wait. -/
inductive Outcome (ε α : Type) where
  | done (result : α)
  | failed (cause : ε)
  /-- It would have to wait for a writer, and was given up. -/
  | waiting

namespace Outcome

variable {ε ε' α β : Type}

/-- The end of work that never waits. -/
@[simp]
def ofExcept : Except ε α → Outcome ε α
  | .ok result => done result
  | .error cause => failed cause

/-- Changes the result. -/
@[simp]
def map (change : α → β) : Outcome ε α → Outcome ε β
  | done result => done (change result)
  | failed cause => failed cause
  | waiting => waiting

/-- Changes the failure. -/
@[simp]
def mapFailure (change : ε → ε') : Outcome ε α → Outcome ε' α
  | done result => done result
  | failed cause => failed (change cause)
  | waiting => waiting

/-- The result, if there is one. -/
@[simp]
def result? : Outcome ε α → Option α
  | done result => some result
  | _ => none

/-- Whether the work was given up. -/
@[simp]
def isWaiting : Outcome ε α → Bool
  | waiting => true
  | _ => false

/-- The results of several pieces of work. -/
def results (outcomes : List (Outcome ε α)) : List α := outcomes.filterMap result?

/-- The failures of several pieces of work, with their positions from `start` on. -/
def failures : Nat → List (Outcome ε α) → List (Nat × ε)
  | _, [] => []
  | start, failed cause :: rest => (start, cause) :: failures (start + 1) rest
  | start, _ :: rest => failures (start + 1) rest

end Outcome

end IndexedStore
