/-
This file says how steps that may fail succeed and fail together. A proof about an
operation takes its steps apart with these facts, one by one, and does not open the
operation again.
-/

import IndexedStore.Storage.Error

namespace IndexedStore

variable {ε δ α β : Type} {cause : ε} {failure : δ}

@[simp]
theorem ok_bind {result : α} {next : α → Except ε β} :
    (Except.ok result >>= next) = next result := rfl

@[simp]
theorem error_bind {next : α → Except ε β} :
    ((Except.error cause : Except ε α) >>= next) = .error cause := rfl

@[simp]
theorem map_ok {result : α} {next : α → β} :
    (Except.ok result : Except ε α).map next = .ok (next result) := rfl

@[simp]
theorem map_error {next : α → β} :
    (Except.error cause : Except ε α).map next = .error cause := rfl

@[simp]
theorem mapError_ok {result : α} {named : ε → δ} :
    (Except.ok result).mapError named = .ok result := rfl

@[simp]
theorem mapError_error {named : ε → δ} :
    (Except.error cause : Except ε α).mapError named = .error (named cause) := rfl

/-- Steps that succeed together succeed one by one. -/
theorem exists_of_bind_eq_ok {first : Except ε α} {next : α → Except ε β} {result : β}
    (ok : (first >>= next) = .ok result) :
    ∃ middle, first = .ok middle ∧ next middle = .ok result := by
  cases first with
  | error cause => cases ok
  | ok middle => exact ⟨middle, rfl, ok⟩

/-- Steps that fail together fail at the first or after it. -/
theorem eq_error_of_bind {first : Except ε α} {next : α → Except ε β}
    (failed : (first >>= next) = .error cause) :
    first = .error cause ∨ ∃ middle, first = .ok middle ∧ next middle = .error cause := by
  cases first with
  | error other => exact .inl (congrArg Except.error (Except.error.inj failed))
  | ok middle => exact .inr ⟨middle, rfl, failed⟩

theorem exists_of_map_eq_ok {found : Except ε α} {next : α → β} {result : β}
    (ok : found.map next = .ok result) :
    ∃ middle, found = .ok middle ∧ result = next middle := by
  cases found with
  | error cause => cases ok
  | ok middle => exact ⟨middle, rfl, (Except.ok.inj ok).symm⟩

theorem eq_error_of_map {found : Except ε α} {next : α → β}
    (failed : found.map next = .error cause) : found = .error cause := by
  cases found with
  | error other => exact congrArg Except.error (Except.error.inj failed)
  | ok middle => cases failed

/-! ### Named failures -/

theorem eq_ok_of_mapError {found : Except ε α} {named : ε → δ} {result : α}
    (ok : found.mapError named = .ok result) : found = .ok result := by
  cases found with
  | error cause => cases ok
  | ok other => exact congrArg Except.ok (Except.ok.inj ok)

theorem exists_of_mapError_eq_error {found : Except ε α} {named : ε → δ}
    (failed : found.mapError named = .error failure) :
    ∃ cause, found = .error cause ∧ failure = named cause := by
  cases found with
  | error cause => exact ⟨cause, rfl, (Except.error.inj failed).symm⟩
  | ok result => cases failed

namespace EngineError

variable {found : Except CodecError α}

@[simp]
theorem ofCodec_ok {result : α} : ofCodec (.ok result) = .ok result := rfl

@[simp]
theorem ofCodec_error {cause : CodecError} :
    ofCodec (.error cause : Except CodecError α) = .error (codec cause) := rfl

theorem eq_ok_of_ofCodec {result : α} (ok : ofCodec found = .ok result) : found = .ok result :=
  eq_ok_of_mapError ok

theorem eq_error_of_ofCodec {cause : CodecError}
    (failed : ofCodec found = .error (codec cause)) : found = .error cause := by
  obtain ⟨other, stopped, same⟩ := exists_of_mapError_eq_error failed
  cases same
  exact stopped

end EngineError

end IndexedStore
