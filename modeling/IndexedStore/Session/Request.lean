/-
This file lists what may be asked for in a session, and how it is answered. A session
gives names to its connections, and to the handles and transactions with which it
works on the storage engine itself; requests refer to them by these names.
-/

import IndexedStore.Connection.Mutation
import IndexedStore.Query.Source

namespace IndexedStore

/-- One thing to do in a session. -/
inductive Request where
  -- Stores
  | version (store : String)
  | storeNames
  | deleteStore (store : String)
  -- Connections
  | openConnection (connection database : String) (tables : List TableDeclaration)
      (config : Config)
  | closeConnection (connection : String)
  | dropConnection (connection : String)
  | describe (connection : String)
  | select (connection table : String) (query : QuerySource)
  | count (connection table : String) (query : QuerySource)
  | delete (connection table : String) (query : QuerySource)
  | add (connection table : String) (row : Row) (mode : WriteMode)
  | addMany (connection table : String) (rows : List Row) (mode : WriteMode)
  /-- One call of a kind is struck, after the given number of calls that pass. -/
  | armFault (call : EngineCall) (skip : Nat)
  -- Handles
  | openHandle (handle store : String) (version : Nat) (upgrade : List UpgradeStep)
  | closeHandle (handle : String)
  | dropHandle (handle : String)
  -- Transactions
  | begin (transaction handle : String) (mode : TransactionMode)
  | scanIndex (transaction table field : String) (range : KeyRange)
  | scanPrimary (transaction table : String) (range : Option KeyRange)
  | write (transaction table : String) (row : Row) (mode : WriteMode)
  | deleteKey (transaction table : String) (key : Value)
  | commit (transaction : String)
  | rollback (transaction : String)

/-- What a request gives when it succeeds. -/
inductive Answer where
  | done
  | flag (flag : Bool)
  | version (version : Option Nat)
  | names (names : List String)
  | rows (rows : List Row)
  | number (number : Nat)
  | key (key : Value)
  | keys (keys : List Value)
  /-- The store behind a new handle. -/
  | store (name : String) (version : Nat)
  /-- The state of a connection and its schema. -/
  | description (isOpen : Bool) (config : Config) (database : DatabaseSchema)

/-- The kinds of things that a session gives names to. -/
inductive NamedThing where
  | connection
  | handle
  | transaction
deriving DecidableEq

/-- Why a request fails. -/
inductive RequestFailure where
  /-- Nothing of that kind has the name. -/
  | unknown (kind : NamedThing)
  | rejected (cause : QueryRejection)
  | database (cause : DatabaseError)
  | engine (cause : EngineError)
  /-- It would have to wait for a writer, and was given up. -/
  | waiting

/-- All that a request reports. -/
structure Report where
  /-- The answer or the failure. -/
  outcome : Except RequestFailure Answer
  /-- The warnings that came up, in order. -/
  warnings : List Warning := []
  /-- What the upgrade answered, if one was run. -/
  upgrade : Option UpgradeLog := none

namespace Report

/-- The report of a success. -/
def answer (answer : Answer) : Report := { outcome := .ok answer }

/-- The report of a failure. -/
def failure (cause : RequestFailure) : Report := { outcome := .error cause }

/-- The report of work that may have to wait, given what its failures mean. -/
def ofOutcome {ε α : Type} (wrap : ε → RequestFailure) (outcome : Outcome ε α)
    (answer : α → Answer) : Report :=
  match outcome with
  | .done result => Report.answer (answer result)
  | .failed cause => failure (wrap cause)
  | .waiting => failure .waiting

/-- The report of work that never waits, given what its failures mean. -/
def ofExcept {ε α : Type} (wrap : ε → RequestFailure) (result : Except ε α)
    (answer : α → Answer) : Report :=
  ofOutcome wrap (.ofExcept result) answer

end Report

end IndexedStore
