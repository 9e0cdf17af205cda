/-
This file runs sessions. Whatever is opened or begun under a name that is in use takes
the place of what had the name, but only once it has succeeded: the old connection or
handle is closed then, and the old transaction is discarded. Dropping does the same
without a successor.
-/

import IndexedStore.Session.Request

namespace IndexedStore

/-- The state of a session. -/
structure Session where
  /-- The storage engine as connections see it. -/
  engine : Engine := {}
  /-- The connections with their names. -/
  connections : List (String × Connection) := []
  /-- The handles with their names. -/
  handles : List (String × HandleId) := []
  /-- The transactions with their names. -/
  transactions : List (String × Transaction) := []

namespace Session

/-- The stores of the session. -/
def registry (session : Session) : Registry := session.engine.registry

/-- Changes the engine. -/
def withEngine (session : Session) (engine : Engine) : Session := { session with engine }

/-- Changes the stores. -/
def withRegistry (session : Session) (registry : Registry) : Session :=
  session.withEngine { session.engine with registry }

/-! ### Names -/

/-- Uses the connection of a name. -/
def useConnection (session : Session) (name : String) (use : Connection → Report × Session) :
    Report × Session :=
  match session.connections.lookup name with
  | some connection => use connection
  | none => (.failure (.unknown .connection), session)

/-- Uses the handle of a name. -/
def useHandle (session : Session) (name : String) (use : HandleId → Report × Session) :
    Report × Session :=
  match session.handles.lookup name with
  | some handle => use handle
  | none => (.failure (.unknown .handle), session)

/-- Uses the transaction of a name. -/
def useTransaction (session : Session) (name : String)
    (use : Transaction → Report × Session) : Report × Session :=
  match session.transactions.lookup name with
  | some transaction => use transaction
  | none => (.failure (.unknown .transaction), session)

/-- Uses the connection of a name and a query. -/
def useQuery (session : Session) (name : String) (source : QuerySource)
    (use : Connection → Query → Report × Session) : Report × Session :=
  session.useConnection name fun connection =>
    match source.read with
    | .ok query => use connection query
    | .error cause => (.failure (.rejected cause), session)

/-- Drops a connection, which closes it, and says whether it was there. -/
def dropConnection (session : Session) (name : String) : Bool × Session :=
  match session.connections.lookup name with
  | some connection =>
    let (_, engine) := connection.close session.engine
    (true, { session with engine, connections := unassign name session.connections })
  | none => (false, session)

/-- Drops a handle, which closes it, and says whether it was there. -/
def dropHandle (session : Session) (name : String) : Bool × Session :=
  match session.handles.lookup name with
  | some handle =>
    (true, { session.withRegistry (session.registry.close handle) with
      handles := unassign name session.handles })
  | none => (false, session)

/-- Drops a transaction, which discards it, and says whether it was there. -/
def dropTransaction (session : Session) (name : String) : Bool × Session :=
  match session.transactions.lookup name with
  | some transaction =>
    (true, { session.withRegistry (session.registry.discard transaction) with
      transactions := unassign name session.transactions })
  | none => (false, session)

/-! ### Opening -/

/-- Opens a connection under a name. -/
def openConnection (session : Session) (name database : String)
    (tables : List TableDeclaration) (config : Config) : Report × Session :=
  match DatabaseSchema.declare database tables with
  | (.error cause, warnings) =>
    ({ Report.failure (.database (.configuration cause)) with warnings }, session)
  | (.ok schema, warnings) =>
    let (reply, more, engine) := Connection.openStore session.engine schema config
    let warnings := warnings ++ more
    let report := { Report.ofOutcome .database reply (fun _ => .done) with warnings }
    let session := session.withEngine engine
    match reply with
    | .done connection =>
      let (_, session) := session.dropConnection name
      (report, { session with connections := assign name connection session.connections })
    | _ => (report, session)

/-- Opens a handle under a name. -/
def openHandle (session : Session) (name store : String) (version : Nat)
    (steps : List UpgradeStep) : Report × Session :=
  let (outcome, upgrade, registry) :=
    session.registry.openStore store version (Upgrade.ofSteps steps)
  let report := { Report.ofOutcome .engine outcome (fun _ => .store store version) with upgrade }
  let session := session.withRegistry registry
  match outcome with
  | .done handle =>
    let (_, session) := session.dropHandle name
    (report, { session with handles := assign name handle session.handles })
  | _ => (report, session)

/-- Begins a transaction under a name. -/
def begin (session : Session) (name : String) (handle : HandleId) (mode : TransactionMode) :
    Report × Session :=
  let (outcome, registry) := session.registry.begin handle mode
  let report := Report.ofOutcome .engine outcome fun _ => .done
  let session := session.withRegistry registry
  match outcome with
  | .done transaction =>
    let (_, session) := session.dropTransaction name
    (report, { session with transactions := assign name transaction session.transactions })
  | _ => (report, session)

/-! ### Running -/

/-- Keeps what a transaction has become. -/
def withTransaction (session : Session) (name : String) (transaction : Transaction) : Session :=
  { session with transactions := assign name transaction session.transactions }

/-- Answers one request. -/
def answer (session : Session) : Request → Report × Session
  | .version store => (.answer (.version (session.registry.version? store)), session)
  | .storeNames => (.answer (.names session.registry.storeNames), session)
  | .deleteStore store =>
    let (result, registry) := session.registry.deleteStore store
    (.ofExcept .engine result fun _ => .done, session.withRegistry registry)
  | .openConnection name database tables config =>
    session.openConnection name database tables config
  | .closeConnection name =>
    session.useConnection name fun connection =>
      let (connection, engine) := connection.close session.engine
      (.answer (.flag connection.isOpen), { session with
        engine, connections := assign name connection session.connections })
  | .dropConnection name =>
    let (present, session) := session.dropConnection name
    (.answer (.flag present), session)
  | .describe name =>
    session.useConnection name fun connection =>
      (.answer (.description connection.isOpen connection.config connection.database), session)
  | .select name table source =>
    session.useQuery name source fun connection query =>
      let (result, engine) := connection.select session.engine table query
      (.ofExcept .database result .rows, session.withEngine engine)
  | .count name table source =>
    session.useQuery name source fun connection query =>
      let (result, engine) := connection.count session.engine table query
      (.ofExcept .database result .number, session.withEngine engine)
  | .delete name table source =>
    session.useQuery name source fun connection query =>
      let (reply, warnings, engine) := connection.delete session.engine table query .inOrder
      ({ Report.ofOutcome .database reply .number with warnings }, session.withEngine engine)
  | .add name table row mode =>
    session.useConnection name fun connection =>
      let (reply, engine) := connection.add session.engine table row mode
      (.ofOutcome .database reply .key, session.withEngine engine)
  | .addMany name table rows mode =>
    session.useConnection name fun connection =>
      let (reply, engine) := connection.addMany session.engine table rows mode .inOrder
      (.ofOutcome .database reply .keys, session.withEngine engine)
  | .armFault call skip =>
    let engine := { session.engine with faults := session.engine.faults.arm call skip }
    (.answer .done, session.withEngine engine)
  | .openHandle name store version steps => session.openHandle name store version steps
  | .closeHandle name =>
    session.useHandle name fun handle =>
      (.answer .done, session.withRegistry (session.registry.close handle))
  | .dropHandle name =>
    let (present, session) := session.dropHandle name
    (.answer (.flag present), session)
  | .begin name handle mode =>
    session.useHandle handle fun handle => session.begin name handle mode
  | .scanIndex name table field range =>
    session.useTransaction name fun transaction =>
      (.ofExcept .engine (transaction.scanIndex table field range) .rows, session)
  | .scanPrimary name table range =>
    session.useTransaction name fun transaction =>
      (.ofExcept .engine (transaction.scanPrimary table range) .rows, session)
  | .write name table row mode =>
    session.useTransaction name fun transaction =>
      let (result, transaction) := transaction.write table row mode
      (.ofExcept .engine result .key, session.withTransaction name transaction)
  | .deleteKey name table key =>
    session.useTransaction name fun transaction =>
      let (result, transaction) := transaction.delete table key
      (.ofExcept .engine result fun _ => .done, session.withTransaction name transaction)
  | .commit name =>
    session.useTransaction name fun transaction =>
      let (result, registry) := session.registry.commit transaction
      (.ofExcept .engine result fun _ => .done, { session.withRegistry registry with
        transactions := unassign name session.transactions })
  | .rollback name =>
    let (present, session) := session.dropTransaction name
    (.answer (.flag present), session)

/-- Answers requests one after the other. -/
def run (session : Session) : List Request → List Report
  | [] => []
  | request :: rest =>
    let (report, session) := session.answer request
    report :: session.run rest

end Session

end IndexedStore
