import Coordinator.Client.Script
import Coordinator.ErrorClass
import Coordinator.Backend

/-! # PostgreSQL connections

A `Postgres` is a connection to a PostgreSQL server through its client library, here a scripted
one that keeps a list of the calls made to it.  The library reports failures by kind; only a
broken connection closes. -/
namespace Coordinator.Client

namespace Postgres

/-- A call to the library. -/
inductive Call
  | connect (uri : Bytes)
  | execute (sql : Bytes)
  | executeBound (sql : Bytes) (params : List Sql.Param)
  | close
deriving DecidableEq, Repr

/-- The kinds of failures of the library. -/
inductive FailureKind
  | broken
  /-- The server refused a statement with a SQLSTATE. -/
  | sql (sqlstate : Bytes)
  /-- Whether the statement had an effect is not known. -/
  | inDoubt
  | failure
  /-- The library was used in a wrong way. -/
  | usage
deriving DecidableEq, Repr

/-- A failure of the library. -/
structure Failure where
  kind : FailureKind
  text : Bytes := ascii "pg failure"
deriving DecidableEq, Repr

/-- How the library answers to a statement. -/
structure Reply where
  failure : Option Failure := none
  rows : Sql.Rows := []
deriving DecidableEq, Repr

end Postgres

/-- A connection to a PostgreSQL server. -/
structure Postgres where
  /-- How opening a connection fails. -/
  opening : Option Postgres.Failure := none
  script : Script Postgres.Reply := []
  connected : Bool := false
  poisoned : Bool := false
  /-- The calls made to the library, in order. -/
  calls : List Postgres.Call := []

namespace Postgres

/-- Makes a call to the library. -/
def call (c : Call) : Action Postgres Unit := .update fun s => { s with calls := s.calls ++ [c] }

/-- The fault of a connection that cannot be opened. -/
def Failure.connectFault (f : Failure) : Fault :=
  match f.kind with
  | .usage => .of .logic [f.text]
  | _ => .of .connection [ascii "postgres connect: ", f.text.untilNul]

/-- The fault of a statement that fails. -/
def Failure.statementFault (f : Failure) : Fault :=
  let text := f.text.untilNul
  match f.kind with
  | .broken => .of .connection [ascii "postgres: ", text]
  | .sql sqlstate =>
    (ErrorClass.ofSqlState sqlstate).fault
      (ascii "postgres [" ++ sqlstate ++ ascii "]: " ++ text)
  | .inDoubt => .of .connection [ascii "postgres outcome in doubt: ", text]
  | .failure => .of .fatal [ascii "postgres: ", text]
  | .usage => .of .fatal [ascii "postgres usage: ", text]

/-- Connects to a server. -/
def connect (uri : Bytes) : Action Postgres Unit := do
  call (.connect uri)
  match ← .read Postgres.opening with
  | some f => .fail f.connectFault
  | none => .update fun s => { s with connected := true }

def close (s : Postgres) : Postgres := { s with connected := false, calls := s.calls ++ [.close] }

/-- Takes the reply to a statement from the script. -/
def reply (sql : Bytes) : Action Postgres Reply := fun s =>
  let (r, script) := s.script.answer sql
  (.ok (r.getD {}), { s with script })

/-- Sends a statement with parameters. -/
def query (sql : Bytes) (params : List Sql.Param) : Action Postgres Sql.Rows := do
  call (if params.isEmpty then .execute sql else .executeBound sql params)
  let r ← reply sql
  match r.failure with
  | none => return r.rows
  | some f =>
    if f.kind = .broken then .update fun s => { s with connected := false }
    .fail f.statementFault

/-- The server as a backend of one connection. -/
def backend (uri : Bytes) : Backend Postgres Unit where
  connect := connect uri
  close _ := close
  isHealthy _ s := s.connected
  isPoisoned _ s := s.poisoned
  poison _ s := { s with poisoned := true }
  execute _ sql := do
    let _ ← query sql []
  query _ := query
  placeholders := .dollarNumbered

end Postgres
end Coordinator.Client
