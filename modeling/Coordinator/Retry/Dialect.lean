import Coordinator.Retry.AsOf

/-! # Dialects of optimistic backends

A `Retry.Dialect` supplies the statements around a unit of work and the optional features of its
kind of backend.  SQLite takes the write lock at once, so that contention shows at the start. -/
namespace Coordinator.Retry

/-- How urgent a transaction is to the backend. -/
inductive Priority
  | low
  | normal
  | high
deriving DecidableEq, Repr

namespace Priority

def name : Priority → Bytes
  | low => ascii "LOW"
  | normal => ascii "NORMAL"
  | high => ascii "HIGH"

/-- The priority with a given number; a number without one means the normal priority. -/
def ofNumber : Int → Priority
  | 0 => low
  | 2 => high
  | _ => normal

/-- A text that names no priority. -/
structure Unknown where
  text : Bytes
deriving DecidableEq, Repr

def Unknown.fault (u : Unknown) : Fault :=
  .of .invalidArgument [ascii "unknown transaction priority: ", u.text]

/-- The priority that a text names, in any case. -/
def ofText (text : Bytes) : Except Unknown Priority :=
  if text.toUpper = ascii "LOW" then .ok low
  else if text.toUpper = ascii "NORMAL" then .ok normal
  else if text.toUpper = ascii "HIGH" then .ok high
  else .error ⟨text⟩

end Priority

/-- A kind of backend whose transactions are retried on conflict. -/
inductive Dialect
  | cockroach
  | sqlite
deriving DecidableEq, Repr

namespace Dialect

def name : Dialect → Bytes
  | cockroach => ascii "cockroach"
  | sqlite => ascii "sqlite"

/-- The statement that starts a transaction. -/
def start : Dialect → Bytes
  | cockroach => ascii "BEGIN"
  | sqlite => ascii "BEGIN IMMEDIATE"

def commit (_ : Dialect) : Bytes := ascii "COMMIT"

def rollback (_ : Dialect) : Bytes := ascii "ROLLBACK"

def supportsPriority : Dialect → Bool
  | cockroach => true
  | sqlite => false

/-- The statement that sets the priority of the transaction just started. -/
def priority (d : Dialect) (p : Priority) : Except Fault Bytes :=
  match d with
  | cockroach => .ok (ascii "SET TRANSACTION PRIORITY " ++ p.name)
  | sqlite => .error (.of .unsupported [ascii "sqlite has no transaction priorities"])

/-- A query of the past. -/
def asOf (d : Dialect) (query interval : Bytes) : Except Fault Bytes :=
  match d with
  | cockroach => (AsOf.addClause query interval).mapError AsOf.ClauseFault.fault
  | sqlite =>
    .error (.of .unsupported [ascii "sqlite has no historical reads (AS OF SYSTEM TIME)"])

/-- The query for the version of the server. -/
def versionQuery : Dialect → Bytes
  | cockroach => ascii "SELECT version()"
  | sqlite => ascii "SELECT sqlite_version()"

end Dialect
end Coordinator.Retry
