import Coordinator.Xa.State
import Coordinator.Xa.Xid

/-! # Dialects of the two-phase protocol

A `Dialect` is the set of statements with which one kind of backend runs the protocol.  MySQL has
a statement for each step.  On PostgreSQL a branch is an ordinary transaction until
`PREPARE TRANSACTION` detaches it under the xid.  The strict dialect speaks like MySQL to a server
that cannot roll a branch back before it is prepared. -/
namespace Coordinator.Xa

/-- A kind of backend, by the statements it takes. -/
inductive Dialect
  | mysql
  | postgres
  | strict
deriving DecidableEq, Repr

namespace Dialect

def name : Dialect → Bytes
  | mysql => ascii "mysql"
  | postgres => ascii "postgres"
  | strict => ascii "strict"

/-- Whether a started or ended branch can be rolled back. -/
def allowsEarlyRollback : Dialect → Bool
  | strict => false
  | _ => true

/-- The literal of an xid. -/
def quote : Dialect → Bytes → Except Xid.QuoteFault Bytes
  | postgres => Xid.quotePostgres
  | _ => Xid.quoteMysql

/-- The statement that starts a branch.  On PostgreSQL it does not carry the xid, but an xid that
could not be prepared later is refused here already. -/
def start (d : Dialect) (xid : Bytes) : Except Xid.QuoteFault Bytes := do
  let literal ← d.quote xid
  match d with
  | postgres => return ascii "BEGIN"
  | _ => return ascii "XA START " ++ literal

/-- The statement that ends the work of a branch; empty where there is none to send. -/
def finish (d : Dialect) (xid : Bytes) : Except Xid.QuoteFault Bytes :=
  match d with
  | postgres => return []
  | _ => return ascii "XA END " ++ (← d.quote xid)

/-- The statement that prepares a branch. -/
def prepare (d : Dialect) (xid : Bytes) : Except Xid.QuoteFault Bytes := do
  let literal ← d.quote xid
  match d with
  | postgres => return ascii "PREPARE TRANSACTION " ++ literal
  | _ => return ascii "XA PREPARE " ++ literal

/-- The statement that commits a prepared branch. -/
def commit (d : Dialect) (xid : Bytes) : Except Xid.QuoteFault Bytes := do
  let literal ← d.quote xid
  match d with
  | postgres => return ascii "COMMIT PREPARED " ++ literal
  | _ => return ascii "XA COMMIT " ++ literal

/-- The statement that commits an ended branch without preparing it. -/
def commitOnePhase (d : Dialect) (xid : Bytes) : Except Xid.QuoteFault Bytes :=
  match d with
  | postgres => return ascii "COMMIT"
  | _ => return ascii "XA COMMIT " ++ (← d.quote xid) ++ ascii " ONE PHASE"

/-- The statements that roll back a branch in a given state, in order.  MySQL must end an active
branch first; PostgreSQL has a different statement once the branch is prepared. -/
def rollback (d : Dialect) (xid : Bytes) (state : State) : Except Xid.QuoteFault (List Bytes) :=
  match d with
  | postgres =>
    if state = .prepared then return [ascii "ROLLBACK PREPARED " ++ (← d.quote xid)]
    else return [ascii "ROLLBACK"]
  | _ => do
    let last := ascii "XA ROLLBACK " ++ (← d.quote xid)
    if state = .started then return [← d.finish xid, last] else return [last]

/-- The query for prepared branches: format id, lengths of both parts of the xid, and its bytes. -/
def recover : Dialect → Bytes
  | postgres => ascii "SELECT 0, octet_length(gid), 0, gid FROM pg_prepared_xacts " ++
      ascii "WHERE database = current_database() ORDER BY prepared"
  | _ => ascii "XA RECOVER"

end Dialect
end Coordinator.Xa
