import Coordinator.Backend
import Coordinator.Retry.Dialect
import Coordinator.Retry.Policy
import Coordinator.Retry.Version

/-! # Retry managers

A `Manager` runs a unit of work as one transaction on a backend that resolves conflicts by having
clients try again.  Each attempt has a connection of its own: start, perhaps a priority, the work,
commit; after any failure past the start, one rollback.  A conflict leads to another attempt after
the policy's delay, as long as the policy allows; every other fault is the caller's. -/
namespace Coordinator.Retry

/-- Runs units of work as retried transactions. -/
structure Manager where
  name : Bytes
  dialect : Dialect
  policy : Policy
deriving DecidableEq, Repr

/-- A unit of work, given its connection and the number of the attempt, the first being 1. -/
abbrev Work (σ κ : Type) := κ → UInt32 → Action σ Unit

namespace Manager

variable {σ κ : Type}

/-- A policy whose cap is below its first delay is refused. -/
def new (name : Bytes) (dialect : Dialect) (policy : Policy) : Except Fault Manager :=
  if policy.maxBackoff < policy.baseBackoff then
    .error (.of .invalidArgument
      [ascii "retry manager '", name, ascii "': max_backoff is below base_backoff"])
  else .ok ⟨name, dialect, policy⟩

/-- The field that names the manager in every record. -/
def field (m : Manager) : Journal.Field := .ofText (ascii "manager") m.name

/-- The record about a rollback that failed. -/
def rollbackFailedRecord (m : Manager) (f : Fault) : Journal.Record :=
  ⟨.warn, ascii "Rollback after failed attempt failed",
    [m.field, .ofText (ascii "error") f.message]⟩

/-- The part of an attempt between start and end of the transaction. -/
def body (m : Manager) (g : Gateway σ κ) (priority : Option Priority) (work : Work σ κ)
    (number : UInt32) (c : κ) : Action σ Unit := do
  if let some p := priority then
    g.execute c (← .ofExcept (m.dialect.priority p))
  work c number
  g.execute c m.dialect.commit

/-- Rolls back after a failure.  If that fails too, the state of the transaction is unknown, and
the connection is not lent again. -/
def undo (m : Manager) (g : Gateway σ κ) (c : κ) (s : σ) : σ :=
  match (g.execute c m.dialect.rollback).run s with
  | (.ok (), t) => t
  | (.error f, t) => g.log (m.rollbackFailedRecord f) (g.poison c t)

/-- One attempt. -/
def try_ (m : Manager) (g : Gateway σ κ) (priority : Option Priority) (work : Work σ κ)
    (number : UInt32) : Action σ Unit :=
  g.withConnection fun c => do
    g.execute c m.dialect.start
    (m.body g priority work number c).onFailure fun _ => m.undo g c

def committedRecord (m : Manager) (attempts : UInt32) : Journal.Record :=
  ⟨.info, ascii "Transaction committed after retries",
    [m.field, .ofInt (ascii "attempts") attempts.toNat]⟩

def exhaustedRecord (m : Manager) (attempts : UInt32) (f : Fault) : Journal.Record :=
  ⟨.warn, ascii "Retry budget exhausted",
    [m.field, .ofInt (ascii "attempts") attempts.toNat, .ofText (ascii "error") f.message]⟩

def backingOffRecord (m : Manager) (attempt : UInt32) (delay : Int64) (f : Fault) :
    Journal.Record :=
  ⟨.info, ascii "Retryable conflict; backing off",
    [m.field, .ofInt (ascii "attempt") attempt.toNat, .ofInt (ascii "backoff_ms") delay.toInt,
      .ofText (ascii "error") f.message]⟩

/-- The fault after the last attempt of a transaction that still conflicts. -/
def exhaustedFault (attempts : UInt32) (f : Fault) : Fault :=
  .of (.exhausted attempts) [ascii "transaction still conflicting after ",
    Decimal.ofNat attempts.toNat, ascii " attempts: ", f.message]

/-- One attempt and what follows from it: nothing more if it committed, or else, after a pause,
the number of the next attempt. -/
def round (m : Manager) (g : Gateway σ κ) (sleep : Int64 → Action σ Unit)
    (priority : Option Priority) (work : Work σ κ) (number : UInt32) :
    Action σ (Option UInt32) := do
  match ← (m.try_ g priority work number).attempt with
  | .ok () =>
    if 1 < number then .update (g.log (m.committedRecord number))
    return none
  | .error f =>
    if f.kind ≠ .conflict then .fail f
    else if m.policy.maxRetries < number then
      .update (g.log (m.exhaustedRecord number f))
      .fail (exhaustedFault number f)
    else
      let delay := m.policy.backoff number
      .update (g.log (m.backingOffRecord number delay f))
      sleep delay
      return some (number + 1)

/-- Rounds until one is the last, but no more than `bound`; tells whether the transaction is
committed.  Attempts are numbered in 32-bit words. -/
def rounds (m : Manager) (g : Gateway σ κ) (sleep : Int64 → Action σ Unit)
    (priority : Option Priority) (work : Work σ κ) : (bound : Nat) → UInt32 → Action σ Bool
  | 0, _ => return false
  | bound + 1, number => do
    match ← m.round g sleep priority work number with
    | none => return true
    | some next => m.rounds g sleep priority work bound next

/-- Runs a unit of work, with a priority where one is given and the backend has priorities.  The
bound on the attempts is above the budget of every policy but the largest. -/
def execute (m : Manager) (g : Gateway σ κ) (sleep : Int64 → Action σ Unit)
    (priority : Option Priority) (work : Work σ κ) : Action σ Bool := do
  if priority.isSome && !m.dialect.supportsPriority then
    .fail (.of .unsupported [m.dialect.name, ascii " does not support transaction priorities"])
  m.rounds g sleep priority work UInt32.size 1

end Manager

/-! ## Clusters -/

/-- What a backend tells about itself. -/
structure ClusterInfo where
  /-- The version in short, with a leading `v`. -/
  version : Bytes
  serverVersion : Bytes
  regions : List Bytes
deriving DecidableEq, Repr

/-- The text of the first cell of a result, which must be there. -/
def firstCell (query : Bytes) (rows : Sql.Rows) : Except Fault Bytes :=
  let missing : Fault := .of .fatal [query, ascii " returned no row"]
  match rows with
  | [] => .error missing
  | row :: _ => do
    match ← (row.cell 0).mapError Sql.Row.CellFault.fault with
    | none => throw missing
    | some text => return text

/-- Asks a backend about itself; `query` sends a statement and returns its rows. -/
def ClusterInfo.read {σ : Type} (d : Dialect) (query : Bytes → Action σ Sql.Rows) :
    Action σ ClusterInfo := do
  let serverVersion ← .ofExcept (firstCell d.versionQuery (← query d.versionQuery))
  let regions ← match d with
    | .sqlite => pure []
    | .cockroach => do
      let rows ← query (ascii "SHOW REGIONS")
      pure (rows.filterMap fun row => row.head?.join)
  return ⟨Version.normalize serverVersion, serverVersion, regions⟩

/-- What the backend of a manager tells about itself. -/
def Manager.clusterInfo {σ κ : Type} (m : Manager) (g : Gateway σ κ) : Action σ ClusterInfo :=
  g.withConnection fun c => ClusterInfo.read m.dialect fun sql => g.query c sql []

end Coordinator.Retry
