import Coordinator.Session
import Coordinator.Xa.Dialect
import Coordinator.Xa.Recovered

/-! # Participants

A `Participant` drives one backend through the two-phase protocol in the backend's dialect.  Each
operation either succeeds or fails for good; nothing here is tried again.  What a session must be
like is checked before any statement is sent.  Operations that end a session consume it: whatever
becomes of them, the caller has no open session afterwards.  The other operations drive a session
in place, in the cell that holds it.  While a statement runs, others may reach that cell; what
follows the statement goes by the session that the cell holds then.

The recovery operations work on a connection of their own and need no session. -/
namespace Coordinator

/-- One backend in distributed transactions. -/
structure Participant where
  name : Bytes
  dialect : Xa.Dialect
deriving DecidableEq, Repr

namespace Participant

variable {σ κ : Type}

/-- The field that names the participant in every record. -/
def field (p : Participant) : Journal.Field := .ofText (ascii "participant") p.name

/-- The record about a step done. -/
def doneRecord (p : Participant) (level : Journal.Level) (message : String) (xid : Bytes) :
    Journal.Record :=
  ⟨level, ascii message, [p.field, .ofBytes (ascii "xid") xid]⟩

/-- The record about a statement that failed. -/
def failedRecord (p : Participant) (operation xid : Bytes) (f : Fault) : Journal.Record :=
  ⟨.warn, ascii "XA statement failed", [p.field, .ofText (ascii "op") operation,
    .ofBytes (ascii "xid") xid, .ofText (ascii "error") f.message]⟩

/-- A statement of the dialect, or the fault of an xid it cannot carry. -/
def statement {α : Type} (x : Except Xa.Xid.QuoteFault α) : Action σ α :=
  .ofExcept (x.mapError Xa.Xid.QuoteFault.fault)

/-- Sends a protocol statement and reports its failure. -/
def send (p : Participant) (g : Gateway σ κ) (c : κ) (operation xid sql : Bytes) :
    Action σ Unit :=
  (g.execute c sql).onFailure fun f => g.log (p.failedRecord operation xid f)

/-! ## Operations on sessions -/

/-- Starts a branch on a connection of its own.  The xid is checked first: one that the backend
cannot take must not cost a connection. -/
def start (p : Participant) (g : Gateway σ κ) (xid : Bytes) : Action σ (Session κ) := do
  let sql ← statement (p.dialect.start xid)
  let c ← g.acquire
  (p.send g c (ascii "begin") xid sql).onFailure fun _ s => g.release c (g.poison c s)
  .update (g.log (p.doneRecord .debug "XA branch started" xid))
  return ⟨xid, some c, .started⟩

/-- Sends a statement for a session that is driven in place; if it fails, the state of the branch
is unknown, and the session is dropped and closed. -/
def sendInPlace (p : Participant) (g : Gateway σ κ) (cell : Cell σ (Session κ)) (c : κ)
    (operation sql : Bytes) : Action σ Unit :=
  (g.execute c sql).onFailure fun f t =>
    let s := cell.get t
    s.drop g.toKeeper (cell.set s.closed (g.log (p.failedRecord operation s.xid f) t))

/-- Moves a session on, in place. -/
def moveOn (p : Participant) (g : Gateway σ κ) (cell : Cell σ (Session κ)) (state : Xa.State)
    (message : String) : Action σ Unit :=
  .update fun t =>
    g.log (p.doneRecord .debug message (cell.get t).xid) (cell.modify ({ · with state }) t)

/-- Ends the work of a started branch. -/
def finish (p : Participant) (g : Gateway σ κ) (cell : Cell σ (Session κ)) : Action σ Unit := do
  let s ← .read cell.get
  let c ← .ofExcept (s.expect .started (ascii "end"))
  let sql ← statement (p.dialect.finish s.xid)
  if sql ≠ [] then p.sendInPlace g cell c (ascii "end") sql
  p.moveOn g cell .ended "XA branch ended"

/-- Prepares an ended branch. -/
def prepare (p : Participant) (g : Gateway σ κ) (cell : Cell σ (Session κ)) : Action σ Unit := do
  let s ← .read cell.get
  let c ← .ofExcept (s.expect .ended (ascii "prepare"))
  let sql ← statement (p.dialect.prepare s.xid)
  p.sendInPlace g cell c (ascii "prepare") sql
  p.moveOn g cell .prepared "XA branch prepared"

/-- Runs an operation that consumes a session: if it fails, the session is dropped. -/
def consuming (g : Gateway σ κ) (s : Session κ) (x : Action σ Unit) : Action σ Unit :=
  x.onFailure fun _ => s.drop g.toKeeper

/-- Commits a prepared branch. -/
def commit (p : Participant) (g : Gateway σ κ) (s : Session κ) : Action σ Unit :=
  consuming g s do
    let c ← .ofExcept (s.expect .prepared (ascii "commit"))
    let sql ← statement (p.dialect.commit s.xid)
    p.send g c (ascii "commit") s.xid sql
    .update fun t => g.log (p.doneRecord .debug "XA branch committed" s.xid) (g.release c t)

/-- Commits an ended branch without preparing it. -/
def commitOnePhase (p : Participant) (g : Gateway σ κ) (s : Session κ) : Action σ Unit :=
  consuming g s do
    let c ← .ofExcept (s.expect .ended (ascii "commit_one_phase"))
    let sql ← statement (p.dialect.commitOnePhase s.xid)
    p.send g c (ascii "commit_one_phase") s.xid sql
    .update fun t =>
      g.log (p.doneRecord .debug "XA branch committed in one phase" s.xid) (g.release c t)

/-- The connection of a session that may be rolled back: one that is prepared, or, where the
dialect allows it, started or ended. -/
def expectRollback (p : Participant) (s : Session κ) : Except Fault κ :=
  match s.connection with
  | none => .error (.of .invalidState [ascii "rollback: session already consumed"])
  | some c =>
    let early := s.state = .started ∨ s.state = .ended
    if s.state = .prepared ∨ (early ∧ p.dialect.allowsEarlyRollback) then .ok c
    else .error (.of .invalidState [ascii "rollback not allowed from state ", s.state.name,
      ascii " on ", p.dialect.name])

/-- The record about a branch rolled back. -/
def rolledBackRecord (p : Participant) (s : Session κ) : Journal.Record :=
  ⟨.debug, ascii "XA branch rolled back", [p.field, .ofBytes (ascii "xid") s.xid,
    .ofText (ascii "from") s.state.name]⟩

/-- Rolls a branch back. -/
def rollback (p : Participant) (g : Gateway σ κ) (s : Session κ) : Action σ Unit :=
  consuming g s do
    let c ← .ofExcept (p.expectRollback s)
    let statements ← statement (p.dialect.rollback s.xid s.state)
    .forEach (p.send g c (ascii "rollback") s.xid) statements
    .update fun t => g.log (p.rolledBackRecord s) (g.release c t)

/-! ## Recovery -/

/-- Commits a prepared branch by its xid. -/
def commitByXid (p : Participant) (g : Gateway σ κ) (xid : Bytes) : Action σ Unit := do
  let sql ← statement (p.dialect.commit xid)
  g.withConnection fun c => do
    p.send g c (ascii "commit_by_xid") xid sql
    .update (g.log (p.doneRecord .info "Recovered XA branch committed" xid))

/-- Rolls a prepared branch back by its xid. -/
def rollbackByXid (p : Participant) (g : Gateway σ κ) (xid : Bytes) : Action σ Unit := do
  let statements ← statement (p.dialect.rollback xid .prepared)
  g.withConnection fun c => do
    .forEach (p.send g c (ascii "rollback_by_xid") xid) statements
    .update (g.log (p.doneRecord .info "Recovered XA branch rolled back" xid))

/-- The record about a recovery query that failed. -/
def queryFailedRecord (p : Participant) (f : Fault) : Journal.Record :=
  ⟨.warn, ascii "Recovery query failed", [p.field, .ofText (ascii "error") f.message]⟩

/-- The prepared branches of the backend. -/
def recover (p : Participant) (g : Gateway σ κ) : Action σ (List Xa.Recovered) :=
  g.withConnection fun c => do
    let rows ← (g.query c p.dialect.recover []).onFailure fun f => g.log (p.queryFailedRecord f)
    let found ← .ofExcept ((rows.mapM Xa.Recovered.ofRow).mapError Xa.Recovered.RowFault.fault)
    .update (g.log ⟨.debug, ascii "Recovery scan",
      [p.field, .ofInt (ascii "prepared") found.length]⟩)
    return found

/-- The prepared branch with a given xid, if there is one. -/
def find (p : Participant) (g : Gateway σ κ) (xid : Bytes) : Action σ (Option Xa.Recovered) := do
  return (← p.recover g).find? fun b => b.xid = xid

/-- The record about a stale branch that stays. -/
def skippedRecord (p : Participant) (xid : Bytes) (f : Fault) : Journal.Record :=
  ⟨.warn, ascii "Skipping stale XA branch that failed to roll back",
    [p.field, .ofBytes (ascii "xid") xid, .ofText (ascii "error") f.message]⟩

/-- The numbers of branches that a sweep rolled back and that it had to skip. -/
structure Sweep where
  rolledBack : Nat := 0
  failed : Nat := 0
deriving DecidableEq, Repr

/-- The record about a finished sweep. -/
def sweptRecord (p : Participant) (stem : Bytes) (n : Sweep) : Journal.Record :=
  ⟨.info, ascii "Stale XA sweep finished", [p.field, .ofBytes (ascii "prefix") stem,
    .ofInt (ascii "rolled_back") n.rolledBack, .ofInt (ascii "failed") n.failed]⟩

/-- Rolls back the branches of a list, one after the other, and counts. -/
def sweepEach (p : Participant) (g : Gateway σ κ) (n : Sweep) : List Bytes → Action σ Sweep
  | [] => return n
  | xid :: rest => do
    match ← (p.rollbackByXid g xid).attempt with
    | .ok () => p.sweepEach g { n with rolledBack := n.rolledBack + 1 } rest
    | .error f =>
      .update (g.log (p.skippedRecord xid f))
      p.sweepEach g { n with failed := n.failed + 1 } rest

/-- Rolls back every prepared branch whose xid starts with `stem` and returns how many it rolled
back; branches that cannot be rolled back are reported and left. -/
def sweep (p : Participant) (g : Gateway σ κ) (stem : Bytes) : Action σ Nat := do
  let stale := (← p.recover g).filter fun b => b.xid.startsWith stem
  let n ← p.sweepEach g {} (stale.map (·.xid))
  .update (g.log (p.sweptRecord stem n))
  return n.rolledBack

end Participant
end Coordinator
