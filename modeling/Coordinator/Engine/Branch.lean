import Coordinator.ErrorClass
import Coordinator.Table

/-! # Branches of a resource manager

A resource manager keeps a table of branches by xid.  Until it is prepared a branch belongs to the
connection that started it, and no other connection sees it; a prepared branch belongs to nobody
and is there for everybody.  `Branches.perform` is the effect of one protocol step on the table. -/
namespace Coordinator.Engine

/-- The number of a connection.  No connection has number 0. -/
abbrev ConnectionId := Nat

/-- How far a branch is. -/
inductive Stage
  /-- The branch takes work. -/
  | active
  /-- The work has ended. -/
  | idle
  | prepared
deriving DecidableEq, Repr

/-- A branch: how far it is, and the connection it belongs to; 0 once it is prepared. -/
structure Branch where
  stage : Stage
  owner : ConnectionId
deriving DecidableEq, Repr

/-- A branch that is prepared and so belongs to no connection. -/
def Branch.detached : Branch := ⟨.prepared, 0⟩

/-- Whether a branch goes away with a connection. -/
def Branch.isOpenOn (b : Branch) (c : ConnectionId) : Bool :=
  b.owner == c && b.stage != .prepared

/-- A step of the protocol. -/
inductive Verb
  | start
  | finish
  | prepare
  | commit (onePhase : Bool)
  | rollback
deriving DecidableEq, Repr

/-- Why a step is refused. -/
inductive Refusal
  /-- The connection already has an unprepared branch. -/
  | connectionBusy
  | duplicate
  /-- There is no such branch, or it belongs to another connection. -/
  | unknown
  | cannotFinish
  | cannotPrepare
  | cannotCommit
  | cannotRollBack
deriving DecidableEq, Repr

/-- The class of a refusal and its text. -/
def Refusal.describe : Refusal → ErrorClass × Bytes
  | .connectionBusy =>
    (.protocolViolation, ascii "XAER_RMFAIL: connection already has an active XA transaction")
  | .duplicate => (.alreadyExists, ascii "XAER_DUPID: The XID already exists")
  | .unknown => (.notFound, ascii "XAER_NOTA: Unknown XID")
  | .cannotFinish => (.protocolViolation, ascii "XAER_RMFAIL: The command cannot be executed " ++
      ascii "when global transaction is in the IDLE/PREPARED state")
  | .cannotPrepare => (.protocolViolation, ascii "XAER_RMFAIL: The command cannot be executed " ++
      ascii "when global transaction is in the ACTIVE/PREPARED state")
  | .cannotCommit => (.protocolViolation,
      ascii "XAER_RMFAIL: The command cannot be executed in the current XA state")
  | .cannotRollBack => (.protocolViolation, ascii "XAER_RMFAIL: The command cannot be executed " ++
      ascii "when global transaction is in the ACTIVE state")

def Refusal.fault (r : Refusal) : Fault := r.describe.1.fault r.describe.2

/-- The branches of a resource manager by xid. -/
abbrev Branches := Table Bytes Branch

namespace Branches

/-- The branch a connection sees under an xid: its own, or a prepared one. -/
def visible? (t : Branches) (c : ConnectionId) (xid : Bytes) : Option Branch :=
  (t.get? xid).filter fun b => b.stage = .prepared ∨ b.owner = c

/-- Whether a connection has an unprepared branch. -/
def hasOpen (t : Branches) (c : ConnectionId) : Bool := t.values.any (·.isOpenOn c)

/-- The table after a step that a connection takes with the branch of an xid. -/
def perform (t : Branches) (c : ConnectionId) (verb : Verb) (xid : Bytes) :
    Except Refusal Branches :=
  match verb with
  | .start =>
    if t.hasOpen c then .error .connectionBusy
    else if t.contains xid then .error .duplicate
    else .ok (t.insert xid ⟨.active, c⟩)
  | verb =>
    match t.visible? c xid with
    | none => .error .unknown
    | some b =>
      match verb with
      | .finish =>
        if b.stage = .active then .ok (t.insert xid { b with stage := .idle })
        else .error .cannotFinish
      | .prepare =>
        if b.stage = .idle then .ok (t.insert xid .detached) else .error .cannotPrepare
      | .commit onePhase =>
        if b.stage = if onePhase then .idle else .prepared then .ok (t.erase xid)
        else .error .cannotCommit
      | .rollback =>
        if b.stage = .active then .error .cannotRollBack else .ok (t.erase xid)
      | .start => .ok t

/-- The table once a connection is gone: its unprepared branches are rolled back. -/
def disconnect (t : Branches) (c : ConnectionId) : Branches := t.filter fun _ b => !b.isOpenOn c

/-- The xids of the prepared branches, the latest branch first. -/
def prepared (t : Branches) : List Bytes :=
  ((t.entries.filter fun e => e.2.stage = .prepared).map Prod.fst).reverse

end Branches
end Coordinator.Engine
