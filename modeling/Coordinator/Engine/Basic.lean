import Coordinator.Action
import Coordinator.Engine.Statement
import Coordinator.Sql.Row

/-! # The engine

An `Engine` is a resource manager inside the process.  It speaks the two-phase statements, counts
commits, and takes every other statement without effect.  Failures can be injected, and the whole
engine can be switched off.  `Engine.run` is the effect of one statement of one connection. -/
namespace Coordinator

namespace Engine

/-- A failure in store for statements that start with `stem`. -/
structure Injected where
  stem : Bytes
  cause : ErrorClass
  message : Bytes
  /-- Whether the failure is used up by the first statement it hits. -/
  once : Bool
deriving DecidableEq, Repr

/-- The version that a server reports unless told otherwise. -/
def defaultVersion : Bytes := ascii "8.0.36-txcoord-memory"

end Engine

/-- A resource manager inside the process. -/
structure Engine where
  version : Bytes := Engine.defaultVersion
  branches : Engine.Branches := ∅
  /-- The injected failures, in the order in which they are tried. -/
  injected : List Engine.Injected := []
  /-- The statements that reached the engine, in order. -/
  statements : List Bytes := []
  available : Bool := true
  /-- The number of the next connection. -/
  nextConnection : Engine.ConnectionId := 1
  openConnections : Nat := 0
  committed : Nat := 0
deriving DecidableEq

namespace Engine

/-- The failure of everything while the engine is switched off. -/
def unavailable : Fault := .of .connection [ascii "memory engine unavailable"]

/-- Opens a connection. -/
def connect : Action Engine ConnectionId := fun e =>
  if e.available then
    (.ok e.nextConnection,
      { e with nextConnection := e.nextConnection + 1, openConnections := e.openConnections + 1 })
  else (.error unavailable, e)

/-- Closes a connection; the branch it has not prepared is rolled back. -/
def disconnect (c : ConnectionId) (e : Engine) : Engine :=
  { e with openConnections := e.openConnections - 1, branches := e.branches.disconnect c }

/-- Puts a failure in store. -/
def inject (f : Injected) (e : Engine) : Engine := { e with injected := e.injected ++ [f] }

def clearInjected (e : Engine) : Engine := { e with injected := [] }

def setAvailable (on : Bool) (e : Engine) : Engine := { e with available := on }

/-- Adds a prepared branch, as a coordinator that is gone would have left it. -/
def injectPrepared (xid : Bytes) (e : Engine) : Engine :=
  { e with branches := e.branches.insert xid .detached }

/-- Notes that a statement reached the engine. -/
def record (sql : Bytes) (e : Engine) : Engine := { e with statements := e.statements ++ [sql] }

/-- Fails with the first injected failure that a statement hits. -/
def failInjected (sql : Bytes) : Action Engine Unit := fun e =>
  match e.injected.find? fun f => sql.startsWith f.stem with
  | none => (.ok (), e)
  | some f =>
    (.error (f.cause.fault (f.message ++ ascii " (" ++ sql ++ ascii ")")),
      if f.once then
        { e with injected := e.injected.eraseP fun f => sql.startsWith f.stem }
      else e)

/-- A row that describes a prepared branch: format 1, all bytes in the global part. -/
def recoveryRow (xid : Bytes) : Sql.Row :=
  [some (ascii "1"), some (Decimal.ofNat xid.length), some (ascii "0"), some xid]

/-- Whether a step commits. -/
def Verb.isCommit : Verb → Bool
  | .commit _ => true
  | _ => false

/-- The effect of a protocol step. -/
def step (c : ConnectionId) (verb : Verb) (xid : Bytes) : Action Engine Unit := fun e =>
  match e.branches.perform c verb xid with
  | .error r => (.error r.fault, e)
  | .ok branches =>
    (.ok (), { e with branches, committed := e.committed + if verb.isCommit then 1 else 0 })

/-- The effect of a statement and the rows it answers with. -/
def perform (c : ConnectionId) : Statement → Action Engine Sql.Rows
  | .branch verb xid => do step c verb xid; return []
  | .recover => Action.read fun e => e.branches.prepared.map recoveryRow
  | .commit => do Action.update (fun e => { e with committed := e.committed + 1 }); return []
  | .version => Action.read fun e => [[some e.version]]
  | .other => return []

/-- Runs a statement of a connection. -/
def run (c : ConnectionId) (sql : Bytes) : Action Engine Sql.Rows := do
  if !(← Action.read available) then Action.fail unavailable
  Action.update (record sql)
  failInjected sql
  let statement ← Action.ofExcept ((Statement.parse sql).mapError SyntaxFault.fault)
  perform c statement

end Engine
end Coordinator
