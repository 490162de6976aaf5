import Coordinator.Backend
import Coordinator.Engine.Basic
import Coordinator.Sql.Template

/-! # Connections to the engine

A `Host` is an engine together with the client's side of its connections.  A connection that once
failed for want of the server is broken: it sends nothing any more, even when the server is back. -/
namespace Coordinator

/-- The client's side of a connection. -/
structure Link where
  /-- Whether a statement on it failed for want of the server. -/
  broken : Bool := false
  poisoned : Bool := false
deriving DecidableEq, Repr

/-- An engine and the connections to it. -/
structure Host where
  engine : Engine := {}
  links : Table Engine.ConnectionId Link := ∅
deriving DecidableEq

namespace Host

variable {σ : Type}

/-- The engine of a host. -/
def engineCell : Cell Host Engine := ⟨engine, fun e h => { h with engine := e }⟩

def connect : Action Host Engine.ConnectionId := do
  let c ← engineCell.run Engine.connect
  Action.update fun h => { h with links := h.links.insert c {} }
  return c

def close (c : Engine.ConnectionId) (h : Host) : Host where
  engine := h.engine.disconnect c
  links := h.links.erase c

def isBroken (c : Engine.ConnectionId) (h : Host) : Bool := (h.links.get? c).any (·.broken)

def isPoisoned (c : Engine.ConnectionId) (h : Host) : Bool := (h.links.get? c).any (·.poisoned)

/-- A connection is healthy while it is not broken and the engine is there. -/
def isHealthy (c : Engine.ConnectionId) (h : Host) : Bool := !h.isBroken c && h.engine.available

def poison (c : Engine.ConnectionId) (h : Host) : Host :=
  { h with links := h.links.modify c ({ · with poisoned := true }) }

/-- Marks a connection after a failure, if it failed for want of the server. -/
def noteFailure (c : Engine.ConnectionId) (f : Fault) (h : Host) : Host :=
  if f.kind = .connection then { h with links := h.links.modify c ({ · with broken := true }) }
  else h

def brokenFault (c : Engine.ConnectionId) : Fault :=
  .of .connection [ascii "memory connection ", Decimal.ofNat c, ascii " is broken"]

/-- Sends a statement.  `interrupt` is what happens outside the engine before it runs. -/
def send (host : Cell σ Host) (interrupt : Bytes → Action σ Unit) (c : Engine.ConnectionId)
    (sql : Bytes) : Action σ Sql.Rows := do
  if ← Action.read fun s => (host.get s).isBroken c then Action.fail (brokenFault c)
  (do interrupt sql; (host.within engineCell).run (Engine.run c sql)).onFailure
    fun f => host.modify (noteFailure c f)

/-- Sends a statement with parameters, which are written into it. -/
def query (host : Cell σ Host) (interrupt : Bytes → Action σ Unit) (c : Engine.ConnectionId)
    (sql : Bytes) (params : List Sql.Param) : Action σ Sql.Rows := do
  if params.isEmpty then send host interrupt c sql
  else
    let statement ← Action.ofExcept
      ((Sql.Template.bind Sql.Literal.quote sql params).mapError Sql.Template.BindFault.fault)
    send host interrupt c statement

/-- The engine as a backend. -/
def backend (host : Cell σ Host) (interrupt : Bytes → Action σ Unit) :
    Backend σ Engine.ConnectionId where
  connect := host.run connect
  close c := host.modify (close c)
  isHealthy c s := (host.get s).isHealthy c
  isPoisoned c s := (host.get s).isPoisoned c
  poison c := host.modify (poison c)
  execute c sql := do
    let _ ← send host interrupt c sql
  query := query host interrupt
  placeholders := .questionMark

end Host
end Coordinator
