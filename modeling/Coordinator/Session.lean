import Coordinator.Backend
import Coordinator.Xa.State

/-! # Sessions

A `Session` is a branch being driven: its xid, the connection it holds, and its state.  While it
is open it holds its connection alone.  A session that is dropped before a terminal state poisons
its connection, so that the pool closes it instead of lending it with an open branch; a prepared
branch outlives that and is left to recovery. -/
namespace Coordinator

/-- A branch and the connection it is driven over; no connection once it is closed. -/
structure Session (κ : Type) where
  xid : Bytes
  connection : Option κ
  state : Xa.State
deriving DecidableEq, Repr

namespace Session

variable {σ κ : Type}

def isOpen (s : Session κ) : Bool := s.connection.isSome

/-- What is left of a session that was handed over: closed, without an xid. -/
def handedOver (s : Session κ) : Session κ := { s with xid := [], connection := none }

/-- The session without its connection. -/
def closed (s : Session κ) : Session κ := { s with connection := none }

/-- The record about a session dropped early. -/
def droppedRecord (s : Session κ) : Journal.Record :=
  ⟨.warn, ascii "XA session dropped before a terminal state; discarding its connection",
    [.ofBytes (ascii "xid") s.xid, .ofText (ascii "state") s.state.name]⟩

/-- Drops a session: an open one gives up its connection for good. -/
def drop (g : Keeper σ κ) (s : Session κ) (t : σ) : σ :=
  match s.connection with
  | none => t
  | some c => g.release c (g.log s.droppedRecord (g.poison c t))

/-- The connection of a session, for statements of the caller's own. -/
def lend (s : Session κ) : Except Fault κ :=
  match s.connection with
  | some c => .ok c
  | none => .error (.of .invalidState
      [ascii "xa session for xid has no connection (already ", s.state.name, ascii ")"])

/-- The connection of a session that is open and in the state an operation starts from. -/
def expect (s : Session κ) (state : Xa.State) (operation : Bytes) : Except Fault κ :=
  match s.connection with
  | none => .error (.of .invalidState [operation, ascii ": session already consumed"])
  | some c =>
    if s.state = state then .ok c
    else .error (.of .invalidState [operation, ascii " requires state ", state.name,
      ascii ", session is ", s.state.name])

end Session
end Coordinator
