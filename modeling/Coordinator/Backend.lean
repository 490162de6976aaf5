import Coordinator.Action
import Coordinator.Journal
import Coordinator.Sql.Param
import Coordinator.Sql.Row

/-! # Backends and gateways

A `Backend` is how connections `κ` to one server are opened, used and closed within surroundings
`σ`.  A `Gateway` is what a component sees of a backend through a pool: connections are lent and
used, and its `Keeper` takes them back.  Components are written against a gateway, so whatever is
said of them holds for every backend, however its statements end. -/
namespace Coordinator

/-- What a caller sends on a connection of its own. -/
inductive Request
  /-- A statement as it is. -/
  | plain (sql : Bytes)
  /-- A statement with parameters, whose rows do not matter. -/
  | bound (sql : Bytes) (params : List Sql.Param)
  /-- A statement with parameters, for its rows. -/
  | rows (sql : Bytes) (params : List Sql.Param)
deriving DecidableEq, Repr

/-- Connections to a server. -/
structure Backend (σ κ : Type) where
  connect : Action σ κ
  close : κ → σ → σ
  /-- Whether the connection can take statements. -/
  isHealthy : κ → σ → Bool
  /-- Whether the server's side of the connection may be in an unknown state. -/
  isPoisoned : κ → σ → Bool
  poison : κ → σ → σ
  /-- Sends a statement as it is. -/
  execute : κ → Bytes → Action σ Unit
  /-- Sends a statement with parameters and returns the rows of its result. -/
  query : κ → Bytes → List Sql.Param → Action σ Sql.Rows
  placeholders : Sql.PlaceholderStyle

/-- Sends a request; only one for rows has an answer. -/
def Backend.submit {σ κ : Type} (b : Backend σ κ) (c : κ) : Request → Action σ (Option Sql.Rows)
  | .plain sql => do b.execute c sql; return none
  | .bound sql params => do let _ ← b.query c sql params; return none
  | .rows sql params => return some (← b.query c sql params)

/-- Where connections on loan go back to. -/
structure Keeper (σ κ : Type) where
  release : κ → σ → σ
  /-- Keeps a connection from being lent again. -/
  poison : κ → σ → σ
  /-- Adds a record to the journal. -/
  log : Journal.Record → σ → σ

/-- Connections on loan. -/
structure Gateway (σ κ : Type) extends Keeper σ κ where
  acquire : Action σ κ
  /-- Sends a statement as it is. -/
  execute : κ → Bytes → Action σ Unit
  /-- Sends a statement with parameters and returns the rows of its result. -/
  query : κ → Bytes → List Sql.Param → Action σ Sql.Rows

namespace Gateway

variable {σ κ α : Type}

/-- Runs an action with a connection on loan, which is given back however the action ends. -/
def withConnection (g : Gateway σ κ) (f : κ → Action σ α) : Action σ α := do
  let c ← g.acquire
  (f c).ensuring (g.release c)

/-- The gateway of a part, as one of the whole. -/
def within {τ : Type} (part : Cell τ σ) (g : Gateway σ κ) : Gateway τ κ where
  acquire := part.run g.acquire
  execute c sql := part.run (g.execute c sql)
  query c sql params := part.run (g.query c sql params)
  release c := part.modify (g.release c)
  poison c := part.modify (g.poison c)
  log r := part.modify (g.log r)

end Gateway
end Coordinator
