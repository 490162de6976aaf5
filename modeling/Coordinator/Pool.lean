import Coordinator.Backend

/-! # Connection pools

A `Pool` keeps at most `capacity` connections to one server.  A connection given back is lent
again, the latest first, unless it is poisoned or unhealthy; then it is closed and its place is
free.  The steps that read or change the pool (`checkOut`, `openFailed`, `giveBack`) are functions
of the pool alone; opening and closing connections happens between them. -/
namespace Coordinator

/-- The connections to one server. -/
structure Pool (κ : Type) where
  name : Bytes
  capacity : Nat
  /-- How long a caller waits for a free place, in milliseconds. -/
  timeout : Int64
  /-- The connections waiting to be lent, the one given back last in front. -/
  idle : List κ := []
  /-- The number of places taken: idle, lent, or held for a connection being opened. -/
  live : Nat := 0
deriving DecidableEq, Repr

namespace Pool

variable {σ κ : Type}

/-- A pool without connections.  Every pool has room for one. -/
def new (name : Bytes) (capacity : Nat) (timeout : Int64) : Pool κ :=
  { name, capacity := if capacity = 0 then 1 else capacity, timeout }

/-- What a caller in want of a connection gets. -/
inductive Checkout (κ : Type)
  /-- An idle connection. -/
  | reuse (c : κ)
  /-- A place for a connection to be opened. -/
  | reserved
  /-- Nothing: every place is taken. -/
  | exhausted
deriving DecidableEq, Repr

/-- Takes connections off the idle list until one is healthy; if none is, takes a free place.
Also returns the unhealthy connections taken off, in order. -/
def checkOut (healthy : κ → Bool) (p : Pool κ) : Checkout κ × List κ × Pool κ :=
  let bad := p.idle.takeWhile fun c => !healthy c
  let live := p.live - bad.length
  match p.idle.dropWhile fun c => !healthy c with
  | c :: rest => (.reuse c, bad, { p with idle := rest, live })
  | [] =>
    if live < p.capacity then (.reserved, bad, { p with idle := [], live := live + 1 })
    else (.exhausted, bad, { p with idle := [], live })

/-- The place held for a connection that could not be opened is free again. -/
def openFailed (p : Pool κ) : Pool κ := { p with live := p.live - 1 }

/-- A lent connection is back: it waits to be lent again, or its place is free. -/
def giveBack (reusable : Bool) (c : κ) (p : Pool κ) : Pool κ :=
  if reusable then { p with idle := c :: p.idle } else { p with live := p.live - 1 }

/-! ## Lending -/

/-- The record about an idle connection that is no longer healthy. -/
def discardRecord (p : Pool κ) : Journal.Record :=
  ⟨.warn, ascii "Discarding unhealthy idle connection", [.ofText (ascii "pool") p.name]⟩

/-- The record about a caller who gets no connection. -/
def exhaustedRecord (p : Pool κ) : Journal.Record :=
  ⟨.warn, ascii "Connection pool exhausted", [.ofText (ascii "pool") p.name,
    .ofInt (ascii "max_connections") p.capacity, .ofInt (ascii "timeout_ms") p.timeout.toInt]⟩

def exhaustedFault (p : Pool κ) : Fault :=
  .of .connection [ascii "connection pool '", p.name,
    ascii "' exhausted: no connection available within ", Decimal.ofInt p.timeout.toInt,
    ascii "ms"]

/-- A pool within its surroundings: where it is kept, what opens its connections, and where its
records go. -/
structure Site (σ κ : Type) where
  pool : Cell σ (Pool κ)
  backend : Backend σ κ
  log : Journal.Record → σ → σ

namespace Site

/-- Lends a connection. -/
def acquire (p : Site σ κ) : Action σ κ := do
  let (outcome, bad, pool) ← Action.read fun s =>
    (p.pool.get s).checkOut (p.backend.isHealthy · s)
  Action.update (p.pool.set pool)
  Action.update fun s => bad.foldl (fun s c => p.backend.close c (p.log pool.discardRecord s)) s
  match outcome with
  | .reuse c => return c
  | .reserved => p.backend.connect.onFailure fun _ => p.pool.modify openFailed
  | .exhausted =>
    Action.update (p.log pool.exhaustedRecord)
    Action.fail pool.exhaustedFault

/-- Takes a connection back. -/
def release (p : Site σ κ) (c : κ) (s : σ) : σ :=
  let reusable := !p.backend.isPoisoned c s && p.backend.isHealthy c s
  let s := p.pool.modify (giveBack reusable c) s
  if reusable then s else p.backend.close c s

/-- What components see of the pool. -/
def gateway (p : Site σ κ) : Gateway σ κ where
  acquire := p.acquire
  release := p.release
  poison := p.backend.poison
  execute := p.backend.execute
  query := p.backend.query
  log := p.log

end Site
end Pool
end Coordinator
