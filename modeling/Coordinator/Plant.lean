import Coordinator.Client.Sqlite
import Coordinator.Host
import Coordinator.Pool
import Coordinator.Registry

/-! # Plants

A `Plant` is what a coordinator at work holds: engines, the SQLite library, pools, registries, and
the journal.  A connection of a plant, a `Line`, carries where it leads and which pool lent it, so
that whoever holds it last can give it back: a session started through one participant may end
through another.

What never changes about a pool or a registry is part of the reference to it; the plant maps
references to what does change. -/
namespace Coordinator

/-- The number of an engine of a plant. -/
abbrev HostId := Nat

/-- Where connections lead. -/
inductive Target
  | engine (host : HostId)
  | database (path : Bytes)
deriving DecidableEq, Repr

/-- A reference to a pool: its number, and where its connections lead. -/
structure PoolRef where
  number : Nat
  target : Target
deriving DecidableEq, Repr

/-- A connection of a plant. -/
structure Line where
  target : Target
  /-- The number of the connection among those to its target. -/
  number : Nat
  /-- The pool that lent it, if one did. -/
  home : Option PoolRef
deriving DecidableEq, Repr

/-- A component and the pool it works over. -/
structure Pooled (α : Type) where
  component : α
  pool : PoolRef
deriving DecidableEq, Repr

/-- A reference to a registry: its number, and the participant it belongs to. -/
structure RegistryRef where
  number : Nat
  owner : Pooled Participant
deriving DecidableEq, Repr

/-- Everything a coordinator at work holds. -/
structure Plant where
  hosts : Table HostId Host := ∅
  sqlite : Client.Sqlite := {}
  pools : Table PoolRef (Pool Line) := ∅
  registries : Table RegistryRef (Registry Line) := ∅
  journal : List Journal.Record := []
  /-- The number of the next object. -/
  next : Nat := 0

namespace Plant

variable {σ : Type}

/-! ## Parts -/

/-- An engine with its connections. -/
def hostCell (h : HostId) : Cell Plant Host where
  get p := (p.hosts.get? h).getD {}
  set x p := { p with hosts := p.hosts.modify h fun _ => x }

def sqliteCell : Cell Plant Client.Sqlite := ⟨sqlite, fun x p => { p with sqlite := x }⟩

def poolCell (r : PoolRef) : Cell Plant (Pool Line) where
  get p := (p.pools.get? r).getD (.new [] 0 0)
  set x p := { p with pools := p.pools.modify r fun _ => x }

def registryCell (r : RegistryRef) : Cell Plant (Registry Line) where
  get p := (p.registries.get? r).getD ∅
  set x p := { p with registries := p.registries.modify r fun _ => x }

/-! ## New objects -/

/-- Sets an engine up. -/
def addEngine (e : Engine) : Action Plant HostId := fun p =>
  (.ok p.next, { p with next := p.next + 1, hosts := p.hosts.insert p.next { engine := e } })

/-- Sets a pool up; it has no connections yet. -/
def addPool (target : Target) (pool : Pool Line) : Action Plant PoolRef := fun p =>
  let r : PoolRef := ⟨p.next, target⟩
  (.ok r, { p with next := p.next + 1, pools := p.pools.insert r pool })

/-- Sets a registry up; it has no sessions yet. -/
def addRegistry (owner : Pooled Participant) : Action Plant RegistryRef := fun p =>
  let r : RegistryRef := ⟨p.next, owner⟩
  (.ok r, { p with next := p.next + 1, registries := p.registries.insert r ∅ })

/-- Adds a record to the journal. -/
def log (r : Journal.Record) (p : Plant) : Plant := { p with journal := p.journal ++ [r] }

/-! ## Lines in use -/

/-- How long SQLite waits for locks, in milliseconds. -/
def lockTimeout : Int32 := 5000

/-- A plant within its surroundings. -/
structure Site (σ : Type) where
  plant : Cell σ Plant
  /-- What happens around an engine before it runs a statement. -/
  interrupt : HostId → Bytes → Action σ Unit

/-- A plant on its own: nothing happens around it. -/
def alone : Site Plant := ⟨.whole, fun _ _ => return⟩

namespace Site

/-- The server at a target, with its connections by number. -/
def server (w : Site σ) : Target → Backend σ Nat
  | .engine h => Host.backend (w.plant.within (hostCell h)) (w.interrupt h)
  | .database path => Client.Sqlite.backend (w.plant.within sqliteCell) path lockTimeout

/-- The lines to a target, opened for a pool or for nobody. -/
def lines (w : Site σ) (target : Target) (home : Option PoolRef) : Backend σ Line where
  connect := do return ⟨target, ← (w.server target).connect, home⟩
  close l := (w.server l.target).close l.number
  isHealthy l := (w.server l.target).isHealthy l.number
  isPoisoned l := (w.server l.target).isPoisoned l.number
  poison l := (w.server l.target).poison l.number
  execute l := (w.server l.target).execute l.number
  query l := (w.server l.target).query l.number
  placeholders := (w.server target).placeholders

def log (w : Site σ) (r : Journal.Record) : σ → σ := w.plant.modify (Plant.log r)

/-- A pool within the surroundings of its plant. -/
def pool (w : Site σ) (r : PoolRef) : Pool.Site σ Line where
  pool := w.plant.within (poolCell r)
  backend := w.lines r.target (some r)
  log := w.log

/-- Gives a line back to the pool that lent it.  A line without a pool, or whose pool is gone, is
closed. -/
def release (w : Site σ) (l : Line) (s : σ) : σ :=
  match l.home.filter (w.plant.get s).pools.contains with
  | some r => (w.pool r).release l s
  | none => (w.lines l.target none).close l s

/-- Where lines go back to. -/
def keeper (w : Site σ) : Keeper σ Line where
  release := w.release
  poison l := (w.server l.target).poison l.number
  log := w.log

/-- What components see of a pool. -/
def gateway (w : Site σ) (r : PoolRef) : Gateway σ Line :=
  { (w.pool r).gateway with toKeeper := w.keeper }

/-- A registry within the surroundings of its plant. -/
def registry (w : Site σ) (r : RegistryRef) : Registry.Site σ Line where
  registry := w.plant.within (registryCell r)
  participant := r.owner.component
  gateway := w.gateway r.owner.pool

/-! ## Objects nobody uses any more -/

/-- Takes a registry down; its sessions are dropped, the latest first. -/
def removeRegistry (w : Site σ) (r : RegistryRef) (s : σ) : σ :=
  let sessions := ((w.registry r).registry.get s).values
  let s := w.plant.modify (fun p => { p with registries := p.registries.erase r }) s
  sessions.reverse.foldl (fun s x => x.drop w.keeper s) s

/-- Takes a pool down; its idle lines are closed. -/
def removePool (w : Site σ) (r : PoolRef) (s : σ) : σ :=
  let idle := ((w.pool r).pool.get s).idle
  let s := w.plant.modify (fun p => { p with pools := p.pools.erase r }) s
  idle.foldl (fun s l => (w.lines r.target none).close l s) s

/-- Takes down every registry and pool that is not in use, the latest registry first.  A registry in
use uses the pool of its participant. -/
def retain (w : Site σ) (pools : List PoolRef) (registries : List RegistryRef) (s : σ) : σ :=
  let stale := (w.plant.get s).registries.keys.filter fun r => r ∉ registries
  let s := stale.reverse.foldl (fun s r => w.removeRegistry r s) s
  let used := pools ++ registries.map (·.owner.pool)
  let idle := (w.plant.get s).pools.keys.filter fun r => r ∉ used
  idle.foldl (fun s r => w.removePool r s) s

end Site
end Plant
end Coordinator
