import Coordinator.Config.Validate
import Coordinator.Drivers
import Coordinator.Plant
import Coordinator.Retry.Manager

/-! # Deployments

A `Deployment` is what a configuration names, set up in a plant: a participant and its registry
for every participant of the configuration, the retry managers, and the engines behind memory
backends, one per name.  Setting it up opens no connection. -/
namespace Coordinator

/-- The components of a configuration by name. -/
structure Deployment where
  participants : Table Bytes (Pooled Participant) := ∅
  registries : Table Bytes RegistryRef := ∅
  managers : Table Bytes (Pooled Retry.Manager) := ∅
  engines : Table Bytes HostId := ∅
  /-- The stem of the xids that a sweep rolls back by default. -/
  staleStem : Bytes := []

namespace Deployment

/-! ## Look-up -/

/-- The component with a name. -/
def find {α : Type} (role : String) (table : Table Bytes α) (name : Bytes) : Except Fault α :=
  match table.get? name with
  | some x => .ok x
  | none => .error (.of .notFound
      [ascii "no ", ascii role, ascii " named '", name, ascii "' in the configuration"])

def participant (d : Deployment) : Bytes → Except Fault (Pooled Participant) :=
  find "participant" d.participants

/-- The registry of the participant with a name. -/
def registry (d : Deployment) : Bytes → Except Fault RegistryRef :=
  find "participant" d.registries

def manager (d : Deployment) : Bytes → Except Fault (Pooled Retry.Manager) :=
  find "retry manager" d.managers

/-! ## Setting up -/

/-- A step of setting a deployment up in a plant. -/
abbrev Setup := Action (Deployment × Plant)

/-- The name an engine goes by when the configuration gives it none. -/
def defaultEngine : Bytes := ascii "default"

/-- The engine with a name; it is set up when it is first asked for. -/
def openMemory (name : Bytes) : Setup Target := do
  let name := if name = [] then defaultEngine else name
  match ← .read fun (d, _) => d.engines.get? name with
  | some host => return .engine host
  | none =>
    let host ← Cell.second.run (Plant.addEngine {})
    .update fun (d, p) => ({ d with engines := d.engines.insert name host }, p)
    return .engine host

/-- The drivers of this build.  Each makes a target of the address of a backend. -/
def drivers : Drivers (Bytes → Setup Target) :=
  ⟨[(ascii "memory", openMemory), (ascii "sqlite", fun path => return .database path)]⟩

/-- The target at an address, by the driver for its kind. -/
def openTarget (kind : String) (address : Bytes) : Setup Target := do
  (← .ofExcept (drivers.opener (ascii kind))) address

def defaultCapacity : Nat := 16

/-- How long a caller waits for a connection when the configuration does not say, in
milliseconds. -/
def defaultTimeout : Int64 := 5000

/-- Sets up the pool of a component. -/
def addPool (name : Bytes) (target : Target) (c : Config.PoolSettings) : Setup PoolRef :=
  let capacity := if c.maxConnections = 0 then defaultCapacity else c.maxConnections.toNat
  let timeout := (c.acquireTimeout.map (·.toMilliseconds)).getD defaultTimeout
  Cell.second.run (Plant.addPool target (.new name capacity timeout))

/-- Reports a component that is set up. -/
def report (message : String) (fields : List Journal.Field) : Setup Unit :=
  .update fun (d, p) => (d, p.log ⟨.info, ascii message, fields⟩)

def noBackendFault (role : Config.Role) (name : Bytes) : Fault :=
  .of .invalidArgument [Config.quotedName role name, ascii " has no backend"]

/-- The dialect that a participant speaks, and its target.  Engines speak the dialect of MySQL. -/
def openParticipant (name : Bytes) :
    Option Config.ParticipantBackend → Setup (Xa.Dialect × Target)
  | some (.memory engine) => return (.mysql, ← openTarget "memory" engine)
  | some (.mysql host _) => return (.mysql, ← openTarget "mysql" host)
  | some (.postgres uri) => return (.postgres, ← openTarget "postgres" uri)
  | none => .fail (noBackendFault .participant name)

def addParticipant (c : Config.ParticipantSettings) : Setup Unit := do
  let (dialect, target) ← openParticipant c.name c.backend
  let pool ← addPool (ascii "participant/" ++ c.name) target c.pool
  let p : Pooled Participant := ⟨⟨c.name, dialect⟩, pool⟩
  let registry ← Cell.second.run (Plant.addRegistry p)
  .update fun (d, s) => ({ d with
    registries := d.registries.insert c.name registry
    participants := d.participants.insert c.name p }, s)
  report "Participant configured"
    [.ofText (ascii "name") c.name, .ofText (ascii "dialect") dialect.name]

/-- The dialect that a manager speaks, and its target. -/
def openManager (name : Bytes) : Option Config.ManagerBackend → Setup (Retry.Dialect × Target)
  | some (.cockroach uri) => return (.cockroach, ← openTarget "cockroach" uri)
  | some (.sqlite path) => return (.sqlite, ← openTarget "sqlite" path)
  | some (.memory engine) => return (.cockroach, ← openTarget "memory" engine)
  | none => .fail (noBackendFault .manager name)

/-- The policy of retry settings.  A setting that is present counts, even when it is zero. -/
def policyOf (c : Config.RetrySettings) : Retry.Policy :=
  let default : Retry.Policy := {}
  { maxRetries := c.maxRetries.getD default.maxRetries
    baseBackoff := (c.baseBackoff.map (·.toMilliseconds)).getD default.baseBackoff
    maxBackoff := (c.maxBackoff.map (·.toMilliseconds)).getD default.maxBackoff }

def addManager (c : Config.ManagerSettings) : Setup Unit := do
  let (dialect, target) ← openManager c.name c.backend
  let pool ← addPool (ascii "retry/" ++ c.name) target c.pool
  let policy := policyOf c.retry
  let m ← .ofExcept (Retry.Manager.new c.name dialect policy)
  .update fun (d, s) => ({ d with managers := d.managers.insert c.name ⟨m, pool⟩ }, s)
  report "Retry manager configured" [.ofText (ascii "name") c.name,
    .ofInt (ascii "max_retries") policy.maxRetries.toNat]

/-- Sets up every component of a configuration, in order. -/
def addAll (c : Config) : Setup Unit := do
  .ofExcept (c.validate.mapError Config.Invalid.fault)
  .forEach addParticipant c.participants
  .forEach addManager c.managers

/-- Sets a configuration up in a plant. -/
def build (c : Config) : Action Plant Deployment := fun p =>
  let (r, d, p) := (addAll c).run ({ staleStem := c.staleStem }, p)
  (r.map fun _ => d, p)

end Deployment
end Coordinator
