import Coordinator.Rehearsal.Step

/-! # The stage of a rehearsal

A `Stage` is a plant with names for its objects, the interruptions in wait for statements, and the
replies to steps that ran aside.  An object that no name, no deployment and no other object leads
to is taken down at the end of the step that left it so. -/
namespace Coordinator.Rehearsal

/-- An interruption in wait for a statement of an engine. -/
structure Interruption where
  host : HostId
  trigger : Trigger
  steps : List Step
  failure : Option Fault

/-- The notes on the transaction being run. -/
structure Trial where
  attempts : List (List Note) := []
  pauses : List Int64 := []

/-- A plant and the names of its objects. -/
structure Stage where
  plant : Plant := {}
  deployment : Option Deployment := none
  /-- The engines, also those of every deployment there was. -/
  engines : Table Bytes HostId := ∅
  pools : Table Bytes PoolRef := ∅
  participants : Table Bytes (Pooled Participant) := ∅
  registries : Table Bytes RegistryRef := ∅
  managers : Table Bytes (Pooled Retry.Manager) := ∅
  sessions : Table Bytes (Session Line) := ∅
  connections : Table Bytes Line := ∅
  /-- The interruptions, in the order in which they are tried. -/
  interruptions : List Interruption := []
  /-- The replies to steps that ran inside another step, in the order in which they ended. -/
  aside : List Reply := []
  trial : Trial := {}

namespace Stage

def plantCell : Cell Stage Plant := ⟨plant, fun p s => { s with plant := p }⟩

/-! ## Names -/

/-- The object of a name in a table. -/
def named {α : Type} (table : Table Bytes α) (name : Bytes) : Except Refusal α :=
  match table.get? name with
  | some x => .ok x
  | none => .error (.unknown name)

/-- The object of a name in a table, or else in the deployment. -/
def deployed {α : Type} (s : Stage) (table : Table Bytes α)
    (find : Deployment → Bytes → Except Fault α) (name : Bytes) : Except Refusal α :=
  match table.get? name, s.deployment with
  | some x, _ => .ok x
  | none, some d => (find d name).mapError .fault
  | none, none => .error (.unknown name)

def participant (s : Stage) : Bytes → Except Refusal (Pooled Participant) :=
  s.deployed s.participants Deployment.participant

def registry (s : Stage) : Bytes → Except Refusal RegistryRef :=
  s.deployed s.registries Deployment.registry

def manager (s : Stage) : Bytes → Except Refusal (Pooled Retry.Manager) :=
  s.deployed s.managers Deployment.manager

def engine (s : Stage) : Bytes → Except Refusal HostId := named s.engines

def pool (s : Stage) : Bytes → Except Refusal PoolRef := named s.pools

def session (s : Stage) : Bytes → Except Refusal (Session Line) := named s.sessions

def connection (s : Stage) : Bytes → Except Refusal Line := named s.connections

/-- The session of a name.  An operation that drives a session may find it gone when a statement
comes back; then it goes on with what is `left`, to no effect. -/
def sessionCell (name : Bytes) (left : Session Line) : Cell Stage (Session Line) where
  get s := (s.sessions.get? name).getD left
  set x s := { s with sessions := s.sessions.modify name fun _ => x }

/-- The target at a place. -/
def target (s : Stage) : Place → Except Refusal Target
  | .engine name => return .engine (← s.engine name)
  | .database path => return .database path

/-! ## Objects in use -/

/-- The registries that a name or the deployment leads to. -/
def registriesInUse (s : Stage) : List RegistryRef :=
  s.registries.values ++ (s.deployment.map (·.registries.values)).getD []

/-- The pools that a name, a component or the deployment leads to. -/
def poolsInUse (s : Stage) : List PoolRef :=
  let d := s.deployment.getD {}
  s.pools.values ++ (s.participants.values ++ d.participants.values).map (·.pool) ++
    (s.managers.values ++ d.managers.values).map (·.pool)

/-- Takes down what is not in use. -/
def tidy (s : Stage) : Stage :=
  plantCell.modify (Plant.alone.retain s.poolsInUse s.registriesInUse) s

end Stage
end Coordinator.Rehearsal
