import Coordinator.Deployment

/-! # The script of a rehearsal

A rehearsal drives a plant by a script of steps on named objects, to see what the coordinator does
when things go wrong in a given order.  A `Step` says what to do; it may carry steps of its own,
for the moment when an engine is about to run a statement, or for the pauses between the attempts
of a transaction.  A `Reply` says what came of a step. -/
namespace Coordinator.Rehearsal

/-- Where the connections of a pool or a connection of its own lead, by name. -/
inductive Place
  | engine (name : Bytes)
  | database (path : Bytes)
deriving DecidableEq, Repr

/-- Which statements make an engine pause. -/
structure Trigger where
  sql : Bytes
  /-- Whether any statement that starts with the text will do. -/
  stem : Bool
  /-- Whether the pause happens more than once. -/
  keep : Bool
deriving DecidableEq, Repr

/-- Whether a statement makes an engine pause. -/
def Trigger.hits (t : Trigger) (sql : Bytes) : Bool :=
  if t.stem then sql.startsWith t.sql else sql = t.sql

/-- The operations that consume a session. -/
inductive Ending
  | commit
  | commitOnePhase
  | rollback
deriving DecidableEq, Repr

/-- The operations of a registry on the session of an xid. -/
inductive Move
  | start
  | finish
  | prepare
  | commit
  | rollback
deriving DecidableEq, Repr

mutual

/-- A step of a rehearsal.  Objects are called by name; a step that makes an object gives it its
name, in place of one of the same kind that had it. -/
inductive Step
  -- Objects are made.
  | addEngine (name : Bytes) (version : Bytes)
  | addPool (name : Bytes) (place : Place) (capacity : Nat) (timeout : Int64)
  | addParticipant (name : Bytes) (pool : Option Bytes) (dialect : Option Xa.Dialect)
  | addRegistry (name : Bytes) (participant : Option Bytes)
  | addManager (name : Bytes) (pool : Option Bytes) (dialect : Option Retry.Dialect)
      (policy : Retry.Policy)
  | deploy (config : Config)
  -- What objects say about themselves.
  | describeParticipant (participant : Bytes)
  | describeManager (manager : Bytes)
  | poolName (pool : Bytes)
  | hasEngine (name : Bytes)
  -- A participant drives sessions.
  | start (participant xid session : Bytes)
  | finish (participant session : Bytes)
  | prepare (participant session : Bytes)
  | conclude (participant session : Bytes) (ending : Ending)
  -- Sessions are looked at, used and handed around.
  | session (session : Bytes)
  | sessionXid (session : Bytes)
  | useSession (session : Bytes) (request : Request)
  | dropSession (session : Bytes)
  | moveSession (source target : Bytes)
  -- A participant recovers branches.
  | commitByXid (participant xid : Bytes)
  | rollbackByXid (participant xid : Bytes)
  | recover (participant : Bytes)
  | find (participant xid : Bytes)
  | sweep (participant stem : Bytes)
  -- A registry drives its sessions.
  | registered (registry xid : Bytes) (move : Move)
  | isRegistered (registry xid : Bytes)
  | registrySize (registry : Bytes)
  | registryXids (registry : Bytes)
  | registryOwner (registry : Bytes)
  -- Trouble is made for an engine.
  | injectFailure (engine : Bytes) (failure : Engine.Injected)
  | clearFailures (engine : Bytes)
  | setAvailable (engine : Bytes) (on : Bool)
  | injectPrepared (engine xid : Bytes)
  | stageOf (engine xid : Bytes)
  | interrupt (engine : Bytes) (trigger : Trigger) (steps : List Step) (failure : Option Fault)
  -- Connections are used directly.
  | connect (engine connection : Bytes)
  | acquire (pool connection : Bytes)
  | useConnection (connection : Bytes) (request : Request)
  | poison (connection : Bytes)
  | connection (connection : Bytes)
  | connectionNumber (connection : Bytes)
  | release (connection : Bytes)
  | dropPool (pool : Bytes)
  -- A manager runs transactions.
  | execute (manager : Bytes) (work : List (List Deed)) (priority : Option Bytes)
      (pauses : List (List Step))
  | clusterInfo (manager : Bytes)
  | asOf (manager query interval : Bytes)

/-- A part of a unit of work. -/
inductive Deed
  | mk (act : Act) (tolerated : Bool)

/-- What a part of a unit of work does. -/
inductive Act
  | execute (sql : Bytes) (params : List Sql.Param)
  | query (sql : Bytes) (params : List Sql.Param)
  | attempt
  | placeholder
  | step (step : Step)
  | fail (fault : Fault)

end

/-- Why a step has no result. -/
inductive Refusal
  /-- There is no object of that name; nothing was done. -/
  | unknown (name : Bytes)
  | fault (fault : Fault)
deriving DecidableEq, Repr

/-- What is seen of a session from outside. -/
structure SessionView where
  state : Xa.State
  isOpen : Bool
deriving DecidableEq, Repr

/-- The numbers of the objects of a deployment. -/
structure Inventory where
  participants : Nat
  registries : Nat
  managers : Nat
  engines : Nat
  staleStem : Bytes
deriving DecidableEq, Repr

/-- What is seen of a connection from outside. -/
structure ConnectionView where
  isHealthy : Bool
  isPoisoned : Bool
  placeholder : Bytes
deriving DecidableEq, Repr

mutual

/-- The result of a step. -/
inductive Outcome
  | done
  | flag (b : Bool)
  | count (n : Nat)
  | number (n : Nat)
  | text (s : Bytes)
  | texts (list : List Bytes)
  | session (s : SessionView)
  | sessions (source target : SessionView)
  | branch (found : Option Xa.Recovered)
  | branches (list : List Xa.Recovered)
  | stage (s : Option Engine.Stage)
  | rows (rows : Sql.Rows)
  | connection (c : ConnectionView)
  | participant (p : Participant)
  | manager (m : Retry.Manager)
  | inventory (i : Inventory)
  | cluster (info : Retry.ClusterInfo)
  /-- How a transaction ended, what each attempt did, and the pauses in milliseconds. -/
  | transaction (failure : Option Fault) (attempts : List (List Note)) (pauses : List Int64)

/-- What came of a part of a unit of work. -/
inductive Note
  | outcome (o : Outcome)
  | failed (f : Fault)
  | reply (r : Reply)

/-- What came of a step. -/
inductive Reply
  | ok (o : Outcome)
  | refused (r : Refusal)

end

end Coordinator.Rehearsal
