import Coordinator.Config.Duration

/-! # Configurations

A `Config` names the participants of distributed transactions and the managers of retried ones,
each with the backend behind it and the size of its connection pool.  An optional value that is
absent stands for a default which the component concerned supplies. -/
namespace Coordinator.Config

/-- The connections of one component. -/
structure PoolSettings where
  /-- The most connections at a time; zero asks for the default. -/
  maxConnections : UInt32 := 0
  /-- How long to wait for a free connection. -/
  acquireTimeout : Option Duration := none
deriving DecidableEq, Repr

/-- How the journal is written. -/
structure LoggingSettings where
  level : Bytes := []
  pattern : Bytes := []
deriving DecidableEq, Repr

/-- What is behind a participant. -/
inductive ParticipantBackend
  /-- An engine in this process; equal names mean the same engine. -/
  | memory (engine : Bytes)
  | mysql (host unixSocket : Bytes)
  | postgres (uri : Bytes)
deriving DecidableEq, Repr

/-- A participant of distributed transactions. -/
structure ParticipantSettings where
  name : Bytes
  pool : PoolSettings := {}
  backend : Option ParticipantBackend := none
deriving DecidableEq, Repr

/-- What is behind a retry manager. -/
inductive ManagerBackend
  | cockroach (uri : Bytes)
  | sqlite (path : Bytes)
  /-- An engine in this process; equal names mean the same engine. -/
  | memory (engine : Bytes)
deriving DecidableEq, Repr

/-- How often and how fast a manager retries. -/
structure RetrySettings where
  maxRetries : Option UInt32 := none
  baseBackoff : Option Duration := none
  maxBackoff : Option Duration := none
deriving DecidableEq, Repr

/-- A manager of retried transactions. -/
structure ManagerSettings where
  name : Bytes
  pool : PoolSettings := {}
  retry : RetrySettings := {}
  backend : Option ManagerBackend := none
deriving DecidableEq, Repr

end Config

/-- A configuration of the coordinator. -/
structure Config where
  logging : Config.LoggingSettings := {}
  participants : List Config.ParticipantSettings := []
  managers : List Config.ManagerSettings := []
  /-- The stem of the xids that a sweep of stale branches rolls back by default. -/
  staleStem : Bytes := []
deriving DecidableEq, Repr

end Coordinator
