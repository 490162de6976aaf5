import Coordinator.Config.Basic
import Coordinator.Fault

/-! # Valid configurations

`Config.validate` reports the first problem of a configuration, going through the participants
and then the managers in order: names are present and distinct, every component has a backend with
what is needed to reach it, and no time is negative. -/
namespace Coordinator.Config

/-- The two kinds of named components. -/
inductive Role
  | participant
  | manager
deriving DecidableEq, Repr

def Role.name : Role → Bytes
  | participant => ascii "participant"
  | manager => ascii "retry manager"

/-- What is wrong with a component. -/
inductive Problem
  | unnamed
  | duplicate
  | noBackend
  | noPostgresUri
  | noMysqlAddress
  | noCockroachUri
  | noSqlitePath
  | negativeBackoff
  | backoffsCrossed
  | negativeTimeout
deriving DecidableEq, Repr

/-- A problem and the component that has it. -/
structure Invalid where
  role : Role
  name : Bytes
  problem : Problem
deriving DecidableEq, Repr

/-- How a component is called in messages. -/
def quotedName (role : Role) (name : Bytes) : Bytes :=
  role.name ++ ascii " '" ++ name ++ ascii "'"

def Invalid.fault (i : Invalid) : Fault :=
  let owner := quotedName i.role i.name
  .of .invalidArgument (match i.problem with
    | .unnamed => [i.role.name, ascii " without a name"]
    | .duplicate => [ascii "duplicate ", i.role.name, ascii " name '", i.name, ascii "'"]
    | .noBackend => match i.role with
      | .participant => [owner, ascii ": one of memory, mysql, postgres is required"]
      | .manager => [owner, ascii ": one of cockroach, sqlite, memory is required"]
    | .noPostgresUri => [owner, ascii ": postgres.connection_uri is required"]
    | .noMysqlAddress => [owner, ascii ": mysql.host or mysql.unix_socket is required"]
    | .noCockroachUri => [owner, ascii ": cockroach.connection_uri is required"]
    | .noSqlitePath => [owner, ascii ": sqlite.path is required"]
    | .negativeBackoff => [owner, ascii ": retry backoff must not be negative"]
    | .backoffsCrossed => [owner, ascii ": retry.max_backoff is shorter than retry.base_backoff"]
    | .negativeTimeout => [owner, ascii ": pool.acquire_timeout must not be negative"])

/-- Whether an optional duration is present and negative. -/
def isNegative (d : Option Duration) : Bool := d.any Duration.isNegative

/-- The problem of a backend of a participant. -/
def ParticipantBackend.problem? : ParticipantBackend → Option Problem
  | .memory _ => none
  | .mysql host unixSocket => if host = [] ∧ unixSocket = [] then some .noMysqlAddress else none
  | .postgres uri => if uri = [] then some .noPostgresUri else none

/-- The problem of a backend of a manager. -/
def ManagerBackend.problem? : ManagerBackend → Option Problem
  | .memory _ => none
  | .cockroach uri => if uri = [] then some .noCockroachUri else none
  | .sqlite path => if path = [] then some .noSqlitePath else none

/-- The problem of retry settings.  The two delays are compared only where both are given. -/
def RetrySettings.problem? (r : RetrySettings) : Option Problem :=
  if isNegative r.baseBackoff || isNegative r.maxBackoff then some .negativeBackoff
  else match r.baseBackoff, r.maxBackoff with
    | some base, some cap =>
      if cap.toMilliseconds < base.toMilliseconds then some .backoffsCrossed else none
    | _, _ => none

/-- The problem of pool settings. -/
def PoolSettings.problem? (p : PoolSettings) : Option Problem :=
  if isNegative p.acquireTimeout then some .negativeTimeout else none

/-- The problem of a name, given the names before it. -/
def nameProblem? (seen : List Bytes) (name : Bytes) : Option Problem :=
  if name = [] then some .unnamed else if name ∈ seen then some .duplicate else none

/-- The first problem of a participant, given the names of those before it. -/
def ParticipantSettings.problem? (seen : List Bytes) (p : ParticipantSettings) : Option Problem :=
  nameProblem? seen p.name
    <|> (match p.backend with | none => some .noBackend | some b => b.problem?)
    <|> p.pool.problem?

/-- The first problem of a manager, given the names of those before it. -/
def ManagerSettings.problem? (seen : List Bytes) (m : ManagerSettings) : Option Problem :=
  nameProblem? seen m.name
    <|> (match m.backend with | none => some .noBackend | some b => b.problem?)
    <|> m.retry.problem?
    <|> m.pool.problem?

/-- Reports the first participant with a problem. -/
def validateParticipants (seen : List Bytes) : List ParticipantSettings → Except Invalid Unit
  | [] => .ok ()
  | p :: rest => match p.problem? seen with
    | some problem => .error ⟨.participant, p.name, problem⟩
    | none => validateParticipants (p.name :: seen) rest

/-- Reports the first manager with a problem. -/
def validateManagers (seen : List Bytes) : List ManagerSettings → Except Invalid Unit
  | [] => .ok ()
  | m :: rest => match m.problem? seen with
    | some problem => .error ⟨.manager, m.name, problem⟩
    | none => validateManagers (m.name :: seen) rest

/-- Reports the first problem of a configuration. -/
def validate (c : Config) : Except Invalid Unit := do
  validateParticipants [] c.participants
  validateManagers [] c.managers

end Coordinator.Config
