import Coordinator.Client.Script
import Coordinator.ErrorClass
import Coordinator.Backend
import Coordinator.Sql.Template

/-! # MySQL connections

A `Mysql` is a connection to a MySQL server through its client library, here a scripted one that
keeps a list of the calls made to it.  Protocol statements go over the text protocol only, so
parameters are written into statements.  A connection that once lost its server is broken: it
sends nothing any more. -/
namespace Coordinator.Client

namespace Mysql

/-- A call to the library. -/
inductive Call
  | init
  | optionTimeout (seconds : UInt32)
  | optionCharset (name : Bytes)
  | connect (host user password database : Option Bytes) (tcpPort : UInt32) (socket : Option Bytes)
  | close
  | query (sql : Bytes)
  | storeResult
  | freeResult
deriving DecidableEq, Repr

/-- Where to connect, as whom, and for how long to try. -/
structure Options where
  host : Bytes := []
  tcpPort : UInt32 := 3306
  user : Bytes := []
  password : Bytes := []
  database : Bytes := []
  unixSocket : Bytes := []
  /-- In seconds. -/
  timeout : Int64 := 10
deriving DecidableEq, Repr

/-- The state of the library's error functions. -/
structure Failure where
  number : UInt32 := 0
  sqlstate : Bytes := ascii "00000"
  message : Bytes := []
deriving DecidableEq, Repr

/-- How the library answers while a connection is opened. -/
structure Opening where
  /-- Whether there is no memory for a handle. -/
  noHandle : Bool := false
  /-- Whether the server cannot be reached. -/
  fails : Bool := false
  failure : Failure := {}
deriving DecidableEq, Repr

/-- How the library answers to a statement. -/
structure Reply where
  code : Int32 := 0
  failure : Failure := {}
  /-- The rows of the stored result; none when there is no result to store. -/
  rows : Option Sql.Rows := none
  /-- The number of columns that a result would have. -/
  fieldCount : UInt32 := 0
  /-- The number of columns of the stored result, if it is not that of its first row. -/
  columns : Option Nat := none
deriving DecidableEq, Repr

end Mysql

/-- A connection to a MySQL server. -/
structure Mysql where
  opening : Mysql.Opening := {}
  script : Script Mysql.Reply := []
  connected : Bool := false
  broken : Bool := false
  poisoned : Bool := false
  /-- What the library's error functions report. -/
  failure : Mysql.Failure := {}
  /-- The calls made to the library, in order. -/
  calls : List Mysql.Call := []

namespace Mysql

/-- Makes a call to the library. -/
def call (c : Call) : Action Mysql Unit := .update fun s => { s with calls := s.calls ++ [c] }

/-- A text for the library, which takes nothing for an empty one and reads to the first NUL. -/
def textOrNull (s : Bytes) : Option Bytes := if s = [] then none else some s.untilNul

def close (s : Mysql) : Mysql := { s with connected := false, calls := s.calls ++ [.close] }

/-- Connects to a server. -/
def connect (o : Options) : Action Mysql Unit := do
  call .init
  let opening ← .read Mysql.opening
  if opening.noHandle then
    .fail (.of .connection [ascii "mysql_init failed: out of memory"])
  call (.optionTimeout o.timeout.toUInt64.toUInt32)
  call (.optionCharset (ascii "utf8mb4"))
  call (.connect (textOrNull o.host) (textOrNull o.user) (textOrNull o.password)
    (textOrNull o.database) o.tcpPort (textOrNull o.unixSocket))
  if opening.fails then
    call .close
    .fail (.of .connection [ascii "mysql connect: ", opening.failure.message.untilNul])
  .update fun s => { s with connected := true }

/-- The fault of what the library's error functions report after a call. -/
def Failure.fault (operation : String) (f : Failure) : Fault :=
  let sqlstate := f.sqlstate.untilNul
  (ErrorClass.ofMysql f.number sqlstate).fault
    (ascii "mysql " ++ ascii operation ++ ascii " [" ++ Decimal.ofNat f.number.toNat ++ [47] ++
      sqlstate ++ ascii "]: " ++ f.message.untilNul)

/-- Fails with what the library reports.  A lost server breaks the connection. -/
def failWith {α : Type} (operation : String) : Action Mysql α := fun s =>
  let lost := ErrorClass.ofMysql s.failure.number s.failure.sqlstate.untilNul = .connectionLost
  (.error (s.failure.fault operation), { s with broken := s.broken || lost })

/-- Takes the reply to a statement from the script. -/
def reply (sql : Bytes) : Action Mysql Reply := fun s =>
  let (r, script) := s.script.answer sql
  (.ok (r.getD {}), { s with script })

/-- Sends a statement and stores its result, if it has one. -/
def send (sql : Bytes) : Action Mysql (Option Reply) := do
  if ← .read fun s => !s.connected || s.broken then
    .fail (.of .connection [ascii "mysql connection is closed"])
  call (.query sql)
  let r ← reply sql
  .update fun s => { s with failure := r.failure }
  if r.code ≠ 0 then failWith "query"
  call .storeResult
  if r.rows.isNone then
    if r.fieldCount ≠ 0 then failWith "store_result" else return none
  else return some r

/-- The rows of a stored result, each with as many cells as the result has columns. -/
def Reply.table (r : Reply) : Sql.Rows :=
  let rows := r.rows.getD []
  let columns := r.columns.getD ((rows.head?.map List.length).getD 0)
  rows.map fun row => (List.range columns).map fun i => row[i]?.join

/-- Frees a stored result. -/
def free : Option Reply → Action Mysql Unit
  | none => return
  | some _ => call .freeResult

/-- A byte of a text parameter: what the server would misread has a backslash escape. -/
def escapeByte (b : UInt8) : Bytes :=
  match b with
  | 0 => [92, 48]
  | 10 => [92, 110]
  | 13 => [92, 114]
  | 26 => [92, 90]
  | 92 => [92, 92]
  | 39 => [92, 39]
  | 34 => [92, 34]
  | b => [b]

/-- The literal of a text parameter. -/
def quote (s : Bytes) : Bytes := 39 :: s.flatMap escapeByte ++ [39]

/-- A statement with its parameters written into it. -/
def bind (sql : Bytes) (params : List Sql.Param) : Except Fault Bytes :=
  if params.isEmpty then .ok sql
  else (Sql.Template.bind quote sql params).mapError Sql.Template.BindFault.fault

/-- Sends a statement as it is. -/
def execute (sql : Bytes) : Action Mysql Unit := do free (← send sql)

/-- Sends a statement with parameters. -/
def query (sql : Bytes) (params : List Sql.Param) : Action Mysql Sql.Rows := do
  let r ← send (← .ofExcept (bind sql params))
  free r
  return (r.map Reply.table).getD []

/-- The server as a backend of one connection. -/
def backend (o : Options) : Backend Mysql Unit where
  connect := connect o
  close _ := close
  isHealthy _ s := s.connected && !s.broken
  isPoisoned _ s := s.poisoned
  poison _ s := { s with poisoned := true }
  execute _ := execute
  query _ := query
  placeholders := .questionMark

end Mysql
end Coordinator.Client
