import Coordinator.Backend
import Coordinator.Client.Script
import Coordinator.ErrorClass
import Coordinator.Table

/-! # SQLite connections

A `Sqlite` holds the connections to SQLite databases and the library behind them, here a scripted
one that keeps a list of the calls made to it.  Every prepared statement is finalized before the
operation that prepared it ends, and a connection that cannot be configured is closed at once.
The library may open a database without giving a handle to it; a connection without a handle still
takes statements, but it is never healthy and has nothing to close.

Texts reach the library up to their first NUL; only bound texts reach it whole, if they are shorter
than 2 GiB. -/
namespace Coordinator.Client

namespace Sqlite

/-- The number of a connection. -/
abbrev ConnectionId := Nat

/-- A call to the library. -/
inductive Call
  | openDatabase (path : Bytes) (flags : Nat)
  | close
  | execute (sql : Bytes)
  | prepare (sql : Bytes)
  | bindNull (index : Nat)
  | bindText (index : Nat) (text : Bytes)
  | bindReal (index : Nat) (x : Binary64)
  | bindInteger (index : Nat) (n : Int64)
  | step
  | finalize
  | busyTimeout (milliseconds : Int32)
deriving DecidableEq, Repr

/-- The text of an error that is none. -/
def noError : Bytes := ascii "not an error"

/-- How the library answers while a database is opened. -/
structure Opening where
  code : Int32 := 0
  /-- Whether no handle comes of it, be the code that of a failure or not. -/
  nullHandle : Bool := false
  message : Bytes := noError
  busyCode : Int32 := 0
  busyMessage : Bytes := noError
deriving DecidableEq, Repr

/-- How the library answers to a statement. -/
structure Reply where
  /-- The result of executing or preparing the statement. -/
  code : Int32 := 0
  message : Option Bytes := none
  /-- Whether a successful prepare yields no statement, as for a comment. -/
  nullStatement : Bool := false
  paramCount : Int32 := 0
  /-- The result of binding at `bindFailAt`. -/
  bindCode : Int32 := 25
  bindFailAt : Option Int := none
  rows : Sql.Rows := []
  /-- The result of the step after the last row. -/
  endCode : Int32 := 101
deriving DecidableEq, Repr

/-- A connection, as the library and its user see it. -/
structure Connection where
  /-- Whether the library gave a handle. -/
  hasHandle : Bool := true
  /-- The message of the last call that set one. -/
  message : Bytes := noError
  poisoned : Bool := false
deriving DecidableEq, Repr

end Sqlite

/-- The connections to SQLite databases. -/
structure Sqlite where
  opening : Sqlite.Opening := {}
  script : Script Sqlite.Reply := []
  /-- The text that the library has for a result code. -/
  codeText : Int32 → Bytes := fun _ => Sqlite.noError
  connections : Table Sqlite.ConnectionId Sqlite.Connection := ∅
  next : Sqlite.ConnectionId := 1
  /-- The calls made to the library, in order. -/
  calls : List Sqlite.Call := []

namespace Sqlite

/-- Read and write, create, serialize access, take paths as locators. -/
def openFlags : Nat := 2 + 4 + 65536 + 64

/-- The statements that configure a new connection: readers go on beside one writer, syncing is
relaxed, foreign keys are checked. -/
def pragmas : List Bytes :=
  [ascii "PRAGMA journal_mode=WAL;", ascii "PRAGMA synchronous=NORMAL;",
    ascii "PRAGMA foreign_keys=ON;"]

/-- Makes a call to the library. -/
def call (c : Call) : Action Sqlite Unit := .update fun s => { s with calls := s.calls ++ [c] }

/-- Takes the reply to a statement from the script. -/
def reply (sql : Bytes) : Action Sqlite Reply := fun s =>
  let (r, script) := s.script.answer sql
  (.ok (r.getD {}), { s with script })

/-- Sets the message of a connection. -/
def setMessage (c : ConnectionId) (message : Bytes) : Action Sqlite Unit :=
  .update fun s => { s with connections := s.connections.modify c ({ · with message }) }

/-- What the library has to say after a call that returned a code: the message of the connection,
or the text of the code if there is no handle to ask. -/
def messageAfter (c : ConnectionId) (code : Int32) (s : Sqlite) : Bytes :=
  match (s.connections.get? c).filter (·.hasHandle) with
  | some x => x.message.untilNul
  | none => s.codeText code

/-- Fails after a call with the code it returned and what the library has to say. -/
def failWith {α : Type} (c : ConnectionId) (code : Int32) (operation : String) :
    Action Sqlite α := do
  let message ← .read (messageAfter c code)
  .fail ((ErrorClass.ofSqlite code).ofFailure.fault (ascii operation ++ ascii ": " ++ message))

/-- Sends a statement as it is. -/
def execute (_ : ConnectionId) (sql : Bytes) : Action Sqlite Unit := do
  call (.execute sql.untilNul)
  let r ← reply sql.untilNul
  if r.code ≠ 0 then
    .fail ((ErrorClass.ofSqlite r.code).ofFailure.fault
      ((r.message.map Bytes.untilNul).getD (ascii "sqlite exec failed")))

/-- Prepares a new connection for use. -/
def configure (c : ConnectionId) (timeout : Int32) : Action Sqlite Unit := do
  .forEach (execute c) pragmas
  call (.busyTimeout timeout)
  let opening ← .read Sqlite.opening
  setMessage c opening.busyMessage
  if opening.busyCode ≠ 0 then failWith c opening.busyCode "busy_timeout"

/-- Has the library close the handle of a connection, be there one or not, and forgets the
connection. -/
def discard (c : ConnectionId) (s : Sqlite) : Sqlite :=
  { s with calls := s.calls ++ [.close], connections := s.connections.erase c }

/-- Whether a connection can take statements: whether there is a handle. -/
def isHealthy (c : ConnectionId) (s : Sqlite) : Bool := (s.connections.get? c).any (·.hasHandle)

/-- Closes a connection.  Without a handle the library has nothing to do. -/
def close (c : ConnectionId) (s : Sqlite) : Sqlite :=
  if s.isHealthy c then s.discard c else { s with connections := s.connections.erase c }

/-- Opens a database.  `timeout` is how long the library waits for locks, in milliseconds. -/
def connect (path : Bytes) (timeout : Int32) : Action Sqlite ConnectionId := do
  call (.openDatabase path.untilNul openFlags)
  let opening ← .read Sqlite.opening
  if opening.code ≠ 0 then
    if !opening.nullHandle then call .close
    .fail (.of .connection [ascii "sqlite open '", path, ascii "': ",
      if opening.nullHandle then ascii "sqlite open failed" else opening.message.untilNul])
  else
    let c ← .read Sqlite.next
    let opened : Connection := { hasHandle := !opening.nullHandle, message := opening.message }
    .update fun s => { s with next := c + 1, connections := s.connections.insert c opened }
    (configure c timeout).onFailure fun _ => discard c
    return c

/-- What the library takes of a text.  It is told the length as a signed 32-bit word; with a
negative one it takes what stands before the first NUL. -/
def boundText (s : Bytes) : Bytes :=
  let size := Int32.ofNat s.length
  if size < 0 then s.untilNul else s.take size.toInt.toNat

/-- The call that binds a parameter.  Integers of every width are bound as signed 64-bit words. -/
def bindCall (index : Nat) : Sql.Param → Call
  | .null => .bindNull index
  | .text s => .bindText index (boundText s)
  | .real x => .bindReal index x
  | .int32 n => .bindInteger index n.toInt64
  | .int64 n => .bindInteger index n
  | .uint64 n => .bindInteger index n.toInt64

/-- Binds parameters from an index on. -/
def bindFrom (c : ConnectionId) (r : Reply) : Nat → List Sql.Param → Action Sqlite Unit
  | _, [] => return
  | index, p :: rest => do
    call (bindCall index p)
    if r.bindFailAt = some (index : Int) ∧ r.bindCode ≠ 0 then failWith c r.bindCode "sqlite bind"
    bindFrom c r (index + 1) rest

/-- The bytes of a cell, as the library points to them: to nothing if the cell is null, and also if
it has no bytes. -/
def pointer (cell : Option Bytes) : Option Bytes := cell.filter (· ≠ [])

/-- A cell of a row: the library says whether it is null, and where its bytes are. -/
def readCell (cell : Option Bytes) : Option Bytes :=
  if cell.isNone then none else some ((pointer cell).getD [])

/-- Steps through the rows of a statement. -/
def fetch (c : ConnectionId) (r : Reply) : Action Sqlite Sql.Rows := do
  .forEach (fun _ => call .step) r.rows
  call .step
  if r.endCode ≠ 100 ∧ r.endCode ≠ 101 then failWith c r.endCode "sqlite step"
  return r.rows.map fun row => row.map readCell

/-- Binds the parameters of a prepared statement and fetches its rows. -/
def runPrepared (c : ConnectionId) (r : Reply) (params : List Sql.Param) :
    Action Sqlite Sql.Rows := do
  if Int32.ofNat params.length ≠ r.paramCount then
    .fail (.of .fatal [ascii "sqlite statement expects ", Decimal.ofInt r.paramCount.toInt,
      ascii " parameters, got ", Decimal.ofNat params.length])
  bindFrom c r 1 params
  fetch c r

/-- Sends a statement with parameters. -/
def query (c : ConnectionId) (sql : Bytes) (params : List Sql.Param) : Action Sqlite Sql.Rows := do
  call (.prepare sql.untilNul)
  let r ← reply sql.untilNul
  setMessage c (r.message.getD noError)
  if r.code ≠ 0 then failWith c r.code "sqlite prepare"
  else if r.nullStatement then return []
  else (runPrepared c r params).ensuring fun s => { s with calls := s.calls ++ [.finalize] }

def isPoisoned (c : ConnectionId) (s : Sqlite) : Bool := (s.connections.get? c).any (·.poisoned)

def poison (c : ConnectionId) (s : Sqlite) : Sqlite :=
  { s with connections := s.connections.modify c ({ · with poisoned := true }) }

/-- A database as a backend. -/
def backend {σ : Type} (sqlite : Cell σ Sqlite) (path : Bytes) (timeout : Int32) :
    Backend σ ConnectionId where
  connect := sqlite.run (connect path timeout)
  close c := sqlite.modify (close c)
  isHealthy c s := (sqlite.get s).isHealthy c
  isPoisoned c s := (sqlite.get s).isPoisoned c
  poison c := sqlite.modify (poison c)
  execute c sql := sqlite.run (execute c sql)
  query c sql params := sqlite.run (query c sql params)
  placeholders := .questionMark

end Sqlite
end Coordinator.Client
