import Coordinator.Fault

/-! # Error classes

Every backend reports failures in its own codes.  An `ErrorClass` is what the code means for a
coordinator, and `ErrorClass.fault` the failure it is reported as.  The tables here classify
five-byte SQLSTATEs, the MySQL error numbers and the SQLite result codes. -/
namespace Coordinator

/-- The meaning of a backend's error code. -/
inductive ErrorClass
  | ok
  | notFound
  | alreadyExists
  | protocolViolation
  | serializationFailure
  | busy
  | connectionLost
  | unsupported
  | internal
  /-- A number that stands for none of the classes above. -/
  | unlisted
deriving DecidableEq, Repr

namespace ErrorClass

/-- The class with a given number. -/
def ofNumber : Int → ErrorClass
  | 0 => ok
  | 1 => notFound
  | 2 => alreadyExists
  | 3 => protocolViolation
  | 4 => serializationFailure
  | 5 => busy
  | 6 => connectionLost
  | 7 => unsupported
  | 8 => internal
  | _ => unlisted

def name : ErrorClass → Bytes
  | ok => ascii "ok"
  | notFound => ascii "not_found"
  | alreadyExists => ascii "already_exists"
  | protocolViolation => ascii "protocol_violation"
  | serializationFailure => ascii "serialization_failure"
  | busy => ascii "busy"
  | connectionLost => ascii "connection_lost"
  | unsupported => ascii "unsupported"
  | internal => ascii "internal_error"
  | unlisted => ascii "unknown"

/-- The kind of failure a class is reported as.  Classes without a remedy are fatal. -/
def kind : ErrorClass → Fault.Kind
  | notFound => .notFound
  | alreadyExists | protocolViolation => .protocol
  | serializationFailure | busy => .conflict
  | connectionLost => .connection
  | unsupported => .unsupported
  | ok | internal | unlisted => .fatal

/-- The failure a class is reported as.  Reporting `ok` as a failure is a mistake of the caller,
and says so. -/
def fault (c : ErrorClass) (message : Bytes) : Fault :=
  match c with
  | ok => .of .fatal [ascii "Raise called with ErrorCode::OK: ", message]
  | c => .of c.kind [message]

/-- A code that a backend returned with a failure: one that means success is an internal error. -/
def ofFailure : ErrorClass → ErrorClass
  | ok => internal
  | c => c

/-- The class of a SQLSTATE, by its five characters or else by its two-character class. -/
def ofSqlState (sqlstate : Bytes) : ErrorClass :=
  if sqlstate.length ≠ 5 then internal
  else if sqlstate = ascii "40001" ∨ sqlstate = ascii "40P01" then serializationFailure
  else if sqlstate = ascii "55P03" then busy
  else if sqlstate = ascii "42704" then notFound
  else if sqlstate = ascii "42710" then alreadyExists
  else if sqlstate = ascii "55000" then protocolViolation
  else if sqlstate = ascii "0A000" then unsupported
  else if sqlstate = ascii "XAE04" then notFound
  else if sqlstate = ascii "XAE08" then alreadyExists
  else
    let group := sqlstate.take 2
    if group = ascii "08" then connectionLost
    else if group = ascii "57" ∧ sqlstate ≠ ascii "57014" then connectionLost
    else if group = ascii "25" ∨ group = ascii "XA" then protocolViolation
    else internal

/-- The class of a MySQL error: by its number, or else by its SQLSTATE. -/
def ofMysql (number : UInt32) (sqlstate : Bytes) : ErrorClass :=
  match number.toNat with
  | 1397 => notFound
  | 1440 => alreadyExists
  | 1398 | 1399 | 1400 | 1401 | 1402 | 1613 | 1614 => protocolViolation
  | 1213 => serializationFailure
  | 1205 => busy
  | 2002 | 2003 | 2006 | 2013 | 2055 => connectionLost
  | _ => ofSqlState sqlstate

/-- The class of a SQLite result code: its low byte is the primary code. -/
def ofSqlite (code : Int32) : ErrorClass :=
  match (code.toInt % 256) with
  | 0 | 100 | 101 => ok
  | 5 | 6 => busy
  | 10 | 14 => connectionLost
  | 19 => alreadyExists
  | 12 => notFound
  | _ => internal

end ErrorClass
end Coordinator
