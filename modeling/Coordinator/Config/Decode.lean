import Coordinator.Config.Basic
import Coordinator.Config.Document

/-! # Configurations as documents

`Config.ofDocument` reads a configuration off a typed tree.  A field that the configuration does
not know is refused, so that a misspelt name does not pass for an absent one; a field that is null
counts as absent. -/
namespace Coordinator.Config

/-- Why a document is not a configuration. -/
inductive Mismatch
  | unknownField (name : Bytes)
  /-- A field does not hold what it should. -/
  | expected (what : String) (name : Bytes)
deriving DecidableEq, Repr

def Mismatch.text : Mismatch → Bytes
  | unknownField name => ascii "no such field: '" ++ name ++ ascii "'"
  | expected what name => ascii "expected " ++ ascii what ++ ascii " for '" ++ name ++ ascii "'"

/-- The fields of a record. -/
abbrev Fields := List (Bytes × Document)

/-- The fields of a document, which may have no others than those known. -/
def fieldsOf (known : List String) (name : Bytes) : Document → Except Mismatch Fields
  | .record fields => match fields.find? fun f => !(known.map ascii).contains f.1 with
    | some f => .error (.unknownField f.1)
    | none => .ok (fields.filter fun f => match f.2 with | .null => false | _ => true)
  | .null => .ok []
  | _ => .error (.expected "a mapping" name)

namespace Fields

variable {α : Type}

/-- The value of a field that may be absent. -/
def read? (f : Fields) (name : String) (decode : Bytes → Document → Except Mismatch α) :
    Except Mismatch (Option α) :=
  (f.lookup (ascii name)).mapM (decode (ascii name))

/-- The value of a field, or of an absent one. -/
def read (f : Fields) (name : String) (default : α)
    (decode : Bytes → Document → Except Mismatch α) : Except Mismatch α :=
  return (← f.read? name decode).getD default

end Fields

/-! ## Values -/

def textOf (name : Bytes) : Document → Except Mismatch Bytes
  | .text s => .ok s
  | _ => .error (.expected "text" name)

/-- The natural number a document holds, as a number or as digits. -/
def natural? : Document → Option Nat
  | .number x => match x.value with
    | .finite negative units =>
      if (negative ∧ units ≠ 0) ∨ units % Binary64.unitsPerOne ≠ 0 then none
      else some (units / Binary64.unitsPerOne)
    | _ => none
  | .text s => Decimal.readNat? s
  | _ => none

/-- A natural number that fits a 32-bit word. -/
def countOf (name : Bytes) (d : Document) : Except Mismatch UInt32 :=
  match (natural? d).filter (· < UInt32.size) with
  | some n => .ok n.toUInt32
  | none => .error (.expected "a count" name)

/-- The nanoseconds of up to nine decimal places of a second. -/
def nanos? (places : Bytes) : Option Nat :=
  if 9 < places.length then none
  else (Decimal.readNat? places).map fun n => n * Nat.pow 10 (9 - places.length)

/-- Seconds and nanoseconds in decimal notation. -/
def seconds? (s : Bytes) : Option (Nat × Nat) :=
  let fraction := s.dropWhile (· != 46)
  match Decimal.readNat? (s.takeWhile (· != 46)) with
  | none => none
  | some whole =>
    if fraction.isEmpty then some (whole, 0) else (nanos? (fraction.drop 1)).map (whole, ·)

/-- A duration: seconds in decimal notation, and the letter `s`. -/
def Duration.ofText? (s : Bytes) : Option Duration :=
  let negative := s.head? == some 45
  let digits := (if negative then s.drop 1 else s).dropLast
  if s.getLast? ≠ some 115 then none
  else (seconds? digits).map fun (whole, nanos) =>
    let sign : Int := if negative then -1 else 1
    ⟨Int64.ofInt (sign * whole), Int32.ofInt (sign * nanos)⟩

def durationOf (name : Bytes) (d : Document) : Except Mismatch Duration :=
  match d with
  | .text s => match Duration.ofText? s with
    | some d => .ok d
    | none => .error (.expected "a duration" name)
  | _ => .error (.expected "a duration" name)

/-- A list of values; `name` is that of the list. -/
def listOf {α : Type} (decode : Bytes → Document → Except Mismatch α) (name : Bytes) :
    Document → Except Mismatch (List α)
  | .list items => items.mapM (decode name)
  | _ => .error (.expected "a list" name)

/-! ## Parts of a configuration -/

def PoolSettings.decode (name : Bytes) (d : Document) : Except Mismatch PoolSettings := do
  let f ← fieldsOf ["max_connections", "acquire_timeout"] name d
  return ⟨← f.read "max_connections" 0 countOf, ← f.read? "acquire_timeout" durationOf⟩

def LoggingSettings.decode (name : Bytes) (d : Document) : Except Mismatch LoggingSettings := do
  let f ← fieldsOf ["level", "pattern"] name d
  return ⟨← f.read "level" [] textOf, ← f.read "pattern" [] textOf⟩

def RetrySettings.decode (name : Bytes) (d : Document) : Except Mismatch RetrySettings := do
  let f ← fieldsOf ["max_retries", "base_backoff", "max_backoff"] name d
  return ⟨← f.read? "max_retries" countOf, ← f.read? "base_backoff" durationOf,
    ← f.read? "max_backoff" durationOf⟩

/-- The only text field of a record. -/
def onlyText (field : String) (name : Bytes) (d : Document) : Except Mismatch Bytes := do
  (← fieldsOf [field] name d).read field [] textOf

def mysqlOf (name : Bytes) (d : Document) : Except Mismatch ParticipantBackend := do
  let f ← fieldsOf ["host", "port", "user", "password", "database", "unix_socket"] name d
  let _ ← f.read "port" 0 countOf
  let _ ← ["user", "password", "database"].mapM fun field => f.read field [] textOf
  return .mysql (← f.read "host" [] textOf) (← f.read "unix_socket" [] textOf)

/-- The one backend of a component, of those that were given. -/
def onlyBackend {α : Type} (name : Bytes) (given : List (Option α)) :
    Except Mismatch (Option α) :=
  match given.filterMap id with
  | [] => .ok none
  | [b] => .ok (some b)
  | _ => .error (.expected "one backend" name)

def ParticipantSettings.decode (name : Bytes) (d : Document) :
    Except Mismatch ParticipantSettings := do
  let f ← fieldsOf ["name", "pool", "memory", "mysql", "postgres"] name d
  return {
    name := ← f.read "name" [] textOf
    pool := ← f.read "pool" {} PoolSettings.decode
    backend := ← onlyBackend name [
      (← f.read? "memory" (onlyText "engine")).map .memory,
      ← f.read? "mysql" mysqlOf,
      (← f.read? "postgres" (onlyText "connection_uri")).map .postgres] }

def ManagerSettings.decode (name : Bytes) (d : Document) : Except Mismatch ManagerSettings := do
  let f ← fieldsOf ["name", "pool", "retry", "cockroach", "sqlite", "memory"] name d
  return {
    name := ← f.read "name" [] textOf
    pool := ← f.read "pool" {} PoolSettings.decode
    retry := ← f.read "retry" {} RetrySettings.decode
    backend := ← onlyBackend name [
      (← f.read? "cockroach" (onlyText "connection_uri")).map .cockroach,
      (← f.read? "sqlite" (onlyText "path")).map .sqlite,
      (← f.read? "memory" (onlyText "engine")).map .memory] }

/-- The configuration that a document holds. -/
def ofDocument (d : Document) : Except Mismatch Config := do
  let f ← fieldsOf ["logging", "participants", "retry_managers", "recovery"] [] d
  return {
    logging := ← f.read "logging" {} LoggingSettings.decode
    participants := ← f.read "participants" [] (listOf ParticipantSettings.decode)
    managers := ← f.read "retry_managers" [] (listOf ManagerSettings.decode)
    staleStem := ← f.read "recovery" [] (onlyText "stale_prefix") }

end Coordinator.Config
