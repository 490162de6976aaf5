import Coordinator.Command
import Coordinator.Config.Load

/-! # The program

The program reads the configuration file that its arguments name, runs the command, and prints
what came of it.  Backends inside the process start empty with every run.  No client library is
linked in, so databases cannot be opened, and the journal is written plainly. -/
namespace Coordinator.Program

/-- The bytes of a text. -/
def bytes (s : String) : Bytes := s.toUTF8.toList

/-- What a file holds, or why it cannot be read. -/
def contents (path : String) : IO (Except Bytes Bytes) :=
  try
    return .ok (← IO.FS.readBinFile path).toList
  catch e => return .error (bytes (toString e))

/-- Writes bytes as they are. -/
def put (stream : IO.FS.Stream) (s : Bytes) : IO Unit := stream.write s.toByteArray

/-- The library behind SQLite databases, which opens none. -/
def noSqlite : Client.Sqlite where
  opening := { code := 14, nullHandle := true }
  codeText _ := ascii "unable to open database file"

/-- A setting of the environment. -/
def setting (name : String) : IO (Option Bytes) := return (← IO.getEnv name).map bytes

def run (args : List String) : IO UInt32 := do
  let file ← match args with
    | _ :: path :: _ => contents path
    | _ => pure (.error [])
  let outcome := Command.run (fun _ => Config.load file) (args.map bytes) noSqlite
  put (← IO.getStdout) (outcome.standardOutput Config.Logging.plain
    (← setting "TXCOORD_LOG_LEVEL") (← setting "TXCOORD_LOG_PATTERN"))
  put (← IO.getStderr) outcome.errors
  return outcome.code.toUInt32

end Coordinator.Program

def main (args : List String) : IO UInt32 := Coordinator.Program.run args
