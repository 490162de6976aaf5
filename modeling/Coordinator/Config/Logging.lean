import Coordinator.Config.Basic
import Coordinator.Journal

/-! # How the journal is written

A setting of the environment wins over the configuration, even an empty one; an empty setting of
the configuration counts as absent.  Under the settings in force a logging library writes the
records to the standard output. -/
namespace Coordinator.Config.Logging

def defaultLevel : Bytes := ascii "info"

def defaultPattern : Bytes := ascii "%Y-%m-%dT%H:%M:%S.%e%z [%^%l%$] %v"

/-- The setting in force, given that of the environment and that of the configuration. -/
def choose (default : Bytes) (environment : Option Bytes) (configured : Bytes) : Bytes :=
  environment.getD (if configured = [] then default else configured)

/-- The level and the pattern in force. -/
def resolve (c : LoggingSettings) (level pattern : Option Bytes) : LoggingSettings :=
  ⟨choose defaultLevel level c.level, choose defaultPattern pattern c.pattern⟩

/-- A logging library: what it writes of a record under the settings in force.  The number is the
place of the record in the journal: two records may come out differently though they are the same,
since a pattern can ask for the time. -/
abbrev Library := LoggingSettings → Nat → Journal.Record → Bytes

/-- The levels that settings may name, from the one that admits every record. -/
def levels : List Bytes :=
  [ascii "trace", ascii "debug", ascii "info", ascii "warn", ascii "error"]

/-- A library that writes a record on a line of its own, its level in front, if the level in force
admits it.  It knows no patterns. -/
def plain : Library := fun settings _ r =>
  if levels.idxOf settings.level ≤ levels.idxOf r.level.name then r.line ++ [10] else []

end Coordinator.Config.Logging
