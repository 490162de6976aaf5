import Coordinator.Config.Document

/-! # Reading a configuration source

On its way from YAML text to a configuration a document may fail to be read three times: as YAML,
when the typed tree is written as JSON, and when the JSON is read as a configuration.  A `Source`
is the tree of a text together with the failures of the other two readers; `Source.document` gives
each failure the words under which it is reported. -/
namespace Coordinator.Config

/-- Where YAML text was taken from. -/
inductive Origin
  | file
  | text
deriving DecidableEq, Repr

/-- What the readers of a configuration made of it. -/
structure Source where
  /-- The tree of the YAML text, or why there is none. -/
  tree : Except Bytes Node
  /-- Why the typed tree could not be written as JSON. -/
  writeFailure : Option Bytes := none
  /-- Why the JSON is not a configuration. -/
  readFailure : Option Bytes := none

namespace Source

/-- The report of a failure to get at the YAML tree. -/
def loadFault (origin : Origin) (cause : Bytes) : Fault :=
  .of .runtime [match origin with
    | .file => ascii "Failed to load YAML config: "
    | .text => ascii "Failed to parse YAML config: ", cause.untilNul]

/-- The report of a failure to write JSON. -/
def writeFault (cause : Bytes) : Fault :=
  .of .runtime [ascii "Failed to serialize YAML to JSON: ", cause]

/-- The report of JSON that is not a configuration. -/
def readFault (cause : Bytes) : Fault := .of .runtime [ascii "Invalid configuration: ", cause]

/-- The typed tree of a source that all readers accepted. -/
def document (origin : Origin) (s : Source) : Except Fault Document := do
  let tree ← s.tree.mapError (loadFault origin)
  let document ← (Document.ofNode tree).mapError Document.Undefined.fault
  if let some cause := s.writeFailure then throw (writeFault cause)
  if let some cause := s.readFailure then throw (readFault cause)
  return document

end Source
end Coordinator.Config
