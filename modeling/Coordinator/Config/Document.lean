import Coordinator.Config.Numeral
import Coordinator.Fault

/-! # Configuration documents

A configuration file is a tree of YAML nodes whose scalars are text.  `Document.ofNode` gives the
scalars their types: quoted ones are text, `true` and `false` are flags, numerals are numbers, and
all else is text.  The fields of a record have keys of their own, while a YAML mapping may have a key
twice: then the second value is written where the first one already stands (`Document.write`). -/
namespace Coordinator.Config

/-- A node of a YAML tree.  The keys of a mapping are nodes as well, and none is kept from standing
there twice. -/
inductive Node
  | null
  /-- A node that the document refers to and does not have. -/
  | undefined
  | scalar (tag text : Bytes)
  | sequence (items : List Node)
  | mapping (entries : List (Node × Node))
deriving Inhabited

/-- The text that a node has: that of a scalar, and none else. -/
def Node.text : Node → Bytes
  | .scalar _ text => text
  | _ => []

/-- A typed configuration tree. -/
inductive Document
  | null
  | flag (b : Bool)
  | number (x : Binary64)
  | text (s : Bytes)
  | list (items : List Document)
  | record (fields : List (Bytes × Document))
deriving Inhabited

namespace Document

/-- The tag of a scalar that was written in quotes. -/
def quotedTag : Bytes := ascii "!"

/-- The number that a plain scalar denotes.  Only the text before the first NUL counts, and there
must be some text: of a scalar that starts with NUL the numeral is empty, and its value zero. -/
def number? (text : Bytes) : Option Binary64 :=
  match text with
  | [] => none
  | 0 :: _ => some (.withSign false 0)
  | text => Numeral.read? (Bytes.untilNul text)

/-- The value of a scalar. -/
def ofScalar (tag value : Bytes) : Document :=
  if tag = quotedTag then text value
  else if value = ascii "true" then flag true
  else if value = ascii "false" then flag false
  else match number? value with
    | some x => number x
    | none => text value

/-- A tree holds a node that does not exist. -/
structure Undefined where
deriving DecidableEq, Repr

def Undefined.fault (_ : Undefined) : Fault := .of .runtime [ascii "Unsupported YAML node"]

/-! ## Writing nodes into a tree -/

/-- The items that a sequence written to this place joins. -/
def items : Document → List Document
  | list items => items
  | _ => []

/-- The fields that a mapping written to this place joins. -/
def fields : Document → List (Bytes × Document)
  | record fields => fields
  | _ => []

/-- What stands in the field with a key; a field that is not there yet is null. -/
def fieldAt (key : Bytes) (fields : List (Bytes × Document)) : Document :=
  (fields.lookup key).getD null

/-- Fills the field with a key, which is added if it is not there. -/
def setField (key : Bytes) (v : Document) : List (Bytes × Document) → List (Bytes × Document)
  | [] => [(key, v)]
  | (k, w) :: rest => if k = key then (k, v) :: rest else (k, w) :: setField key v rest

mutual

/-- What stands in a place where `old` stood, after a node was written there.  A sequence adds its
items to a list, and a mapping fills the fields of a record; otherwise what stood there is lost. -/
def write (old : Document) : Node → Except Undefined Document
  | .null => .ok .null
  | .undefined => .error ⟨⟩
  | .scalar tag value => .ok (ofScalar tag value)
  | .sequence items => return .list (old.items ++ (← ofItems items))
  | .mapping entries => return .record (← writeEntries old.fields entries)

/-- The typed forms of the items of a sequence. -/
def ofItems : List Node → Except Undefined (List Document)
  | [] => .ok []
  | n :: rest => return (← write .null n) :: (← ofItems rest)

/-- The fields after the entries of a mapping were written to them, one after the other, each to
the field that the text of its key names. -/
def writeEntries (fields : List (Bytes × Document)) :
    List (Node × Node) → Except Undefined (List (Bytes × Document))
  | [] => .ok fields
  | (key, n) :: rest => do
    let v ← write (fieldAt key.text fields) n
    writeEntries (setField key.text v fields) rest

end

/-- The typed form of a tree. -/
def ofNode (n : Node) : Except Undefined Document := write null n

end Document
end Coordinator.Config
