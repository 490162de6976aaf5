import Coordinator.Decimal

/-! # The journal

Components report what they do as journal records: a level, a message and named fields.  The text
of a record is its message followed by the fields.  Values that callers choose freely, such as
xids, go through `Field.ofBytes`, which writes them so that they fit on one line and can be read
back. -/
namespace Coordinator.Journal

inductive Level
  | debug
  | info
  | warn
  | error
deriving DecidableEq, Repr

def Level.name : Level → Bytes
  | debug => ascii "debug"
  | info => ascii "info"
  | warn => ascii "warn"
  | error => ascii "error"

/-- A named value of a record, its value already in text form. -/
structure Field where
  key : Bytes
  value : Bytes
deriving DecidableEq, Repr

/-- A lower-case hexadecimal digit. -/
def hexDigit (n : UInt8) : UInt8 := if n < 10 then 48 + n else 87 + n

/-- A byte between double quotes: printable ASCII as itself, apart from double quote and
backslash; anything else as backslash, `x` and two hexadecimal digits. -/
def escapeByte (b : UInt8) : Bytes :=
  if Byte.isPrintable b && b != 34 && b != 92 then [b]
  else [92, 120, hexDigit (b / 16), hexDigit (b % 16)]

/-- Any bytes as printable text between double quotes. -/
def printable (s : Bytes) : Bytes := 34 :: s.flatMap escapeByte ++ [34]

namespace Field

def ofText (key value : Bytes) : Field := ⟨key, value⟩

def ofInt (key : Bytes) (n : Int) : Field := ⟨key, Decimal.ofInt n⟩

def ofBool (key : Bytes) (b : Bool) : Field := ⟨key, if b then ascii "true" else ascii "false"⟩

/-- A field whose value may be any bytes. -/
def ofBytes (key value : Bytes) : Field := ⟨key, printable value⟩

def text (f : Field) : Bytes := f.key ++ 61 :: f.value

end Field

/-- One entry of the journal. -/
structure Record where
  level : Level
  message : Bytes
  fields : List Field := []
deriving DecidableEq, Repr

/-- The message and, after a blank each, the fields. -/
def Record.text (r : Record) : Bytes := Bytes.join [32] (r.message :: r.fields.map Field.text)

/-- A record as one line, its level in front. -/
def Record.line (r : Record) : Bytes := r.level.name ++ 124 :: r.text

end Coordinator.Journal
