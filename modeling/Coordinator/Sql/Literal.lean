import Coordinator.Fault

/-! # Quoted string literals

The MySQL form of a literal: single quotes around the text, a quote inside written twice or after
a backslash, and a backslash escape for some bytes.  `Literal.read` is the server's reader of it,
`Literal.quote` the form in which this library writes text parameters. -/
namespace Coordinator.Sql.Literal

/-- Why a text does not start with a literal. -/
inductive ReadFault
  /-- The text does not start with a single quote. -/
  | notQuoted
  /-- No quote closes the literal. -/
  | unterminated
deriving DecidableEq, Repr

def ReadFault.fault : ReadFault → Fault
  | .notQuoted => .of .protocol [ascii "syntax error: expected a quoted literal"]
  | .unterminated => .of .protocol [ascii "syntax error: unterminated quoted literal"]

/-- The byte that an escaped byte stands for: NUL, newline, carriage return, tab, backspace and
substitute have letters of their own, any other byte stands for itself. -/
def unescape (b : UInt8) : UInt8 :=
  match b with
  | 48 => 0
  | 110 => 10
  | 114 => 13
  | 116 => 9
  | 98 => 8
  | 90 => 26
  | b => b

/-- The text up to the closing quote and what follows that quote, after the opening one. -/
def readBody : Bytes → Option (Bytes × Bytes)
  | [] => none
  | 92 :: [] => none
  | 92 :: b :: rest => (readBody rest).map fun (s, tail) => (unescape b :: s, tail)
  | 39 :: 39 :: rest => (readBody rest).map fun (s, tail) => (39 :: s, tail)
  | 39 :: rest => some ([], rest)
  | b :: rest => (readBody rest).map fun (s, tail) => (b :: s, tail)

/-- The text that a literal at the start of `s` denotes, and what follows the literal. -/
def read : Bytes → Except ReadFault (Bytes × Bytes)
  | 39 :: rest => match readBody rest with
    | some found => .ok found
    | none => .error .unterminated
  | _ => .error .notQuoted

/-- A literal of the text: quotes and backslashes are written twice. -/
def quote (s : Bytes) : Bytes :=
  39 :: s.flatMap (fun b => if b = 39 ∨ b = 92 then [b, b] else [b]) ++ [39]

end Coordinator.Sql.Literal
