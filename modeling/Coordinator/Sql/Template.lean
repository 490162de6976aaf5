import Coordinator.Fault
import Coordinator.Sql.Param

/-! # Statement templates

A template is a statement with a question mark for each parameter.  Question marks inside quoted
text are text.  A single quote, double quote or backtick opens quoted text that the same byte
closes; between single or double quotes a backslash takes the byte after it along. -/
namespace Coordinator.Sql

/-- Where a position of a template stands. -/
inductive Quoting
  /-- Outside quoted text. -/
  | outside
  /-- Inside text opened by `mark`. -/
  | inside (mark : UInt8)
  /-- Inside text opened by `mark`, right after a backslash. -/
  | escaped (mark : UInt8)
deriving DecidableEq, Repr

namespace Quoting

/-- Single quote, double quote and backtick open quoted text. -/
def isMark (b : UInt8) : Bool := b == 39 || b == 34 || b == 96

/-- The position after one more byte.  Between backticks a backslash is an ordinary byte. -/
def step : Quoting → UInt8 → Quoting
  | outside, b => if isMark b then inside b else outside
  | inside mark, b =>
    if b = 92 ∧ mark ≠ 96 then escaped mark else if b = mark then outside else inside mark
  | escaped mark, _ => inside mark

/-- The position after a text. -/
def after (q : Quoting) (s : Bytes) : Quoting := s.foldl step q

end Quoting

namespace Template

/-- Why parameters cannot be bound to a template. -/
inductive BindFault
  /-- The template has more placeholders than there are parameters. -/
  | tooFewParams (given : Nat)
  /-- Some parameters have no placeholder. -/
  | tooManyParams (placeholders given : Nat)
deriving DecidableEq, Repr

def BindFault.fault : BindFault → Fault
  | .tooFewParams given =>
    .of .fatal [ascii "statement has more placeholders than the ", Decimal.ofNat given,
      ascii " bound parameters"]
  | .tooManyParams placeholders given =>
    .of .fatal [ascii "statement has ", Decimal.ofNat placeholders, ascii " placeholders but ",
      Decimal.ofNat given, ascii " parameters were bound"]

/-- The template with its placeholders filled from the left, and the parameters left over; nothing
when the parameters run out first. -/
def fill (quote : Bytes → Bytes) : Quoting → Bytes → List Param → Option (Bytes × List Param)
  | _, [], params => some ([], params)
  | q, b :: rest, params =>
    if q = .outside ∧ b = 63 then
      match params with
      | [] => none
      | p :: params => (fill quote .outside rest params).map fun (s, left) =>
          (p.render quote ++ s, left)
    else (fill quote (q.step b) rest params).map fun (s, left) => (b :: s, left)

/-- The statement with every parameter in its place. -/
def bind (quote : Bytes → Bytes) (template : Bytes) (params : List Param) :
    Except BindFault Bytes :=
  match fill quote .outside template params with
  | none => .error (.tooFewParams params.length)
  | some (statement, []) => .ok statement
  | some (_, left) => .error (.tooManyParams (params.length - left.length) params.length)

end Template
end Coordinator.Sql
