import Coordinator.Engine.Branch
import Coordinator.Sql.Literal

/-! # Statements of the engine

`Statement.parse` reads a statement.  Blanks around it and semicolons after it do not count, and
keywords are read without regard to case.  What is not a statement of the two-phase protocol, a
commit or a question for the version is accepted and means nothing to the engine. -/
namespace Coordinator.Engine

/-- What a statement asks of the engine. -/
inductive Statement
  /-- A protocol step with the branch of an xid. -/
  | branch (verb : Verb) (xid : Bytes)
  /-- Lists the prepared branches. -/
  | recover
  /-- Commits an ordinary transaction. -/
  | commit
  /-- Asks for the version of the server. -/
  | version
  | other
deriving DecidableEq, Repr

/-- Why a text is not a statement. -/
inductive SyntaxFault
  | near (sql : Bytes)
  | literal (cause : Sql.Literal.ReadFault)
  /-- There is text after the xid. -/
  | trailing (rest : Bytes)
deriving DecidableEq, Repr

def SyntaxFault.fault : SyntaxFault → Fault
  | .near sql => .of .protocol [ascii "syntax error near '", sql, ascii "'"]
  | .literal cause => cause.fault
  | .trailing rest => .of .protocol [ascii "syntax error: unexpected '", rest, ascii "' after xid"]

/-- What follows a keyword at the start of a text, blanks apart; nothing if the text starts with
another word. -/
def keyword? (word : String) (text : Bytes) : Option Bytes :=
  let text := text.trimLeft
  let n := word.length
  if Bytes.toUpper (text.take n) = ascii word ∧
      (text.drop n).head?.all (fun b => !(Byte.isAlphanumeric b || b == 95)) then
    some (text.drop n)
  else none

namespace Statement

/-- The statement without the blanks around it and the semicolons after it. -/
def bare (sql : Bytes) : Bytes :=
  sql.trimLeft.dropTailWhile fun b => Byte.isBlank b || b == 59

/-- The step that a text starts with, and what follows it. -/
def verb? (text : Bytes) : Option (Verb × Bytes) :=
  ((keyword? "START" text).or (keyword? "BEGIN" text)).map (.start, ·)
    <|> (keyword? "END" text).map (.finish, ·)
    <|> (keyword? "PREPARE" text).map (.prepare, ·)
    <|> (keyword? "COMMIT" text).map (.commit false, ·)
    <|> (keyword? "ROLLBACK" text).map (.rollback, ·)

/-- The step with what may follow the xid of a commit, `ONE PHASE`, and the text after it. -/
def phase (sql : Bytes) (verb : Verb) (rest : Bytes) : Except SyntaxFault (Verb × Bytes) :=
  match verb with
  | .commit _ => match keyword? "ONE" rest with
    | some rest => match keyword? "PHASE" rest with
      | some rest => .ok (.commit true, rest)
      | none => .error (.near sql)
    | none => .ok (verb, rest.trimLeft)
  | verb => .ok (verb, rest)

/-- The protocol step in `text`, the part of the statement `sql` after `XA`. -/
def parseStep (sql text : Bytes) : Except SyntaxFault Statement :=
  match verb? text with
  | none => .error (.near sql)
  | some (verb, rest) => do
    let (xid, rest) ← (Sql.Literal.read rest.trimLeft).mapError .literal
    let (verb, rest) ← phase sql verb rest
    if rest.trimLeft.isEmpty then return .branch verb xid else throw (.trailing rest)

/-- Reads a statement. -/
def parse (sql : Bytes) : Except SyntaxFault Statement :=
  let text := bare sql
  match keyword? "XA" text with
  | some rest => if (keyword? "RECOVER" rest).isSome then .ok recover else parseStep sql rest
  | none =>
    if (keyword? "COMMIT" text).isSome then .ok commit
    else match keyword? "SELECT" text with
      | some rest => .ok (if rest.toUpper.hasPart (ascii "VERSION()") then version else other)
      | none => .ok other

end Statement
end Coordinator.Engine
