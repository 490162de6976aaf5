import Coordinator.Fault
import Coordinator.Sql.Words

/-! # Reading the past

`AsOf.addClause` gives a query the clause `AS OF SYSTEM TIME` with an interval.  The clause belongs
at the end of the top-level `FROM` clause: before the first `WHERE`, `GROUP BY`, `HAVING`,
`ORDER BY`, `LIMIT` or `OFFSET` after it, or else at the end of the query, before a semicolon. -/
namespace Coordinator.Retry.AsOf

open Coordinator.Sql (Word wordsOf)

/-- Why a query cannot be given the clause. -/
inductive ClauseFault
  | blankInterval
  | noFrom
deriving DecidableEq, Repr

def ClauseFault.fault : ClauseFault → Fault
  | .blankInterval => .of .invalidArgument [ascii "AS OF SYSTEM TIME interval must not be empty"]
  | .noFrom =>
    .of .invalidArgument [ascii "AS OF SYSTEM TIME needs a query with a top-level FROM clause"]

/-- The operand of the clause.  A literal and an expression with parentheses are used as they are;
anything else becomes a literal with its quotes doubled. -/
def operand (interval : Bytes) : Except ClauseFault Bytes :=
  let bare := interval.trim
  if bare.isEmpty then .error .blankInterval
  else if bare.head? = some 39 ∨ bare.contains 40 then .ok bare
  else .ok (39 :: bare.flatMap (fun b => if b = 39 then [39, 39] else [b]) ++ [39])

/-- Where the `FROM` clause ends, given the words after `FROM`: at a word that starts the next
clause by itself, or at `GROUP` or `ORDER` when the word after it is `BY`.  The word after `GROUP`
or `ORDER` is consumed either way. -/
def clauseEnd? : List Word → Option Nat
  | [] => none
  | w :: rest =>
    if w.is "WHERE" || w.is "HAVING" || w.is "LIMIT" || w.is "OFFSET" then some w.offset
    else if w.is "GROUP" || w.is "ORDER" then
      match rest with
      | [] => none
      | v :: rest => if v.is "BY" then some w.offset else clauseEnd? rest
    else clauseEnd? rest

/-- The words after the first `FROM`, if there is one. -/
def afterFrom? : List Word → Option (List Word)
  | [] => none
  | w :: rest => if w.is "FROM" then some rest else afterFrom? rest

/-- A query without the blanks and the one semicolon it may end with, and whether it had one. -/
def body (query : Bytes) : Bytes × Bool :=
  let bare := query.trimRight
  if bare.getLast? = some 59 then (Bytes.trimRight bare.dropLast, true) else (bare, false)

/-- The query with the clause for `interval` in its place. -/
def addClause (query interval : Bytes) : Except ClauseFault Bytes := do
  let clause := ascii " AS OF SYSTEM TIME " ++ (← operand interval)
  let (bare, semicolon) := body query
  match afterFrom? (wordsOf bare) with
  | none => throw .noFrom
  | some rest =>
    let extended := match clauseEnd? rest with
      | some at_ => Bytes.trimRight (bare.take at_) ++ clause ++ 32 :: bare.drop at_
      | none => bare ++ clause
    return extended ++ if semicolon then [59] else []

end Coordinator.Retry.AsOf
