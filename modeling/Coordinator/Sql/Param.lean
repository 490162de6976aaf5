import Coordinator.Binary64

/-! # Statement parameters

A statement is sent with an ordered list of parameters.  Backends name them `$1`, `$2`, … or mark
each by a question mark; where a backend cannot bind them, they are rendered into the text. -/
namespace Coordinator.Sql

/-- A value bound to a placeholder. -/
inductive Param
  | null
  | int32 (n : Int32)
  | int64 (n : Int64)
  | uint64 (n : UInt64)
  | real (x : Binary64)
  | text (s : Bytes)
deriving DecidableEq, Repr

/-- The text of a parameter inside a statement; `quote` makes a literal of a text. -/
def Param.render (quote : Bytes → Bytes) : Param → Bytes
  | .null => ascii "NULL"
  | .int32 n => Decimal.ofInt n.toInt
  | .int64 n => Decimal.ofInt n.toInt
  | .uint64 n => Decimal.ofNat n.toNat
  | .real x => x.text
  | .text s => quote s

/-- How a backend marks the places of parameters. -/
inductive PlaceholderStyle
  | questionMark
  | dollarNumbered
deriving DecidableEq, Repr

/-- The placeholder of the parameter with a given number, the first being 1. -/
def PlaceholderStyle.text : PlaceholderStyle → Nat → Bytes
  | .questionMark, _ => [63]
  | .dollarNumbered, index => 36 :: Decimal.ofNat index

end Coordinator.Sql
