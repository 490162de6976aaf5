import Coordinator.Fault

/-! # Result rows

A query answers with rows of text cells, some of them null.  The getters read one cell; a null
cell reads as the empty text and as zero. -/
namespace Coordinator.Sql

/-- A row of a result: its cells, a null one being `none`. -/
abbrev Row := List (Option Bytes)

/-- The rows of a result. -/
abbrev Rows := List Row

namespace Row

/-- Why a cell cannot be read. -/
inductive CellFault
  | noSuchColumn (column : Int) (columns : Nat)
  /-- The cell is not the decimal text of a signed 64-bit integer. -/
  | notInteger (column : Int) (cell : Bytes)
deriving DecidableEq, Repr

def CellFault.fault : CellFault → Fault
  | .noSuchColumn column columns =>
    .of .fatal [ascii "column index ", Decimal.ofInt column, ascii " out of range (",
      Decimal.ofNat columns, ascii " columns)"]
  | .notInteger column cell =>
    .of .fatal [ascii "column ", Decimal.ofInt column, ascii " is not an integer: '", cell,
      ascii "'"]

/-- The cell in a column, the first being 0. -/
def cell (row : Row) (column : Int) : Except CellFault (Option Bytes) :=
  if column < 0 then .error (.noSuchColumn column row.length)
  else match row[column.toNat]? with
    | some c => .ok c
    | none => .error (.noSuchColumn column row.length)

def text (row : Row) (column : Int) : Except CellFault Bytes :=
  return (← row.cell column).getD []

def isNull (row : Row) (column : Int) : Except CellFault Bool :=
  return (← row.cell column).isNone

/-- The integer in a column. -/
def int64 (row : Row) (column : Int) : Except CellFault Int64 := do
  match ← row.cell column with
  | none => return 0
  | some c => match Decimal.readInt64? c with
    | some n => return n
    | none => throw (.notInteger column c)

/-- The low 32 bits of the integer in a column, as a signed word. -/
def int32 (row : Row) (column : Int) : Except CellFault Int32 :=
  return (← row.int64 column).toInt32

/-- The bits of the integer in a column, as an unsigned word. -/
def uint64 (row : Row) (column : Int) : Except CellFault UInt64 :=
  return (← row.int64 column).toUInt64

/-- Order of cells: null first, then bytewise. -/
def cellLe : Option Bytes → Option Bytes → Bool
  | none, _ => true
  | some _, none => false
  | some a, some b => a.le b

/-- Order of rows: the first cell that differs decides, and a row precedes its extensions. -/
def le : Row → Row → Bool
  | [], _ => true
  | _ :: _, [] => false
  | a :: r, b :: t => if a = b then le r t else cellLe a b

end Row
end Coordinator.Sql
