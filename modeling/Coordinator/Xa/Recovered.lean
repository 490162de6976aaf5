import Coordinator.Sql.Row

/-! # Recovered branches

A recovery query answers with one row per prepared branch.  `Recovered.ofRow` reads such a row. -/
namespace Coordinator.Xa

/-- A prepared branch as a backend reports it, apart from any session. -/
structure Recovered where
  formatId : Int64
  /-- The number of bytes of the global part of the xid. -/
  globalLength : Int64
  /-- The number of bytes of the branch qualifier. -/
  qualifierLength : Int64
  /-- The bytes of both parts. -/
  data : Bytes
  /-- The global part. -/
  xid : Bytes
deriving DecidableEq, Repr

namespace Recovered

/-- Why a row does not describe a branch. -/
inductive RowFault
  | tooFewColumns (columns : Nat)
  | cell (cause : Sql.Row.CellFault)
deriving DecidableEq, Repr

def RowFault.fault : RowFault → Fault
  | .tooFewColumns columns =>
    .of .fatal [ascii "recovery row has ", Decimal.ofNat columns, ascii " columns, expected 4"]
  | .cell cause => cause.fault

/-- The branch a row describes.  A length that is negative or beyond the data is cut to it. -/
def ofRow (row : Sql.Row) : Except RowFault Recovered := do
  if row.length < 4 then throw (.tooFewColumns row.length)
  let formatId ← (row.int64 0).mapError .cell
  let globalLength ← (row.int64 1).mapError .cell
  let qualifierLength ← (row.int64 2).mapError .cell
  let data ← (row.text 3).mapError .cell
  return ⟨formatId, globalLength, qualifierLength, data, data.take globalLength.toInt.toNat⟩

end Recovered
end Coordinator.Xa
