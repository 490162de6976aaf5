import Coordinator.Fault

/-! # Transaction identifiers in statements

An xid is any string of bytes.  The statements of the two-phase protocol cannot take it as a
parameter, so it is written inline as a quoted literal of the backend.  Each backend bounds the
length, and PostgreSQL admits no NUL. -/
namespace Coordinator.Xa.Xid

/-- Why an xid cannot be written for a backend. -/
inductive QuoteFault
  | empty
  | tooLong (backend : Bytes) (limit : Nat)
  | holdsNul
deriving DecidableEq, Repr

def QuoteFault.fault : QuoteFault → Fault
  | .empty => .of .protocol [ascii "xid must not be empty"]
  | .tooLong backend limit =>
    .of .protocol [backend, ascii " xid exceeds ", Decimal.ofNat limit, ascii " bytes"]
  | .holdsNul => .of .protocol [ascii "postgres xid must not contain NUL bytes"]

/-- The longest xid of MySQL. -/
def mysqlLimit : Nat := 64

/-- The longest xid of PostgreSQL. -/
def postgresLimit : Nat := 199

/-- A byte of an xid inside a MySQL literal: quote and backslash are doubled, NUL has an escape. -/
def mysqlByte (b : UInt8) : Bytes :=
  match b with
  | 39 => [39, 39]
  | 92 => [92, 92]
  | 0 => [92, 48]
  | b => [b]

/-- A byte of an xid inside a PostgreSQL literal: only the quote is doubled. -/
def postgresByte (b : UInt8) : Bytes := if b = 39 then [39, 39] else [b]

/-- The text between single quotes. -/
def enclose (s : Bytes) : Bytes := 39 :: s ++ [39]

/-- The literal of an xid for MySQL. -/
def quoteMysql (xid : Bytes) : Except QuoteFault Bytes :=
  if xid.isEmpty then .error .empty
  else if mysqlLimit < xid.length then .error (.tooLong (ascii "mysql") mysqlLimit)
  else .ok (enclose (xid.flatMap mysqlByte))

/-- The literal of an xid for PostgreSQL. -/
def quotePostgres (xid : Bytes) : Except QuoteFault Bytes :=
  if xid.isEmpty then .error .empty
  else if postgresLimit < xid.length then .error (.tooLong (ascii "postgres") postgresLimit)
  else if xid.contains 0 then .error .holdsNul
  else .ok (enclose (xid.flatMap postgresByte))

end Coordinator.Xa.Xid
