import Coordinator.Bytes

/-! # Decimal text of integers

The written form of an integer has no leading zero and no plus sign.  Reading accepts an optional
minus sign and one or more digits, leading zeros included, and nothing else. -/
namespace Coordinator.Decimal

/-- The digits of a natural number, most significant first. -/
def ofNat (n : Nat) : Bytes :=
  if n < 10 then [48 + n.toUInt8] else ofNat (n / 10) ++ [48 + (n % 10).toUInt8]
termination_by n

/-- The text of an integer. -/
def ofInt : Int → Bytes
  | .ofNat n => ofNat n
  | .negSucc n => 45 :: ofNat (n + 1)

/-- The value of a run of digits, read after `acc`. -/
def valueFrom (acc : Nat) : Bytes → Nat
  | [] => acc
  | b :: rest => valueFrom (acc * 10 + (b - 48).toNat) rest

/-- The value of a run of digits. -/
def value (digits : Bytes) : Nat := valueFrom 0 digits

/-- The number a text of digits denotes; nothing for any other text. -/
def readNat? (s : Bytes) : Option Nat :=
  if !s.isEmpty && s.all Byte.isDigit then some (value s) else none

/-- The integer a text denotes: an optional minus sign, then digits. -/
def readInt? : Bytes → Option Int
  | 45 :: rest => (readNat? rest).map fun n => -(n : Int)
  | s => (readNat? s).map Int.ofNat

/-- The integer a text denotes, when it fits in a signed 64-bit word. -/
def readInt64? (s : Bytes) : Option Int64 :=
  (readInt? s).bind fun n => if Int64.minValue.toInt ≤ n ∧ n ≤ Int64.maxValue.toInt then
    some (Int64.ofInt n) else none

end Coordinator.Decimal
