import Coordinator.Binary64

/-! # Numerals

`Numeral.read?` reads a text that is, as a whole, a numeral: blanks, a sign, and then a decimal or
hexadecimal number with optional point and exponent, or the name of infinity or of a value that
is not a number.  The result is the double nearest to what the text denotes. -/
namespace Coordinator.Config.Numeral

/-- The value of a hexadecimal digit. -/
def hexValue? (b : UInt8) : Option Nat :=
  if Byte.isDigit b then some (b - 48).toNat
  else if 97 ≤ b && b ≤ 102 then some (b - 87).toNat
  else if 65 ≤ b && b ≤ 70 then some (b - 55).toNat
  else none

/-- The value of a decimal digit. -/
def decimalValue? (b : UInt8) : Option Nat :=
  if Byte.isDigit b then some (b - 48).toNat else none

/-- Digits with an optional point: all of them as one number, how many stand after the point, and
how many there are. -/
structure Mantissa where
  digits : Nat
  afterPoint : Nat
  count : Nat

/-- The digits that `s` starts with, continuing `m`, and what follows them.  `pointed` tells
whether the point has been passed. -/
def readMantissa (base : Nat) (digit? : UInt8 → Option Nat) (pointed : Bool) (m : Mantissa) :
    Bytes → Mantissa × Bytes
  | [] => (m, [])
  | b :: rest => match digit? b with
    | some d => readMantissa base digit? pointed
        ⟨m.digits * base + d, m.afterPoint + if pointed then 1 else 0, m.count + 1⟩ rest
    | none =>
      if b = 46 ∧ !pointed then readMantissa base digit? true m rest else (m, b :: rest)

/-- An exponent after its letter, as the whole rest of the text. -/
def readExponent? : Bytes → Option Int
  | 45 :: rest => (Decimal.readNat? rest).map fun n => -(n : Int)
  | 43 :: rest => (Decimal.readNat? rest).map Int.ofNat
  | s => (Decimal.readNat? s).map Int.ofNat

/-- The exponent part that is the whole of `s`; `letter` is its letter in upper case. -/
def exponentPart? (letter : UInt8) : Bytes → Option Int
  | [] => some 0
  | b :: rest => if Byte.toUpper b = letter then readExponent? rest else none

/-- The double nearest to `digits * base ^ exponent`.  `size` is an exponent of the base that the
digits stay below; numbers that are beyond every double, or below half the smallest one, are
decided by it, so that no power is larger than a double needs. -/
def scale (negative : Bool) (base digits size : Nat) (exponent : Int) : Binary64 :=
  if digits = 0 then .withSign negative 0
  else if 1100 < exponent + size then .infinity negative
  else if exponent + size < -1100 then .withSign negative 0
  else .ofRatio negative (digits * Nat.pow base exponent.toNat) (Nat.pow base (-exponent).toNat)

/-- A decimal number that is the whole of `s`. -/
def decimal? (negative : Bool) (s : Bytes) : Option Binary64 := do
  let (m, rest) := readMantissa 10 decimalValue? false ⟨0, 0, 0⟩ s
  if m.count = 0 then none
  else
    let exponent ← exponentPart? 69 rest
    return scale negative 10 m.digits (Decimal.ofNat m.digits).length (exponent - m.afterPoint)

/-- A hexadecimal number, after its `0x`, that is the whole of `s`. -/
def hexadecimal? (negative : Bool) (s : Bytes) : Option Binary64 := do
  let (m, rest) := readMantissa 16 hexValue? false ⟨0, 0, 0⟩ s
  if m.count = 0 then none
  else
    let exponent ← exponentPart? 80 rest
    return scale negative 2 m.digits (m.digits.log2 + 1) (exponent - 4 * m.afterPoint)

/-- What may follow `nan`: nothing, or letters, digits and underscores in parentheses. -/
def isNanTail (s : Bytes) : Bool :=
  match s with
  | [] => true
  | 40 :: rest => rest.getLast? == some 41 &&
      rest.dropLast.all fun b => Byte.isAlphanumeric b || b == 95
  | _ => false

/-- An unsigned numeral that is the whole of `s`. -/
def unsigned? (negative : Bool) (s : Bytes) : Option Binary64 :=
  let upper := s.toUpper
  if upper = ascii "INF" ∨ upper = ascii "INFINITY" then some (.infinity negative)
  else if upper.startsWith (ascii "NAN") then
    if isNanTail (s.drop 3) then some .nan else none
  else if upper.startsWith (ascii "0X") then hexadecimal? negative (s.drop 2)
  else decimal? negative s

/-- The double that a text denotes, if the whole text is a numeral. -/
def read? (s : Bytes) : Option Binary64 :=
  match s.trimLeft with
  | 45 :: rest => unsigned? true rest
  | 43 :: rest => unsigned? false rest
  | rest => unsigned? false rest

end Coordinator.Config.Numeral
