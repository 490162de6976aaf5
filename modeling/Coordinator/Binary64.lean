import Coordinator.Decimal

/-! # Double-precision numbers

A `Binary64` is the 64 bits of an IEEE 754 double.  Every finite one is a whole multiple of the
smallest positive one, so its magnitude is held as that multiple and all arithmetic here is exact
arithmetic on natural numbers: `Binary64.ofRatio` rounds a quotient to the nearest double, and
`Binary64.text` writes the nearest decimal of seventeen significant digits. -/
namespace Coordinator

/-- A double, by its bits: sign, eleven bits of exponent, fifty-two of fraction. -/
structure Binary64 where
  bits : UInt64
deriving DecidableEq, Repr

/-- The quotient rounded to the nearest whole number; a tie goes to the even neighbour. -/
def roundQuotient (num den : Nat) : Nat :=
  let q := num / den
  let twice := 2 * (num % den)
  if twice < den then q
  else if den < twice then q + 1
  else q + q % 2

namespace Binary64

/-- What a double denotes.  The magnitude of a finite one counts units of `2 ^ (-1074)`. -/
inductive Value
  | finite (negative : Bool) (units : Nat)
  | infinite (negative : Bool)
  | nan (negative : Bool)
deriving DecidableEq, Repr

/-- The number of units in one. -/
def unitsPerOne : Nat := Nat.pow 2 1074

/-- The weight of the sign among the bits. -/
def signWeight : Nat := Nat.pow 2 63

/-- The weight of the exponent among the bits; what is below it is the fraction. -/
def exponentWeight : Nat := Nat.pow 2 52

def value (x : Binary64) : Value :=
  let n := x.bits.toNat
  let negative := decide (signWeight ≤ n)
  let exponent := n / exponentWeight % 2048
  let fraction := n % exponentWeight
  if exponent = 2047 then
    if fraction = 0 then .infinite negative else .nan negative
  else if exponent = 0 then .finite negative fraction
  else .finite negative ((exponentWeight + fraction) * Nat.pow 2 (exponent - 1))

/-- The double with a sign and the remaining bits. -/
def withSign (negative : Bool) (rest : Nat) : Binary64 :=
  ⟨((if negative then signWeight else 0) + rest).toUInt64⟩

/-- The bits of infinity, sign apart. -/
def infinityBits : Nat := 2047 * exponentWeight

def infinity (negative : Bool) : Binary64 := withSign negative infinityBits

def nan : Binary64 := withSign false (infinityBits + exponentWeight / 2)

/-- The double nearest to `num / den`; a tie goes to the even one, and what is too large for every
finite double is infinite.  Fifty-three leading bits are kept above `2 ^ 53` units, and all bits
below; either way the sum below is the bit pattern, because a carry out of the fraction is exactly
a step of the exponent. -/
def ofRatio (negative : Bool) (num den : Nat) : Binary64 :=
  let scaled := num * unitsPerOne
  let shift := (scaled / den).log2 + 1 - 53
  let rounded := roundQuotient scaled (den * Nat.pow 2 shift)
  withSign negative (min infinityBits (shift * exponentWeight + rounded))

/-! ## Decimal text -/

/-- How significant digits are laid out as text. -/
structure Layout where
  /-- The number of significant digits before trailing zeros are dropped. -/
  precision : Nat
  /-- The least decimal exponent that is written without an exponent part. -/
  leastPlain : Int
  /-- The least number of digits of an exponent. -/
  exponentWidth : Nat

/-- Seventeen digits, which tell all doubles apart; exponents from `-4` to `16` are not written. -/
def layout : Layout := ⟨17, -4, 2⟩

/-- The `precision` leading decimal digits of `num / den`, correctly rounded, as one number, and
the decimal exponent of the first of them. -/
def significant (precision num den : Nat) : Nat × Int :=
  let guess : Int := (Decimal.ofNat num).length - (Decimal.ofNat den).length
  let reached := decide (den * Nat.pow 10 guess.toNat ≤ num * Nat.pow 10 (-guess).toNat)
  let exponent := if reached then guess else guess - 1
  let shift := exponent - (precision - 1 : Nat)
  let digits := roundQuotient (num * Nat.pow 10 (-shift).toNat) (den * Nat.pow 10 shift.toNat)
  if digits = Nat.pow 10 precision then (Nat.pow 10 (precision - 1), exponent + 1)
  else (digits, exponent)

/-- Digits with a point after the first `whole` of them, padded with zeros up to the point. -/
def pointed (digits : Bytes) (whole : Nat) : Bytes :=
  let fraction := digits.drop whole
  digits.take whole ++ List.replicate (whole - digits.length) 48 ++
    if fraction.isEmpty then [] else 46 :: fraction

/-- The exponent part: sign and at least `width` digits. -/
def exponentPart (width : Nat) (exponent : Int) : Bytes :=
  let digits := Decimal.ofNat exponent.natAbs
  101 :: (if exponent < 0 then 45 else 43) :: (List.replicate (width - digits.length) 48 ++ digits)

/-- The text of a positive magnitude of `units`. -/
def magnitudeText (l : Layout) (units : Nat) : Bytes :=
  let (digits, exponent) := significant l.precision units unitsPerOne
  let shown := (Decimal.ofNat digits).dropTailWhile (· == 48)
  if exponent < l.leastPlain ∨ (l.precision : Int) ≤ exponent then
    pointed shown 1 ++ exponentPart l.exponentWidth exponent
  else if exponent < 0 then
    48 :: 46 :: (List.replicate ((-exponent).toNat - 1) 48 ++ shown)
  else pointed shown (exponent.toNat + 1)

/-- The text of a double. -/
def text (x : Binary64) : Bytes :=
  let signed (negative : Bool) (s : Bytes) : Bytes := if negative then 45 :: s else s
  match x.value with
  | .finite negative units =>
    signed negative (if units = 0 then [48] else magnitudeText layout units)
  | .infinite negative => signed negative (ascii "inf")
  | .nan negative => signed negative (ascii "nan")

end Binary64
end Coordinator
