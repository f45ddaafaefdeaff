/-!
# Double precision numbers

A number is its 64 bits: a sign, eleven bits of exponent and fifty-two bits of fraction.  The
module reads the bits as a class and an exact dyadic value, negates, compares, and rounds an
exact quotient to the nearest number.
-/

set_option autoImplicit false

namespace ModuleLoader

/-- A double precision number, given by its bits. -/
structure Binary64 where
  bits : UInt64
deriving DecidableEq, Repr, Inhabited

namespace Binary64

/-- What the bits of a number stand for; a finite value is `± significand · 2 ^ exponent`. -/
inductive Reading where
  | nan
  | infinite (negative : Bool)
  | finite (negative : Bool) (significand : Nat) (exponent : Int)
deriving DecidableEq, Repr

/-- The bits of the exponent. -/
def exponentField (x : Binary64) : Nat := x.bits.toNat / Nat.pow 2 52 % Nat.pow 2 11

/-- The bits of the fraction. -/
def fractionField (x : Binary64) : Nat := x.bits.toNat % Nat.pow 2 52

/-- Whether the sign bit is set. -/
def isNegative (x : Binary64) : Bool := Nat.pow 2 63 ≤ x.bits.toNat

/-- What the bits stand for. -/
def reading (x : Binary64) : Reading :=
  if x.exponentField = 2047 then
    if x.fractionField = 0 then .infinite x.isNegative else .nan
  else if x.exponentField = 0 then .finite x.isNegative x.fractionField (-1074)
  else .finite x.isNegative (x.fractionField + Nat.pow 2 52) (x.exponentField - 1075)

/-- The infinity above all numbers. -/
def infinity : Binary64 := ⟨0x7FF0000000000000⟩

/-- The one number that is written for "not a number". -/
def notANumber : Binary64 := ⟨0x7FF8000000000000⟩

/-- The number with the other sign. -/
def negate (x : Binary64) : Binary64 := ⟨x.bits ^^^ 0x8000000000000000⟩

/-- Equality of numbers: nothing equals a non-number, and the two zeros are equal. -/
def equals (x y : Binary64) : Bool :=
  match x.reading, y.reading with
  | .nan, _ | _, .nan => false
  | .finite _ 0 _, .finite _ 0 _ => true
  | _, _ => x == y

/-- The quotient rounded to the nearest whole number, a tie to the even neighbour. -/
def roundQuotient (num den : Nat) : Nat :=
  let q := num / den
  let r := num % den
  if 2 * r < den then q
  else if 2 * r = den then q + q % 2
  else q + 1

/-- The quotient `num / den` divided by `2 ^ exponent`, as a fraction again. -/
def scaleQuotient (num den : Nat) (exponent : Int) : Nat × Nat :=
  (num * Nat.pow 2 (-exponent).toNat, den * Nat.pow 2 exponent.toNat)

/-- The exponent at which a quotient has fifty-three significant bits, or the least one. -/
def quotientExponent (num den : Nat) : Int :=
  let low : Int := max (-1074) ((num.log2 : Int) - den.log2 - 53)
  let (a, b) := scaleQuotient num den low
  if Nat.pow 2 53 ≤ a / b then low + 1 else low

/-- The number nearest to a quotient of whole numbers, a tie to the even significand. -/
def ofQuotient (num den : Nat) : Binary64 :=
  if num = 0 then ⟨0⟩
  else
    let e := quotientExponent num den
    let (a, b) := scaleQuotient num den e
    let bits := (e + 1074).toNat * Nat.pow 2 52 + roundQuotient a b
    if bits < 0x7FF0000000000000 then ⟨bits.toUInt64⟩ else infinity

/-- The number nearest to `digits · 10 ^ exponent`; quotients far outside the range of finite
numbers are answered without forming the power. -/
def ofDecimal (digits : Nat) (exponent : Int) : Binary64 :=
  let magnitude : Int := digits.log2 + exponent * 3
  if digits = 0 then ⟨0⟩
  else if 0 < exponent && 1100 < magnitude then infinity
  else if exponent < 0 && (digits.log2 : Int) + 1 + exponent * 3 < -1200 then ⟨0⟩
  else if 0 ≤ exponent then ofQuotient (digits * Nat.pow 10 exponent.toNat) 1
  else ofQuotient digits (Nat.pow 10 (-exponent).toNat)

end Binary64

end ModuleLoader
