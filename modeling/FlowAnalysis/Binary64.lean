/-!
# Binary64 floating-point values

A value is its sixty-four bits. Rounding is defined on exact ratios of naturals, so products and
quotients are the exact ones rounded once, to nearest with ties to even. Two readings of decimal
text build on it: `ofDecimal` rounds the exact decimal, and `scaleByTen?` multiplies or divides an
already rounded significand by a power of ten. The other way, `shortest` finds the decimal with the
fewest digits among those that are rounded to a value.
-/

namespace FlowAnalysis

/-- An IEEE binary64 value, given by its bits. -/
structure Binary64 where
  bits : UInt64
deriving DecidableEq, Repr, Inhabited

namespace Binary64

/-- The bit above the fraction, which is left out of normal values. -/
def hiddenBit : Nat := 0x10000000000000

/-- The bit that is set in negative values. -/
def signBit : Nat := 0x8000000000000000

/-- The bits of positive infinity. -/
def infinityBits : Nat := 0x7ff0000000000000

/-- Rounds the quotient of two naturals to the nearest natural, a half going to the even one. -/
def roundQuotient (numerator denominator : Nat) : Nat :=
  let quotient := numerator / denominator
  let twice := 2 * (numerator % denominator)
  if twice < denominator then quotient
  else if twice = denominator then quotient + quotient % 2
  else quotient + 1

/-- The exponent of the leading binary digit of a positive ratio. -/
def leadingExponent (numerator denominator : Nat) : Int :=
  let estimate : Int := (Nat.log2 numerator : Int) - (Nat.log2 denominator : Int)
  let reached :=
    if estimate < 0 then denominator ≤ numerator * Nat.pow 2 (-estimate).toNat
    else denominator * Nat.pow 2 estimate.toNat ≤ numerator
  if reached then estimate else estimate - 1

/-- The nearest value to a ratio of naturals, infinity when the ratio is too large. -/
def ofRatio (numerator denominator : Nat) : Binary64 :=
  if numerator = 0 then ⟨0⟩
  else
    let quantum : Int := max (leadingExponent numerator denominator - 52) (-1074)
    let significand :=
      if quantum < 0 then roundQuotient (numerator * Nat.pow 2 (-quantum).toNat) denominator
      else roundQuotient numerator (denominator * Nat.pow 2 quantum.toNat)
    let bits := (quantum + 1074).toNat * hiddenBit + significand
    ⟨UInt64.ofNat (min bits infinityBits)⟩

/-- The value with its sign bit flipped. -/
def negate (value : Binary64) : Binary64 :=
  ⟨value.bits ^^^ 0x8000000000000000⟩

/-- Whether the value is neither infinite nor a NaN. -/
def isFinite (value : Binary64) : Bool :=
  value.bits.toNat / hiddenBit % 2048 != 2047

/-- Whether the value is one of the two zeros. -/
def isZero (value : Binary64) : Bool :=
  value.bits.toNat % signBit == 0

/-- Whether the sign bit is set. -/
def isNegative (value : Binary64) : Bool :=
  value.bits.toNat / signBit == 1

/-- The magnitude of a finite value as an integer significand and a power of two. -/
def significandExponent (value : Binary64) : Nat × Int :=
  let biased : Nat := value.bits.toNat / hiddenBit % 2048
  let fraction : Nat := value.bits.toNat % hiddenBit
  if biased = 0 then (fraction, -1074) else (hiddenBit + fraction, (biased : Int) - 1075)

/-- The magnitude of a finite value as a ratio of naturals. -/
def ratio (value : Binary64) : Nat × Nat :=
  let (significand, exponent) := value.significandExponent
  if exponent < 0 then (significand, Nat.pow 2 (-exponent).toNat)
  else (significand * Nat.pow 2 exponent.toNat, 1)

/-- The rounded product of two nonnegative finite values. -/
def times (left right : Binary64) : Binary64 :=
  ofRatio (left.ratio.1 * right.ratio.1) (left.ratio.2 * right.ratio.2)

/-- The rounded quotient of two nonnegative finite values, the divisor not zero. -/
def dividedBy (left right : Binary64) : Binary64 :=
  ofRatio (left.ratio.1 * right.ratio.2) (left.ratio.2 * right.ratio.1)

/-- The value nearest to a power of ten. -/
def powerOfTen (exponent : Nat) : Binary64 :=
  ofRatio (Nat.pow 10 exponent) 1

/-- Divides by a power of ten, in steps of the largest finite power while the exponent exceeds it.
-/
def divideByTen (value : Binary64) (exponent : Nat) : Binary64 :=
  if exponent ≤ 308 then value.dividedBy (powerOfTen exponent)
  else if value.isZero then value
  else divideByTen (value.dividedBy (powerOfTen 308)) (exponent - 308)
termination_by exponent

/-- Scales a nonnegative value by a power of ten with one rounding per step; `none` when the result
is too large to be finite. -/
def scaleByTen? (value : Binary64) (exponent : Int) : Option Binary64 :=
  if exponent < 0 then some (value.divideByTen (-exponent).toNat)
  else if exponent ≤ 308 then
    let product := value.times (powerOfTen exponent.toNat)
    if product.isFinite then some product else none
  else if value.isZero then some value
  else none

/-- The value nearest to `significand * 10 ^ exponent`, infinity when that is too large. -/
def ofDecimal (significand : Nat) (exponent : Int) : Binary64 :=
  if significand = 0 then ⟨0⟩
  else if exponent < 0 then
    let places := (-exponent).toNat
    if significand.log2 + 400 < places then ⟨0⟩
    else ofRatio significand (Nat.pow 10 places)
  else if 400 < exponent then ⟨UInt64.ofNat infinityBits⟩
  else ofRatio (significand * Nat.pow 10 exponent.toNat) 1

/-- How many digits the decimal text of a natural has. -/
def digitCount (value : Nat) : Nat :=
  (Nat.toDigits 10 value).length

/-- The exponent of a power of ten that a positive finite value does not exceed. -/
def decimalBound (value : Binary64) : Int :=
  let (numerator, denominator) := value.ratio
  if denominator ≤ numerator then digitCount (numerator / denominator)
  else 1 - (digitCount (denominator / numerator) : Int)

/-- A quarter of the last binary place of a finite value, over ten to a power. -/
def quarterUnit (value : Binary64) (place : Int) : Nat × Nat :=
  let exponent := value.significandExponent.2 - 2
  (Nat.pow 2 exponent.toNat * Nat.pow 10 (-place).toNat,
    Nat.pow 2 (-exponent).toNat * Nat.pow 10 place.toNat)

/-- How far the reals that are rounded to a positive finite value reach below it, in quarters of its
last binary place. The next value below a power of two is only half a place away. -/
def quartersBelow (value : Binary64) : Nat :=
  if value.bits.toNat % hiddenBit = 0 ∧ 1 < value.bits.toNat / hiddenBit % 2048 then 1 else 2

/-- A positive finite value over ten to a power, rounded to the nearest natural. -/
def roundedAt (value : Binary64) (place : Int) : Nat :=
  let (numerator, denominator) := value.quarterUnit place
  roundQuotient (4 * value.significandExponent.1 * numerator) denominator

/-- Whether a natural times ten to a power is rounded to a positive finite value. The two ends of
the interval are if the significand is even. -/
def isNear (value : Binary64) (place : Int) (digits : Nat) : Bool :=
  let (numerator, denominator) := value.quarterUnit place
  let significand := value.significandExponent.1
  let lower := (4 * significand - value.quartersBelow) * numerator
  let upper := (4 * significand + 2) * numerator
  let point := digits * denominator
  if significand % 2 = 0 then lower ≤ point && point ≤ upper else lower < point && point < upper

/-- The multiple of ten to a power that is closest to a positive finite value among those that are
rounded to it, over that power. -/
def nearestOn? (value : Binary64) (place : Int) : Option Nat :=
  let (numerator, denominator) := value.quarterUnit place
  let below := 4 * value.significandExponent.1 * numerator / denominator
  match value.isNear place below, value.isNear place (below + 1) with
  | true, true => some (value.roundedAt place)
  | true, false => some below
  | false, true => some (below + 1)
  | false, false => none

/-- The closest decimal on the coarsest of some grids that has one. -/
def shortestFrom (value : Binary64) : Nat → Int → Nat × Int
  | 0, place => (value.roundedAt place, place)
  | count + 1, place =>
      match value.nearestOn? place with
      | some digits => (digits, place)
      | none => shortestFrom value count (place - 1)

/-- The digits and the power of ten of the shortest decimal that is rounded to a positive finite
value, the closest one of these. Seventeen digits are always enough. -/
def shortest (value : Binary64) : Nat × Int :=
  shortestFrom value 17 value.decimalBound

end Binary64

end FlowAnalysis
