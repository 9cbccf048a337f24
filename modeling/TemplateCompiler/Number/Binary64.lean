import TemplateCompiler.Number.Digits

/-! Floating point numbers of 64 bits, kept as their bits. All arithmetic here is on
natural numbers and exact, so that every value can be reasoned about. -/
namespace TemplateCompiler.Number

/-- A number of the binary64 format: a sign bit, eleven bits of exponent and 52 bits
of fraction. -/
structure Binary64 where
  bits : UInt64
  deriving DecidableEq, Repr

/-- A finite decimal number, `digits * 10 ^ exponent`. -/
structure Decimal where
  digits : Nat
  exponent : Int
  deriving DecidableEq, Repr

/-- The power `base ^ e`, for any integer `e`, is a quotient of two natural numbers. This
is the one above the line. -/
def powerAbove (base : Nat) (e : Int) : Nat := Nat.pow base e.toNat

/-- The number below the line of `base ^ e`, which is one unless `e` is negative. -/
def powerBelow (base : Nat) (e : Int) : Nat := Nat.pow base (-e).toNat

namespace Binary64

/-- The leading bit of a significand, which is not stored: the fraction is below it. -/
def leadingBit : Nat := 0x10000000000000

def isNegative (x : Binary64) : Bool := x.bits >>> 63 != 0

def exponentField (x : Binary64) : Nat := ((x.bits >>> 52) &&& 0x7FF).toNat

def fraction (x : Binary64) : Nat := (x.bits &&& 0xFFFFFFFFFFFFF).toNat

def isNaN (x : Binary64) : Bool := x.exponentField == 0x7FF && x.fraction != 0

def isInfinite (x : Binary64) : Bool := x.exponentField == 0x7FF && x.fraction == 0

def isZero (x : Binary64) : Bool := x.exponentField == 0 && x.fraction == 0

/-- Equality of the numbers and not of the bits: no NaN equals anything, and the two
zeros are equal. -/
def numericallyEqual (x y : Binary64) : Bool :=
  !x.isNaN && !y.isNaN && (x == y || x.isZero && y.isZero)

/-- The magnitude of a finite number is `significand * 2 ^ scale`. -/
def significand (x : Binary64) : Nat :=
  if x.exponentField = 0 then x.fraction else leadingBit + x.fraction

def scale (x : Binary64) : Int :=
  if x.exponentField = 0 then -1074 else x.exponentField - 1075

/-- Whether the next smaller magnitude is only half as far away as the next larger
one, as it is at a power of two. -/
def narrowBelow (x : Binary64) : Bool := x.fraction == 0 && x.exponentField > 1

/-- The magnitude bits of infinity. Those of every finite number are smaller. -/
def infinityBits : Nat := 0x7FF0000000000000

/-- The sign bit, just above the bits of the magnitude. -/
def signBit : Nat := 0x8000000000000000

/-- Put a sign on the bits of a magnitude. -/
def ofMagnitude (negative : Bool) (magnitude : Nat) : Binary64 :=
  ⟨UInt64.ofNat (if negative then signBit + magnitude else magnitude)⟩

def nan : Binary64 := ⟨0x7FF8000000000000⟩

/-- A quotient to the nearest natural number, a half to the even neighbour. -/
def roundQuotient (num den : Nat) : Nat :=
  let low := num / den
  match compare (2 * (num % den)) den with
  | .lt => low
  | .gt => low + 1
  | .eq => if low % 2 = 0 then low else low + 1

/-- The exponent of the largest power of two that is no larger than a positive quotient. -/
def quotientLog2 (num den : Nat) : Int :=
  let guess : Int := (num.log2 : Int) - den.log2
  if num * powerBelow 2 guess < den * powerAbove 2 guess then guess - 1 else guess

/-- The magnitude bits nearest to a quotient. A rounded significand that no longer
fits into 53 bits carries into the exponent, which is then the right one. -/
def magnitudeOfQuotient (num den : Nat) : Nat :=
  if num = 0 then 0
  else
    let scale := max (quotientLog2 num den - 52) (-1074)
    let significand := roundQuotient (num * powerBelow 2 scale) (den * powerAbove 2 scale)
    min infinityBits ((scale + 1074).toNat * leadingBit + significand)

/-- The number nearest to a decimal. Magnitudes beyond 10^310 are infinite and those
below 10^-330 are zero, which is known from the position of the leading digit. -/
def ofDecimal (negative : Bool) (d : Decimal) : Binary64 :=
  let leading : Int := (Number.digits d.digits).length + d.exponent
  ofMagnitude negative <|
    if d.digits = 0 ∨ leading < -330 then 0
    else if 310 < leading then infinityBits
    else magnitudeOfQuotient (d.digits * powerAbove 10 d.exponent) (powerBelow 10 d.exponent)

end Binary64
end TemplateCompiler.Number
