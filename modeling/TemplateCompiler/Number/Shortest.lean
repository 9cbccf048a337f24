import TemplateCompiler.Number.Binary64

/-! The fewest decimal digits that still identify a floating point number. Among the
decimals with that many digits the nearest one is taken, and of two equally near the
larger. -/
namespace TemplateCompiler.Number.Binary64

/-- Compare `d` with `n * 2 ^ j`, exactly. -/
def compareDecimal (d : Decimal) (n : Nat) (j : Int) : Ordering :=
  compare (d.digits * powerAbove 10 d.exponent * powerBelow 2 j)
    (n * powerAbove 2 j * powerBelow 10 d.exponent)

/-- Whether a decimal is among the reals that round to the magnitude of `x`. They
reach halfway to each neighbour, and the two ends belong to them if the significand
is even. -/
def readsBack (x : Binary64) (d : Decimal) : Bool :=
  let low := if x.narrowBelow then 4 * x.significand - 1 else 4 * x.significand - 2
  let high := 4 * x.significand + 2
  let inclusive := x.significand % 2 == 0
  let atLow := compareDecimal d low (x.scale - 2)
  let atHigh := compareDecimal d high (x.scale - 2)
  (atLow == .gt || inclusive && atLow == .eq) && (atHigh == .lt || inclusive && atHigh == .eq)

/-- The least `k` with the magnitude of `x` below `10 ^ k`, for `x` other than zero. -/
def decimalScale (x : Binary64) : Int :=
  let unit := powerBelow 2 x.scale
  if 0 ≤ x.scale then (Number.digits (x.significand * powerAbove 2 x.scale)).length
  else if unit ≤ x.significand then (Number.digits (x.significand / unit)).length
  else 1 - ((Number.digits ((unit - 1) / x.significand)).length : Int)

/-- The decimal with the given exponent that is nearest to `x` among those that read
back, if there is one. Only the two neighbours of `x` can be. -/
def onGrid? (x : Binary64) (exponent : Int) : Option Decimal :=
  let num := x.significand * powerAbove 2 x.scale * powerBelow 10 exponent
  let den := powerBelow 2 x.scale * powerAbove 10 exponent
  let below : Decimal := ⟨num / den, exponent⟩
  let above : Decimal := ⟨num / den + 1, exponent⟩
  match readsBack x below, readsBack x above with
  | true, true => some (if 2 * num < (2 * below.digits + 1) * den then below else above)
  | true, false => some below
  | false, true => some above
  | false, false => none

/-- Move trailing zeros of the digits into the exponent. -/
def stripZeros (digits : Nat) (exponent : Int) : Decimal :=
  if digits ≠ 0 ∧ digits % 10 = 0 then stripZeros (digits / 10) (exponent + 1)
  else ⟨digits, exponent⟩
termination_by digits
decreasing_by omega

/-- The exact value of a finite magnitude as a decimal. -/
def exactDecimal (x : Binary64) : Decimal :=
  if 0 ≤ x.scale then ⟨x.significand * powerAbove 2 x.scale, 0⟩
  else ⟨x.significand * powerBelow 5 x.scale, x.scale⟩

/-- The shortest decimal of a finite number other than zero, without its sign. Grids
from one digit to seventeen are tried in turn; should none do, the exact value is
taken. -/
def shortest (x : Binary64) : Decimal :=
  let found := (List.range 17).findSome? fun (n : Nat) =>
    onGrid? x (decimalScale x - ((n : Int) + 1))
  let chosen := found.getD (exactDecimal x)
  stripZeros chosen.digits chosen.exponent

end TemplateCompiler.Number.Binary64
