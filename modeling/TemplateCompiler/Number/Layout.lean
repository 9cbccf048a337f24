import TemplateCompiler.Number.Integer
import TemplateCompiler.Number.Shortest

/-! How a decimal is laid out as text: with the point in its place, or with an
exponent. -/
namespace TemplateCompiler.Number

/-- The decisions of one format. -/
structure Layout where
  /-- Whether a number is written without an exponent, given the power of ten of its
  first digit. -/
  positional : Int → Bool
  /-- Whether a whole number that is written without an exponent ends in `.0`. -/
  pointZero : Bool

namespace Layout

/-- Digits without an exponent. The point stands after, among or before them. -/
def writePositional (pointZero : Bool) (row : List Char) (exponent : Int) : List Char :=
  let whole : Int := row.length + exponent
  if 0 ≤ exponent then
    row ++ List.replicate exponent.toNat '0' ++ (if pointZero then ['.', '0'] else [])
  else if 0 < whole then row.take whole.toNat ++ '.' :: row.drop whole.toNat
  else '0' :: '.' :: List.replicate (-whole).toNat '0' ++ row

/-- One digit before the point, then the power of ten of that digit. -/
def writeScientific (row : List Char) (leading : Int) : List Char :=
  let rest := row.drop 1
  row.take 1 ++ (if rest.isEmpty then [] else '.' :: rest) ++ 'e' ::
    (if leading < 0 then '-' :: digits leading.natAbs else digits leading.natAbs)

/-- The magnitude of a decimal. -/
def writeDecimal (layout : Layout) (d : Decimal) : List Char :=
  let row := digits d.digits
  let leading : Int := row.length + d.exponent - 1
  if layout.positional leading then writePositional layout.pointZero row d.exponent
  else writeScientific row leading

/-- A floating point number. Zero keeps its sign, and NaN has none. -/
def write (layout : Layout) (x : Binary64) : String :=
  if x.isNaN then "NaN"
  else
    let magnitude :=
      if x.isInfinite then ['i', 'n', 'f']
      else if x.isZero then writePositional layout.pointZero ['0'] 0
      else layout.writeDecimal x.shortest
    String.ofList (if x.isNegative then '-' :: magnitude else magnitude)

end Layout
end TemplateCompiler.Number
