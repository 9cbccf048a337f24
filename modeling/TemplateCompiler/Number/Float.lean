import TemplateCompiler.Number.Binary64

/-! Which texts are read as floating point numbers. -/
namespace TemplateCompiler.Number

/-- Why a text is not a floating point number. Size is never a reason: what is too
large becomes infinite and what is too small becomes zero. -/
inductive FloatError where
  | empty
  | invalid
  deriving DecidableEq, Repr

def FloatError.message : FloatError → String
  | empty => "cannot parse float from empty string"
  | invalid => "invalid float literal"

/-- Infinity and NaN by name, in any mix of cases. -/
def namedFloat? (negative : Bool) (row : List Char) : Option Binary64 :=
  let name := row.map Char.toLower
  if name = ['i', 'n', 'f'] ∨ name = ['i', 'n', 'f', 'i', 'n', 'i', 't', 'y'] then
    some (.ofMagnitude negative Binary64.infinityBits)
  else if name = ['n', 'a', 'n'] then some .nan
  else none

/-- Digits and nothing else, at least one. -/
def natural? (row : List Char) : Option Nat :=
  if row.isEmpty ∨ row.any (!·.isDigit) then none else some (value 0 row)

/-- The exponent part of a decimal, which may be missing. -/
def exponent? : List Char → Option Int
  | [] => some 0
  | mark :: rest =>
    if mark = 'e' ∨ mark = 'E' then
      match rest with
      | '-' :: row => (natural? row).map fun n => -(n : Int)
      | '+' :: row => (natural? row).map fun n => (n : Int)
      | row => (natural? row).map fun n => (n : Int)
    else none

/-- A decimal without a sign: digits, perhaps a point among, before or after them,
perhaps an exponent. -/
def decimal? (row : List Char) : Option Decimal := do
  let whole := row.takeWhile Char.isDigit
  let afterWhole := row.dropWhile Char.isDigit
  let (fraction, rest) := match afterWhole with
    | '.' :: more => (more.takeWhile Char.isDigit, more.dropWhile Char.isDigit)
    | more => ([], more)
  if whole.isEmpty ∧ fraction.isEmpty then none
  let exponent ← exponent? rest
  return ⟨value 0 (whole ++ fraction), exponent - fraction.length⟩

/-- Read what follows a sign. -/
def readMagnitude (negative : Bool) (row : List Char) : Except FloatError Binary64 :=
  match namedFloat? negative row with
  | some x => .ok x
  | none =>
    match decimal? row with
    | some d => .ok (.ofDecimal negative d)
    | none => .error .invalid

/-- Read a floating point number, rounded to the nearest. -/
def readFloat (text : String) : Except FloatError Binary64 :=
  match text.toList with
  | [] => .error .empty
  | '-' :: row => readMagnitude true row
  | '+' :: row => readMagnitude false row
  | row => readMagnitude false row

end TemplateCompiler.Number
