import TemplateCompiler.Number.Layout
import TemplateCompiler.Text.Quoted
import TemplateCompiler.ValueType

/-! The values that compiled expressions yield. -/
namespace TemplateCompiler

open Number

inductive Value where
  /-- The absent value of nullable types. -/
  | null
  | text (content : String)
  | integer (n : Int64)
  | float (x : Binary64)
  | boolean (b : Bool)
  deriving DecidableEq, Repr

namespace Value

def isNull : Value → Bool
  | null => true
  | _ => false

def text? : Value → Option String
  | text content => some content
  | _ => none

def integer? : Value → Option Int64
  | integer n => some n
  | _ => none

/-- Whether a value belongs to a type. A type of the host admits every value, since
nothing is known of it. -/
def conformsTo : Value → ValueType → Bool
  | _, .any | _, .named _ => true
  | null, type => type.isNullable
  | text _, .text | integer _, .integer | float _, .float | boolean _, .boolean => true
  | value, .optional inner => value.conformsTo inner
  | _, _ => false

/-- Equality of what the values stand for. It differs from equality of the values at
floating point numbers, where NaN is unequal to itself and the two zeros are equal. -/
def equals : Value → Value → Bool
  | float x, float y => x.numericallyEqual y
  | a, b => a == b

/-- Floats inside text are written without an exponent, and whole ones without a point. -/
def displayLayout : Layout := ⟨fun _ => true, false⟩

/-- The form a value takes inside a text. Texts have no quotes there, and the absent
value is written as nothing. -/
def display : Value → String
  | null => ""
  | text content => content
  | integer n => writeInteger n
  | float x => displayLayout.write x
  | boolean b => if b then "true" else "false"

/-- Floats for inspection have a point or an exponent. The exponent appears below
10^-4 and from 10^16 on. -/
def inspectLayout : Layout := ⟨fun leading => decide (-4 ≤ leading ∧ leading < 16), true⟩

/-- The form of a value for inspection, which shows its kind. -/
def inspect : Value → String
  | null => "Null"
  | text content => "Str(" ++ Text.quoted content ++ ")"
  | integer n => "Int(" ++ writeInteger n ++ ")"
  | float x => "Float(" ++ inspectLayout.write x ++ ")"
  | boolean b => "Bool(" ++ (if b then "true" else "false") ++ ")"

end Value
end TemplateCompiler
