import TemplateCompiler.Number.Float
import TemplateCompiler.Value

/-! Conversions: functions from the text of a literal to a value. -/
namespace TemplateCompiler

/-- Why a conversion has no value for a text. -/
inductive Failure where
  /-- The text is not a literal of the type, which its author has to be told. -/
  | invalid (kind message : String)
  /-- Anything else. It is never shown as a problem of the text. -/
  | fatal (message : String)
  /-- The conversion broke off. -/
  | aborted
  deriving DecidableEq, Repr

def Failure.message : Failure → String
  | invalid kind message => kind ++ ": " ++ message
  | fatal message => message
  | aborted => "aborted"

/-- A conversion sees the text of a literal and nothing else. -/
abbrev Converter := String → Except Failure Value

structure Conversion where
  /-- Whether empty text is the absent value and never reaches the conversion. It is
  for the caller to observe this. -/
  nullable : Bool
  apply : Converter

/-- The form of a conversion for inspection. Its function is not shown. -/
def Conversion.inspect (c : Conversion) : String :=
  "Conversion \x7b nullable: " ++ (if c.nullable then "true" else "false") ++ ", .. \x7d"

namespace Converter

def integer : Converter := fun text =>
  match Number.readInteger text with
  | .ok n => .ok (.integer n)
  | .error e => .error (.invalid "ParseIntError" e.message)

def float : Converter := fun text =>
  match Number.readFloat text with
  | .ok x => .ok (.float x)
  | .error e => .error (.invalid "ParseFloatError" e.message)

def boolean : Converter := fun text =>
  if text = "true" then .ok (.boolean true)
  else if text = "false" then .ok (.boolean false)
  else .error (.invalid "ParseBoolError" "provided string was not `true` or `false`")

/-- The text itself. -/
def text : Converter := fun text => .ok (.text text)

/-- One value for every text. -/
def constant (value : Value) : Converter := fun _ => .ok value

/-- No text is a literal. -/
def reject (kind message : String) : Converter := fun _ => .error (.invalid kind message)

/-- No text can be converted, for a reason outside the text. -/
def fail (message : String) : Converter := fun _ => .error (.fatal message)

/-- No text is answered. -/
def abort : Converter := fun _ => .error .aborted

/-- An integer followed by a suffix, which is removed once. -/
def integerWithSuffix (suffix : String) : Converter := fun text =>
  let ending := suffix.toList.reverse
  let whole := text.toList.reverse
  if ending <+: whole then integer (String.ofList (whole.drop ending.length).reverse)
  else .error (.invalid "SuffixError" ("missing '" ++ suffix ++ "' suffix"))

end Converter
end TemplateCompiler
