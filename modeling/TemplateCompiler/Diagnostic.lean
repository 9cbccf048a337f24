import TemplateCompiler.SourceMap

/-! Problems with the text of a request. -/
namespace TemplateCompiler

/-- One problem, tied to the smallest part of the text that is known. -/
structure Diagnostic where
  /-- The part of the text in which the problem was found. -/
  snippet : String
  /-- The line of the source, counted from one. -/
  line : Nat
  message : String
  /-- Where in the source, if that is known. -/
  span : Option Span := none
  /-- A code under which the kind of problem is documented. -/
  code : Option String := none
  deriving DecidableEq, Repr

/-- How bad a notice is. -/
inductive Severity where
  | error
  | warning
  | info
  deriving DecidableEq, Repr

def Severity.display : Severity → String
  | error => "error"
  | warning => "warning"
  | info => "info"

/-- A diagnostic as it is shown, with hints. -/
structure Notice where
  severity : Severity
  message : String
  span : Option Span
  help : List String
  code : Option String
  deriving DecidableEq, Repr

namespace Diagnostic

/-- The code of a literal that is not a value of the declared type. -/
def literalCode : String := "T001"

/-- Count the span in the source, and the line from the new span. A diagnostic without
a span keeps its line. -/
def relocate (d : Diagnostic) (map : SourceMap) (source : String) : Diagnostic :=
  match d.span with
  | none => d
  | some span =>
    let moved := map.spanToSource span
    { d with span := some moved, line := Text.lineAt source moved.start }

def display (d : Diagnostic) : String :=
  "line " ++ toString d.line ++ ": " ++ d.message ++ " (in '" ++ d.snippet ++ "')"

/-- Hints are known for rejected literals only. -/
def help (d : Diagnostic) : List String :=
  if d.code = some literalCode then
    ["'" ++ d.snippet ++ "' must be a valid literal of the declared result type"]
  else []

def notice (d : Diagnostic) : Notice :=
  { severity := .error, message := d.message, span := d.span, help := d.help, code := d.code }

end Diagnostic

end TemplateCompiler
