import TemplateCompiler.Diagnostic

/-! The ways in which compiling can fail. -/
namespace TemplateCompiler

/-- All problems of one request, with the text that their spans point into. A rejection
is meant to hold at least one problem, but a host can make one without any. -/
structure Rejection where
  diagnostics : List Diagnostic
  source : String
  deriving DecidableEq, Repr

def Rejection.display (r : Rejection) : String :=
  "compilation failed with " ++ toString r.diagnostics.length ++ " error(s)"

/-- Why a request was not compiled. -/
inductive CompileError where
  /-- The text of the request has problems that can be shown to its author. -/
  | rejected (rejection : Rejection)
  /-- The host failed for a reason outside the text. -/
  | host (message : String)
  /-- A conversion failed in a way that says nothing about the literal. -/
  | conversion (literal type message : String)
  /-- Code of the host or of a conversion broke off and gave no answer. -/
  | aborted
  deriving DecidableEq, Repr

namespace CompileError

/-- The failure of code that found problems in a text. Code that fails and has found
none breaks off. -/
def ofDiagnostics (diagnostics : List Diagnostic) (source : String) : CompileError :=
  if diagnostics.isEmpty then aborted else rejected ⟨diagnostics, source⟩

/-- What is said about an error. Nothing can be said about code that broke off. -/
def message : CompileError → String
  | rejected rejection => rejection.display
  | host message => "backend failure: " ++ message
  | conversion literal type message =>
    "conversion of '" ++ literal ++ "' to " ++ type ++ " failed unexpectedly: " ++ message
  | aborted => "aborted"

/-- The problems that can be shown to the author of the text. -/
def diagnostics : CompileError → List Diagnostic
  | rejected rejection => rejection.diagnostics
  | _ => []

end CompileError
end TemplateCompiler
