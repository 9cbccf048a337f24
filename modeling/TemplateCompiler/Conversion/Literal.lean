import TemplateCompiler.CompileError
import TemplateCompiler.Request

/-! Literals that are converted when a request is compiled. -/
namespace TemplateCompiler.Conversion

/-- The one diagnostic of a literal that a conversion rejected. It covers the whole
text of the request. -/
def rejectedLiteral (request : Request) (text kind message : String) : Diagnostic :=
  let found : Diagnostic := {
    snippet := text
    line := 1
    message := "Cannot convert literal '" ++ text ++ "' to " ++ request.result.display ++ ": " ++
      kind ++ ": " ++ message
    span := some ⟨0, request.text.utf8ByteSize⟩
    code := some Diagnostic.literalCode }
  found.relocate request.map request.source

/-- The value of a literal. Empty text of a nullable conversion is the absent value
and is not converted. -/
def fold (conversion : Conversion) (request : Request) (text : String) :
    Except CompileError Value :=
  if conversion.nullable ∧ text = "" then .ok .null
  else
    match conversion.apply text with
    | .ok value => .ok value
    | .error (.invalid kind message) =>
      .error (.rejected ⟨[rejectedLiteral request text kind message], request.source⟩)
    | .error (.fatal message) => .error (.conversion text request.result.display message)
    | .error .aborted => .error .aborted

/-- The diagnostics of a literal, without its value. -/
def check (conversion : Conversion) (request : Request) (text : String) :
    Except CompileError (List Diagnostic) :=
  match conversion.fold request text with
  | .ok _ => .ok []
  | .error (.rejected rejection) => .ok rejection.diagnostics
  | .error e => .error e

end TemplateCompiler.Conversion
