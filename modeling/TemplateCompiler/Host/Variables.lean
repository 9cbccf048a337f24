import TemplateCompiler.Action
import TemplateCompiler.Compiled
import TemplateCompiler.Request
import TemplateCompiler.Text.Blank

/-! A small expression language of variables and constants, which a host can be built
on. A term is an integer, a text in single quotes, or a declared variable. Templates
may hold one term in each placeholder. -/
namespace TemplateCompiler.Variables

/-- What can stand in a placeholder. -/
inductive Term where
  | constant (value : Value)
  | lookup (name : String)
  deriving DecidableEq, Repr

/-- What a text compiles to. -/
inductive Program where
  /-- A term that keeps the kind of its value. -/
  | term (term : Term)
  /-- Terms as text, each followed by a literal. -/
  | concat (head : String) (tail : List (Term × String))
  deriving DecidableEq, Repr

def Term.evaluate : Term → Evaluator
  | constant value, _ => .ok value
  | lookup name, environment =>
    match environment.get? name with
    | some value => .ok value
    | none => .error (.unknownVariable name)

/-- Terms from left to right, each as text followed by its literal. -/
def concatenate : List (Term × String) → Environment → Except EvalError String
  | [], _ => .ok ""
  | (term, literal) :: rest, environment => do
    let value ← term.evaluate environment
    let filled ← concatenate rest environment
    return value.display ++ literal ++ filled

def Program.evaluate : Program → Evaluator
  | .term read => read.evaluate
  | .concat head tail => fun environment => do
    return .text (head ++ (← concatenate tail environment))

/-- The content of a text in single quotes. Nothing is escaped inside them. -/
def quotedContent? (term : String) : Option String :=
  match term.toList with
  | '\'' :: rest =>
    if rest.getLast? = some '\'' then some (String.ofList rest.dropLast) else none
  | _ => none

/-- Where a term is read from. -/
structure Place where
  /-- The text of the request. -/
  source : String
  /-- The offset of the term in that text. -/
  offset : Nat
  /-- The part of the text that is shown if the term is wrong. -/
  snippet : String

/-- Read a term, with blanks around it ignored. Compiling the term `explosive` makes
the host fail. -/
def readTerm (explosive : Option String) (request : Request) (place : Place) (text : String) :
    Except CompileError Term :=
  let term := Text.trim text
  if explosive = some term then
    .error (.host ("out of memory compiling '" ++ term ++ "'"))
  else
    match Number.readInteger term, quotedContent? term with
    | .ok n, _ => .ok (.constant (.integer n))
    | .error _, some content => .ok (.constant (.text content))
    | .error _, none =>
      if request.declared.contains term then .ok (.lookup term)
      else
        let start := place.offset + (text.utf8ByteSize - (Text.trimStart text).utf8ByteSize)
        .error (.rejected ⟨[{
          snippet := place.snippet
          line := 1
          message := "Undefined variable '" ++ term ++ "'"
          span := some ⟨start, start + term.utf8ByteSize⟩ }], place.source⟩)

/-- Read the body of a placeholder. -/
def readPlaceholder (explosive : Option String) (request : Request) (p : Placeholder String) :
    Except CompileError Term :=
  readTerm explosive request ⟨request.text, p.bodyStart, p.text⟩ p.body

/-- Read every placeholder, and keep the literals around them. -/
def readConcat (explosive : Option String) (request : Request) (template : Template) :
    Except CompileError Program := do
  let terms ← combine request.text
    (template.placeholders.map (readPlaceholder explosive request))
  return .concat template.head (terms.zip (template.tail.map Prod.snd))

/-- Read the text of a request: as one term if it is not a template or is one
placeholder, as an integer if it is the literal of one, and piece by piece otherwise. -/
def read (explosive : Option String) (request : Request) : Except CompileError Program :=
  if request.isTemplate then
    match Template.ofText? request.text with
    | none => .error .aborted
    | some template =>
      match template.shape with
      | .wrapper p => .term <$> readPlaceholder explosive request p
      | .literal text =>
        match Number.readInteger (Text.trim text) with
        | .ok n => .ok (.term (.constant (.integer n)))
        | .error _ => readConcat explosive request template
      | .mixed => readConcat explosive request template
  else .term <$> readTerm explosive request ⟨request.text, 0, request.text⟩ request.text

/-- The diagnostics of a request. -/
def diagnose (explosive : Option String) (request : Request) :
    Except CompileError (List Diagnostic) :=
  match read explosive request with
  | .ok _ => .ok []
  | .error (.rejected rejection) => .ok rejection.diagnostics
  | .error e => .error e

end TemplateCompiler.Variables
