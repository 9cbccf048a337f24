import TemplateCompiler.Host.Basic
import TemplateCompiler.Host.Variables

/-! A host whose answers are laid down beforehand. Where nothing is laid down it reads
requests in the language of variables. Its time stands still. -/
namespace TemplateCompiler

/-- Code that gives one kind of answer. -/
inductive Fixed where
  | failure (message : String)
  | lookup (name : String)
  | root
  | value (result : Value)
  deriving DecidableEq, Repr

def Fixed.evaluate : Fixed → Evaluator
  | failure message, _ => .error (.host message)
  | lookup name, environment => (Variables.Term.lookup name).evaluate environment
  | root, environment => .ok environment.root
  | value result, _ => .ok result

/-- What happens when a generated source is compiled. -/
inductive UnitAnswer where
  | load
  | reject
  | broken
  | abort
  deriving DecidableEq, Repr

/-- What happens when the code for a profile is compiled. -/
inductive SupportAnswer where
  /-- The code has its usual name. -/
  | usual
  | name (name : String)
  | reject (message : String)
  | broken (message : String)
  deriving DecidableEq, Repr

/-- What happens when a request is compiled or diagnosed. -/
inductive Answer where
  | abort
  | broken (message : String)
  /-- Diagnostics for a source, by default the text of the request. Diagnosing lists
  them, or fails with them if they are to be raised. Failing without any breaks off. -/
  | reject (diagnostics : List Diagnostic) (source : Option String) (raise : Bool)
  | compile (code : Fixed)
  deriving DecidableEq, Repr

/-- All answers that are laid down. -/
structure Script where
  /-- A term of the language of variables that makes the host fail. -/
  explosive : Option String := none
  unit : UnitAnswer := .load
  /-- What the names of loaded units begin with. -/
  unitStem : String := ""
  profile : SupportAnswer := .usual
  utilities : SupportAnswer := .usual
  /-- Answers by the text of the request. The first one counts. -/
  answers : List (String × Answer) := []

namespace Script

def answer? (script : Script) (request : Request) : Option Answer :=
  script.answers.lookup request.text

def compileUnit (script : Script) (unit : SourceUnit) : Except CompileError Handle :=
  match script.unit with
  | .load => .ok ⟨script.unitStem ++ unit.name⟩
  | .reject =>
    .error (.rejected ⟨[{ snippet := unit.name, line := 1, message := "cannot resolve header" }],
      unit.source⟩)
  | .broken => .error (.host "compiler process died")
  | .abort => .error .aborted

/-- Code for a profile. A rejection shows the kind of code in place of a text. -/
def compileSupport (answer : SupportAnswer) (usual : Handle) (kind : String) :
    Except CompileError Handle :=
  match answer with
  | .usual => .ok usual
  | .name name => .ok ⟨name⟩
  | .reject message => .error (.rejected ⟨[{ snippet := kind, line := 1, message }], kind⟩)
  | .broken message => .error (.host message)

def compileExpression (script : Script) (request : Request) : Except CompileError Evaluator :=
  match script.answer? request with
  | some .abort => .error .aborted
  | some (.broken message) => .error (.host message)
  | some (.reject diagnostics source _) =>
    .error (.ofDiagnostics diagnostics (source.getD request.text))
  | some (.compile code) => .ok code.evaluate
  | none => Variables.Program.evaluate <$> Variables.read script.explosive request

def diagnose (script : Script) (request : Request) : Except CompileError (List Diagnostic) :=
  match script.answer? request with
  | some .abort => .error .aborted
  | some (.broken message) => .error (.host message)
  | some (.reject diagnostics source raise) =>
    if raise then .error (.ofDiagnostics diagnostics (source.getD request.text))
    else .ok diagnostics
  | some (.compile _) => .ok []
  | none => Variables.diagnose script.explosive request

/-- An answer that depends on the script and leaves it as it is. -/
def answering {α : Type} (f : Script → Except CompileError α) : Action Script α := fun script =>
  (f script, script)

end Script

/-- The host that answers as its state says. -/
def Host.scripted : Host Script where
  clock := fun _ => 0
  compileUnit unit := Script.answering fun script => script.compileUnit unit
  compileProfile profile := Script.answering fun script =>
    Script.compileSupport script.profile (Host.profileHandle profile) "profile_object"
  compileUtilities profile _ := Script.answering fun script =>
    Script.compileSupport script.utilities (Host.utilitiesHandle profile) "utils"
  compileExpression request := Script.answering fun script => script.compileExpression request
  diagnose request := Script.answering fun script => script.diagnose request
  reset := pure ()

end TemplateCompiler
