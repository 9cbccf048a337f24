import TemplateCompiler.Table
import TemplateCompiler.Value

/-! What a compiled expression is evaluated against. -/
namespace TemplateCompiler

/-- A root object and named variables. -/
structure Environment where
  root : Value := .null
  bindings : Table String Value := .empty

namespace Environment

def get? (environment : Environment) (name : String) : Option Value :=
  environment.bindings.get? name

/-- Setting a variable again replaces its value. -/
def set (environment : Environment) (name : String) (value : Value) : Environment :=
  { environment with bindings := environment.bindings.insert name value }

end Environment

/-- Why an evaluation has no value. -/
inductive EvalError where
  | unknownVariable (name : String)
  /-- An interpolation without any literal. -/
  | noLiterals
  /-- An interpolation whose literals do not fit around its expressions. -/
  | literalCount (literals expressions : Nat)
  /-- A failure reported by code of the host. -/
  | host (message : String)
  deriving DecidableEq, Repr

def EvalError.message : EvalError → String
  | unknownVariable name => "Undefined variable '" ++ name ++ "'"
  | noLiterals => "Runtime error: template has no literal parts"
  | literalCount literals expressions =>
    "Runtime error: template has " ++ toString literals ++ " literal parts for " ++
      toString expressions ++ " sub-expressions"
  | host message => "Runtime error: " ++ message

/-- Code that the host made of an expression. It can be run any number of times. -/
abbrev Evaluator := Environment → Except EvalError Value

end TemplateCompiler
