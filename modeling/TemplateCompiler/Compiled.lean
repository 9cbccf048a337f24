import TemplateCompiler.Environment

/-! Compiled expressions. -/
namespace TemplateCompiler

/-- An expression that is ready to be evaluated. Evaluating it needs neither the
compiler nor the host's state. -/
inductive Compiled where
  /-- A value that was known when the request was compiled. -/
  | constant (value : Value)
  /-- Literals with expressions between them. It is meant to have one literal more
  than it has expressions, and evaluation checks that it does. -/
  | interpolation (literals : List String) (expressions : List Compiled)
  /-- What the host made of the request. -/
  | delegated (run : Evaluator)

namespace Compiled

mutual

/-- Expressions are evaluated from left to right, and the first failure is the result. -/
def evaluate : Compiled → Evaluator
  | constant value => fun _ => .ok value
  | delegated run => run
  | interpolation literals expressions => fun environment =>
    match literals with
    | [] => .error .noLiterals
    | first :: rest =>
      if rest.length = expressions.length then do
        let filled ← fill expressions rest environment
        return .text (first ++ filled)
      else .error (.literalCount (first :: rest).length expressions.length)

/-- Each expression as text, followed by its literal. -/
def fill : List Compiled → List String → Environment → Except EvalError String
  | expression :: expressions, literal :: literals, environment => do
    let value ← expression.evaluate environment
    let filled ← fill expressions literals environment
    return value.display ++ literal ++ filled
  | _, _, _ => .ok ""

end

def isDelegated : Compiled → Bool
  | delegated _ => true
  | _ => false

def constant? : Compiled → Option Value
  | constant value => some value
  | _ => none

mutual

/-- The form of an expression for inspection. Code of the host is not shown. -/
def inspect : Compiled → String
  | constant value => "Literal(" ++ value.inspect ++ ")"
  | delegated _ => "Delegated(..)"
  | interpolation literals expressions =>
    "OptimizedTemplate \x7b parts: [" ++ String.intercalate ", " (literals.map Text.quoted) ++
      "], sub_expressions: [" ++ String.intercalate ", " (inspectAll expressions) ++ "] \x7d"

def inspectAll : List Compiled → List String
  | [] => []
  | expression :: expressions => expression.inspect :: inspectAll expressions

end

end Compiled
end TemplateCompiler
