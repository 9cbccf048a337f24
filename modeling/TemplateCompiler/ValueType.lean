/-! The types that a request declares for its result, its context and its variables. -/
namespace TemplateCompiler

inductive ValueType where
  /-- The type of every value, raw text included. -/
  | any
  | text
  | integer
  | float
  | boolean
  /-- A type with an absent value added. -/
  | optional (inner : ValueType)
  /-- A type of the host, known by its name only. It differs from a type above even
  if the two are displayed alike. -/
  | named (name : String)
  deriving DecidableEq, Repr

namespace ValueType

/-- Whether the literal text of a template is itself a value of this type, so that no
conversion is needed. An optional type has to be one step away from text. -/
def acceptsText : ValueType → Bool
  | any | text | optional text | optional any => true
  | _ => false

/-- Whether the absent value belongs to this type. -/
def isNullable : ValueType → Bool
  | any | text | optional _ => true
  | _ => false

def display : ValueType → String
  | any => "Any"
  | text => "String"
  | integer => "Integer"
  | float => "Float"
  | boolean => "Boolean"
  | optional inner => "Optional<" ++ inner.display ++ ">"
  | named name => name

end ValueType
end TemplateCompiler
