import TemplateCompiler.Conversion.Registry
import TemplateCompiler.SourceMap
import TemplateCompiler.Template.Basic

/-! What is asked to be compiled, and under which profile. -/
namespace TemplateCompiler

/-- The conversions and the context type that a class of requests shares. -/
structure Profile where
  name : String
  context : ValueType
  registry : Registry := .standard

/-- One expression to compile. The text of a request that was not taken from
another one is its own source. -/
structure Request where
  profile : Profile
  text : String
  isTemplate : Bool := false
  isSetter : Bool := false
  /-- Code that the host puts in front of everything it compiles for the request. -/
  header : String := ""
  result : ValueType := .any
  context : ValueType := profile.context
  root : ValueType := profile.context
  /-- The variables that the text may mention, in the order of their declaration. -/
  declared : Table String ValueType := .empty
  /-- The text that diagnostics point into. -/
  source : String := text
  /-- Where the text of the request lies in the source. -/
  map : SourceMap := .identity

namespace Request

/-- The request for a part of the text that starts at an offset. Parts are always
read as templates and yield text; all else is taken from the whole request. -/
def nested (r : Request) (text : String) (start : Nat) : Request :=
  { r with
    text := text
    isTemplate := true
    isSetter := false
    result := .text
    map := r.map.nested start }

/-- The request for one placeholder, delimiters included. -/
def ofPlaceholder (r : Request) (p : Placeholder String) : Request := r.nested p.text p.start

end Request
end TemplateCompiler
