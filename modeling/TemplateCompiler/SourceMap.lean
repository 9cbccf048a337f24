import TemplateCompiler.Span

/-! Where the offsets of a nested text lie in the text it was taken from. -/
namespace TemplateCompiler

/-- How far each text on the way out starts inside the text around it, innermost
first. The last one starts inside the source, which was taken from nowhere. -/
structure SourceMap where
  shifts : List Nat
  deriving DecidableEq, Repr

namespace SourceMap

/-- The map of the source itself. -/
def identity : SourceMap := ⟨[]⟩

/-- Whether no shift moves anything. A text at the very start of another one has such
a map too. -/
def isIdentity (map : SourceMap) : Bool := map.shifts.all (· == 0)

/-- The map of a text that starts at an offset of the text of this map. -/
def nested (map : SourceMap) (start : Nat) : SourceMap := ⟨start :: map.shifts⟩

/-- An offset of the nested text, counted in the source. -/
def toSource (map : SourceMap) (offset : Nat) : Nat :=
  map.shifts.foldl (fun offset shift => offset + shift) offset

/-- An offset of the source, counted in the nested text. On the way in, an offset
before the start of a text becomes its start. -/
def toNested (map : SourceMap) (offset : Nat) : Nat :=
  map.shifts.foldr (fun shift offset => offset - shift) offset

def spanToSource (map : SourceMap) (span : Span) : Span :=
  ⟨map.toSource span.start, map.toSource span.stop⟩

end SourceMap
end TemplateCompiler
