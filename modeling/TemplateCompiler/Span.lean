import TemplateCompiler.Text.Bytes

/-! Ranges of offsets. -/
namespace TemplateCompiler

/-- The offsets from `start` up to but not including `stop`. Nothing forces the two
into order, and neither has to lie inside any text. -/
structure Span where
  start : Nat
  stop : Nat
  deriving DecidableEq, Repr

namespace Span

def isEmpty (span : Span) : Bool := !decide (span.start < span.stop)

/-- The length of a span whose ends are in order. -/
def length? (span : Span) : Option Nat :=
  if span.start ≤ span.stop then some (span.stop - span.start) else none

/-- The text under a span, if it lies inside the source and cuts no character. -/
def text? (span : Span) (source : String) : Option String :=
  Text.slice? source span.start span.stop

/-- Both ends moved back to the end of a text, if they lie beyond it. -/
def clamp (span : Span) (size : Nat) : Span := ⟨min span.start size, min span.stop size⟩

end Span
end TemplateCompiler
