import TemplateCompiler.Report.Framed

/-! The reports that are printed, with or without colours. -/
namespace TemplateCompiler.Report

/-- The report on an error, drawn in frames. -/
def render? (e : CompileError) : Option String := write? framed e

/-- What is left of a text when its colours are removed. A colour is set by a sequence
from an escape character up to the next letter m. -/
def dropColors (inside : Bool) : List Char → List Char
  | [] => []
  | c :: rest =>
    if inside then dropColors (c != 'm') rest
    else if c = '\x1b' then dropColors true rest
    else c :: dropColors false rest

/-- The text of a coloured report without its colours. -/
def plain? (e : CompileError) : Option String :=
  (render? e).map fun text => String.ofList (dropColors false text.toList)

/-- Whether a report on a terminal has colours. Other errors have only those that their
own text brings along, which begin with an escape character. -/
def isColored : CompileError → Bool
  | .rejected rejection => !rejection.diagnostics.isEmpty
  | e => e.message.toList.contains '\x1b'

end TemplateCompiler.Report
