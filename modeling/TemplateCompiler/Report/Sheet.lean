import TemplateCompiler.CompileError

/-! Reports for people. A report says what is wrong, names a place in the source and labels
the part that is meant there. What a report looks like is not decided here: it is drawn by
a function that is handed in. -/
namespace TemplateCompiler.Report

/-- The name that a source has in every report. -/
def sourceName : String := "<expression>"

/-- A part of the source that a report is to point at, and what it says there. -/
structure Label where
  span : Span
  message : String
  deriving DecidableEq, Repr

/-- What a report on one diagnostic is drawn from. -/
structure Sheet where
  severity : Severity
  code : Option String
  message : String
  /-- Where in the source the report as a whole belongs. -/
  place : Span
  label : Option Label
  help : List String
  deriving DecidableEq, Repr

/-- The sheet for a diagnostic. Its span is moved into the source, whose size is taken in
bytes. Without a span there is nothing to point at, and the message tells the place. -/
def sheet (source : String) (d : Diagnostic) : Sheet :=
  let notice := d.notice
  let span := notice.span.map fun span => span.clamp source.utf8ByteSize
  { severity := notice.severity
    code := notice.code
    message :=
      match span with
      | some _ => notice.message
      | none =>
        notice.message ++ " (in '" ++ d.snippet ++ "' on line " ++ toString d.line ++ ")"
    place := span.getD ⟨0, 0⟩
    label := span.map fun span => ⟨span, notice.message⟩
    help := notice.help }

/-- The rows of a report on one diagnostic. There are none if the drawing breaks off. -/
def lines? (draw : String → Sheet → Option (List String)) (source : String) (d : Diagnostic) :
    Option (List String) :=
  draw source (sheet source d)

/-- End every row with a line feed. -/
def unlines (rows : List String) : String := String.join (rows.map fun row => row ++ "\n")

/-- The report on an error: one part after the other for each diagnostic, or what is
said about any other error. -/
def write? (draw : String → Sheet → Option (List String)) : CompileError → Option String
  | .rejected rejection => do
    let parts ← rejection.diagnostics.mapM (lines? draw rejection.source)
    return unlines parts.flatten
  | .aborted => none
  | e => some (unlines [e.message])

end TemplateCompiler.Report
