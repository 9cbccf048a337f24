import TemplateCompiler.Report.Sheet
import TemplateCompiler.Text.Blank
import TemplateCompiler.Text.Lines

/-! The drawing with which reports are printed: the line of the source in a frame, with the
label under it. It is one of many. What is proved about reports holds for every drawing that
keeps a few laws, and this one keeps them. Offsets in this module count characters, each of
which is taken to be one column wide, and a label over several lines is not drawn. -/
namespace TemplateCompiler.Report

/-- Cut a text after the end of each line. A carriage return and the line feed after it
are one end. No line comes after the last end. -/
def displayLines : List Char → List (List Char)
  | [] => []
  | '\x0d' :: '\n' :: rest => ['\x0d', '\n'] :: displayLines rest
  | c :: rest =>
    if c ∈ Text.lineEnds then [c] :: displayLines rest
    else
      match displayLines rest with
      | [] => [[c]]
      | line :: lines => (c :: line) :: lines

/-- A line of the source, with its number counted from one and the offset of its first
character. Its end belongs to it. -/
structure Line where
  number : Nat
  start : Nat
  text : List Char
  deriving DecidableEq, Repr

/-- The offset just after a line. -/
def Line.stop (line : Line) : Nat := line.start + line.text.length

/-- A line as it is shown: without blanks at its end, and with a space for every other
blank. -/
def Line.shown (line : Line) : String :=
  (Text.trimEnd (String.ofList line.text)).map fun c => if Text.isBlank c then ' ' else c

/-- Walk to the last line that starts no later than an offset. -/
def findLine (offset : Nat) (here : Line) : List (List Char) → Line
  | [] => here
  | next :: rest =>
    if here.stop ≤ offset then findLine offset ⟨here.number + 1, here.stop, next⟩ rest else here

/-- The line of an offset. An empty source is one empty line. -/
def lineOf (source : String) (offset : Nat) : Line :=
  match displayLines source.toList with
  | [] => ⟨1, 0, []⟩
  | first :: rest => findLine offset ⟨1, 0, first⟩ rest

def spaces (n : Nat) : String := String.ofList (List.replicate n ' ')

/-- The blank columns in front of the rows of a line. -/
def margin (number : Nat) : String := spaces ((toString number).length + 2)

/-- The columns that are drawn under a line: two more than the span needs. -/
def columns (line : Line) (span : Span) : List Nat := List.range (span.stop - line.start + 2)

/-- The column from which the message hangs. -/
def middle (line : Line) (span : Span) : Nat := (span.start + span.stop) / 2 - line.start

/-- The row that underlines the span. -/
def underline (line : Line) (span : Span) : String :=
  String.ofList ((columns line span).map fun column =>
    if column = middle line span then (if span.isEmpty then '│' else '┬')
    else if span.start ≤ line.start + column ∧ line.start + column < span.stop then '─'
    else ' ')

/-- The row that leads from the middle of the span to the message. -/
def pointer (line : Line) (span : Span) : String :=
  String.ofList ((columns line span).map fun column =>
    if column < middle line span then ' '
    else if column = middle line span then '╰'
    else '─')

/-- The line of a label with the label under it. There is only an empty row if the label
goes on after the source. -/
def mark? (source margin : String) (label : Label) : Option (List String) :=
  let line := lineOf source label.span.start
  if label.span.stop ≤ line.stop then
    some [ " " ++ toString line.number ++ " │ " ++ line.shown,
      margin ++ "│ " ++ underline line label.span,
      margin ++ "│ " ++ pointer line label.span ++ " " ++ label.message ]
  else if source.length < label.span.stop then some [margin ++ "│ "]
  else none

/-- A hint, set off by an empty row. Its further lines stand under the first one. -/
def hintRows (margin hint : String) : List String :=
  let rows := (Text.plainLines hint.toList).map String.ofList
  (margin ++ "│ ") ::
    (rows.take 1).map (fun row => margin ++ "│ Help: " ++ row) ++
    (rows.drop 1).map (fun row => margin ++ "│       " ++ row)

/-- The row with the place of a report. -/
def placeRow (number column : Nat) : String :=
  margin number ++ "╭─[ " ++ sourceName ++ ":" ++ toString number ++ ":" ++ toString column ++ " ]"

/-- The place of a report, its label and its hints, in a frame. -/
def frame? (source : String) (sheet : Sheet) (label : Label) : Option (List String) :=
  let line := lineOf source sheet.place.start
  let hints := sheet.help.flatMap (hintRows (margin line.number))
  let bottom := String.ofList (List.replicate ((toString line.number).length + 2) '─') ++ "╯"
  (mark? source (margin line.number) label).map fun marks =>
    placeRow line.number (sheet.place.start - line.start + 1) :: (margin line.number ++ "│") ::
      (marks ++ (hints ++ [bottom]))

/-- The word in front of a message. -/
def heading : Severity → String
  | .error => "Error"
  | .warning => "Warning"
  | .info => "Advice"

/-- The first row of a report. A code has at least two columns. -/
def headline (sheet : Sheet) : String :=
  let code :=
    match sheet.code with
    | some code => "[" ++ code ++ spaces (2 - code.length) ++ "] "
    | none => ""
  code ++ heading sheet.severity ++ ": " ++ sheet.message

/-- Whether a span can be shown: it has to start inside the source or at its end, and
so does its last character. -/
def isShown (span : Span) (size : Nat) : Bool :=
  decide (span.start ≤ size) && (span.isEmpty || decide (span.stop - 1 ≤ size))

/-- The headline of a sheet, and a frame for a label that can be shown. There is no report
with a label whose ends are in the wrong order. -/
def framed (source : String) (sheet : Sheet) : Option (List String) :=
  match sheet.label with
  | none => some [headline sheet]
  | some label =>
    if label.span.stop < label.span.start then none
    else if isShown label.span source.length then
      (frame? source sheet label).map fun rows => headline sheet :: rows
    else some [headline sheet]

end TemplateCompiler.Report
