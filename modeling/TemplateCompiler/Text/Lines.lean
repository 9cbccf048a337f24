/-! Lines of a text. The Unicode standard lets a line end at more characters than the line
feed. -/
namespace TemplateCompiler.Text

/-- The characters that end a line: line feed, vertical tab, form feed, carriage return,
next line, line separator and paragraph separator. -/
def lineEnds : List Char := ['\n', '\x0b', '\x0c', '\x0d', '\u0085', '\u2028', '\u2029']

/-- The lines of a text without their ends, which are line feeds here, with or without a
carriage return in front of them. -/
def plainLines : List Char → List (List Char)
  | [] => []
  | '\x0d' :: '\n' :: rest => [] :: plainLines rest
  | '\n' :: rest => [] :: plainLines rest
  | c :: rest =>
    match plainLines rest with
    | [] => [[c]]
    | line :: lines => (c :: line) :: lines

end TemplateCompiler.Text
