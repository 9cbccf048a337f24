/-! Text in double quotes. Quotes, backslashes and ASCII control characters are
escaped; everything else, a single quote among it, stands for itself. -/
namespace TemplateCompiler.Text

/-- The characters whose escape is a single letter after a backslash. -/
def letterEscapes : List (Char × Char) :=
  [('"', '"'), ('\\', '\\'), ('\x00', '0'), ('\t', 't'), ('\n', 'n'), ('\x0d', 'r')]

/-- Whether a character is an ASCII control character. -/
def isControl (c : Char) : Bool := c.toNat < 0x20 || c.toNat == 0x7F

/-- The written form of one character inside quotes. Control characters without a
letter are written by their code point in hexadecimal, without leading zeros. -/
def escape (c : Char) : List Char :=
  match letterEscapes.lookup c with
  | some letter => ['\\', letter]
  | none =>
    if isControl c then ['\\', 'u', '\x7b'] ++ Nat.toDigits 16 c.toNat ++ ['\x7d'] else [c]

def quoted (s : String) : String := String.ofList ('"' :: s.toList.flatMap escape ++ ['"'])

end TemplateCompiler.Text
