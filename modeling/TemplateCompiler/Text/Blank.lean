/-! Blank characters: those with the White_Space property of Unicode, in every version
since 6.3. Core's own test covers four of them. -/
namespace TemplateCompiler.Text

/-- Closed ranges of code points, ascending and apart. -/
def blankRanges : List (Nat × Nat) :=
  [(0x09, 0x0D), (0x20, 0x20), (0x85, 0x85), (0xA0, 0xA0), (0x1680, 0x1680), (0x2000, 0x200A),
   (0x2028, 0x2029), (0x202F, 0x202F), (0x205F, 0x205F), (0x3000, 0x3000)]

def isBlank (c : Char) : Bool :=
  blankRanges.any fun (first, last) => first ≤ c.toNat && c.toNat ≤ last

/-- A text without the blanks it begins with. -/
def trimStart (s : String) : String := String.ofList (s.toList.dropWhile isBlank)

/-- A text without the blanks it ends with. -/
def trimEnd (s : String) : String :=
  String.ofList (s.toList.reverse.dropWhile isBlank).reverse

/-- A text without the blanks at either end. -/
def trim (s : String) : String := trimEnd (trimStart s)

end TemplateCompiler.Text
