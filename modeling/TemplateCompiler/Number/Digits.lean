/-! Decimal digits of natural numbers, most significant first. -/
namespace TemplateCompiler.Number

/-- The character of a digit below ten. -/
def digitChar (d : Nat) : Char := Char.ofNat (48 + d)

/-- The value of an ASCII digit. No other character is a digit. -/
def digit? (c : Char) : Option Nat := if c.isDigit then some (c.toNat - 48) else none

/-- The digits of a number, without leading zeros. Zero has one digit. -/
def digits (n : Nat) : List Char :=
  if n < 10 then [digitChar n] else digits (n / 10) ++ [digitChar (n % 10)]
termination_by n
decreasing_by omega

/-- The number a row of digits stands for, when `n` has been read before them. A
character that is not a digit counts as zero. -/
def value (n : Nat) (row : List Char) : Nat :=
  row.foldl (fun n c => 10 * n + (digit? c).getD 0) n

end TemplateCompiler.Number
