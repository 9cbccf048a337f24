import TemplateCompiler.Number.Digits

/-! Integers of 64 bits: how they are written, and which texts are read as one. -/
namespace TemplateCompiler.Number

/-- Why a text is not an integer of 64 bits. -/
inductive IntegerError where
  | empty
  | invalidDigit
  | tooLarge
  | tooSmall
  deriving DecidableEq, Repr

def IntegerError.message : IntegerError → String
  | empty => "cannot parse integer from empty string"
  | invalidDigit => "invalid digit found in string"
  | tooLarge => "number too large to fit in target type"
  | tooSmall => "number too small to fit in target type"

/-- Read digits from left to right, away from zero in the direction of the sign. The
first problem ends the reading: a number that has already left the range is not
searched for characters that are not digits. -/
def readDigits (negative : Bool) : Int → List Char → Except IntegerError Int
  | n, [] => .ok n
  | n, c :: rest =>
    match digit? c with
    | none => .error .invalidDigit
    | some d =>
      let next := if negative then 10 * n - d else 10 * n + d
      if next < Int64.minValue.toInt then .error .tooSmall
      else if Int64.maxValue.toInt < next then .error .tooLarge
      else readDigits negative next rest

/-- Read at least one digit after a sign. -/
def readSigned (negative : Bool) : List Char → Except IntegerError Int
  | [] => .error .invalidDigit
  | row => readDigits negative 0 row

/-- Read an integer: at most one sign, then ASCII digits and nothing else. Leading
zeros are allowed, surrounding blanks are not. -/
def readInteger (text : String) : Except IntegerError Int64 :=
  Int64.ofInt <$> match text.toList with
    | [] => .error .empty
    | '-' :: row => readSigned true row
    | '+' :: row => readSigned false row
    | row => readSigned false row

/-- Write an integer with the fewest digits and a sign only if it is negative. -/
def writeInteger (n : Int64) : String :=
  String.ofList (if n.toInt < 0 then '-' :: digits n.toInt.natAbs else digits n.toInt.natAbs)

end TemplateCompiler.Number
