/-! # Reading decimal integers

An optional sign and decimal digits, read from the left; the first fault met is the one reported.
-/

namespace StoryEngine.Text

inductive IntegerFault where
  | empty
  | invalidDigit
  | tooLarge
  | tooSmall
  deriving DecidableEq, Repr

def IntegerFault.message : IntegerFault → String
  | .empty => "cannot parse integer from empty string"
  | .invalidDigit => "invalid digit found in string"
  | .tooLarge => "number too large to fit in target type"
  | .tooSmall => "number too small to fit in target type"

def digit? (c : Char) : Option Nat :=
  if c.isDigit then some (c.toNat - '0'.toNat) else none

/-- Reads digits upwards from `acc`, up to `high`. -/
def readUp (high : Int) (acc : Int) : List Char → Except IntegerFault Int
  | [] => .ok acc
  | c :: rest =>
    match digit? c with
    | none => .error .invalidDigit
    | some d => if acc * 10 + d ≤ high then readUp high (acc * 10 + d) rest else .error .tooLarge

/-- Reads digits downwards from `acc`, down to `low`. -/
def readDown (low : Int) (acc : Int) : List Char → Except IntegerFault Int
  | [] => .ok acc
  | c :: rest =>
    match digit? c with
    | none => .error .invalidDigit
    | some d => if low ≤ acc * 10 - d then readDown low (acc * 10 - d) rest else .error .tooSmall

/-- An integer between `low` and `high`. A minus sign is read only if `low` is negative. -/
def readInteger (low high : Int) : List Char → Except IntegerFault Int
  | [] => .error .empty
  | ['+'] => .error .invalidDigit
  | ['-'] => .error .invalidDigit
  | '+' :: digits => readUp high 0 digits
  | '-' :: digits => if low < 0 then readDown low 0 digits else .error .invalidDigit
  | digits => readUp high 0 digits

end StoryEngine.Text
