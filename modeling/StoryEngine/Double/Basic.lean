/-! # Binary64 numbers

A finite binary64 number is a sign, a significand and a power of two in one normal form.
Every operation works on exact natural numbers and rounds once, to the nearest number, ties to
the even significand.
-/

namespace StoryEngine

/-- The shape of a finite binary64 magnitude `significand * 2 ^ exponent`. -/
def Double.Normal (significand : Nat) (exponent : Int) : Prop :=
  significand < Nat.pow 2 53 ∧ -1074 ≤ exponent ∧ exponent ≤ 971 ∧
    (Nat.pow 2 52 ≤ significand ∨ exponent = -1074)

instance (significand : Nat) (exponent : Int) : Decidable (Double.Normal significand exponent) := by
  unfold Double.Normal; infer_instance

/-- A finite binary64 number; zero keeps its sign. -/
structure Double where
  negative : Bool
  significand : Nat
  exponent : Int
  normal : Double.Normal significand exponent
  deriving DecidableEq

namespace Double

def zero (negative : Bool) : Double := ⟨negative, 0, -1074, by decide⟩

instance : Inhabited Double := ⟨zero false⟩

def isZero (x : Double) : Bool := x.significand == 0

/-- The magnitude of `x` as a quotient of two natural numbers. -/
def ratio (x : Double) : Nat × Nat :=
  (x.significand * Nat.pow 2 x.exponent.toNat, Nat.pow 2 (-x.exponent).toNat)

/-- The quotient rounded to the nearest natural number, a half to the even neighbour. -/
def roundDiv (num den : Nat) : Nat :=
  let q := num / den
  let r := num % den
  if 2 * r < den ∨ (2 * r = den ∧ q % 2 = 0) then q else q + 1

/-- The number nearest to `num / den`, or `none` if that is beyond the largest finite one. -/
def ofRatio? (negative : Bool) (num den : Nat) : Option Double :=
  if num = 0 then some (zero negative)
  else
    let magnitude : Int := (num.log2 : Int) - den.log2
    let scaled (e : Int) : Nat × Nat :=
      (num * Nat.pow 2 (-e).toNat, den * Nat.pow 2 e.toNat)
    let low := max (-1074) (magnitude - 53)
    let (a, b) := scaled low
    let e := if a / b < Nat.pow 2 53 then low else low + 1
    let (a, b) := scaled e
    let m := roundDiv a b
    let (m, e) := if m = Nat.pow 2 53 then (Nat.pow 2 52, e + 1) else (m, e)
    if h : Normal m e then some ⟨negative, m, e, h⟩ else none

/-- The number nearest to an integer, or `none` if the integer is too large. -/
def ofInt? (n : Int) : Option Double := ofRatio? (n < 0) n.natAbs 1

def mul? (x y : Double) : Option Double :=
  let (a, b) := x.ratio
  let (c, d) := y.ratio
  ofRatio? (x.negative != y.negative) (a * c) (b * d)

/-- The rounded quotient; `none` also for a zero divisor. -/
def div? (x y : Double) : Option Double :=
  let (a, b) := x.ratio
  let (c, d) := y.ratio
  if c = 0 then none else ofRatio? (x.negative != y.negative) (a * d) (b * c)

/-- Numeric equality: the two zeros are equal, all else only to itself. -/
def same (x y : Double) : Bool := x == y || (x.isZero && y.isZero)

end Double

end StoryEngine
