import StoryEngine.Double.Basic

/-! # Decimal text of binary64 numbers

The written form has the fewest digits that read back as the number, and of those the digits
nearest to it. Reading keeps the leading digits that fit in 64 bits and scales them by powers
of ten, rounding each time.
-/

namespace StoryEngine.Double

/-- The power of ten of the first decimal digit of a positive quotient. -/
def leadingPower (num den : Nat) : Int :=
  if den ≤ num then ((Nat.toDigits 10 (num / den)).length : Int) - 1
  else -((Nat.toDigits 10 ((den + num - 1) / num - 1)).length : Int)

/-- The reals that round to a number, in quarters of its last binary place. -/
structure Neighbourhood where
  low : Nat
  middle : Nat
  high : Nat
  closed : Bool

def neighbourhood (x : Double) : Neighbourhood where
  low := 4 * x.significand - if x.significand = Nat.pow 2 52 ∧ -1074 < x.exponent then 1 else 2
  middle := 4 * x.significand
  high := 4 * x.significand + 2
  closed := x.significand % 2 = 0

/-- The `count`-digit integer `d` for which `d * 10 ^ place` reads back as `x`, if there is one:
the nearest such, a tie going to the even one. -/
def digitsAt? (x : Double) (place : Int) : Option Nat :=
  let near := x.neighbourhood
  let quarter (k : Nat) : Nat :=
    k * Nat.pow 2 (x.exponent - 2).toNat * Nat.pow 10 (-place).toNat
  let unit := Nat.pow 10 place.toNat * Nat.pow 2 (2 - x.exponent).toNat
  let within (d : Nat) : Bool :=
    if near.closed then quarter near.low ≤ d * unit && d * unit ≤ quarter near.high
    else quarter near.low < d * unit && d * unit < quarter near.high
  let below := quarter near.middle / unit
  let rest := quarter near.middle % unit
  let nearest := if 2 * rest < unit ∨ (2 * rest = unit ∧ below % 2 = 0) then below else below + 1
  [nearest, below, below + 1].find? within

/-- Decimal digits of a positive number and the power of ten of the first of them. -/
structure Digits where
  digits : List Char
  exponent : Int

/-- The fewest digits that read back as `x`. -/
def shortest (x : Double) : Digits :=
  let (num, den) := x.ratio
  let first := leadingPower num den
  let found := (List.range 17).findSome? fun (i : Nat) =>
    (digitsAt? x (first - i)).map fun d => (d, i + 1)
  let (d, count) := found.getD (num / den, 0)
  let digits := Nat.toDigits 10 d
  { digits := (digits.reverse.dropWhile (· == '0')).reverse
    exponent := first + (digits.length - count) }

/-- Plain notation from `10 ^ -5` to below `10 ^ 16`, always with a point. -/
def plain (digits : List Char) (exponent : Int) : List Char :=
  if exponent < 0 then
    '0' :: '.' :: (List.replicate (-exponent - 1).toNat '0' ++ digits)
  else
    let whole := exponent.toNat + 1
    let fraction := digits.drop whole
    (digits.take whole).rightpad whole '0' ++ '.' :: (if fraction.isEmpty then ['0'] else fraction)

/-- One digit before the point and a signed exponent without padding. -/
def scientific (digits : List Char) (exponent : Int) : List Char :=
  let fraction := digits.drop 1
  digits.take 1 ++ (if fraction.isEmpty then [] else '.' :: fraction) ++
    'e' :: (if exponent < 0 then '-' else '+') :: Nat.toDigits 10 exponent.natAbs

def text (x : Double) : String :=
  let body :=
    if x.isZero then ['0', '.', '0']
    else
      let d := x.shortest
      if -5 ≤ d.exponent ∧ d.exponent ≤ 15 then plain d.digits d.exponent
      else scientific d.digits d.exponent
  String.ofList (if x.negative then '-' :: body else body)

/-- Takes digits while the number they spell stays below `2 ^ 64`. -/
def absorb (significand : Nat) : List Nat → Nat × List Nat
  | [] => (significand, [])
  | d :: rest =>
    if significand * 10 + d < Nat.pow 2 64 then absorb (significand * 10 + d) rest
    else (significand, d :: rest)

def powerOfTen? (k : Nat) : Option Double := ofRatio? false (Nat.pow 10 k) 1

/-- Divides by `10 ^ k`, by at most `10 ^ 308` at a time. -/
def shrink? (x : Double) (k : Nat) : Option Double :=
  if k ≤ 308 then do div? x (← powerOfTen? k)
  else if x.isZero then some x
  else do
    let y ← div? x (← powerOfTen? 308)
    shrink? y (k - 308)
termination_by k

/-- `significand * 10 ^ exponent`, scaled in rounded steps; `none` beyond the largest number. -/
def ofDecimal? (significand : Nat) (exponent : Int) : Option Double := do
  let x ← ofRatio? false significand 1
  if exponent < 0 then shrink? x (-exponent).toNat
  else if 308 < exponent then if x.isZero then some x else none
  else mul? x (← powerOfTen? exponent.toNat)

def negate (x : Double) : Double := { x with negative := !x.negative }

/-- The number spelled by digits before and after the point and an exponent. -/
def ofDigits? (negative : Bool) (whole fraction : List Nat) (exponent : Int) : Option Double := do
  let (significand, dropped) := absorb 0 whole
  let (significand, ignored) := absorb significand fraction
  let used : Int := (fraction.length : Int) - ignored.length
  let x ← ofDecimal? significand (exponent + dropped.length - used)
  return if negative then x.negate else x

end StoryEngine.Double
