import StoryEngine.Text.Blank

/-! # Times

A time counts seconds from the start of 1970 in universal time; a leap second belongs to the
second before it. It is written as date and time of day with a `Z`, and read with any offset from
universal time and with blanks between its parts.
-/

namespace StoryEngine

/-- Whole seconds and the nanoseconds after them, more than a second's worth in a leap second. -/
structure Timestamp where
  seconds : Int
  nanoseconds : Nat
  deriving DecidableEq

namespace Timestamp

inductive Fault where
  | invalid
  | tooShort
  | outOfRange
  | tooLong
  | impossible
  deriving DecidableEq

def Fault.message : Fault → String
  | .invalid => "input contains invalid characters"
  | .tooShort => "premature end of input"
  | .outOfRange => "input is out of range"
  | .tooLong => "trailing input"
  | .impossible => "no possible date and time matching input"

/-- Days from the start of 1970 to a date, years beginning with March. -/
def daysOfDate (year month day : Int) : Int :=
  let y := if month ≤ 2 then year - 1 else year
  let era := Int.fdiv y 400
  let yearOfEra := y - era * 400
  let dayOfYear := (153 * ((month + 9) % 12) + 2) / 5 + day - 1
  let dayOfEra := yearOfEra * 365 + yearOfEra / 4 - yearOfEra / 100 + dayOfYear
  era * 146097 + dayOfEra - 719468

/-- Year, month and day of a count of days from the start of 1970. -/
def dateOfDays (days : Int) : Int × Int × Int :=
  let z := days + 719468
  let era := Int.fdiv z 146097
  let dayOfEra := z - era * 146097
  let yearOfEra := (dayOfEra - dayOfEra / 1460 + dayOfEra / 36524 - dayOfEra / 146096) / 365
  let dayOfYear := dayOfEra - (365 * yearOfEra + yearOfEra / 4 - yearOfEra / 100)
  let shifted := (5 * dayOfYear + 2) / 153
  let day := dayOfYear - (153 * shifted + 2) / 5 + 1
  let month := if shifted < 10 then shifted + 3 else shifted - 9
  (yearOfEra + era * 400 + (if month ≤ 2 then 1 else 0), month, day)

def isLeap (year : Int) : Bool := year % 4 == 0 && (year % 100 != 0 || year % 400 == 0)

def daysInMonth (year : Int) (month : Nat) : Nat :=
  if month = 2 then if isLeap year then 29 else 28
  else if month = 4 ∨ month = 6 ∨ month = 9 ∨ month = 11 then 30
  else 31

/-- A number filled with zeros up to a width. -/
def padded (width n : Nat) : List Char := (Nat.toDigits 10 n).leftpad width '0'

/-- Fractions of a second, by thousands as far as they are needed. -/
def fractionText (nanoseconds : Nat) : List Char :=
  if nanoseconds = 0 then []
  else if nanoseconds % 1000000 = 0 then '.' :: padded 3 (nanoseconds / 1000000)
  else if nanoseconds % 1000 = 0 then '.' :: padded 6 (nanoseconds / 1000)
  else '.' :: padded 9 nanoseconds

def yearText (year : Int) : List Char :=
  if 0 ≤ year ∧ year ≤ 9999 then padded 4 year.toNat
  else (if year < 0 then '-' else '+') :: padded 4 year.natAbs

def text (time : Timestamp) : String :=
  let days := Int.fdiv time.seconds 86400
  let clock := (time.seconds - days * 86400).toNat
  let second := clock % 60 + time.nanoseconds / Nat.pow 10 9
  let (year, month, day) := dateOfDays days
  String.ofList (yearText year ++ '-' :: padded 2 month.toNat ++ '-' :: padded 2 day.toNat ++
    'T' :: padded 2 (clock / 3600) ++ ':' :: padded 2 (clock / 60 % 60) ++
    ':' :: padded 2 second ++ fractionText (time.nanoseconds % Nat.pow 10 9) ++ ['Z'])

/-! ## Reading -/

def skipBlanks (cs : List Char) : List Char := cs.dropWhile Text.isBlank

/-- A number of at least one and at most `width` digits. -/
def number (width : Nat) (cs : List Char) : Except Fault (Nat × List Char) :=
  match (cs.take width).takeWhile Char.isDigit with
  | [] => .error (if cs.isEmpty then .tooShort else .invalid)
  | digits => .ok (digits.foldl (fun n c => 10 * n + (c.toNat - 0x30)) 0, cs.drop digits.length)

/-- A year of up to four digits, or of any number of digits after a sign. -/
def readYear (cs : List Char) : Except Fault (Int × List Char) := do
  let (n, cs) : Int × List Char ← match skipBlanks cs with
    | '-' :: cs => (number cs.length cs).map fun (n, cs) => (-n, cs)
    | '+' :: cs => (number cs.length cs).map fun (n, cs) => (n, cs)
    | cs => (number 4 cs).map fun (n, cs) => (n, cs)
  if -Int.pow 2 31 ≤ n ∧ n < Int.pow 2 31 then return (n, cs) else throw .outOfRange

/-- A number of up to two digits within bounds. -/
def bounded (low high : Nat) (cs : List Char) : Except Fault (Nat × List Char) := do
  let (n, cs) ← number 2 (skipBlanks cs)
  if low ≤ n ∧ n ≤ high then return (n, cs) else throw .outOfRange

def mark (c : Char) (cs : List Char) : Except Fault (List Char) :=
  match skipBlanks cs with
  | [] => .error .tooShort
  | d :: cs => if d = c then .ok cs else .error .invalid

/-- What stands between the date and the time of day. -/
def separator : List Char → Except Fault (List Char)
  | [] => .error .tooShort
  | c :: cs => if c = 'T' ∨ c = 't' ∨ c = ' ' then .ok cs else .error .invalid

/-- Nanoseconds after an optional point; digits beyond the ninth are dropped. -/
def fraction : List Char → Except Fault (Nat × List Char)
  | '.' :: cs => do
    let (n, rest) ← number 9 cs
    return (n * Nat.pow 10 (9 - (cs.length - rest.length)), rest.dropWhile Char.isDigit)
  | cs => .ok (0, cs)

def twoDigits : List Char → Except Fault (Nat × List Char)
  | [] => .error .tooShort
  | [c] => .error (if c.toNat < 0x80 then .tooShort else .invalid)
  | a :: b :: cs =>
    if a.isDigit && b.isDigit then .ok (10 * (a.toNat - 0x30) + (b.toNat - 0x30), cs)
    else .error .invalid

/-- Hours and minutes, which colons and blanks may part, in seconds. -/
def shift (cs : List Char) : Except Fault (Nat × List Char) := do
  let (hours, cs) ← twoDigits cs
  let (minutes, cs) ← twoDigits (cs.dropWhile fun c => c == ':' || Text.isBlank c)
  if minutes < 60 then return (3600 * hours + 60 * minutes, cs) else throw .outOfRange

/-- The offset from universal time in seconds. -/
def readOffset (cs : List Char) : Except Fault (Int × List Char) :=
  if (cs.take 3).map Char.toLower = ['u', 't', 'c'] then .ok (0, cs.drop 3)
  else match cs with
    | [] => .error .tooShort
    | c :: cs =>
      if c = 'Z' ∨ c = 'z' then .ok (0, cs)
      else if c = '+' then (shift cs).map fun (n, cs) => (n, cs)
      else if c = '-' ∨ c = '\u2212' then (shift cs).map fun (n, cs) => (-n, cs)
      else .error .invalid

def firstYear : Int := -262143
def lastYear : Int := 262142

def ofText (s : String) : Except Fault Timestamp := do
  let (year, cs) ← readYear s.toList
  let cs ← mark '-' cs
  let (month, cs) ← bounded 1 12 cs
  let cs ← mark '-' cs
  let (day, cs) ← bounded 1 31 cs
  let cs ← separator cs
  let (hour, cs) ← bounded 0 23 cs
  let cs ← mark ':' cs
  let (minute, cs) ← bounded 0 59 cs
  let cs ← mark ':' cs
  let (second, cs) ← bounded 0 60 cs
  let (nanoseconds, cs) ← fraction cs
  let (offset, cs) ← readOffset (skipBlanks cs)
  if !(skipBlanks cs).isEmpty then throw .tooLong
  if year < firstYear ∨ lastYear < year ∨ daysInMonth year month < day ∨
      86400 ≤ offset.natAbs then
    throw .outOfRange
  let leap := second / 60
  let clock : Int := 3600 * hour + 60 * minute + (second - leap : Nat)
  let seconds := daysOfDate year month day * 86400 + clock - offset
  if seconds < daysOfDate firstYear 1 1 * 86400 ∨
      daysOfDate (lastYear + 1) 1 1 * 86400 ≤ seconds then
    throw .impossible
  return ⟨seconds, nanoseconds + leap * Nat.pow 10 9⟩

end Timestamp

end StoryEngine
