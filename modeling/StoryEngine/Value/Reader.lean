import StoryEngine.Value.Canonical

/-! # Reading values

A reader of JSON text. Integers within 64 bits keep their kind, every other numeral is read as a
binary64 number; records come in normal form; containers nest at most 127 deep.
-/

namespace StoryEngine

def ofDecimalDigits (digits : List Nat) : Nat := digits.foldl (fun n d => 10 * n + d) 0

/-- The number that a numeral spells: integers between `-2 ^ 63` and `2 ^ 64 - 1` other than
`-0`, and binary64 numbers. -/
def Number.ofDigits? (negative : Bool) (whole : List Nat) (fraction : Option (List Nat))
    (exponent : Option Int) : Option Number :=
  let magnitude := ofDecimalDigits whole
  match fraction, exponent with
  | none, none =>
    if !negative && magnitude < Nat.pow 2 64 then some (.int magnitude)
    else if negative && 0 < magnitude && magnitude ≤ Nat.pow 2 63 then some (.int (-magnitude))
    else (Double.ofDigits? negative whole [] 0).map .float
  | fraction, exponent =>
    (Double.ofDigits? negative whole (fraction.getD []) (exponent.getD 0)).map .float

namespace Value.Reader

def isSpace (c : Char) : Bool := c == ' ' || c == '\n' || c == '\t' || c == '\r'

def skipSpace (cs : List Char) : List Char := cs.dropWhile isSpace

def hexDigit? (c : Char) : Option Nat :=
  if '0' ≤ c ∧ c ≤ '9' then some (c.toNat - 0x30)
  else if 'a' ≤ c ∧ c ≤ 'f' then some (c.toNat - 0x57)
  else if 'A' ≤ c ∧ c ≤ 'F' then some (c.toNat - 0x37)
  else none

/-- Four hexadecimal digits. -/
def unit? : List Char → Option (Nat × List Char)
  | a :: b :: c :: d :: rest => do
    let (a, b, c, d) := (← hexDigit? a, ← hexDigit? b, ← hexDigit? c, ← hexDigit? d)
    return (((a * 16 + b) * 16 + c) * 16 + d, rest)
  | _ => none

/-- The character after `\u`: one unit, or a high and a low surrogate. -/
def escaped? (cs : List Char) : Option (Char × List Char) := do
  let (high, rest) ← unit? cs
  if 0xd800 ≤ high ∧ high < 0xdc00 then
    match rest with
    | '\\' :: 'u' :: rest =>
      let (low, rest) ← unit? rest
      if 0xdc00 ≤ low ∧ low < 0xe000 then
        return (Char.ofNat (0x10000 + (high - 0xd800) * 0x400 + (low - 0xdc00)), rest)
      else none
    | _ => none
  else if 0xdc00 ≤ high ∧ high < 0xe000 then none
  else return (Char.ofNat high, rest)

def shortEscape? : Char → Option Char
  | '"' => some '"'
  | '\\' => some '\\'
  | '/' => some '/'
  | 'b' => some '\x08'
  | 'f' => some '\x0c'
  | 'n' => some '\n'
  | 'r' => some '\r'
  | 't' => some '\t'
  | _ => none

/-- One character of a string, and the rest; `none` for the closing quote. -/
def stringChar? : List Char → Option (Option Char × List Char)
  | '"' :: rest => some (none, rest)
  | '\\' :: 'u' :: rest => (escaped? rest).map fun (c, rest) => (some c, rest)
  | '\\' :: c :: rest => (shortEscape? c).map fun c => (some c, rest)
  | c :: rest => if c.toNat < 0x20 then none else some (some c, rest)
  | [] => none

/-- The rest of a string after its opening quote, read in at most `fuel` characters. -/
def string? : Nat → List Char → List Char → Option (String × List Char)
  | 0, _, _ => none
  | fuel + 1, acc, cs => do
    match ← stringChar? cs with
    | (none, rest) => return (String.ofList acc.reverse, rest)
    | (some c, rest) => string? fuel (c :: acc) rest

def digits (cs : List Char) : List Nat × List Char :=
  ((cs.takeWhile Char.isDigit).map fun c => c.toNat - 0x30, cs.dropWhile Char.isDigit)

/-- Digits before the point: a single zero, or no zero in front. -/
def whole? (cs : List Char) : Option (List Nat × List Char) :=
  match digits cs with
  | ([], _) => none
  | (0 :: _ :: _, _) => none
  | (ds, rest) => some (ds, rest)

def fraction? : List Char → Option (Option (List Nat) × List Char)
  | '.' :: rest =>
    match digits rest with
    | ([], _) => none
    | (ds, rest) => some (some ds, rest)
  | cs => some (none, cs)

def exponent? : List Char → Option (Option Int × List Char)
  | c :: rest =>
    if c == 'e' || c == 'E' then
      let (negative, rest) : Bool × List Char :=
        match rest with
        | '-' :: rest => (true, rest)
        | '+' :: rest => (false, rest)
        | rest => (false, rest)
      match digits rest with
      | ([], _) => none
      | (ds, rest) =>
        let n : Int := ofDecimalDigits ds
        some (some (if negative then -n else n), rest)
    else some (none, c :: rest)
  | [] => some (none, [])

def number? (cs : List Char) : Option (Number × List Char) := do
  let (negative, cs) : Bool × List Char :=
    match cs with
    | '-' :: rest => (true, rest)
    | cs => (false, cs)
  let (whole, cs) ← whole? cs
  let (fraction, cs) ← fraction? cs
  let (exponent, cs) ← exponent? cs
  return (← Number.ofDigits? negative whole fraction exponent, cs)

/-- Items up to the closing bracket, in at most `fuel` items. -/
def items? (item? : List Char → Option (Value × List Char)) :
    Nat → List Value → List Char → Option (List Value × List Char)
  | 0, _, _ => none
  | fuel + 1, acc, cs => do
    let (v, rest) ← item? cs
    match skipSpace rest with
    | ',' :: rest => items? item? fuel (v :: acc) rest
    | ']' :: rest => return ((v :: acc).reverse, rest)
    | _ => none

/-- Fields up to the closing brace, in at most `fuel` fields. -/
def fields? (item? : List Char → Option (Value × List Char)) :
    Nat → List (String × Value) → List Char → Option (List (String × Value) × List Char)
  | 0, _, _ => none
  | fuel + 1, acc, cs => do
    match skipSpace cs with
    | '"' :: rest =>
      let (k, rest) ← string? (rest.length + 1) [] rest
      match skipSpace rest with
      | ':' :: rest =>
        let (v, rest) ← item? rest
        match skipSpace rest with
        | ',' :: rest => fields? item? fuel ((k, v) :: acc) rest
        | '\x7d' :: rest => return (((k, v) :: acc).reverse, rest)
        | _ => none
      | _ => none
    | _ => none

/-- A value whose containers nest less than `depth` deep. -/
def value? : Nat → List Char → Option (Value × List Char)
  | 0, _ => none
  | depth + 1, cs =>
    match skipSpace cs with
    | 'n' :: 'u' :: 'l' :: 'l' :: rest => some (.null, rest)
    | 't' :: 'r' :: 'u' :: 'e' :: rest => some (.bool true, rest)
    | 'f' :: 'a' :: 'l' :: 's' :: 'e' :: rest => some (.bool false, rest)
    | '"' :: rest => (string? (rest.length + 1) [] rest).map fun (s, rest) => (.string s, rest)
    | '[' :: rest =>
      if depth = 0 then none
      else match skipSpace rest with
        | ']' :: rest => some (.array [], rest)
        | rest => (items? (value? depth) rest.length [] rest).map fun (vs, rest) =>
          (.array vs, rest)
    | '\x7b' :: rest =>
      if depth = 0 then none
      else match skipSpace rest with
        | '\x7d' :: rest => some (.object [], rest)
        | rest => (fields? (value? depth) rest.length [] rest).map fun (fields, rest) =>
          (.object (record fields), rest)
    | cs => (number? cs).map fun (n, rest) => (.number n, rest)

end Value.Reader

/-- The value that a whole text spells. -/
def Value.ofText? (s : String) : Option Value :=
  match Value.Reader.value? 128 s.toList with
  | some (v, rest) => if (Value.Reader.skipSpace rest).isEmpty then some v else none
  | none => none

end StoryEngine
