import StoryEngine.Value.Canonical
import StoryEngine.Value.Mismatch

/-! # Shapes

The types a value can be read as. A shape names a Lean type, reads values into it and writes
them back; reading reports the first fault, depth first.
-/

namespace StoryEngine

inductive IntegerKind where
  | i64
  | u64
  | i32
  | i8
  | u8
  | usize
  deriving DecidableEq

namespace IntegerKind

def name : IntegerKind → String
  | .i64 => "i64"
  | .u64 => "u64"
  | .i32 => "i32"
  | .i8 => "i8"
  | .u8 => "u8"
  | .usize => "usize"

def low : IntegerKind → Int
  | .i64 => -Int.pow 2 63
  | .i32 => -Int.pow 2 31
  | .i8 => -Int.pow 2 7
  | .u64 | .u8 | .usize => 0

def high : IntegerKind → Int
  | .i64 => Int.pow 2 63 - 1
  | .u64 | .usize => Int.pow 2 64 - 1
  | .i32 => Int.pow 2 31 - 1
  | .i8 => Int.pow 2 7 - 1
  | .u8 => Int.pow 2 8 - 1

/-- Integers of any other kind of number are refused, whatever their size. -/
def read (kind : IntegerKind) : Value → Except Mismatch Int
  | .number (.int n) =>
    if kind.low ≤ n ∧ n ≤ kind.high then .ok n
    else .error (.invalidValue (.number (.int n)) kind.name)
  | v => .error (.invalidType v.found kind.name)

end IntegerKind

inductive Shape where
  | integer (kind : IntegerKind)
  | float
  | bool
  | string
  | char
  | unit
  | value
  | list (item : Shape)
  | option (item : Shape)
  | map (item : Shape)
  | pair (first second : Shape)

namespace Shape

/-- The type of what is read. -/
abbrev Carrier : Shape → Type
  | .integer _ => Int
  | .float => Double
  | .bool => Bool
  | .string => String
  | .char => Char
  | .unit => Unit
  | .value => Value
  | .list item => List item.Carrier
  | .option item => Option item.Carrier
  | .map item => List (String × item.Carrier)
  | .pair first second => first.Carrier × second.Carrier

def readFloat : Value → Except Mismatch Double
  | .number (.float x) => .ok x
  | .number (.int n) =>
    match Double.ofInt? n with
    | some x => .ok x
    | none => .error (.invalidValue (.number (.int n)) "f64")
  | v => .error (.invalidType v.found "f64")

def readBool : Value → Except Mismatch Bool
  | .bool b => .ok b
  | v => .error (.invalidType v.found "a boolean")

def readString : Value → Except Mismatch String
  | .string s => .ok s
  | v => .error (.invalidType v.found "a string")

/-- A character is a text of exactly one code point. -/
def readChar : Value → Except Mismatch Char
  | .string s =>
    match s.toList with
    | [c] => .ok c
    | _ => .error (.invalidValue (.string s) "a character")
  | v => .error (.invalidType v.found "a character")

def readUnit : Value → Except Mismatch Unit
  | .null => .ok ()
  | v => .error (.invalidType v.found "unit")

/-- A sequence of exactly two items. -/
def readPair {α β : Type} (first : Value → Except Mismatch α) (second : Value → Except Mismatch β) :
    Value → Except Mismatch (α × β)
  | .array [] => .error (.invalidLength 0 "a tuple of size 2")
  | .array [a] => do
    let _ ← first a
    .error (.invalidLength 1 "a tuple of size 2")
  | .array (a :: b :: rest) => do
    let x ← first a
    let y ← second b
    if rest.isEmpty then return (x, y)
    else .error (.invalidLength (rest.length + 2) "fewer elements in array")
  | v => .error (.invalidType v.found "a tuple of size 2")

def read : (shape : Shape) → Value → Except Mismatch shape.Carrier
  | .integer kind, v => kind.read v
  | .float, v => readFloat v
  | .bool, v => readBool v
  | .string, v => readString v
  | .char, v => readChar v
  | .unit, v => readUnit v
  | .value, v => .ok v
  | .list item, .array items => items.mapM item.read
  | .list _, v => .error (.invalidType v.found "a sequence")
  | .option _, .null => .ok none
  | .option item, v => some <$> item.read v
  | .map item, .object fields => fields.mapM fun (k, v) => do return (k, ← item.read v)
  | .map _, v => .error (.invalidType v.found "a map")
  | .pair first second, v => readPair first.read second.read v

def write : (shape : Shape) → shape.Carrier → Value
  | .integer _, n => .int n
  | .float, x => .number (.float x)
  | .bool, b => .bool b
  | .string, s => .string s
  | .char, c => .string (String.singleton c)
  | .unit, () => .null
  | .value, v => v
  | .list item, items => .array (items.map item.write)
  | .option _, none => .null
  | .option item, some x => item.write x
  | .map item, fields => .object (Value.record (fields.map fun (k, x) => (k, item.write x)))
  | .pair first second, (x, y) => .array [first.write x, second.write y]

abbrev i64 : Shape := .integer .i64
abbrev u64 : Shape := .integer .u64

end Shape

end StoryEngine
