import StoryEngine.Double.Decimal
import StoryEngine.Text.Literal

/-! # Values

The data that stories pass around: null, truth values, numbers, texts, lists and records.
Numbers are integers or binary64 numbers and the two kinds never meet.
-/

namespace StoryEngine

inductive Number where
  | int (n : Int)
  | float (x : Double)
  deriving DecidableEq

inductive Value where
  | null
  | bool (b : Bool)
  | number (n : Number)
  | string (s : String)
  | array (items : List Value)
  | object (fields : List (String × Value))

namespace Number

def text : Number → String
  | .int n => toString n
  | .float x => x.text

/-- Equal as numbers of the same kind. -/
def same : Number → Number → Bool
  | .int m, .int n => m == n
  | .float x, .float y => x.same y
  | _, _ => false

end Number

namespace Value

instance : Inhabited Value := ⟨.null⟩

def int (n : Int) : Value := .number (.int n)

def strings (names : List String) : Value := .array (names.map .string)

mutual

/-- Compact text: no spaces, fields in their stored order. -/
def text : Value → String
  | .null => "null"
  | .bool b => if b then "true" else "false"
  | .number n => n.text
  | .string s => Text.literal s
  | .array items => "[" ++ ",".intercalate (itemTexts items) ++ "]"
  | .object fields => "\x7b" ++ ",".intercalate (fieldTexts fields) ++ "\x7d"

def itemTexts : List Value → List String
  | [] => []
  | v :: rest => v.text :: itemTexts rest

def fieldTexts : List (String × Value) → List String
  | [] => []
  | (k, v) :: rest => (Text.literal k ++ ":" ++ v.text) :: fieldTexts rest

end

mutual

/-- Equality of values, with the two zeros of the float kind equal. -/
def same : Value → Value → Bool
  | .null, .null => true
  | .bool a, .bool b => a == b
  | .number m, .number n => m.same n
  | .string s, .string t => s == t
  | .array xs, .array ys => sameItems xs ys
  | .object xs, .object ys => sameFields xs ys
  | _, _ => false

def sameItems : List Value → List Value → Bool
  | [], [] => true
  | x :: xs, y :: ys => x.same y && sameItems xs ys
  | _, _ => false

def sameFields : List (String × Value) → List (String × Value) → Bool
  | [], [] => true
  | (k, x) :: xs, (l, y) :: ys => k == l && x.same y && sameFields xs ys
  | _, _ => false

end

/-- The value as an integer of 64 signed bits. -/
def int64? : Value → Option Int
  | .number (.int n) => if -Int.pow 2 63 ≤ n ∧ n < Int.pow 2 63 then some n else none
  | _ => none

end Value

end StoryEngine
