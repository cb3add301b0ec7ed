import StoryEngine.Text.Literal

/-! # Run identities

A run is known by a 128-bit number. It is written as five groups of hexadecimal digits and read
from that form, also in braces or after `urn:uuid:` in any case, or from its digits alone.
-/

namespace StoryEngine

structure RunId where
  number : BitVec 128
  deriving DecidableEq

namespace RunId

/-- The sizes of the groups. -/
def groupSizes : List Nat := [8, 4, 4, 4, 12]

def groups : List Nat → List Char → List (List Char)
  | [], _ => []
  | size :: rest, digits => digits.take size :: groups rest (digits.drop size)

def text (id : RunId) : String :=
  let digits := (Text.hexDigits id.number.toNat).leftpad 32 '0'
  "-".intercalate ((groups groupSizes digits).map String.ofList)

inductive Fault where
  | invalidCharacter (c : Char) (place : Nat)
  | textLength (length : Nat)
  | groupCount (count : Nat)
  | groupLength (group expected length : Nat)
  deriving DecidableEq

def Fault.message : Fault → String
  | .invalidCharacter c place => s!"invalid character: found `{c}` at {place}"
  | .textLength length => s!"invalid length: found {length}"
  | .groupCount count => s!"invalid group count: expected 5, found {count}"
  | .groupLength group expected length =>
    s!"invalid group length in group {group}: expected {expected}, found {length}"

def hexValue? (c : Char) : Option Nat :=
  if '0' ≤ c ∧ c ≤ '9' then some (c.toNat - 0x30)
  else if 'a' ≤ c ∧ c ≤ 'f' then some (c.toNat - 0x57)
  else if 'A' ≤ c ∧ c ≤ 'F' then some (c.toNat - 0x37)
  else none

/-- Splits at hyphens. -/
def splitGroups : List Char → List (List Char)
  | [] => [[]]
  | c :: rest =>
    if c = '-' then [] :: splitGroups rest
    else match splitGroups rest with
      | group :: groups => (c :: group) :: groups
      | [] => [[c]]

def scheme : List Char := "urn:uuid:".toList

/-- The length of the digits alone and of the grouped form. -/
def bareLength : Nat := 32
def groupedLength : Nat := 36

/-- What is to be read of a text: its characters without braces or scheme, the place at which they
start to count, and whether they may be digits alone. -/
structure Body where
  chars : List Char
  start : Nat
  bare : Bool

/-- Braces and a scheme are taken off unless the text is as long as a form without them. Places
count from the start of a body that is as long as the grouped form, else from that of the text. -/
def Body.ofText (s : String) : Body :=
  let cs := s.toList
  let size := s.utf8ByteSize
  let wrapped (before after : Nat) : Body :=
    ⟨(cs.drop before).take (cs.length - before - after),
      if size = before + groupedLength + after then 0 else before, false⟩
  if size = bareLength then ⟨cs, 0, true⟩
  else if size = groupedLength then ⟨cs, 0, false⟩
  else if 2 ≤ cs.length ∧ cs.head? = some '\x7b' ∧ cs.getLast? = some '\x7d' then wrapped 1 1
  else if scheme.isPrefixOf (cs.map Char.toLower) then wrapped scheme.length 0
  else ⟨cs, 0, true⟩

/-- The first character that is neither a digit nor a hyphen, with its place. -/
def Body.strayChar? (body : Body) : Option Fault := do
  let place ← body.chars.findIdx? fun c => c != '-' && (hexValue? c).isNone
  let c ← body.chars[place]?
  return .invalidCharacter c (body.start + place)

/-- The first group whose length is not its size; the last group counts up to the end of the whole
text of `size` bytes. -/
def groupFault? (size : Nat) (groups : List (List Char)) : Option Fault :=
  ((groups.zip groupSizes).mapIdx fun i (group, expected) =>
    (i, group.length, expected)).findSome? fun (i, found, expected) =>
      if found = expected then none
      else some (.groupLength i expected (if i = 4 then size - 24 else found))

/-- What is wrong with the groups of a body without stray characters. -/
def Body.groupFault? (body : Body) (size : Nat) : Option Fault :=
  let groups := splitGroups body.chars
  if groups.length = 1 ∧ body.bare then
    if body.chars.length = bareLength then none else some (.textLength body.chars.length)
  else if groups.length = 5 then RunId.groupFault? size groups
  else some (.groupCount groups.length)

/-- A text that is longer than every form is not looked into. -/
def ofText (s : String) : Except Fault RunId :=
  let size := s.utf8ByteSize
  let body := Body.ofText s
  if scheme.length + groupedLength < size then .error (.textLength size)
  else match body.strayChar? <|> body.groupFault? size with
    | some fault => .error fault
    | none =>
      .ok ⟨BitVec.ofNat 128 ((body.chars.filterMap hexValue?).foldl (fun n d => 16 * n + d) 0)⟩

end RunId

end StoryEngine
