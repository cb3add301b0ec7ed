import StoryEngine.Declaration
import StoryEngine.Digest.Blake3
import StoryEngine.Value.Canonical

/-! # Traces

A trace is the flat list of instructions of a story. Sub-stories stand in it between an enter and
an exit marker, nested like brackets; its fingerprint is a digest of its shape.
-/

namespace StoryEngine

/-- A host instance, by its name and its number. -/
structure Owner where
  host : String
  number : Nat
  deriving DecidableEq

/-- An occurrence of a story in a trace; the site lists the places, from the root's body down, at
which it was entered. -/
structure Origin where
  host : String
  declaration : Declaration
  site : List Nat

def Origin.label (origin : Origin) : String := origin.host ++ "." ++ origin.declaration.name

/-- The same occurrence of the same story. -/
def Origin.same (a b : Origin) : Bool := a.label == b.label && a.site == b.site

inductive Action where
  | step (name : String) (run : Step)
  | enter (story : Origin) (title : String) (injected : Bool)
  | exit (story : Origin)

structure Instruction where
  owner : Owner
  action : Action
  origin : Origin

namespace Instruction

variable (instruction : Instruction)

def label : String :=
  match instruction.action with
  | .step name _ => instruction.owner.host ++ "." ++ name
  | .enter story _ _ => "enter:" ++ story.label
  | .exit story => "exit:" ++ story.label

def isStep : Bool :=
  match instruction.action with
  | .step _ _ => true
  | _ => false

def text : String :=
  "Instruction \x7b owner: " ++ instruction.owner.host ++
    ", action: " ++ Text.quoted instruction.label ++
    ", origin: " ++ Text.quoted instruction.origin.label ++ " \x7d"

end Instruction

structure Trace where
  root : Origin
  instructions : List Instruction

namespace Trace

/-- The version of the engine; it enters every fingerprint. -/
def engineVersion : String := "S1.0"

variable (trace : Trace)

def labels : List String := trace.instructions.map Instruction.label

def size : Nat := trace.instructions.length

/-- What a fingerprint depends on. -/
def shape : Value :=
  .object
    [("engine_version", .string engineVersion),
     ("story", .string trace.root.label),
     ("arguments", .strings trace.root.declaration.arguments),
     ("instructions", .strings trace.labels)]

def fingerprint : String := Blake3.hash trace.shape.canonical

/-- Every exit closes the story entered last, and no story stays open. -/
def balancedFrom : List Origin → List Instruction → Bool
  | active, [] => active.isEmpty
  | active, i :: rest =>
    match i.action, active with
    | .step _ _, _ => balancedFrom active rest
    | .enter story _ _, _ => balancedFrom (story :: active) rest
    | .exit story, top :: below => top.same story && balancedFrom below rest
    | .exit _, [] => false

def isBalanced : Bool := balancedFrom [] trace.instructions

end Trace

end StoryEngine
