import StoryEngine.Bindings
import StoryEngine.Error.Basic

/-! # Contexts

The variables of a run in the order in which they were set, each with its origin. A context only
grows: a name that is present is never set again.
-/

namespace StoryEngine

/-- The step that set a variable, by its host and its name. -/
structure StepIdentity where
  host : String
  step : String
  deriving DecidableEq

def StepIdentity.text (identity : StepIdentity) : String := identity.host ++ "." ++ identity.step

inductive Provenance where
  | argument
  | setBy (identity : StepIdentity)
  deriving DecidableEq

def Provenance.text : Provenance → String
  | .argument => "Story argument"
  | .setBy identity => "Set by " ++ identity.text

/-- The variables that a step sets. -/
abbrev Outputs := Bindings Value

structure Variable where
  name : String
  value : Value
  provenance : Provenance

structure Context where
  entries : List Variable

namespace Context

def empty : Context := ⟨[]⟩

instance : Inhabited Context := ⟨empty⟩

/-- The context of a call; a name given twice keeps its first place and its last value. -/
def ofArguments (arguments : List (String × Value)) : Context :=
  ⟨(Bindings.ofList arguments).pairs.map fun (name, value) => ⟨name, value, .argument⟩⟩

variable (context : Context)

def names : List String := context.entries.map Variable.name

def find? (name : String) : Option Variable := context.entries.find? (·.name == name)

def get? (name : String) : Option Value := (context.find? name).map Variable.value

def provenance? (name : String) : Option Provenance := (context.find? name).map Variable.provenance

def contains (name : String) : Bool := context.names.contains name

def size : Nat := context.entries.length

def isEmpty : Bool := context.entries.isEmpty

/-- The required names that are not set, in the order given. -/
def missing (required : List String) : List String :=
  required.filter fun name => !context.contains name

/-- The pairs of the required names that are set, in the order given. -/
def visible (required : List String) : List (String × Value) :=
  required.filterMap fun name => (context.get? name).map fun value => (name, value)

/-- Adds all outputs, or none of them if one of their names is already set. -/
def extend (outputs : Outputs) (identity : StepIdentity) : Except ProtocolError Context :=
  match outputs.names.filter context.contains with
  | [] =>
    let added := outputs.pairs.map fun (name, value) => ⟨name, value, .setBy identity⟩
    .ok ⟨context.entries ++ added⟩
  | collisions => .error (.override identity.text collisions)

def text : String :=
  "Context(" ++ ", ".intercalate
    (context.entries.map fun v => v.name ++ "=" ++ v.value.text) ++ ")"

/-- Equal as finite maps with equal origins in order. -/
def same (a b : Context) : Bool :=
  a.size == b.size &&
    (a.entries.all fun v => match b.get? v.name with
      | some value => v.value.same value
      | none => false) &&
    a.entries.map Variable.provenance == b.entries.map Variable.provenance

end Context

end StoryEngine
