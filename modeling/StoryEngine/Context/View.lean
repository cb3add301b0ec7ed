import StoryEngine.Context.Basic
import StoryEngine.Value.Shape

/-! # What a step sees

A step reads the variables of its context, plainly or as a given shape. Its attempts to change
the context in place always fail.
-/

namespace StoryEngine.Context

variable (context : Context)

def require (name : String) : Except VariableError Value :=
  match context.get? name with
  | some value => .ok value
  | none => .error (.missing name)

def read (shape : Shape) (name : String) : Except VariableError shape.Carrier := do
  let value ← context.require name
  match shape.read value with
  | .ok x => return x
  | .error cause => throw (.mismatch name cause)

def assign (_context : Context) (_name : String) (_value : Value) : Except MutationError Unit :=
  .error .assignment

def remove (_context : Context) (_name : String) : Except MutationError Unit := .error .deletion

end StoryEngine.Context
