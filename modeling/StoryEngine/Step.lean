import StoryEngine.Context.View
import StoryEngine.Log

/-! # Steps

A step looks at the context and answers with an outcome, with nothing, or with an error.
-/

namespace StoryEngine

inductive Outcome where
  | success (outputs : Outputs)
  | failure (reason : Option String)
  | skip
  | result (value : Value)

def Outcome.code : Outcome → String
  | .success _ => "S"
  | .failure _ => "F"
  | .skip => "K"
  | .result _ => "R"

/-- A step, with the lines that stories called from it write. -/
structure Step where
  run : Context → Except StepError (Option Outcome)
  remarks : Context → List Line := fun _ => []

end StoryEngine
