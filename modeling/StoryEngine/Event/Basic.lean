import StoryEngine.Value.Basic

/-! # Events

What a run reports, in order: which instructions were carried out, which were bypassed, and how
the run ended. Depth one is the root story.
-/

namespace StoryEngine

inductive RunStatus where
  | completed
  | returned
  | failed
  | errored
  deriving DecidableEq

def RunStatus.text : RunStatus → String
  | .completed => "Completed"
  | .returned => "Returned"
  | .failed => "Failed"
  | .errored => "Errored"

inductive EventKind where
  | storyStarted (story fingerprint : String)
  | substoryEntered (name story : String) (injected : Bool) (depth : Nat)
  | stepStarted (step host : String) (depth : Nat)
  | stepFinished (step : String) (outputs : List String) (depth : Nat)
  | stepFailed (step : String) (reason : Option String) (depth : Nat)
  | stepSkipped (step : String) (depth : Nat)
  | stepReturned (step : String) (value : Value) (depth : Nat)
  | instructionBypassed (label : String) (depth : Nat)
  | substoryExited (story : String) (depth : Nat)
  | errored (kind message : String) (depth : Nat)
  | storyFinished (status : RunStatus)

/-- One letter for each kind. -/
def EventKind.code : EventKind → String
  | .storyStarted .. => "I"
  | .substoryEntered .. => ">"
  | .stepStarted .. => "S"
  | .stepFinished .. => "F"
  | .stepFailed .. => "X"
  | .stepSkipped .. => "K"
  | .stepReturned .. => "R"
  | .instructionBypassed .. => "-"
  | .substoryExited .. => "<"
  | .errored .. => "E"
  | .storyFinished .. => "C"

def codes (kinds : List EventKind) : List String := kinds.map EventKind.code

end StoryEngine
