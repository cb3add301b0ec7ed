import StoryEngine.Value.Mismatch

/-! # Errors

What can go wrong when a story is compiled or run, and how it is worded. A failure is a business
outcome: it is an error only for callers who asked for a value.
-/

namespace StoryEngine

inductive CompileError where
  | unknownCapability (host story name : String)
  | unknownStory (host name : String)
  | recursive (story : String) (path : List String)
  | duplicate (host name : String)
  deriving DecidableEq

/-- A variable that a contract refused. -/
structure Violation where
  variableName : String
  reason : String
  deriving DecidableEq

/-- A call or a step did not keep to the variables that a story declares. -/
inductive ContractError where
  | mixedArguments (story : String)
  | repeatedArguments (story : String) (names : List String)
  | positionalCount (story : String) (expected found : Nat)
  | argumentMismatch (story : String) (missing unexpected : List String)
  | missingVariables (story : String) (missing : List String)
  | invalidVariables (story : String) (violations : List Violation)
  deriving DecidableEq

/-- A step broke the protocol of outcomes. -/
inductive ProtocolError where
  | override (step : String) (names : List String)
  | undeclaredReason (step story reason : String) (declared : List String)
  | noProtocol (step story reason : String)
  | valueOfFailure
  deriving DecidableEq

/-- An attempt to change a context in place. -/
inductive MutationError where
  | assignment
  | deletion
  deriving DecidableEq

/-- The business outcome of a step that gave up, with the stories that were active, innermost
first. -/
structure Failure where
  step : String
  reason : Option String
  chain : List String
  deriving DecidableEq

/-- A variable that could not be read. -/
inductive VariableError where
  | missing (name : String)
  | mismatch (name : String) (cause : Mismatch)

mutual

/-- What ends a run before its time. -/
inductive StoryError where
  | failure (failure : Failure)
  | contract (error : ContractError)
  | protocol (error : ProtocolError)
  | mutation (error : MutationError)
  | step (name : String) (cause : StepError)

/-- An error raised by the body of a step. -/
inductive StepError where
  | plain (text : String)
  | mutation (error : MutationError)
  | story (error : StoryError)
  | failure (failure : Failure)
  | contract (error : ContractError)
  | protocol (error : ProtocolError)
  | compile (error : CompileError)
  | unreadable (error : VariableError)
  | other (typeName text : String)

end

def CompileError.message : CompileError → String
  | .unknownCapability host story name =>
    s!"'{host}' has no step or story named '{name}' (referenced by {story})"
  | .unknownStory host name => s!"'{host}' declares no story named '{name}'"
  | .recursive story path => s!"story {story} includes itself (" ++ " -> ".intercalate path ++ ")"
  | .duplicate host name => s!"'{host}' registers '{name}' more than once"

def Violation.message (v : Violation) : String := v.variableName ++ ": " ++ v.reason

def ContractError.message : ContractError → String
  | .mixedArguments story => s!"story {story} called with positional and keyword arguments at once"
  | .repeatedArguments story names =>
    s!"story {story} received keyword arguments more than once: " ++ Text.quotedList names
  | .positionalCount story expected found =>
    s!"story {story} takes {expected} positional arguments, {found} given"
  | .argumentMismatch story missing unexpected =>
    s!"story {story} arguments mismatch (missing: " ++ Text.quotedList missing ++
      ", unexpected: " ++ Text.quotedList unexpected ++ ")"
  | .missingVariables story missing =>
    s!"substory {story} requires variables missing from context: " ++ Text.quotedList missing
  | .invalidVariables story violations =>
    s!"story {story} contract rejected variables: " ++
      "; ".intercalate (violations.map Violation.message)

def ProtocolError.message : ProtocolError → String
  | .override step names =>
    s!"step {step} tried to override context variables: " ++ Text.quotedList names
  | .undeclaredReason step story reason declared =>
    s!"step {step} failed with reason " ++ Text.quoted reason ++
      s!" not declared by story {story} (declared: " ++ Text.quotedList declared ++ ")"
  | .noProtocol step story reason =>
    s!"step {step} failed with reason " ++ Text.quoted reason ++
      s!" but story {story} declares no failure protocol"
  | .valueOfFailure => "failed story has no value"

def MutationError.message : MutationError → String
  | .assignment =>
    "Context object is immutable.\n\nUse Success() keyword arguments to expand its scope."
  | .deletion => "Context object is immutable.\n\nVariables can not be removed from Context."

def Failure.message (failure : Failure) : String :=
  s!"step {failure.step} failed in " ++ " <- ".intercalate failure.chain ++
    match failure.reason with
    | some reason => " (reason: " ++ Text.quoted reason ++ ")"
    | none => ""

def VariableError.message : VariableError → String
  | .missing name => s!"context has no variable '{name}'"
  | .mismatch name cause => s!"context variable '{name}' could not be decoded: " ++ cause.message

/-- The name under which an error raised by a step is reported. -/
def StepError.typeName : StepError → String
  | .plain _ => "StepMessage"
  | .mutation _ => "MutationError"
  | .story _ => "StoryError"
  | .failure _ => "FailureError"
  | .contract _ => "ContextContractError"
  | .protocol _ => "FailureProtocolError"
  | .compile _ => "CompileError"
  | .unreadable _ => "VariableError"
  | .other typeName _ => typeName

mutual

def StoryError.message : StoryError → String
  | .failure failure => failure.message
  | .contract error => error.message
  | .protocol error => error.message
  | .mutation error => error.message
  | .step name cause => s!"step {name} raised " ++ cause.typeName ++ ": " ++ cause.text

/-- The wording of the error itself, without its type's name. -/
def StepError.text : StepError → String
  | .plain text => text
  | .mutation error => error.message
  | .story error => error.message
  | .failure failure => failure.message
  | .contract error => error.message
  | .protocol error => error.message
  | .compile error => error.message
  | .unreadable error => error.message
  | .other _ text => text

end

namespace StoryError

/-- The kind under which an error is recorded. -/
def kind : StoryError → String
  | .failure _ => "FailureError"
  | .contract _ => "ContextContractError"
  | .protocol _ => "FailureProtocolError"
  | .mutation _ => "MutationError"
  | .step _ cause => cause.typeName

def isFailure : StoryError → Bool
  | .failure _ => true
  | _ => false

/-- The error that a step raised, if it was a step that raised it. -/
def source? : StoryError → Option StepError
  | .step _ cause => some cause
  | _ => none

end StoryError

namespace StepError

def message (error : StepError) : String := error.typeName ++ ": " ++ error.text

/-- The full description of an error that is only a text. -/
def describe? : StepError → Option String
  | .plain text =>
    some ("StepError \x7b type_name: \"StepMessage\", source: StepMessage(" ++
      Text.quoted text ++ ") \x7d")
  | _ => none

/-- An error leaves its step wrapped, except an attempt to change the context. -/
def leave (error : StepError) (step : String) : StoryError :=
  match error with
  | .mutation cause => .mutation cause
  | cause => .step step cause

end StepError

end StoryEngine
