import StoryEngine.Context.Arguments
import StoryEngine.Event.Store
import StoryEngine.Run.Walk

/-! # Executions

The complete record of one call of a story, and the entry points that keep only its result: one
reports a failure as an error, the other as a summary.
-/

namespace StoryEngine

/-- What is left of a run for a caller who takes a failure as an answer. -/
inductive Summary where
  | success (value : Option Value)
  | failure (failure : Failure)

namespace Summary

def ofTermination : Termination → Summary
  | .completed => .success none
  | .returned value => .success (some value)
  | .failed f => .failure f

variable (summary : Summary)

def isSuccess : Bool :=
  match summary with
  | .success _ => true
  | .failure _ => false

def isFailure : Bool := !summary.isSuccess

/-- The value of a success; a failed story has none. -/
def value : Except ProtocolError (Option Value) :=
  match summary with
  | .success value => .ok value
  | .failure _ => .error .valueOfFailure

def failure? : Option Failure :=
  match summary with
  | .success _ => none
  | .failure f => some f

def failedBecause (reason : String) : Bool :=
  match summary.failure? with
  | some f => f.reason == some reason
  | none => false

end Summary

namespace Verdict

variable (verdict : Verdict)

def status : RunStatus :=
  match verdict with
  | .ok .completed => .completed
  | .ok (.returned _) => .returned
  | .ok (.failed _) => .failed
  | .error _ => .errored

def summary : Except StoryError Summary := verdict.map Summary.ofTermination

/-- The value of a run; a failure is an error here. -/
def value : Except StoryError (Option Value) :=
  match verdict with
  | .ok .completed => .ok none
  | .ok (.returned value) => .ok (some value)
  | .ok (.failed failure) => .error (.failure failure)
  | .error error => .error error

end Verdict

structure Execution where
  run : RunId
  story : String
  events : List Event
  context : Context
  verdict : Verdict

def Execution.kinds (execution : Execution) : List EventKind := execution.events.map Event.kind

namespace Run

/-- The run of a call whose arguments were refused. -/
def rejected (error : ContractError) : Run :=
  let error := StoryError.contract error
  ⟨[.errored error.kind error.message 0], .empty, .error error⟩

/-- A run with its opening and its closing event. -/
def framed (story fingerprint : String) (run : Run) : Run :=
  { run with
    events := .storyStarted story fingerprint :: run.events ++
      [.storyFinished run.verdict.status] }

end Run

/-- The first context of a call: its arguments, bound and accepted by the story's contract. -/
def Origin.opening (root : Origin) (arguments : Arguments) : Except ContractError Context := do
  let bound ← arguments.bind root.label root.declaration.arguments
  root.declaration.checkVariables root.label bound
  return .ofArguments bound

/-- A call of the story that a trace was made of. -/
def Trace.perform (trace : Trace) (arguments : Arguments) : Run :=
  let run := match trace.root.opening arguments with
    | .ok context => walk (.start trace.root context) trace.instructions
    | .error error => .rejected error
  run.framed trace.root.label trace.fingerprint

namespace Story

variable (story : Story)

def perform (arguments : Arguments) : Run := story.trace.perform arguments

/-- Performs the story and stamps its events. -/
def execute (occasion : Occasion) (arguments : Arguments) : Execution :=
  let run := story.perform arguments
  ⟨occasion.run, story.label, occasion.stamp run.events, run.context, run.verdict⟩

/-- The entry point that reports a failure as an error. -/
def call (arguments : Arguments) : Except StoryError (Option Value) :=
  (story.perform arguments).verdict.value

/-- The entry point that reports a failure as a summary. -/
def run (arguments : Arguments) : Except StoryError Summary :=
  (story.perform arguments).verdict.summary

end Story

end StoryEngine
