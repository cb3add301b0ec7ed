import StoryEngine.Event.Store
import StoryEngine.Step
import StoryEngine.Value.Record

/-! # Stored forms

The values as which outcomes, origins, violations and events are stored, and reading them back.
-/

namespace StoryEngine

namespace Violation

def ofValue : Value → Except Mismatch Violation :=
  readStruct "ContractViolation" ["variable", "message"] fun f =>
    Violation.mk <$> f.shape .string "variable" <*> f.shape .string "message"

def toValue (v : Violation) : Value :=
  .object [("variable", .string v.variableName), ("message", .string v.reason)]

end Violation

namespace StepIdentity

def ofValue : Value → Except Mismatch StepIdentity :=
  readStruct "StepIdentity" ["host", "step"] fun f =>
    StepIdentity.mk <$> f.shape .string "host" <*> f.shape .string "step"

def toValue (identity : StepIdentity) : Value :=
  .object [("host", .string identity.host), ("step", .string identity.step)]

end StepIdentity

namespace Provenance

def ofValue (v : Value) : Except Mismatch Provenance := do
  match ← readVariant ["Argument", "SetBy"] v with
  | ("Argument", content) => readPlain .argument content
  | (_, content) => readContent (fun v => .setBy <$> StepIdentity.ofValue v) content

def toValue : Provenance → Value
  | .argument => .string "Argument"
  | .setBy identity => tagged "SetBy" identity.toValue

end Provenance

namespace Outcome

def ofValue (v : Value) : Except Mismatch Outcome := do
  match ← readVariant ["Success", "Failure", "Skip", "Result"] v with
  | ("Success", content) =>
    readContent (fun v => do return .success (.ofList (← (Shape.map .value).read v))) content
  | ("Failure", content) =>
    readContent (fun v => .failure <$> (Shape.option .string).read v) content
  | ("Skip", content) => readPlain .skip content
  | (_, content) => readContent (fun v => .ok (.result v)) content

def toValue : Outcome → Value
  | .success outputs => tagged "Success" (.object outputs.pairs)
  | .failure reason => tagged "Failure" ((Shape.option .string).write reason)
  | .skip => .string "Skip"
  | .result value => tagged "Result" value

end Outcome

namespace RunStatus

def ofValue (v : Value) : Except Mismatch RunStatus := do
  match ← readVariant ["Completed", "Returned", "Failed", "Errored"] v with
  | ("Completed", content) => readPlain .completed content
  | ("Returned", content) => readPlain .returned content
  | ("Failed", content) => readPlain .failed content
  | (_, content) => readPlain .errored content

def toValue (status : RunStatus) : Value := .string status.text

end RunStatus

namespace EventKind

def variants : List String :=
  ["StoryStarted", "SubstoryEntered", "StepStarted", "StepFinished", "StepFailed", "StepSkipped",
   "StepReturned", "InstructionBypassed", "SubstoryExited", "Errored", "StoryFinished"]

def readDepth (f : Fields) : Ranked Nat :=
  f.read "depth" fun v => Int.toNat <$> IntegerKind.usize.read v

def ofValue (v : Value) : Except Mismatch EventKind := do
  match ← readVariant variants v with
  | ("StoryStarted", content) =>
    readFields ["story", "trace_fingerprint"] (fun f =>
      storyStarted <$> f.shape .string "story" <*> f.shape .string "trace_fingerprint") content
  | ("SubstoryEntered", content) =>
    readFields ["name", "story", "injected", "depth"] (fun f =>
      substoryEntered <$> f.shape .string "name" <*> f.shape .string "story" <*>
        f.shape .bool "injected" <*> readDepth f) content
  | ("StepStarted", content) =>
    readFields ["step", "host", "depth"] (fun f =>
      stepStarted <$> f.shape .string "step" <*> f.shape .string "host" <*> readDepth f) content
  | ("StepFinished", content) =>
    readFields ["step", "outputs", "depth"] (fun f =>
      stepFinished <$> f.shape .string "step" <*> f.shape (.list .string) "outputs" <*>
        readDepth f) content
  | ("StepFailed", content) =>
    readFields ["step", "reason", "depth"] (fun f =>
      stepFailed <$> f.shape .string "step" <*>
        f.readOr (some none) "reason" (Shape.option .string).read <*> readDepth f) content
  | ("StepSkipped", content) =>
    readFields ["step", "depth"] (fun f =>
      stepSkipped <$> f.shape .string "step" <*> readDepth f) content
  | ("StepReturned", content) =>
    readFields ["step", "value", "depth"] (fun f =>
      stepReturned <$> f.shape .string "step" <*> f.shape .value "value" <*> readDepth f) content
  | ("InstructionBypassed", content) =>
    readFields ["label", "depth"] (fun f =>
      instructionBypassed <$> f.shape .string "label" <*> readDepth f) content
  | ("SubstoryExited", content) =>
    readFields ["story", "depth"] (fun f =>
      substoryExited <$> f.shape .string "story" <*> readDepth f) content
  | ("Errored", content) =>
    readFields ["kind", "message", "depth"] (fun f =>
      errored <$> f.shape .string "kind" <*> f.shape .string "message" <*> readDepth f) content
  | (_, content) =>
    readFields ["status"] (fun f => storyFinished <$> f.read "status" RunStatus.ofValue) content

def toValue : EventKind → Value
  | .storyStarted story fingerprint =>
    tagged "StoryStarted"
      (.object [("story", .string story), ("trace_fingerprint", .string fingerprint)])
  | .substoryEntered name story injected depth =>
    tagged "SubstoryEntered"
      (.object [("name", .string name), ("story", .string story), ("injected", .bool injected),
        ("depth", .int depth)])
  | .stepStarted step host depth =>
    tagged "StepStarted"
      (.object [("step", .string step), ("host", .string host), ("depth", .int depth)])
  | .stepFinished step outputs depth =>
    tagged "StepFinished"
      (.object [("step", .string step), ("outputs", .strings outputs), ("depth", .int depth)])
  | .stepFailed step reason depth =>
    tagged "StepFailed"
      (.object [("step", .string step), ("reason", (Shape.option .string).write reason),
        ("depth", .int depth)])
  | .stepSkipped step depth =>
    tagged "StepSkipped" (.object [("step", .string step), ("depth", .int depth)])
  | .stepReturned step value depth =>
    tagged "StepReturned"
      (.object [("step", .string step), ("value", value), ("depth", .int depth)])
  | .instructionBypassed label depth =>
    tagged "InstructionBypassed" (.object [("label", .string label), ("depth", .int depth)])
  | .substoryExited story depth =>
    tagged "SubstoryExited" (.object [("story", .string story), ("depth", .int depth)])
  | .errored kind message depth =>
    tagged "Errored"
      (.object [("kind", .string kind), ("message", .string message), ("depth", .int depth)])
  | .storyFinished status => tagged "StoryFinished" (.object [("status", status.toValue)])

end EventKind

def RunId.ofValue : Value → Except Mismatch RunId
  | .string s =>
    (RunId.ofText s).mapError fun fault => .malformed ("UUID parsing failed: " ++ fault.message)
  | v => .error (.invalidType v.found "a formatted UUID string")

def Timestamp.ofValue : Value → Except Mismatch Timestamp
  | .string s => (Timestamp.ofText s).mapError fun fault => .malformed fault.message
  | v => .error (.invalidType v.found "an RFC 3339 formatted date and time string")

namespace Event

def ofValue : Value → Except Mismatch Event :=
  readStruct "StoryEvent" ["seq", "run_id", "kind", "ts"] fun f =>
    Event.mk <$> f.read "seq" (fun v => Int.toNat <$> IntegerKind.u64.read v) <*>
      f.read "run_id" RunId.ofValue <*> f.read "kind" EventKind.ofValue <*>
      f.read "ts" Timestamp.ofValue

def toValue (event : Event) : Value :=
  .object [("seq", .int event.seq), ("run_id", .string event.run.text),
    ("kind", event.kind.toValue), ("ts", .string event.time.text)]

end Event

end StoryEngine
