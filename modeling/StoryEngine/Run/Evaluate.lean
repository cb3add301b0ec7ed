import StoryEngine.Run.Execution

/-! # Evaluating a story by its scenes

The meaning of a compiled story by recursion on its tree, without a trace, a stack of markers or a
skip region. A body is evaluated scene by scene; a skip ends the innermost story only, and what it
leaves out is reported and not looked at.
-/

namespace StoryEngine

/-- How a body ended: after its last scene, by a skip of one of its own steps, or for good. -/
inductive Fate where
  | finished
  | skipped
  | halted (verdict : Verdict)

/-- What the evaluation of a part of a story leaves behind. -/
structure Passage where
  events : List EventKind
  context : Context
  fate : Fate

def Passage.after (events : List EventKind) (passage : Passage) : Passage :=
  { passage with events := events ++ passage.events }

/-- The run of a story whose body was passed: a skip at the root completes it. -/
def Passage.run (passage : Passage) : Run :=
  match passage.fate with
  | .halted verdict => ⟨passage.events, passage.context, verdict⟩
  | _ => ⟨passage.events, passage.context, .ok .completed⟩

/-- A passage through the body of a sub-story, as its parent sees it: a skip ends there, and the
exit is reported only if the body came to its end. -/
def Passage.leave (body : Passage) (story : Origin) (depth : Nat) : Passage :=
  match body.fate with
  | .finished => ⟨body.events ++ [.substoryExited story.label depth], body.context, .finished⟩
  | .skipped => { body with fate := .finished }
  | .halted _ => body

mutual

/-- The report on a scene that a skip leaves out. -/
def Scene.bypassed (owner : Owner) (depth : Nat) : Scene → List EventKind
  | .step name _ => [.instructionBypassed (owner.host ++ "." ++ name) depth]
  | .story _ _ inner declaration scenes =>
    .instructionBypassed ("enter:" ++ inner.host ++ "." ++ declaration.name) depth ::
      Scene.bypassedAll inner (depth + 1) scenes

def Scene.bypassedAll (owner : Owner) (depth : Nat) : List Scene → List EventKind
  | [] => []
  | scene :: rest => scene.bypassed owner depth ++ bypassedAll owner depth rest

end

/-- A step under the contracts of the active stories, of which `origin` is the innermost. -/
def evaluateStep (owner : Owner) (origin : Origin) (outer : List Origin) (context : Context)
    (name : String) (step : Step) : Passage :=
  let depth := outer.length + 1
  let started := EventKind.stepStarted name owner.host depth
  let broken (error : StoryError) : Passage :=
    ⟨[started, .errored error.kind error.message depth], context, .halted (.error error)⟩
  match step.run context with
  | .error error => broken (error.leave name)
  | .ok none => ⟨[started, .stepFinished name [] depth], context, .finished⟩
  | .ok (some (.success outputs)) =>
    match checkOutputs (origin :: outer) outputs.pairs with
    | .error error => broken (.contract error)
    | .ok () =>
      match context.extend outputs ⟨owner.host, name⟩ with
      | .error error => broken (.protocol error)
      | .ok extended => ⟨[started, .stepFinished name outputs.names depth], extended, .finished⟩
  | .ok (some (.failure reason)) =>
    let label := owner.host ++ "." ++ name
    match origin.declaration.checkReason label origin.label reason with
    | .error error => broken (.protocol error)
    | .ok () =>
      let failure := { step := name, reason, chain := (origin :: outer).map Origin.label }
      ⟨[started, .stepFailed name reason depth], context, .halted (.ok (.failed failure))⟩
  | .ok (some .skip) => ⟨[started, .stepSkipped name depth], context, .skipped⟩
  | .ok (some (.result value)) =>
    ⟨[started, .stepReturned name value depth], context, .halted (.ok (.returned value))⟩

/-- What a sub-story asks of the context before its body begins. -/
def Origin.admits (story : Origin) (context : Context) : Except ContractError Unit :=
  let required := story.declaration.arguments
  if (context.missing required).isEmpty then
    story.declaration.checkVariables story.label (context.visible required)
  else .error (.missingVariables story.label (context.missing required))

mutual

/-- A scene at a place of the body of `origin`, inside the stories `outer`. -/
def Scene.evaluate (owner : Owner) (origin : Origin) (outer : List Origin) (place : Nat)
    (context : Context) : Scene → Passage
  | .step name run => evaluateStep owner origin outer context name run
  | .story title injected inner declaration scenes =>
    let story : Origin := ⟨inner.host, declaration, origin.site ++ [place]⟩
    let depth := outer.length + 1
    let entered := EventKind.substoryEntered title story.label injected depth
    match story.admits context with
    | .error error =>
      let error := StoryError.contract error
      ⟨[entered, .errored error.kind error.message depth], context, .halted (.error error)⟩
    | .ok () =>
      let body := Scene.evaluateAll inner story (origin :: outer) 0 context scenes
      (body.leave story depth).after [entered]

/-- The scenes of a body from a place on. -/
def Scene.evaluateAll (owner : Owner) (origin : Origin) (outer : List Origin) (place : Nat)
    (context : Context) : List Scene → Passage
  | [] => ⟨[], context, .finished⟩
  | scene :: rest =>
    let passage := scene.evaluate owner origin outer place context
    match passage.fate with
    | .finished =>
      (evaluateAll owner origin outer (place + 1) passage.context rest).after passage.events
    | .skipped =>
      let bypassed := Scene.bypassedAll owner (outer.length + 1) rest
      { passage with events := passage.events ++ bypassed }
    | .halted _ => passage

end

/-- The run of a call, by recursion on the scenes of the story. -/
def Story.evaluate (story : Story) (arguments : Arguments) : Run :=
  let run : Run := match story.root.opening arguments with
    | .ok context =>
      (Scene.evaluateAll story.owner story.root [] 0 context story.scenes).run
    | .error error => .rejected error
  run.framed story.label story.fingerprint

end StoryEngine
