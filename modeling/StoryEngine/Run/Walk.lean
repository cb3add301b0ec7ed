import StoryEngine.Event.Basic
import StoryEngine.Story.Basic

/-! # Walking a trace

A walk visits the instructions of a trace in order, keeping the stack of active stories and at
most one open skip region, named by the depth of the story whose step opened it.
-/

namespace StoryEngine

/-- How a run ended that no error broke off. -/
inductive Termination where
  | completed
  | returned (value : Value)
  | failed (failure : Failure)

/-- The end of a run: a termination, or the error that broke it off. -/
abbrev Verdict := Except StoryError Termination

/-- The state of a walk; the innermost active story comes first. -/
structure Walker where
  active : List Origin
  skipping : Option Nat
  context : Context

inductive Move where
  | on (walker : Walker)
  | halt (verdict : Verdict)

/-- The contracts of the active stories, the innermost first. -/
def contracted (active : List Origin) : List (Origin × Contract) :=
  active.filterMap fun story => story.declaration.contract.map fun contract => (story, contract)

/-- The outputs that a contract declares. -/
def declaredPart (contract : Contract) (outputs : List (String × Value)) : List (String × Value) :=
  outputs.filter fun (name, _) => contract.declares name

/-- Asks each contract in turn about the outputs it declares, if there are any. -/
def checkDeclared (outputs : List (String × Value)) :
    List (Origin × Contract) → Except ContractError Unit
  | [] => .ok ()
  | (story, contract) :: rest =>
    let part := declaredPart contract outputs
    if part.isEmpty then checkDeclared outputs rest
    else match contract.check part with
      | .ok () => checkDeclared outputs rest
      | .error violations => .error (.invalidVariables story.label violations)

/-- Checks outputs against the contracts of the active stories. An output that no contract
declares is charged to the innermost story that has one. -/
def checkOutputs (active : List Origin) (outputs : List (String × Value)) :
    Except ContractError Unit :=
  match contracted active with
  | [] => .ok ()
  | (innermost, contract) :: rest => do
    let judges := (innermost, contract) :: rest
    checkDeclared outputs judges
    let unknown := outputs.filter fun (name, _) => !judges.any fun (_, c) => c.declares name
    if unknown.isEmpty then .ok ()
    else .error (.invalidVariables innermost.label
      (unknown.map fun (name, _) => ⟨name, "unknown variable"⟩))

namespace Walker

def start (root : Origin) (context : Context) : Walker := ⟨[root], none, context⟩

variable (walker : Walker)

def depth : Nat := walker.active.length

/-- Passes an instruction of a skip region, which ends with the exit of the story at `level`. -/
def bypass (level : Nat) (instruction : Instruction) : List EventKind × Walker :=
  match instruction.action with
  | .step _ _ => ([.instructionBypassed instruction.label walker.depth], walker)
  | .enter story _ _ =>
    ([.instructionBypassed instruction.label walker.depth],
      { walker with active := story :: walker.active })
  | .exit _ =>
    let skipping := if walker.depth = level then none else some level
    ([], { walker with active := walker.active.tail, skipping })

/-- A story that is entered finds its parameters in the context and its contract content. -/
def checkEntry (story : Origin) : Except StoryError Unit :=
  match walker.context.missing story.declaration.arguments with
  | [] =>
    let visible := walker.context.visible story.declaration.arguments
    (story.declaration.checkVariables story.label visible).mapError .contract
  | missing => .error (.contract (.missingVariables story.label missing))

def abort (error : StoryError) : EventKind := .errored error.kind error.message walker.depth

def enter (story : Origin) (title : String) (injected : Bool) : List EventKind × Move :=
  let entered := EventKind.substoryEntered title story.label injected walker.depth
  match walker.checkEntry story with
  | .ok () => ([entered], .on { walker with active := story :: walker.active })
  | .error error => ([entered, walker.abort error], .halt (.error error))

def exit (story : Origin) : List EventKind × Move :=
  let active := walker.active.tail
  ([.substoryExited story.label active.length], .on { walker with active })

/-- What follows from the outcome of a step. -/
def settle (owner : Owner) (origin : Origin) (name : String) :
    Option Outcome → Except StoryError (EventKind × Move)
  | none => .ok (.stepFinished name [] walker.depth, .on walker)
  | some (.success outputs) => do
    (checkOutputs walker.active outputs.pairs).mapError .contract
    let context ← (walker.context.extend outputs ⟨owner.host, name⟩).mapError .protocol
    return (.stepFinished name outputs.names walker.depth, .on { walker with context })
  | some (.failure reason) => do
    let label := owner.host ++ "." ++ name
    (origin.declaration.checkReason label origin.label reason).mapError .protocol
    let failure := { step := name, reason, chain := walker.active.map Origin.label }
    return (.stepFailed name reason walker.depth, .halt (.ok (.failed failure)))
  | some .skip =>
    .ok (.stepSkipped name walker.depth, .on { walker with skipping := some walker.depth })
  | some (.result value) =>
    .ok (.stepReturned name value walker.depth, .halt (.ok (.returned value)))

/-- Runs a step against the current context. -/
def perform (owner : Owner) (origin : Origin) (name : String) (step : Step) :
    List EventKind × Move :=
  let started := EventKind.stepStarted name owner.host walker.depth
  let settled := match step.run walker.context with
    | .ok outcome => walker.settle owner origin name outcome
    | .error error => .error (error.leave name)
  match settled with
  | .ok (event, move) => ([started, event], move)
  | .error error => ([started, walker.abort error], .halt (.error error))

/-- One instruction: the events it causes and where the walk goes. -/
def visit (instruction : Instruction) : List EventKind × Move :=
  match walker.skipping with
  | some level =>
    let (events, next) := walker.bypass level instruction
    (events, .on next)
  | none =>
    match instruction.action with
    | .step name step => walker.perform instruction.owner instruction.origin name step
    | .enter story title injected => walker.enter story title injected
    | .exit story => walker.exit story

end Walker

/-- What a walk leaves behind, whether or not it came to the end of its trace. -/
structure Run where
  events : List EventKind
  context : Context
  verdict : Verdict

def Run.after (events : List EventKind) (run : Run) : Run :=
  { run with events := events ++ run.events }

def walk (walker : Walker) : List Instruction → Run
  | [] => ⟨[], walker.context, .ok .completed⟩
  | instruction :: rest =>
    match walker.visit instruction with
    | (events, .on next) => (walk next rest).after events
    | (events, .halt verdict) => ⟨events, walker.context, verdict⟩

end StoryEngine
