import StoryEngine.Run.Execution

/-! # The journal of a run

The lines written while a story is performed. They are computed from the states that the walk
passes through and have no part in it.
-/

namespace StoryEngine

/-- The lines written while the contracts of the active stories judge the outputs of a step. -/
def declaredJournal (outputs : List (String × Value)) : List (Origin × Contract) → List Line
  | [] => []
  | (story, contract) :: rest =>
    let part := declaredPart contract outputs
    if part.isEmpty then declaredJournal outputs rest
    else contract.remarks part ++
      match contract.check part with
      | .ok () => declaredJournal outputs rest
      | .error _ => [⟨.warn, s!"contract:rejected story={story.label} stage=outputs"⟩]

namespace Walker

variable (walker : Walker)

def bypassJournal (level : Nat) (instruction : Instruction) : List Line :=
  match instruction.action with
  | .step _ _ => [⟨.trace, s!"skip:bypass {instruction.label}"⟩]
  | .enter _ _ _ => []
  | .exit story =>
    if walker.depth = level then [⟨.trace, s!"skip:closed at exit {story.label}"⟩] else []

def enterJournal (story : Origin) (title : String) : List Line :=
  let entered : Line := ⟨.trace, s!"enter {story.label} as {title} depth={walker.depth}"⟩
  let required := story.declaration.arguments
  if (walker.context.missing required).isEmpty then
    entered :: story.declaration.remarks (walker.context.visible required)
  else [entered]

def outcomeJournal (origin : Origin) : Option Outcome → List Line
  | some (.success outputs) => declaredJournal outputs.pairs (contracted walker.active)
  | some .skip => [⟨.trace, s!"skip:open in {origin.label} depth={walker.depth}"⟩]
  | _ => []

def stepJournal (owner : Owner) (origin : Origin) (name : String) (step : Step) : List Line :=
  let label := owner.host ++ "." ++ name
  ⟨.trace, s!"step:start {label} depth={walker.depth}"⟩ ::
    (step.remarks walker.context ++
      match step.run walker.context with
      | .error _ => []
      | .ok outcome =>
        let code := (outcome.map Outcome.code).getD "-"
        ⟨.trace, s!"step:outcome {label} code={code}"⟩ :: walker.outcomeJournal origin outcome)

def journal (instruction : Instruction) : List Line :=
  match walker.skipping with
  | some level => walker.bypassJournal level instruction
  | none =>
    match instruction.action with
    | .step name step => walker.stepJournal instruction.owner instruction.origin name step
    | .enter story title _ => walker.enterJournal story title
    | .exit story => [⟨.trace, s!"exit {story.label}"⟩]

end Walker

/-- The lines of a walk of the story labelled `story`, after its opening line. -/
def walkJournal (story : String) (walker : Walker) : List Instruction → List Line
  | [] =>
    let note := if walker.skipping.isSome then " (skipped at root level)" else ""
    [⟨.debug, s!"walk:finish story={story}" ++ note⟩]
  | instruction :: rest =>
    walker.journal instruction ++
      match (walker.visit instruction).2 with
      | .on next => walkJournal story next rest
      | .halt (.ok _) => [⟨.debug, s!"walk:stop story={story}"⟩]
      | .halt (.error error) =>
        [⟨.warn, s!"walk:error story={story} kind={error.kind} error={error.message}"⟩]

/-- The lines of the contract that judges the arguments of a call. -/
def Origin.openingJournal (root : Origin) (arguments : Arguments) : List Line :=
  match arguments.bind root.label root.declaration.arguments with
  | .ok bound => root.declaration.remarks bound
  | .error _ => []

/-- The lines of one call. -/
def Trace.journal (trace : Trace) (arguments : Arguments) : List Line :=
  let label := trace.root.label
  let run := trace.perform arguments
  let body : List Line := match trace.root.opening arguments with
    | .ok context =>
      ⟨.debug, s!"walk:start story={label} instructions={trace.size}"⟩ ::
        walkJournal label (.start trace.root context) trace.instructions
    | .error error => [⟨.warn, s!"execute:arguments story={label} error={error.message}"⟩]
  let finish : Line := ⟨.debug, s!"execute:finish story={label} " ++
    s!"status={run.verdict.status.text} events={run.events.length}"⟩
  ⟨.debug, s!"execute:start story={label}"⟩ ::
    (trace.root.openingJournal arguments ++ body ++ [finish])

def Story.journal (story : Story) (arguments : Arguments) : List Line :=
  story.trace.journal arguments

end StoryEngine
