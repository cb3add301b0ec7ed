import StoryEngine.Proofs.Run.Reach

/-! # Courses of a visit

All that can happen when a walk takes an instruction, and the events that tell of it. What holds
of the record of a run is read off these courses.
-/

namespace StoryEngine

def EventKind.ofOutcome (step : String) (depth : Nat) : Option Outcome → EventKind
  | none => .stepFinished step [] depth
  | some (.success outputs) => .stepFinished step outputs.names depth
  | some (.failure reason) => .stepFailed step reason depth
  | some .skip => .stepSkipped step depth
  | some (.result value) => .stepReturned step value depth

namespace Walker

/-- The errors with which a step can break off the run, by what its body came to. -/
inductive Breaks (walker : Walker) (owner : Owner) (origin : Origin) (name : String) :
    Except StepError (Option Outcome) → StoryError → Prop where
  | raised (error : StepError) : Breaks walker owner origin name (.error error) (error.leave name)
  | rejected {outputs : Outputs} {error : ContractError} :
      checkOutputs walker.active outputs.pairs = .error error →
      Breaks walker owner origin name (.ok (some (.success outputs))) (.contract error)
  | collides {outputs : Outputs} {error : ProtocolError} :
      walker.context.extend outputs ⟨owner.host, name⟩ = .error error →
      Breaks walker owner origin name (.ok (some (.success outputs))) (.protocol error)
  | undeclared {reason : Option String} {error : ProtocolError} :
      origin.declaration.checkReason (owner.host ++ "." ++ name) origin.label reason =
        .error error →
      Breaks walker owner origin name (.ok (some (.failure reason))) (.protocol error)

inductive Answer (walker : Walker) (owner : Owner) (origin : Origin) (name : String)
    (step : Step) : EventKind → Move → Prop where
  | passes {outcome : Option Outcome} {next : Walker} :
      step.run walker.context = .ok outcome → walker.Passes owner name outcome next →
      Answer walker owner origin name step (.ofOutcome name walker.depth outcome) (.on next)
  | failed {reason : Option String} :
      step.run walker.context = .ok (some (.failure reason)) →
      Answer walker owner origin name step (.stepFailed name reason walker.depth)
        (.halt (.ok (.failed ⟨name, reason, walker.active.map Origin.label⟩)))
  | returned {value : Value} :
      step.run walker.context = .ok (some (.result value)) →
      Answer walker owner origin name step (.stepReturned name value walker.depth)
        (.halt (.ok (.returned value)))
  | broken {error : StoryError} :
      walker.Breaks owner origin name (step.run walker.context) error →
      Answer walker owner origin name step (walker.abort error) (.halt (.error error))

/-- What a visit of an instruction can come to. -/
inductive Course (walker : Walker) (instruction : Instruction) :
    List EventKind → Move → Prop where
  | bypassed {level : Nat} : walker.skipping = some level → instruction.exited? = none →
      Course walker instruction [.instructionBypassed instruction.label walker.depth]
        (.on { walker with active := instruction.shift id walker.active })
  | left {level : Nat} {story : Origin} : walker.skipping = some level →
      instruction.action = .exit story →
      Course walker instruction [] (.on { walker with
        active := walker.active.tail
        skipping := if walker.depth = level then none else some level })
  | exited {story : Origin} : walker.skipping = none → instruction.action = .exit story →
      Course walker instruction [.substoryExited story.label walker.active.tail.length]
        (.on { walker with active := walker.active.tail })
  | entered {story : Origin} {title : String} {injected : Bool} : walker.skipping = none →
      instruction.action = .enter story title injected → walker.checkEntry story = .ok () →
      Course walker instruction [.substoryEntered title story.label injected walker.depth]
        (.on { walker with active := story :: walker.active })
  | refused {story : Origin} {title : String} {injected : Bool} {error : ContractError} :
      walker.skipping = none → instruction.action = .enter story title injected →
      walker.checkEntry story = .error (.contract error) →
      Course walker instruction [.substoryEntered title story.label injected walker.depth,
        walker.abort (.contract error)] (.halt (.error (.contract error)))
  | answered {name : String} {step : Step} {event : EventKind} {move : Move} :
      walker.skipping = none → instruction.action = .step name step →
      walker.Answer instruction.owner instruction.origin name step event move →
      Course walker instruction [.stepStarted name instruction.owner.host walker.depth, event] move

theorem exists_answer (walker : Walker) (owner : Owner) (origin : Origin) (name : String)
    (step : Step) : ∃ event move,
    walker.perform owner origin name step =
      ([.stepStarted name owner.host walker.depth, event], move) ∧
    walker.Answer owner origin name step event move := by
  cases hr : step.run walker.context with
  | error error =>
    refine ⟨_, _, ?_, .broken (by rw [hr]; exact .raised error)⟩
    simp only [perform, hr]
  | ok outcome =>
    match outcome with
    | none => exact ⟨_, _, by simp only [perform, hr, settle]; rfl, .passes hr .nothing⟩
    | some .skip => exact ⟨_, _, by simp only [perform, hr, settle]; rfl, .passes hr .skip⟩
    | some (.result value) => exact ⟨_, _, by simp only [perform, hr, settle], .returned hr⟩
    | some (.failure reason) =>
      cases hc : origin.declaration.checkReason (owner.host ++ "." ++ name) origin.label reason with
      | error error =>
        refine ⟨_, _, ?_, .broken (by rw [hr]; exact .undeclared hc)⟩
        simp only [perform, hr, settle, hc]
        rfl
      | ok =>
        refine ⟨_, _, ?_, .failed hr⟩
        simp only [perform, hr, settle, hc]
        rfl
    | some (.success outputs) =>
      cases hc : checkOutputs walker.active outputs.pairs with
      | error error =>
        refine ⟨_, _, ?_, .broken (by rw [hr]; exact .rejected hc)⟩
        simp only [perform, hr, settle, hc]
        rfl
      | ok =>
        cases he : walker.context.extend outputs ⟨owner.host, name⟩ with
        | error error =>
          refine ⟨_, _, ?_, .broken (by rw [hr]; exact .collides he)⟩
          simp only [perform, hr, settle, hc, he]
          rfl
        | ok context =>
          refine ⟨_, _, ?_, .passes hr (.success hc he)⟩
          simp only [perform, hr, settle, hc, he]
          rfl

theorem checkEntry_cases (walker : Walker) (story : Origin) :
    walker.checkEntry story = .ok () ∨
      ∃ error : ContractError, walker.checkEntry story = .error (.contract error) := by
  unfold checkEntry
  split
  · dsimp only
    cases story.declaration.checkVariables story.label
        (walker.context.visible story.declaration.arguments) with
    | ok => exact Or.inl rfl
    | error error => exact Or.inr ⟨error, rfl⟩
  · exact Or.inr ⟨_, rfl⟩

theorem course_visit (walker : Walker) (instruction : Instruction) :
    walker.Course instruction (walker.visit instruction).1 (walker.visit instruction).2 := by
  obtain ⟨active, skipping, context⟩ := walker
  obtain ⟨owner, action, origin⟩ := instruction
  cases skipping with
  | some level =>
    cases action with
    | step => exact .bypassed rfl rfl
    | enter => exact .bypassed rfl rfl
    | exit story => exact .left rfl rfl
  | none =>
    cases action with
    | step name step =>
      obtain ⟨event, move, hp, ha⟩ := exists_answer ⟨active, none, context⟩ owner origin name step
      rw [visit_step, hp]
      exact .answered rfl rfl ha
    | exit story => exact .exited rfl rfl
    | enter story title injected =>
      rw [visit_enter]
      unfold enter
      rcases checkEntry_cases ⟨active, none, context⟩ story with hc | ⟨error, hc⟩
      · rw [hc]
        exact .entered rfl rfl hc
      · rw [hc]
        exact .refused rfl rfl hc

theorem course_of_visit {walker : Walker} {instruction : Instruction} {events : List EventKind}
    {move : Move} (h : walker.visit instruction = (events, move)) :
    walker.Course instruction events move := by
  have hc := walker.course_visit instruction
  rw [h] at hc
  exact hc

/-- Induction along a walk: it is at its end, goes on, or is ended by a visit. -/
@[elab_as_elim]
theorem walk_induction {motive : Walker → List Instruction → Prop}
    (nil : ∀ walker, motive walker [])
    (on : ∀ walker i events next rest, walker.visit i = (events, .on next) →
      motive next rest → motive walker (i :: rest))
    (halt : ∀ walker i events verdict rest, walker.visit i = (events, .halt verdict) →
      motive walker (i :: rest))
    (walker : Walker) (is : List Instruction) : motive walker is := by
  induction is generalizing walker with
  | nil => exact nil walker
  | cons i rest ih =>
    cases hv : walker.visit i with
    | mk events move =>
      cases move with
      | on next => exact on walker i events next rest hv (ih next)
      | halt verdict => exact halt walker i events verdict rest hv

end Walker

end StoryEngine
