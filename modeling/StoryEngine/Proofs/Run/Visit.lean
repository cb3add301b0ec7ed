import StoryEngine.Run.Walk

/-! # Single instructions of a walk

Equations for what a visit does with each kind of instruction, inside a skip region and outside
of one. Later proofs about walks use these and do not unfold a visit.
-/

namespace StoryEngine

theorem Run.after_after (xs ys : List EventKind) (run : Run) :
    (run.after ys).after xs = run.after (xs ++ ys) := by
  simp [Run.after]

section Walk

variable {walker next : Walker} {instruction : Instruction} {events : List EventKind}

theorem walk_cons_of_on (h : walker.visit instruction = (events, .on next))
    (rest : List Instruction) :
    walk walker (instruction :: rest) = (walk next rest).after events := by
  rw [walk, h]

theorem walk_cons_of_halt {verdict : Verdict}
    (h : walker.visit instruction = (events, .halt verdict)) (rest : List Instruction) :
    walk walker (instruction :: rest) = ⟨events, walker.context, verdict⟩ := by
  rw [walk, h]

end Walk

namespace Walker

variable (owner : Owner) (origin story : Origin) (active : List Origin) (context : Context)

theorem visit_step (name : String) (step : Step) :
    visit ⟨active, none, context⟩ ⟨owner, .step name step, origin⟩ =
      perform ⟨active, none, context⟩ owner origin name step := rfl

theorem visit_enter (title : String) (injected : Bool) :
    visit ⟨active, none, context⟩ ⟨owner, .enter story title injected, origin⟩ =
      enter ⟨active, none, context⟩ story title injected := rfl

theorem visit_exit :
    visit ⟨active, none, context⟩ ⟨owner, .exit story, origin⟩ =
      ([.substoryExited story.label active.tail.length], .on ⟨active.tail, none, context⟩) := rfl

variable (level : Nat)

theorem visit_bypassed_step (name : String) (step : Step) :
    visit ⟨active, some level, context⟩ ⟨owner, .step name step, origin⟩ =
      ([.instructionBypassed (owner.host ++ "." ++ name) active.length],
        .on ⟨active, some level, context⟩) := rfl

theorem visit_bypassed_enter (title : String) (injected : Bool) :
    visit ⟨active, some level, context⟩ ⟨owner, .enter story title injected, origin⟩ =
      ([.instructionBypassed ("enter:" ++ story.label) active.length],
        .on ⟨story :: active, some level, context⟩) := rfl

theorem visit_bypassed_exit_of_eq (h : active.length = level) :
    visit ⟨active, some level, context⟩ ⟨owner, .exit story, origin⟩ =
      ([], .on ⟨active.tail, none, context⟩) := by
  simp [visit, bypass, depth, h]

theorem visit_bypassed_exit_of_ne (h : active.length ≠ level) :
    visit ⟨active, some level, context⟩ ⟨owner, .exit story, origin⟩ =
      ([], .on ⟨active.tail, some level, context⟩) := by
  simp [visit, bypass, depth, h]

end Walker

end StoryEngine
