import StoryEngine.Proofs.Run.Turns

/-! # Endings

Rules for the context that a part of a story leaves behind and for the way in which it ends,
whatever events tell of it. There is one rule for each answer of a step, each fate of a scene in a
body and each fate of the body of a sub-story.
-/

namespace StoryEngine

def Fate.verdict : Fate → Verdict
  | .halted verdict => verdict
  | _ => .ok .completed

theorem Passage.verdict_run (passage : Passage) : passage.run.verdict = passage.fate.verdict := by
  unfold run Fate.verdict
  cases passage.fate <;> rfl

theorem Passage.context_run (passage : Passage) : passage.run.context = passage.context := by
  unfold run
  cases passage.fate <;> rfl

/-- The passage leaves this context behind and ends so. -/
structure Passage.Ends (passage : Passage) (context : Context) (fate : Fate) : Prop where
  context_eq : passage.context = context
  fate_eq : passage.fate = fate

/-- How a sub-story whose body ended so appears in the body of its parent. -/
def Fate.left : Fate → Fate
  | .skipped => .finished
  | fate => fate

namespace Passage.Ends

variable {passage : Passage} {context : Context} {fate : Fate}

theorem after (h : passage.Ends context fate) (events : List EventKind) :
    (passage.after events).Ends context fate :=
  ⟨h.context_eq, h.fate_eq⟩

theorem leave (h : passage.Ends context fate) (story : Origin) (depth : Nat) :
    (passage.leave story depth).Ends context fate.left := by
  obtain ⟨hc, hf⟩ := h
  unfold Passage.leave
  rw [hf]
  cases fate with
  | skipped => exact ⟨hc, rfl⟩
  | finished => exact ⟨hc, rfl⟩
  | halted verdict => exact ⟨hc, hf⟩

theorem run (h : passage.Ends context fate) :
    passage.run.context = context ∧ passage.run.verdict = fate.verdict :=
  ⟨passage.context_run.trans h.context_eq,
    passage.verdict_run.trans (congrArg Fate.verdict h.fate_eq)⟩

end Passage.Ends

section Rules

variable {owner : Owner} {origin : Origin} {outer : List Origin} {context next last : Context}
  {place : Nat}

section Step

variable {name : String} {step : Step}

theorem ends_of_error {error : StepError} (h : step.run context = .error error) :
    ((Scene.step name step).evaluate owner origin outer place context).Ends context
      (.halted (.error (error.leave name))) := by
  rw [Scene.evaluate, evaluateStep, h]
  exact ⟨rfl, rfl⟩

theorem ends_of_nothing (h : step.run context = .ok none) :
    ((Scene.step name step).evaluate owner origin outer place context).Ends context .finished := by
  rw [Scene.evaluate, evaluateStep, h]
  exact ⟨rfl, rfl⟩

theorem ends_of_skip (h : step.run context = .ok (some .skip)) :
    ((Scene.step name step).evaluate owner origin outer place context).Ends context .skipped := by
  rw [Scene.evaluate, evaluateStep, h]
  exact ⟨rfl, rfl⟩

theorem ends_of_result {value : Value} (h : step.run context = .ok (some (.result value))) :
    ((Scene.step name step).evaluate owner origin outer place context).Ends context
      (.halted (.ok (.returned value))) := by
  rw [Scene.evaluate, evaluateStep, h]
  exact ⟨rfl, rfl⟩

theorem ends_of_failure {reason : Option String}
    (h : step.run context = .ok (some (.failure reason)))
    (hr : origin.declaration.checkReason (owner.host ++ "." ++ name) origin.label reason = .ok ()) :
    ((Scene.step name step).evaluate owner origin outer place context).Ends context
      (.halted (.ok (.failed ⟨name, reason, (origin :: outer).map Origin.label⟩))) := by
  rw [Scene.evaluate, evaluateStep]
  simp only [h, hr]
  exact ⟨rfl, rfl⟩

section Success

variable {outputs : Outputs} (h : step.run context = .ok (some (.success outputs)))

include h

theorem ends_of_success (hc : checkOutputs (origin :: outer) outputs.pairs = .ok ())
    (he : context.extend outputs ⟨owner.host, name⟩ = .ok next) :
    ((Scene.step name step).evaluate owner origin outer place context).Ends next .finished := by
  rw [Scene.evaluate, evaluateStep]
  simp only [h, hc, he]
  exact ⟨rfl, rfl⟩

theorem ends_of_rejected {error : ContractError}
    (hc : checkOutputs (origin :: outer) outputs.pairs = .error error) :
    ((Scene.step name step).evaluate owner origin outer place context).Ends context
      (.halted (.error (.contract error))) := by
  rw [Scene.evaluate, evaluateStep]
  simp only [h, hc]
  exact ⟨rfl, rfl⟩

end Success

end Step

section Body

variable {scene : Scene} {rest : List Scene} {fate : Fate}

theorem ends_nil :
    (Scene.evaluateAll owner origin outer place context []).Ends context .finished :=
  ⟨rfl, rfl⟩

theorem ends_cons_of_finished
    (h : (scene.evaluate owner origin outer place context).Ends next .finished)
    (hr : (Scene.evaluateAll owner origin outer (place + 1) next rest).Ends last fate) :
    (Scene.evaluateAll owner origin outer place context (scene :: rest)).Ends last fate := by
  rw [Scene.evaluateAll]
  simp only [h.fate_eq, h.context_eq]
  exact hr.after _

theorem ends_cons_of_skipped
    (h : (scene.evaluate owner origin outer place context).Ends next .skipped) :
    (Scene.evaluateAll owner origin outer place context (scene :: rest)).Ends next .skipped := by
  rw [Scene.evaluateAll]
  simp only [h.fate_eq]
  exact ⟨h.context_eq, rfl⟩

theorem ends_cons_of_halted {verdict : Verdict}
    (h : (scene.evaluate owner origin outer place context).Ends next (.halted verdict)) :
    (Scene.evaluateAll owner origin outer place context (scene :: rest)).Ends next
      (.halted verdict) := by
  rw [Scene.evaluateAll]
  simp only [h.fate_eq]
  exact h

section Story

variable {title : String} {injected : Bool} {inner : Owner} {declaration : Declaration}
  {scenes : List Scene} {story : Origin}
  (hs : story = ⟨inner.host, declaration, origin.site ++ [place]⟩)
  (ha : story.admits context = .ok ())

include hs ha

theorem ends_story
    (hb : (Scene.evaluateAll inner story (origin :: outer) 0 context scenes).Ends next fate) :
    ((Scene.story title injected inner declaration scenes).evaluate owner origin outer place
      context).Ends next fate.left := by
  subst hs
  rw [Scene.evaluate]
  simp only [ha]
  exact (hb.leave _ _).after _

theorem ends_story_of_finished
    (hb : (Scene.evaluateAll inner story (origin :: outer) 0 context scenes).Ends next .finished) :
    ((Scene.story title injected inner declaration scenes).evaluate owner origin outer place
      context).Ends next .finished :=
  ends_story hs ha hb

theorem ends_story_of_skipped
    (hb : (Scene.evaluateAll inner story (origin :: outer) 0 context scenes).Ends next .skipped) :
    ((Scene.story title injected inner declaration scenes).evaluate owner origin outer place
      context).Ends next .finished :=
  ends_story hs ha hb

theorem ends_story_of_halted {verdict : Verdict}
    (hb : (Scene.evaluateAll inner story (origin :: outer) 0 context scenes).Ends next
      (.halted verdict)) :
    ((Scene.story title injected inner declaration scenes).evaluate owner origin outer place
      context).Ends next (.halted verdict) :=
  ends_story hs ha hb

end Story

end Body

end Rules

namespace Story

variable {story : Story} {arguments : Arguments}

theorem execute_of_ends {context last : Context} {fate : Fate}
    (ho : story.root.opening arguments = .ok context)
    (h : (Scene.evaluateAll story.owner story.root [] 0 context story.scenes).Ends last fate)
    (occasion : Occasion) :
    (story.execute occasion arguments).context = last ∧
      (story.execute occasion arguments).verdict = fate.verdict := by
  rw [execute, perform_eq_evaluate, evaluate, ho]
  exact h.run

theorem execute_of_refused {error : ContractError}
    (ho : story.root.opening arguments = .error error) (occasion : Occasion) :
    (story.execute occasion arguments).context = .empty ∧
      (story.execute occasion arguments).verdict = .error (.contract error) := by
  rw [execute, perform_of_refused ho]
  exact ⟨rfl, rfl⟩

end Story

end StoryEngine
