import StoryEngine.Contract.Plain
import StoryEngine.Proofs.Context.Extension
import StoryEngine.Proofs.Run.Growth
import StoryEngine.Proofs.Run.Turns
import StoryEngine.Proofs.Story.Layout

/-! # Idle answers

A step that answers with nothing and one that answers with a success without outputs are carried
out alike, under whatever contracts: no contract is asked about an empty list of outputs, and an
extension by nothing is the context itself. Stories that differ in such answers have the same runs.
-/

namespace StoryEngine

/-- The answers that neither set a variable nor end or skip anything. -/
inductive Outcome.Idle : Option Outcome → Prop where
  | nothing : Idle none
  | success {outputs : Outputs} : outputs.pairs = [] → Idle (some (.success outputs))

/-- What the body of a step came to, and what it may as well have come to. -/
inductive Step.Rewords : Except StepError (Option Outcome) → Except StepError (Option Outcome) →
    Prop where
  | same (answer : Except StepError (Option Outcome)) : Rewords answer answer
  | idle {outcome outcome' : Option Outcome} : Outcome.Idle outcome → Outcome.Idle outcome' →
      Rewords (.ok outcome) (.ok outcome')

def Step.Matches (step step' : Step) : Prop :=
  ∀ context, Step.Rewords (step.run context) (step'.run context)

mutual

inductive Scene.Matches : Scene → Scene → Prop where
  | step (name : String) {run run' : Step} : run.Matches run' →
      Matches (.step name run) (.step name run')
  | story (title : String) (injected : Bool) (owner : Owner) (declaration : Declaration)
      {scenes scenes' : List Scene} : Scene.MatchesAll scenes scenes' →
      Matches (.story title injected owner declaration scenes)
        (.story title injected owner declaration scenes')

inductive Scene.MatchesAll : List Scene → List Scene → Prop where
  | nil : MatchesAll [] []
  | cons {scene scene' : Scene} {scenes scenes' : List Scene} : scene.Matches scene' →
      Scene.MatchesAll scenes scenes' → MatchesAll (scene :: scenes) (scene' :: scenes')

end

structure Story.Matches (story story' : Story) : Prop where
  owner : story'.owner = story.owner
  declaration : story'.declaration = story.declaration
  scenes : Scene.MatchesAll story.scenes story'.scenes

inductive Instruction.Matches : Instruction → Instruction → Prop where
  | step (owner : Owner) (name : String) {run run' : Step} (origin : Origin) : run.Matches run' →
      Matches ⟨owner, .step name run, origin⟩ ⟨owner, .step name run', origin⟩
  | marker (i : Instruction) : Matches i i

theorem Instruction.Matches.label_eq {i i' : Instruction} (h : i.Matches i') :
    i'.label = i.label := by
  cases h <;> rfl

section Flatten

mutual

theorem Scene.Matches.instructions (owner : Owner) (origin : Origin) (place : Nat)
    {scene scene' : Scene} : scene.Matches scene' →
    List.Forall₂ Instruction.Matches (scene.instructions owner origin place)
      (scene'.instructions owner origin place)
  | .step name h => .cons (.step owner name origin h) .nil
  | .story title injected inner declaration h => by
    rw [Scene.instructions, Scene.instructions]
    have hb := h.flatten inner ⟨inner.host, declaration, origin.site ++ [place]⟩ 0
    exact .cons (.marker _) (List.rel_append hb (.cons (.marker _) .nil))

theorem Scene.MatchesAll.flatten (owner : Owner) (origin : Origin) (place : Nat)
    {scenes scenes' : List Scene} : Scene.MatchesAll scenes scenes' →
    List.Forall₂ Instruction.Matches (Scene.flatten owner origin place scenes)
      (Scene.flatten owner origin place scenes')
  | .nil => .nil
  | .cons hs h => by
    rw [Scene.flatten, Scene.flatten]
    exact List.rel_append (hs.instructions owner origin place) (h.flatten owner origin (place + 1))

end

end Flatten

namespace Walker

variable (walker : Walker) (owner : Owner) (origin : Origin) (name : String)

theorem settle_idle {outcome : Option Outcome} (h : Outcome.Idle outcome) :
    walker.settle owner origin name outcome =
      .ok (.stepFinished name [] walker.depth, .on walker) := by
  cases h with
  | nothing => rfl
  | @success outputs hp =>
    have hn : outputs.names = [] := by rw [Bindings.names, hp, List.map_nil]
    have hc : checkOutputs walker.active outputs.pairs = .ok () := hp ▸ checkOutputs_nil _
    have he : walker.context.extend outputs ⟨owner.host, name⟩ = .ok walker.context := by
      refine Context.extend_eq_ok_iff.mpr ⟨by simp [hn], ?_⟩
      rw [Bindings.setBy, hp, List.map_nil, List.append_nil]
    simp only [settle, hc, he, hn]
    rfl

/-- Steps that match are carried out alike, whatever the contracts of the active stories are. -/
theorem perform_matches {step step' : Step} (h : step.Matches step') :
    walker.perform owner origin name step' = walker.perform owner origin name step := by
  have hr := h walker.context
  unfold perform
  generalize step.run walker.context = answer at hr ⊢
  generalize step'.run walker.context = answer' at hr ⊢
  cases hr with
  | same => rfl
  | idle hi hi' => simp only [settle_idle walker owner origin name, hi, hi']

theorem bypass_matches (level : Nat) {i i' : Instruction} (h : i.Matches i') :
    walker.bypass level i' = walker.bypass level i := by
  cases h <;> rfl

theorem visit_matches {i i' : Instruction} (h : i.Matches i') :
    walker.visit i' = walker.visit i := by
  unfold visit
  cases walker.skipping with
  | some level => simp only [walker.bypass_matches level h]
  | none =>
    cases h with
    | step owner name origin hm => exact walker.perform_matches owner origin name hm
    | marker => rfl

theorem walk_matches {is is' : List Instruction} (h : List.Forall₂ Instruction.Matches is is') :
    walk walker is' = walk walker is := by
  induction h generalizing walker with
  | nil => rfl
  | @cons i i' is is' hi _ ih =>
    cases hv : walker.visit i with
    | mk events move =>
      have hv' : walker.visit i' = (events, move) := (walker.visit_matches hi).trans hv
      cases move with
      | on next => rw [walk_cons_of_on hv, walk_cons_of_on hv', ih]
      | halt verdict => rw [walk_cons_of_halt hv, walk_cons_of_halt hv']

end Walker

namespace Story

variable {story story' : Story}

section Matches

variable (h : story.Matches story')

include h

theorem Matches.root_eq : story'.root = story.root := by
  rw [root, root, h.owner, h.declaration]

theorem Matches.instructions :
    List.Forall₂ Instruction.Matches story.trace.instructions story'.trace.instructions := by
  have hf := h.scenes.flatten story.owner story.root 0
  rw [trace, trace, h.root_eq, h.owner]
  exact hf

theorem Matches.fingerprint_eq : story'.fingerprint = story.fingerprint := by
  have hr : story'.trace.root = story.trace.root := h.root_eq
  refine Trace.fingerprint_congr (by rw [hr]) (by rw [hr]) ?_
  exact map_label_of_forall₂ (fun _ _ hm => hm.label_eq) h.instructions

theorem Matches.perform_eq (arguments : Arguments) :
    story'.perform arguments = story.perform arguments := by
  have hr := h.root_eq
  have hl : story'.label = story.label := congrArg Origin.label hr
  cases ho : story.root.opening arguments with
  | error error =>
    rw [perform_of_refused ho, perform_of_refused (hr ▸ ho), hl, h.fingerprint_eq]
  | ok context =>
    rw [perform_of_opening ho, perform_of_opening (hr ▸ ho), hl, h.fingerprint_eq, hr,
      Walker.walk_matches _ h.instructions]

end Matches

/-- Whether idle steps answer with nothing or with an empty success makes no difference. -/
theorem execute_eq_of_matches (h : story.Matches story') (occasion : Occasion)
    (arguments : Arguments) :
    story'.execute occasion arguments = story.execute occasion arguments := by
  have hl : story'.label = story.label := congrArg Origin.label h.root_eq
  rw [execute, execute, h.perform_eq, hl]

end Story

namespace Demo

/-- Two stories of one step, one inside the other, with contracts that refuse an empty list. -/
def insistent (step : Step) : Story :=
  let declared (name : String) : Declaration :=
    { name, arguments := ["a"], contract := some (.atLeastOne ["a"]) }
  ⟨⟨"H", 0⟩, declared "s",
    [.step "first" step, .story "t" false ⟨"H", 0⟩ (declared "t") [.step "second" step]]⟩

def silent : Step where
  run _ := .ok none

/-- Answers with an empty success where `a` is null and with nothing elsewhere. -/
def verbose : Step where
  run context :=
    match context.get? "a" with
    | some .null => .ok (some (.success .empty))
    | _ => .ok none

theorem insistent_matches : (insistent silent).Matches (insistent verbose) := by
  have hs : silent.Matches verbose := by
    intro context
    unfold verbose
    dsimp only
    split
    · exact .idle .nothing (.success rfl)
    · exact .same _
  exact ⟨rfl, rfl, .cons (.step _ hs) (.cons (.story _ _ _ _ (.cons (.step _ hs) .nil)) .nil)⟩

theorem execute_insistent : (insistent silent).Matches (insistent verbose) ∧
    (insistent verbose).execute occasion (.ofPositional [.null]) =
      (insistent silent).execute occasion (.ofPositional [.null]) ∧
    (Contract.atLeastOne ["a"]).check [] ≠ .ok () ∧
    codes ((insistent verbose).execute occasion (.ofPositional [.null])).kinds =
      ["I", "S", "F", ">", "S", "F", "<", "C"] := by
  have he := Story.execute_eq_of_matches insistent_matches occasion (.ofPositional [.null])
  exact ⟨insistent_matches, he, nofun, rfl⟩

end Demo

end StoryEngine
