import StoryEngine.Proofs.Run.Evaluation
import StoryEngine.Proofs.Story.Extraction

/-! # The stories around a body

What scenes come to depends on the stories around them only by the contracts of these, by the
failures that the innermost one allows, and by the labels that end the chain of a failure. Two
hosts of one name that differ by their numbers make no difference either.
-/

namespace StoryEngine

def judge (judging : Origin × Contract) : String × Contract := (judging.1.label, judging.2)

/-- The contracts of the active stories, the innermost first, under the labels of their stories. -/
def judges (active : List Origin) : List (String × Contract) := (contracted active).map judge

theorem judges_cons (story : Origin) (active : List Origin) : judges (story :: active) =
    (story.declaration.contract.map fun contract => (story.label, contract)).toList ++
      judges active := by
  unfold judges contracted
  cases hc : story.declaration.contract <;> simp [hc, judge]

theorem checkDeclared_congr {outputs : List (String × Value)} {xs ys : List (Origin × Contract)}
    (h : ys.map judge = xs.map judge) : checkDeclared outputs ys = checkDeclared outputs xs := by
  induction xs generalizing ys with
  | nil => rw [List.map_eq_nil_iff.mp h]
  | cons x xs ih =>
    obtain ⟨⟨story, contract⟩, ys, rfl, hx, hs⟩ := List.map_eq_cons_iff.mp h
    obtain ⟨hl, hc⟩ := Prod.mk.inj hx
    dsimp only at hl hc
    rw [checkDeclared, checkDeclared, hl, hc, ih hs]

theorem any_declares_congr {xs ys : List (Origin × Contract)} (h : ys.map judge = xs.map judge)
    (name : String) : (ys.any fun (_, contract) => contract.declares name) =
      xs.any fun (_, contract) => contract.declares name := by
  have hany (judges : List (Origin × Contract)) :
      (judges.any fun (_, contract) => contract.declares name) =
        (judges.map judge).any fun (_, contract) => contract.declares name := by
    rw [List.any_map]
    rfl
  rw [hany, hany, h]

theorem checkOutputs_congr {active active' : List Origin} (h : judges active' = judges active)
    (outputs : List (String × Value)) :
    checkOutputs active' outputs = checkOutputs active outputs := by
  unfold judges at h
  unfold checkOutputs
  cases hx : contracted active with
  | nil =>
    rw [hx, List.map_nil, List.map_eq_nil_iff] at h
    rw [h]
  | cons x xs =>
    rw [hx] at h
    obtain ⟨⟨story, contract⟩, ys, hy, hj, hs⟩ := List.map_eq_cons_iff.mp h
    obtain ⟨hl, hc⟩ := Prod.mk.inj hj
    rw [hy] at h ⊢
    dsimp only at hl ⊢
    rw [checkDeclared_congr h, hl]
    simp only [any_declares_congr h]

/-- Two ends of a run that differ by the labels of the stories beneath the ones in common, and in
what an error tells besides its kind. -/
inductive Verdict.Alike (below below' : List String) : Verdict → Verdict → Prop where
  | completed : Alike below below' (.ok .completed) (.ok .completed)
  | returned (value : Value) : Alike below below' (.ok (.returned value)) (.ok (.returned value))
  | failed (step : String) (reason : Option String) (inner : List String) :
      Alike below below' (.ok (.failed ⟨step, reason, inner ++ below⟩))
        (.ok (.failed ⟨step, reason, inner ++ below'⟩))
  | errored {error error' : StoryError} : error'.kind = error.kind →
      Alike below below' (.error error) (.error error')

inductive Fate.Alike (below below' : List String) : Fate → Fate → Prop where
  | finished : Alike below below' .finished .finished
  | skipped : Alike below below' .skipped .skipped
  | halted {verdict verdict' : Verdict} : Verdict.Alike below below' verdict verdict' →
      Alike below below' (.halted verdict) (.halted verdict')

structure Passage.Alike (below below' : List String) (passage passage' : Passage) : Prop where
  context : passage'.context = passage.context
  fate : passage.fate.Alike below below' passage'.fate

/-- Two stacks that treat a body on top of them alike. -/
structure StacksAlike (below below' : List String) (active active' : List Origin) : Prop where
  judges : judges active' = judges active
  labels : ∃ inner, active.map Origin.label = inner ++ below ∧
    active'.map Origin.label = inner ++ below'

section Evaluate

variable {below below' : List String} {origin origin' : Origin} {outer outer' : List Origin}

theorem StacksAlike.push {active active' : List Origin}
    (h : StacksAlike below below' active active') {story story' : Origin}
    (hl : story'.label = story.label)
    (hc : story'.declaration.contract = story.declaration.contract) :
    StacksAlike below below' (story :: active) (story' :: active') where
  judges := by rw [judges_cons, judges_cons, hl, hc, h.judges]
  labels := by
    obtain ⟨inner, hi, hi'⟩ := h.labels
    refine ⟨story.label :: inner, ?_, ?_⟩
    · rw [List.map_cons, hi]
      rfl
    · rw [List.map_cons, hi', hl]
      rfl

theorem checkReason_cases {declaration declaration' : Declaration}
    (hf : declaration'.failures = declaration.failures) (step story story' : String)
    (reason : Option String) :
    (declaration.checkReason step story reason = .ok () ∧
        declaration'.checkReason step story' reason = .ok ()) ∨
      ∃ error error', declaration.checkReason step story reason = .error error ∧
        declaration'.checkReason step story' reason = .error error' := by
  unfold Declaration.checkReason
  rw [hf]
  cases reason with
  | none => exact Or.inl ⟨rfl, rfl⟩
  | some reason =>
    dsimp only
    split
    · exact Or.inr ⟨_, _, rfl, rfl⟩
    · split
      · exact Or.inl ⟨rfl, rfl⟩
      · exact Or.inr ⟨_, _, rfl, rfl⟩

theorem evaluateStep_alike (h : StacksAlike below below' (origin :: outer) (origin' :: outer'))
    (hf : origin'.declaration.failures = origin.declaration.failures) {owner owner' : Owner}
    (ho : owner'.host = owner.host) (context : Context) (name : String) (step : Step) :
    (evaluateStep owner origin outer context name step).Alike below below'
      (evaluateStep owner' origin' outer' context name step) := by
  unfold evaluateStep
  rw [ho]
  match step.run context with
  | .error error => exact ⟨rfl, .halted (.errored rfl)⟩
  | .ok none => exact ⟨rfl, .finished⟩
  | .ok (some .skip) => exact ⟨rfl, .skipped⟩
  | .ok (some (.result value)) => exact ⟨rfl, .halted (.returned value)⟩
  | .ok (some (.success outputs)) =>
    dsimp only
    rw [checkOutputs_congr h.judges]
    cases checkOutputs (origin :: outer) outputs.pairs with
    | error error => exact ⟨rfl, .halted (.errored rfl)⟩
    | ok =>
      dsimp only
      cases context.extend outputs ⟨owner.host, name⟩ with
      | error error => exact ⟨rfl, .halted (.errored rfl)⟩
      | ok extended => exact ⟨rfl, .finished⟩
  | .ok (some (.failure reason)) =>
    dsimp only
    rcases checkReason_cases hf (owner.host ++ "." ++ name) origin.label origin'.label reason with
      ⟨hr, hr'⟩ | ⟨error, error', hr, hr'⟩
    · rw [hr, hr']
      obtain ⟨inner, hi, hi'⟩ := h.labels
      refine ⟨rfl, .halted ?_⟩
      rw [hi, hi']
      exact .failed name reason inner
    · rw [hr, hr']
      exact ⟨rfl, .halted (.errored rfl)⟩

theorem Passage.Alike.leave {body body' : Passage} (h : body.Alike below below' body')
    (story story' : Origin) (depth depth' : Nat) :
    (body.leave story depth).Alike below below' (body'.leave story' depth') := by
  obtain ⟨events, context, fate⟩ := body
  obtain ⟨events', context', fate'⟩ := body'
  obtain ⟨hc, hf⟩ := h
  dsimp only at hf
  cases hf with
  | finished | skipped => exact ⟨hc, .finished⟩
  | halted hv => exact ⟨hc, .halted hv⟩

theorem Passage.Alike.after {passage passage' : Passage}
    (h : passage.Alike below below' passage') (events events' : List EventKind) :
    (passage.after events).Alike below below' (passage'.after events') := ⟨h.context, h.fate⟩

mutual

theorem Scene.evaluate_alike {origin origin' : Origin} {outer outer' : List Origin}
    {owner owner' : Owner} (ho : owner'.host = owner.host)
    (h : StacksAlike below below' (origin :: outer) (origin' :: outer'))
    (hf : origin'.declaration.failures = origin.declaration.failures) (place place' : Nat)
    (context : Context) : ∀ {scene scene' : Scene}, scene.Renumbered scene' →
    (scene.evaluate owner origin outer place context).Alike below below'
      (scene'.evaluate owner' origin' outer' place' context)
  | _, _, .step name run => evaluateStep_alike h hf ho context name run
  | _, _, @Scene.Renumbered.story title injected host number number' declaration _ _ hs => by
    let story : Origin := ⟨host, declaration, origin.site ++ [place]⟩
    let story' : Origin := ⟨host, declaration, origin'.site ++ [place']⟩
    have ha : story'.admits context = story.admits context := rfl
    rw [Scene.evaluate, Scene.evaluate]
    dsimp only
    rw [ha]
    cases story.admits context with
    | error error => exact ⟨rfl, .halted (.errored rfl)⟩
    | ok =>
      have hhost : (Owner.mk host number').host = (Owner.mk host number).host := rfl
      have hpush : StacksAlike below below' (story :: origin :: outer)
          (story' :: origin' :: outer') := h.push rfl rfl
      have hb := Scene.evaluateAll_alike hhost hpush rfl 0 0 context hs
      exact (hb.leave _ _ _ _).after _ _

theorem Scene.evaluateAll_alike {origin origin' : Origin} {outer outer' : List Origin}
    {owner owner' : Owner} (ho : owner'.host = owner.host)
    (h : StacksAlike below below' (origin :: outer) (origin' :: outer'))
    (hf : origin'.declaration.failures = origin.declaration.failures) (place place' : Nat)
    (context : Context) : ∀ {scenes scenes' : List Scene}, Scene.RenumberedAll scenes scenes' →
    (Scene.evaluateAll owner origin outer place context scenes).Alike below below'
      (Scene.evaluateAll owner' origin' outer' place' context scenes')
  | _, _, .nil => ⟨rfl, .finished⟩
  | _, _, .cons hs hr => by
    obtain ⟨hc, hfate⟩ := Scene.evaluate_alike ho h hf place place' context hs
    rw [Scene.evaluateAll, Scene.evaluateAll]
    dsimp only
    generalize Scene.evaluate owner origin outer place context _ = passage at hc hfate ⊢
    generalize Scene.evaluate owner' origin' outer' place' context _ = passage' at hc hfate ⊢
    obtain ⟨events, context, fate⟩ := passage
    obtain ⟨events', context', fate'⟩ := passage'
    obtain rfl : context' = context := hc
    dsimp only at hfate
    cases hfate with
    | finished =>
      have hr := Scene.evaluateAll_alike ho h hf (place + 1) (place' + 1) context' hr
      exact hr.after _ _
    | skipped => exact ⟨rfl, .skipped⟩
    | halted hv => exact ⟨rfl, .halted hv⟩

end

end Evaluate

end StoryEngine
