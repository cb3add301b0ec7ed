import StoryEngine.Proofs.Demo.Shop
import StoryEngine.Proofs.Run.Visit
import StoryEngine.Proofs.Story.Resolution
import StoryEngine.Run.Evaluate

/-! # Walks and evaluations

Walking the flattened tree of a story and evaluating the tree leave the same run. The walk of a
body is followed with any instructions after it, so that what the body hands on to them, an open
skip region included, is part of the statement.
-/

namespace StoryEngine

namespace Passage

/-- The move of a walk that has come through a passage of the body of the innermost story. -/
def move (passage : Passage) (active : List Origin) : Move :=
  match passage.fate with
  | .finished => .on ⟨active, none, passage.context⟩
  | .skipped => .on ⟨active, some active.length, passage.context⟩
  | .halted verdict => .halt verdict

/-- The run that a passage begins and the walk of the remaining instructions completes. -/
def resume (passage : Passage) (active : List Origin) (rest : List Instruction) : Run :=
  match passage.move active with
  | .on next => (walk next rest).after passage.events
  | .halt verdict => ⟨passage.events, passage.context, verdict⟩

variable {passage : Passage}

theorem resume_finished (h : passage.fate = .finished) (active : List Origin)
    (rest : List Instruction) :
    passage.resume active rest =
      (walk ⟨active, none, passage.context⟩ rest).after passage.events := by
  simp only [resume, move, h]

theorem resume_skipped (h : passage.fate = .skipped) (active : List Origin)
    (rest : List Instruction) :
    passage.resume active rest =
      (walk ⟨active, some active.length, passage.context⟩ rest).after passage.events := by
  simp only [resume, move, h]

theorem resume_halted {verdict : Verdict} (h : passage.fate = .halted verdict)
    (active : List Origin) (rest : List Instruction) :
    passage.resume active rest = ⟨passage.events, passage.context, verdict⟩ := by
  simp only [resume, move, h]

theorem fate_of_move {active : List Origin} {verdict : Verdict}
    (h : passage.move active = .halt verdict) : passage.fate = .halted verdict := by
  cases hf : passage.fate <;> simp_all [move]

theorem resume_after (events : List EventKind) (active : List Origin) (rest : List Instruction) :
    (passage.after events).resume active rest = (passage.resume active rest).after events := by
  have hm : (passage.after events).move active = passage.move active := rfl
  unfold resume
  rw [hm]
  cases passage.move active with
  | on next => exact (Run.after_after _ _ _).symm
  | halt verdict => rfl

end Passage

section Step

variable (owner : Owner) (origin : Origin) (outer : List Origin) (context : Context)

theorem perform_eq_evaluateStep (name : String) (step : Step) :
    Walker.perform ⟨origin :: outer, none, context⟩ owner origin name step =
      ((evaluateStep owner origin outer context name step).events,
        (evaluateStep owner origin outer context name step).move (origin :: outer)) := by
  unfold Walker.perform evaluateStep
  cases step.run context with
  | error error => rfl
  | ok outcome =>
    match outcome with
    | none => rfl
    | some .skip => rfl
    | some (.result value) => rfl
    | some (.failure reason) =>
      cases hr : origin.declaration.checkReason (owner.host ++ "." ++ name) origin.label reason
      all_goals simp only [Walker.settle, hr]; rfl
    | some (.success outputs) =>
      cases hc : checkOutputs (origin :: outer) outputs.pairs with
      | error error => simp only [Walker.settle, hc]; rfl
      | ok =>
        cases he : context.extend outputs ⟨owner.host, name⟩
        all_goals simp only [Walker.settle, hc, he]; rfl

theorem context_evaluateStep_of_halted {name : String} {step : Step} {verdict : Verdict}
    (h : (evaluateStep owner origin outer context name step).fate = .halted verdict) :
    (evaluateStep owner origin outer context name step).context = context := by
  grind [evaluateStep]

theorem walk_step (name : String) (step : Step) (rest : List Instruction) :
    walk ⟨origin :: outer, none, context⟩ (⟨owner, .step name step, origin⟩ :: rest) =
      (evaluateStep owner origin outer context name step).resume (origin :: outer) rest := by
  have hv := Walker.visit_step owner origin (origin :: outer) context name step
  rw [perform_eq_evaluateStep] at hv
  unfold Passage.resume
  cases hm : (evaluateStep owner origin outer context name step).move (origin :: outer) with
  | on next => exact walk_cons_of_on (hm ▸ hv) rest
  | halt verdict =>
    have hc := context_evaluateStep_of_halted owner origin outer context (Passage.fate_of_move hm)
    rw [hc]
    exact walk_cons_of_halt (hm ▸ hv) rest

end Step

section Entry

variable {story : Origin} {active : List Origin} {context : Context}

theorem Walker.checkEntry_eq_admits (skipping : Option Nat) :
    Walker.checkEntry ⟨active, skipping, context⟩ story =
      (story.admits context).mapError .contract := by
  unfold Walker.checkEntry Origin.admits
  cases hm : context.missing story.declaration.arguments with
  | nil => simp only [hm, List.isEmpty_nil, if_true]
  | cons name names =>
    simp only [hm]
    rfl

variable {owner : Owner} {origin : Origin} {title : String} {injected : Bool}

theorem Walker.visit_admitted (h : story.admits context = .ok ()) :
    visit ⟨active, none, context⟩ ⟨owner, .enter story title injected, origin⟩ =
      ([.substoryEntered title story.label injected active.length],
        .on ⟨story :: active, none, context⟩) := by
  rw [visit_enter, enter, checkEntry_eq_admits, h]
  rfl

theorem Walker.visit_refused {error : ContractError} (h : story.admits context = .error error) :
    visit ⟨active, none, context⟩ ⟨owner, .enter story title injected, origin⟩ =
      ([.substoryEntered title story.label injected active.length,
        .errored (StoryError.contract error).kind error.message active.length],
        .halt (.error (.contract error))) := by
  rw [visit_enter, enter, checkEntry_eq_admits, h]
  rfl

end Entry

section Bypass

variable (level : Nat) (context : Context)

mutual

theorem walk_bypassed_scene (owner : Owner) (origin : Origin) (active : List Origin) (place : Nat)
    (rest : List Instruction) (h : level ≤ active.length) : ∀ scene : Scene,
    walk ⟨active, some level, context⟩ (scene.instructions owner origin place ++ rest) =
      (walk ⟨active, some level, context⟩ rest).after (scene.bypassed owner active.length)
  | .step name run => walk_cons_of_on (Walker.visit_bypassed_step ..) rest
  | .story title injected inner declaration scenes => by
    let story : Origin := ⟨inner.host, declaration, origin.site ++ [place]⟩
    have hn : (story :: active).length ≠ level := by simp only [List.length_cons]; omega
    have hle : level ≤ (story :: active).length := by simp only [List.length_cons]; omega
    have ha : (story :: active).length = active.length + 1 := rfl
    rw [Scene.instructions, List.cons_append, List.append_assoc,
      walk_cons_of_on (Walker.visit_bypassed_enter ..),
      walk_bypassed_body inner story (story :: active) 0 _ hle scenes]
    rw [List.singleton_append, walk_cons_of_on (Walker.visit_bypassed_exit_of_ne _ _ _ _ _ _ hn)]
    simp only [Run.after_after, Scene.bypassed, ha, List.append_nil, List.tail_cons,
      List.singleton_append]
    rfl

theorem walk_bypassed_body (owner : Owner) (origin : Origin) (active : List Origin) (place : Nat)
    (rest : List Instruction) (h : level ≤ active.length) : ∀ scenes : List Scene,
    walk ⟨active, some level, context⟩ (Scene.flatten owner origin place scenes ++ rest) =
      (walk ⟨active, some level, context⟩ rest).after (Scene.bypassedAll owner active.length scenes)
  | [] => rfl
  | scene :: scenes => by
    rw [Scene.flatten, List.append_assoc, walk_bypassed_scene owner origin active place _ h scene,
      walk_bypassed_body owner origin active (place + 1) rest h scenes, Run.after_after]
    rfl

end

end Bypass

section Body

/-- The exit of a sub-story closes a skip region that its own body opened. -/
theorem resume_exit (body : Passage) (story : Origin) (active : List Origin) (owner : Owner)
    (origin : Origin) (rest : List Instruction) :
    body.resume (story :: active) (⟨owner, .exit story, origin⟩ :: rest) =
      (body.leave story active.length).resume active rest := by
  unfold Passage.leave
  cases hf : body.fate with
  | finished =>
    rw [Passage.resume_finished hf, walk_cons_of_on (Walker.visit_exit ..), Run.after_after]
    rfl
  | skipped =>
    rw [Passage.resume_skipped hf,
      walk_cons_of_on (Walker.visit_bypassed_exit_of_eq _ _ _ _ _ _ rfl), Run.after_after,
      List.append_nil]
    rfl
  | halted verdict => rw [Passage.resume_halted hf, Passage.resume_halted hf]

mutual

theorem walk_scene (owner : Owner) (origin : Origin) (outer : List Origin) (place : Nat)
    (context : Context) (rest : List Instruction) : ∀ scene : Scene,
    walk ⟨origin :: outer, none, context⟩ (scene.instructions owner origin place ++ rest) =
      (scene.evaluate owner origin outer place context).resume (origin :: outer) rest
  | .step name run => walk_step owner origin outer context name run rest
  | .story title injected inner declaration scenes => by
    let story : Origin := ⟨inner.host, declaration, origin.site ++ [place]⟩
    let exit : Instruction := ⟨owner, .exit story, origin⟩
    rw [Scene.instructions, List.cons_append, List.append_assoc, List.singleton_append,
      Scene.evaluate]
    cases ha : story.admits context with
    | error error =>
      rw [walk_cons_of_halt (Walker.visit_refused ha)]
      rfl
    | ok =>
      rw [walk_cons_of_on (Walker.visit_admitted ha),
        walk_body inner story (origin :: outer) 0 context (exit :: rest) scenes,
        resume_exit, ← Passage.resume_after]
      rfl

theorem walk_body (owner : Owner) (origin : Origin) (outer : List Origin) (place : Nat)
    (context : Context) (rest : List Instruction) : ∀ scenes : List Scene,
    walk ⟨origin :: outer, none, context⟩ (Scene.flatten owner origin place scenes ++ rest) =
      (Scene.evaluateAll owner origin outer place context scenes).resume (origin :: outer) rest
  | [] => rfl
  | scene :: scenes => by
    rw [Scene.flatten, List.append_assoc, walk_scene owner origin outer place context _ scene,
      Scene.evaluateAll]
    cases hf : (scene.evaluate owner origin outer place context).fate with
    | finished =>
      rw [Passage.resume_finished hf, walk_body owner origin outer (place + 1) _ rest scenes,
        ← Passage.resume_after]
    | skipped =>
      rw [Passage.resume_skipped hf, walk_bypassed_body _ _ _ _ _ _ _ (Nat.le_refl _),
        Run.after_after]
      rfl
    | halted verdict =>
      rw [Passage.resume_halted hf, Passage.resume_halted hf]

end

end Body

theorem resume_nil (passage : Passage) (active : List Origin) :
    passage.resume active [] = passage.run := by
  unfold Passage.run
  cases hf : passage.fate with
  | finished => simp [Passage.resume_finished hf, walk, Run.after]
  | skipped => simp [Passage.resume_skipped hf, walk, Run.after]
  | halted verdict => exact Passage.resume_halted hf _ _

/-- Walking the trace of a story leaves what evaluating its scenes leaves. -/
theorem Story.perform_eq_evaluate (story : Story) (arguments : Arguments) :
    story.perform arguments = story.evaluate arguments := by
  have hw (context : Context) :
      walk (.start story.root context) story.trace.instructions =
        (Scene.evaluateAll story.owner story.root [] 0 context story.scenes).run := by
    rw [← resume_nil _ [story.root], ← walk_body, List.append_nil]
    rfl
  have hr : story.trace.root = story.root := rfl
  unfold perform Trace.perform evaluate
  rw [hr]
  cases story.root.opening arguments with
  | error error => rfl
  | ok context =>
    simp only [hw]
    rfl

theorem Occasion.map_kind_stamp (occasion : Occasion) (kinds : List EventKind) :
    (occasion.stamp kinds).map Event.kind = kinds := by
  refine List.ext_getElem? fun k => ?_
  rw [stamp, List.getElem?_map, List.getElem?_mapIdx, Option.map_map]
  exact Option.map_id'

/-- The record of a call of a compiled story is that of an evaluation of the scenes which the
names in the body of its declaration stand for. -/
theorem Host.execute_eq_evaluate {host : Host} {name : String} {story : Story}
    (h : host.bind name = .ok story) (occasion : Occasion) (arguments : Arguments) :
    (host.declaration? name = some story.declaration ∧ story.owner = host.owner ∧
      host.Resolves story.declaration.body story.scenes) ∧
    (story.execute occasion arguments).context = (story.evaluate arguments).context ∧
    (story.execute occasion arguments).verdict = (story.evaluate arguments).verdict ∧
    (story.execute occasion arguments).kinds = (story.evaluate arguments).events := by
  obtain ⟨-, hd, ho, hr⟩ := bind_eq_ok h
  rw [← story.perform_eq_evaluate]
  exact ⟨⟨hd, ho, hr⟩, rfl, rfl, occasion.map_kind_stamp _⟩

theorem Demo.execute_purchase :
    (Shop.host 5 (reserved 20)).bind "purchase" = .ok smallShop ∧
      (smallShop.execute occasion order).verdict =
        .ok (.returned (.object [("item", .string "tea"), ("total", .int 15)])) ∧
      codes (smallShop.execute occasion order).kinds =
        ["I", "S", "F", ">", "S", "F", "S", "F", "<", ">", "S", "K", "-", "S", "R", "C"] := by
  have hb : (Shop.host 5 (reserved 20)).bind "purchase" = .ok smallShop := bind_purchase 5 _
  obtain ⟨-, -, hv, hk⟩ := Host.execute_eq_evaluate hb occasion order
  exact ⟨hb, hv.trans rfl, (congrArg codes hk).trans rfl⟩

end StoryEngine
