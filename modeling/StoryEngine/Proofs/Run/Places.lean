import StoryEngine.Proofs.Run.Turns

/-! # Places of a body in a walk

The scenes of a body divide the trace of the story. A walk gets to the instructions of a place if
the evaluation of the scenes before it comes to an end there, and an evaluation that skips tells at
which step the walk does.
-/

namespace StoryEngine

def Move.next? : Move → Option Walker
  | .on next => some next
  | .halt _ => none

namespace Walker

theorem advance_cons_of_on {walker next : Walker} {i : Instruction} {events : List EventKind}
    (h : walker.visit i = (events, .on next)) (rest : List Instruction) :
    walker.advance (i :: rest) = next.advance rest := by
  rw [advance, h]

theorem advance_singleton (walker : Walker) (i : Instruction) :
    walker.advance [i] = (walker.visit i).2.next? := by
  rw [advance]
  cases (walker.visit i).2 <;> rfl

section Bypass

variable (level : Nat) (context : Context)

mutual

theorem advance_bypassed_scene (owner : Owner) (origin : Origin) (active : List Origin)
    (place : Nat) (h : level ≤ active.length) : ∀ scene : Scene,
    advance ⟨active, some level, context⟩ (scene.instructions owner origin place) =
      some ⟨active, some level, context⟩
  | .step name run => rfl
  | .story title injected inner declaration scenes => by
    let story : Origin := ⟨inner.host, declaration, origin.site ++ [place]⟩
    have hlt : level < (story :: active).length := Nat.lt_succ_of_le h
    have hb := advance_bypassed_body inner story (story :: active) 0 (Nat.le_of_lt hlt) scenes
    rw [Scene.instructions, advance_cons_of_on (visit_bypassed_enter ..), advance_append, hb,
      Option.bind_some, advance_singleton,
      visit_bypassed_exit_of_ne _ _ _ _ _ _ (Nat.ne_of_gt hlt)]
    rfl

theorem advance_bypassed_body (owner : Owner) (origin : Origin) (active : List Origin)
    (place : Nat) (h : level ≤ active.length) : ∀ scenes : List Scene,
    advance ⟨active, some level, context⟩ (Scene.flatten owner origin place scenes) =
      some ⟨active, some level, context⟩
  | [] => rfl
  | scene :: scenes => by
    rw [Scene.flatten, advance_append,
      advance_bypassed_scene owner origin active place h scene, Option.bind_some,
      advance_bypassed_body owner origin active (place + 1) h scenes]

end

end Bypass

theorem next?_leave (body : Passage) (story : Origin) (active : List Origin) (owner : Owner)
    (origin : Origin) :
    (body.move (story :: active)).next?.bind (fun next =>
        (next.visit ⟨owner, .exit story, origin⟩).2.next?) =
      ((body.leave story active.length).move active).next? := by
  cases hf : body.fate with
  | finished | halted =>
    simp only [Passage.leave, Passage.move, hf]
    rfl
  | skipped =>
    simp only [Passage.leave, Passage.move, hf, Move.next?, Option.bind_some]
    rw [visit_bypassed_exit_of_eq _ _ _ _ _ _ rfl]
    rfl

mutual

theorem advance_scene (owner : Owner) (origin : Origin) (outer : List Origin) (place : Nat)
    (context : Context) : ∀ scene : Scene,
    advance ⟨origin :: outer, none, context⟩ (scene.instructions owner origin place) =
      ((scene.evaluate owner origin outer place context).move (origin :: outer)).next?
  | .step name run => by
    rw [Scene.instructions, advance_singleton, visit_step, perform_eq_evaluateStep, Scene.evaluate]
  | .story title injected inner declaration scenes => by
    let story : Origin := ⟨inner.host, declaration, origin.site ++ [place]⟩
    rw [Scene.instructions, Scene.evaluate]
    cases ha : story.admits context with
    | error error =>
      rw [advance, visit_refused ha]
      rfl
    | ok =>
      rw [advance_cons_of_on (visit_admitted ha), advance_append,
        advance_body inner story (origin :: outer) 0 context scenes]
      simp only [advance_singleton]
      exact next?_leave _ story (origin :: outer) owner origin

/-- A walk gets through a body exactly if its evaluation does not end the run, and is then in the
state that the evaluation tells. -/
theorem advance_body (owner : Owner) (origin : Origin) (outer : List Origin) (place : Nat)
    (context : Context) : ∀ scenes : List Scene,
    advance ⟨origin :: outer, none, context⟩ (Scene.flatten owner origin place scenes) =
      ((Scene.evaluateAll owner origin outer place context scenes).move (origin :: outer)).next?
  | [] => rfl
  | scene :: scenes => by
    rw [Scene.flatten, advance_append, advance_scene owner origin outer place context scene,
      Scene.evaluateAll]
    cases hf : (scene.evaluate owner origin outer place context).fate with
    | finished =>
      simp only [Passage.move, hf, Move.next?, Option.bind_some]
      exact advance_body owner origin outer (place + 1) _ scenes
    | skipped =>
      simp only [Passage.move, hf, Move.next?, Option.bind_some]
      exact advance_bypassed_body _ _ owner origin (origin :: outer) _ (Nat.le_refl _) scenes
    | halted verdict =>
      simp only [Passage.move, hf]
      rfl

end

end Walker

theorem Scene.flatten_append (owner : Owner) (origin : Origin) (place : Nat)
    (xs ys : List Scene) : Scene.flatten owner origin place (xs ++ ys) =
      Scene.flatten owner origin place xs ++
        Scene.flatten owner origin (place + xs.length) ys := by
  induction xs generalizing place with
  | nil => rfl
  | cons x xs ih =>
    rw [List.cons_append, flatten, flatten, ih, List.append_assoc, List.length_cons,
      Nat.add_right_comm]
    rfl

section Append

variable (owner : Owner) (origin : Origin) (outer : List Origin)

theorem evaluateAll_append_of_finished {place : Nat} {context : Context} {xs : List Scene}
    (h : (Scene.evaluateAll owner origin outer place context xs).fate = .finished)
    (ys : List Scene) :
    Scene.evaluateAll owner origin outer place context (xs ++ ys) =
      (Scene.evaluateAll owner origin outer (place + xs.length)
        (Scene.evaluateAll owner origin outer place context xs).context ys).after
        (Scene.evaluateAll owner origin outer place context xs).events := by
  induction xs generalizing place context with
  | nil => rfl
  | cons x xs ih =>
    rw [Scene.evaluateAll] at h
    rw [List.cons_append, Scene.evaluateAll, Scene.evaluateAll]
    cases hf : (x.evaluate owner origin outer place context).fate with
    | finished =>
      simp only [hf] at h
      have hp : place + 1 + xs.length = place + (x :: xs).length := by
        rw [List.length_cons]
        omega
      simp only [ih h, hp, Passage.after, List.append_assoc]
    | skipped | halted => simp only [hf] at h; cases h

theorem evaluateAll_append_of_ne_finished {place : Nat} {context : Context} {xs : List Scene}
    (h : (Scene.evaluateAll owner origin outer place context xs).fate ≠ .finished)
    (ys : List Scene) :
    (Scene.evaluateAll owner origin outer place context (xs ++ ys)).fate =
        (Scene.evaluateAll owner origin outer place context xs).fate ∧
      (Scene.evaluateAll owner origin outer place context (xs ++ ys)).context =
        (Scene.evaluateAll owner origin outer place context xs).context := by
  induction xs generalizing place context with
  | nil => exact absurd rfl h
  | cons x xs ih =>
    rw [Scene.evaluateAll] at h
    rw [List.cons_append, Scene.evaluateAll, Scene.evaluateAll]
    cases hf : (x.evaluate owner origin outer place context).fate with
    | finished =>
      simp only [hf] at h
      exact ih h
    | skipped | halted => simp only [hf, and_self]

theorem run_of_skipped {context : Context} {name : String} {step : Step}
    (h : (evaluateStep owner origin outer context name step).fate = .skipped) :
    step.run context = .ok (some .skip) := by
  grind [evaluateStep]

theorem fate_story_ne_skipped {place : Nat} {context : Context} {title : String} {injected : Bool}
    {inner : Owner} {declaration : Declaration} {scenes : List Scene} :
    ((Scene.story title injected inner declaration scenes).evaluate owner origin outer place
      context).fate ≠ .skipped := by
  rw [Scene.evaluate]
  grind [Passage.leave, Passage.after]

/-- A body is left by a skip only where one of its own steps skips. -/
theorem exists_step_of_skipped {place : Nat} {context : Context} {scenes : List Scene}
    (h : (Scene.evaluateAll owner origin outer place context scenes).fate = .skipped) :
    ∃ xs name step ys, scenes = xs ++ .step name step :: ys ∧
      (Scene.evaluateAll owner origin outer place context xs).fate = .finished ∧
      step.run (Scene.evaluateAll owner origin outer place context xs).context =
        .ok (some .skip) := by
  induction scenes generalizing place context with
  | nil => cases h
  | cons x scenes ih =>
    rw [Scene.evaluateAll] at h
    cases hf : (x.evaluate owner origin outer place context).fate with
    | finished =>
      simp only [hf] at h
      obtain ⟨xs, name, step, ys, rfl, hx, hs⟩ := ih h
      refine ⟨x :: xs, name, step, ys, rfl, ?_, ?_⟩ <;> simp only [Scene.evaluateAll, hf]
      · exact hx
      · exact hs
    | skipped =>
      cases x with
      | step name step => exact ⟨[], name, step, scenes, rfl, rfl, run_of_skipped _ _ _ hf⟩
      | story => exact absurd hf (fate_story_ne_skipped _ _ _)
    | halted => simp [hf] at h

end Append

namespace Story

variable (story : Story)

/-- The evaluation of scenes that stand in the body of the story from a place on. -/
def pass (place : Nat) (context : Context) (scenes : List Scene) : Passage :=
  Scene.evaluateAll story.owner story.root [] place context scenes

/-- Where the instructions of a place of the body begin in the trace. -/
def offset (place : Nat) : Nat :=
  (Scene.flatten story.owner story.root 0 (story.scenes.take place)).length

def Between (first last k : Nat) : Prop := story.offset first ≤ k ∧ k < story.offset last

/-- The last instruction that a call gets to lies between two places of the body. -/
def EndsBetween (arguments : Arguments) (first last : Nat) : Prop :=
  ∃ k, (story.turns arguments).length = k + 1 ∧ story.Between first last k

/-- No step of the body itself skips between two places of it. -/
def NeverSkips (arguments : Arguments) (first last : Nat) : Prop :=
  ∀ k walker i, story.Reaches arguments k walker → story.trace.instructions[k]? = some i →
    story.Between first last k → i.origin = story.root → ¬ walker.Skips i

variable {story} {arguments : Arguments} {context : Context} {xs ys zs : List Scene}

section Append

variable (h : story.scenes = xs ++ zs)

include h

theorem offset_of_append :
    story.offset xs.length = (Scene.flatten story.owner story.root 0 xs).length := by
  rw [offset, h, List.take_left]

theorem instructions_of_append : story.trace.instructions =
    Scene.flatten story.owner story.root 0 xs ++
      Scene.flatten story.owner story.root xs.length zs := by
  rw [trace, h, Scene.flatten_append, Nat.zero_add]

theorem walkerAt_of_append : story.trace.walkerAt context (story.offset xs.length) =
    ((story.pass 0 context xs).move [story.root]).next? := by
  rw [Trace.walkerAt, offset_of_append h, instructions_of_append h, List.take_left]
  exact Walker.advance_body story.owner story.root [] 0 context xs

variable (ho : story.root.opening arguments = .ok context)

include ho

theorem length_turns_le_offset {verdict : Verdict}
    (hf : (story.pass 0 context xs).fate = .halted verdict) :
    (story.turns arguments).length ≤ story.offset xs.length := by
  have hw := @walkerAt_of_append story context xs zs h
  rw [Passage.move, hf] at hw
  refine List.getElem?_eq_none_iff.mp (Option.eq_none_iff_forall_ne_some.mpr fun turn ht => ?_)
  obtain ⟨hr, -⟩ := getElem?_turns.mp ht
  cases hw.symm.trans (hr.walkerAt ho)

theorem offset_lt_length_turns (hf : (story.pass 0 context xs).fate = .finished)
    (hv : (story.perform arguments).verdict ≠ .ok .completed) :
    story.offset xs.length < (story.turns arguments).length := by
  have hw := @walkerAt_of_append story context xs zs h
  rw [Passage.move, hf] at hw
  rcases perform_cases ho with ⟨hc, -⟩ | ⟨turns, turn, ht, hm, -⟩
  · exact absurd hc hv
  · have hlast : (story.turns arguments)[turns.length]? = some turn := by
      rw [ht, List.getElem?_concat_length]
    obtain ⟨hr, hi⟩ := getElem?_turns.mp hlast
    have hle : story.offset xs.length ≤ turns.length :=
      Trace.le_of_walkerAt_of_halt (hr.walkerAt ho) hi hm hw
    rw [ht, List.length_append, List.length_singleton]
    exact Nat.lt_succ_of_le hle

end Append

theorem pass_append_of_finished {place : Nat} (h : (story.pass place context xs).fate = .finished)
    (ys : List Scene) : story.pass place context (xs ++ ys) =
      (story.pass (place + xs.length) (story.pass place context xs).context ys).after
        (story.pass place context xs).events :=
  evaluateAll_append_of_finished story.owner story.root [] h ys

theorem exists_skips (h : story.scenes = xs ++ ys ++ zs)
    (ho : story.root.opening arguments = .ok context)
    (hx : (story.pass 0 context xs).fate = .finished)
    (hy : (story.pass xs.length (story.pass 0 context xs).context ys).fate = .skipped) :
    ∃ k walker i, story.Reaches arguments k walker ∧ story.trace.instructions[k]? = some i ∧
      story.Between xs.length (xs.length + ys.length) k ∧ i.origin = story.root ∧
      walker.Skips i := by
  obtain ⟨us, name, step, vs, rfl, hu, hs⟩ := exists_step_of_skipped _ _ _ hy
  have hfirst : story.scenes = xs ++ (us ++ .step name step :: vs ++ zs) := by
    rw [h, List.append_assoc]
  have hsplit : story.scenes = (xs ++ us) ++ (.step name step :: vs ++ zs) := by
    rw [hfirst, List.append_assoc, List.append_assoc]
  have hlast : story.scenes = (xs ++ us ++ .step name step :: vs) ++ zs := by
    rw [h, ← List.append_assoc xs]
  have hlength : xs.length + (us ++ .step name step :: vs).length =
      (xs ++ us ++ .step name step :: vs).length := by
    rw [← List.length_append, List.append_assoc]
  have ha := pass_append_of_finished hx us
  rw [Nat.zero_add] at ha
  have hw := @walkerAt_of_append story context _ _ hsplit
  have hu' : (story.pass xs.length (story.pass 0 context xs).context us).fate = .finished := hu
  rw [ha, Passage.move, Passage.after] at hw
  simp only [hu'] at hw
  refine ⟨_, _, ⟨story.owner, .step name step, story.root⟩, ⟨context, ho, hw⟩, ?_, ⟨?_, ?_⟩, rfl,
    Walker.carriesOut_iff.mpr rfl, name, step, rfl, hs⟩
  · rw [instructions_of_append hsplit, offset_of_append hsplit,
      List.getElem?_append_right (Nat.le_refl _), Nat.sub_self]
    rfl
  · rw [offset_of_append hfirst, offset_of_append hsplit, Scene.flatten_append,
      List.length_append]
    exact Nat.le_add_right _ _
  · rw [hlength, offset_of_append hlast, offset_of_append hsplit,
      Scene.flatten_append _ _ _ (xs ++ us), List.length_append]
    exact Nat.lt_add_of_pos_right (Nat.succ_pos _)

end Story

end StoryEngine
