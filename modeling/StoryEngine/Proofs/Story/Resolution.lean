import StoryEngine.Story.Host

/-! # Resolved bodies

The scenes of a compiled story are the names of its body in order, each read in its host: a step
stands for itself, a declared story for its own body read in the same host, and an injected story
for the scenes it was compiled to elsewhere.
-/

namespace StoryEngine

namespace Host

/-- The scenes that the names of a body stand for. -/
inductive Resolves (host : Host) : List String → List Scene → Prop where
  | nil : Resolves host [] []
  | step {name title : String} {run : Step} {rest : List String} {scenes : List Scene} :
      host.resolve name = some (.step title run) → Resolves host rest scenes →
      Resolves host (name :: rest) (.step title run :: scenes)
  | injected {name title : String} {story : Story} {rest : List String} {scenes : List Scene} :
      host.resolve name = some (.injected title story) → Resolves host rest scenes →
      Resolves host (name :: rest) (story.scene title :: scenes)
  | story {name : String} {declaration : Declaration} {rest : List String}
      {inner scenes : List Scene} :
      host.resolve name = some (.story declaration) → Resolves host declaration.body inner →
      Resolves host rest scenes →
      Resolves host (name :: rest) (.story name false host.owner declaration inner :: scenes)

variable {host : Host}

section Survey

variable {active rest : List String} {origin name title : String}

theorem survey_nil : host.survey active origin [] = ⟨[], none⟩ := by rw [survey]

theorem survey_cons_of_step {run : Step} (h : host.resolve name = some (.step title run)) :
    host.survey active origin (name :: rest) =
      ⟨.step title run :: (host.survey active origin rest).scenes,
        (host.survey active origin rest).error⟩ := by
  rw [survey]
  split <;> simp_all

theorem survey_cons_of_injected {story : Story}
    (h : host.resolve name = some (.injected title story)) :
    host.survey active origin (name :: rest) =
      ⟨story.scene title :: (host.survey active origin rest).scenes,
        (host.survey active origin rest).error⟩ := by
  rw [survey]
  split <;> simp_all

theorem survey_cons_of_unknown (h : host.resolve name = none) :
    host.survey active origin (name :: rest) =
      ⟨[], some (.unknownCapability host.name (host.label origin) name)⟩ := by
  rw [survey]
  split <;> simp_all

theorem survey_cons_of_active {declaration : Declaration}
    (h : host.resolve name = some (.story declaration)) (ha : declaration.name ∈ active) :
    host.survey active origin (name :: rest) =
      ⟨[], some (.recursive (host.label origin)
        ((active ++ [declaration.name]).map host.label))⟩ := by
  rw [survey]
  split <;> simp_all

theorem survey_cons_of_error {declaration : Declaration} {inner : List Scene}
    {error : CompileError} (h : host.resolve name = some (.story declaration))
    (hf : declaration.name ∉ active)
    (hi : host.survey (active ++ [declaration.name]) declaration.name declaration.body =
      ⟨inner, some error⟩) :
    host.survey active origin (name :: rest) =
      ⟨[.story name false host.owner declaration inner], some error⟩ := by
  rw [survey]
  split <;> simp_all

theorem survey_cons_of_story {declaration : Declaration} {inner : List Scene}
    (h : host.resolve name = some (.story declaration)) (hf : declaration.name ∉ active)
    (hi : host.survey (active ++ [declaration.name]) declaration.name declaration.body =
      ⟨inner, none⟩) :
    host.survey active origin (name :: rest) =
      ⟨.story name false host.owner declaration inner :: (host.survey active origin rest).scenes,
        (host.survey active origin rest).error⟩ := by
  rw [survey]
  split <;> simp_all

theorem bind_eq_of_survey {declaration : Declaration} {scenes : List Scene}
    (hu : host.duplicates = []) (hd : host.declaration? name = some declaration)
    (hs : host.surveyStory declaration = ⟨scenes, none⟩) :
    host.bind name = .ok ⟨host.owner, declaration, scenes⟩ := by
  simp only [bind, hu, compile, hd, hs]

end Survey

theorem Resolves.unique {body : List String} {xs ys : List Scene}
    (hx : host.Resolves body xs) (hy : host.Resolves body ys) : xs = ys := by
  induction hx generalizing ys with
  | nil =>
    cases hy
    rfl
  | step hr _ ih => cases hy <;> grind
  | injected hr _ ih => cases hy <;> grind
  | story hr _ _ ihd ih => cases hy <;> grind

theorem resolves_survey (active : List String) (origin : String) (body : List String)
    (h : (host.survey active origin body).error = none) :
    host.Resolves body (host.survey active origin body).scenes := by
  fun_induction Host.survey host active origin body with
  | case1 => exact .nil
  | case2 => simp at h
  | case3 active origin name rest title run found after ih => exact .step found (ih h)
  | case4 active origin name rest title story found after ih => exact .injected found (ih h)
  | case5 => simp at h
  | case6 => simp at h
  | case7 active origin name rest declaration found fresh inner scene hi after ih ih' =>
    exact .story found (ih hi) (ih' h)

theorem bind_eq_ok {name : String} {story : Story} (h : host.bind name = .ok story) :
    host.duplicates = [] ∧ host.declaration? name = some story.declaration ∧
      story.owner = host.owner ∧ host.Resolves story.declaration.body story.scenes := by
  unfold bind at h
  cases hd : host.duplicates with
  | cons => simp [hd] at h
  | nil =>
    simp only [hd, compile] at h
    cases hn : host.declaration? name with
    | none => simp [hn] at h
    | some declaration =>
      simp only [hn] at h
      cases he : (host.surveyStory declaration).error with
      | some error => simp [he] at h
      | none =>
        simp only [he, Except.ok.injEq] at h
        subst h
        exact ⟨rfl, rfl, rfl, resolves_survey _ _ _ he⟩

end Host

end StoryEngine
