import StoryEngine.Proofs.Run.EntryPoints

/-! # Kinds of errors

The kind of an error is the label of one of the engine's own errors, or the name of the type of an
error that a step raised. Labels and type names are of one namespace, so the kinds tell the errors
of a call apart just where no step raises an error whose type has the name of a label.
-/

namespace StoryEngine

namespace StoryError

def ownKinds : List String :=
  ["FailureError", "ContextContractError", "FailureProtocolError", "MutationError"]

/-- The kind of the error is a label of the engine exactly if the error is the one it labels. -/
structure Unambiguous (error : StoryError) : Prop where
  failure : error.kind = "FailureError" ↔ error.isFailure
  contract : error.kind = "ContextContractError" ↔ ∃ cause, error = .contract cause
  protocol : error.kind = "FailureProtocolError" ↔ ∃ cause, error = .protocol cause
  mutation : error.kind = "MutationError" ↔ ∃ cause, error = .mutation cause

end StoryError

/-- An error which a step can raise to be given a label of the engine without being what it labels:
an error of one of the engine's own types that is only wrapped, or of a type of the same name. -/
def StepError.Misleads : StepError → Prop
  | .failure _ | .contract _ | .protocol _ => True
  | .other typeName _ => typeName ∈ StoryError.ownKinds
  | _ => False

namespace StoryError

variable {error : StoryError} {name : String} {cause : StepError}

theorem unambiguous_of_ne_step (h : ∀ name cause, error ≠ .step name cause) :
    error.Unambiguous := by
  cases error with
  | step name cause => exact absurd rfl (h name cause)
  | failure | contract | protocol | mutation => constructor <;> simp [kind, isFailure]

theorem unambiguous_step_iff :
    (StoryError.step name cause).Unambiguous ↔ cause.typeName ∉ ownKinds := by
  simp only [ownKinds, List.mem_cons, List.not_mem_nil, or_false, not_or]
  constructor
  · intro h
    exact ⟨fun hk => Bool.false_ne_true (h.failure.mp hk), fun hk => (nomatch h.contract.mp hk),
      fun hk => (nomatch h.protocol.mp hk), fun hk => (nomatch h.mutation.mp hk)⟩
  · rintro ⟨hf, hc, hp, hm⟩
    exact {
      failure := iff_of_false hf Bool.false_ne_true
      contract := iff_of_false hc nofun
      protocol := iff_of_false hp nofun
      mutation := iff_of_false hm nofun }

theorem unambiguous_leave_iff : (cause.leave name).Unambiguous ↔ ¬ cause.Misleads := by
  cases cause with
  | mutation error => exact iff_of_true (unambiguous_of_ne_step nofun) id
  | _ => simp [StepError.leave, unambiguous_step_iff, StepError.Misleads, StepError.typeName,
      ownKinds]

theorem Unambiguous.exists_failure (h : error.Unambiguous) (hk : error.kind = "FailureError") :
    ∃ failure, error = .failure failure := by
  match error, h.failure.mp hk with
  | .failure failure, _ => exact ⟨failure, rfl⟩

end StoryError

theorem Verdict.value_eq_error {verdict : Verdict} {error : StoryError}
    (h : verdict.value = .error error) :
    (∃ failure, error = .failure failure) ∨ verdict = .error error := by
  match verdict with
  | .error other =>
    cases h
    exact Or.inr rfl
  | .ok (.failed failure) =>
    cases h
    exact Or.inl ⟨failure, rfl⟩
  | .ok .completed | .ok (.returned _) => cases h

namespace Walker

variable {walker : Walker} {i : Instruction}

def Raises (walker : Walker) (i : Instruction) (name : String) (cause : StepError) : Prop :=
  walker.CarriesOut i ∧ ∃ step, i.action = .step name step ∧
    step.run walker.context = .error cause

theorem Raises.visit {name : String} {cause : StepError} (h : walker.Raises i name cause) :
    ∃ events, walker.visit i = (events, .halt (.error (cause.leave name))) := by
  obtain ⟨hc, step, ha, hr⟩ := h
  simp only [CarriesOut, ha] at hc
  rw [hc, perform, hr]
  exact ⟨_, rfl⟩

/-- An error that ends a visit was raised by the step, or else is the engine's own. -/
theorem Course.unambiguous_or_raises {events : List EventKind} {error : StoryError}
    (h : walker.Course i events (.halt (.error error))) :
    error.Unambiguous ∨ ∃ name cause, walker.Raises i name cause ∧ error = cause.leave name := by
  cases h with
  | refused => exact Or.inl (StoryError.unambiguous_of_ne_step nofun)
  | @answered name step _ _ hs ha hans =>
    cases hans with
    | broken hb =>
      cases hr : step.run walker.context with
      | error cause =>
        rw [hr] at hb
        cases hb
        exact Or.inr ⟨name, cause, ⟨carriesOut_iff.mpr hs, step, ha, hr⟩, rfl⟩
      | ok outcome =>
        rw [hr] at hb
        cases hb <;> exact Or.inl (StoryError.unambiguous_of_ne_step nofun)

end Walker

namespace Story

variable (story : Story) (arguments : Arguments)

def Raises (name : String) (cause : StepError) : Prop :=
  ∃ k walker i, story.Reaches arguments k walker ∧ story.trace.instructions[k]? = some i ∧
    walker.Raises i name cause

variable {story arguments} {name : String} {cause : StepError} {error : StoryError}

theorem Raises.verdict (h : story.Raises arguments name cause) (occasion : Occasion) :
    (story.execute occasion arguments).verdict = .error (cause.leave name) := by
  obtain ⟨k, walker, i, hw, hi, hr⟩ := h
  obtain ⟨events, hv⟩ := hr.visit
  exact hw.verdict_of_visit hi hv occasion

theorem unambiguous_or_raises (h : (story.perform arguments).verdict = .error error) :
    error.Unambiguous ∨
      ∃ name cause, story.Raises arguments name cause ∧ error = cause.leave name := by
  cases ho : story.root.opening arguments with
  | error refusal =>
    rw [perform_of_refused ho] at h
    obtain rfl : .contract refusal = error := Except.error.inj h
    exact Or.inl (StoryError.unambiguous_of_ne_step nofun)
  | ok context =>
    rcases perform_cases ho with ⟨hc, -⟩ | ⟨before, turn, ht, hm, -⟩
    · rw [h] at hc
      cases hc
    · have hk : (story.turns arguments)[before.length]? = some ⟨turn.before, turn.instruction⟩ := by
        rw [ht, List.getElem?_concat_length]
      obtain ⟨hw, hi⟩ := getElem?_turns.mp hk
      have hcourse := turn.course
      rw [hm, h] at hcourse
      refine hcourse.unambiguous_or_raises.imp_right ?_
      rintro ⟨name, cause, hr, he⟩
      exact ⟨name, cause, ⟨_, _, _, hw, hi, hr⟩, he⟩

end Story

/-- The kinds that a call tells of keep its errors apart, and a failure from any of them. -/
structure Execution.Distinguishes (execution : Execution) (story : Story)
    (arguments : Arguments) : Prop where
  kinds : ∀ error, story.call arguments = .error error → error.Unambiguous
  recorded : ∀ message depth, .errored "FailureError" message depth ∉ execution.kinds
  raised : ∀ name cause, story.Raises arguments name cause →
    ∃ error, story.call arguments = .error error ∧ error.kind ≠ "FailureError"

namespace Story

variable (story : Story) (arguments : Arguments)

theorem errored_mem_kinds {occasion : Occasion} {kind message : String} {depth : Nat}
    (h : .errored kind message depth ∈ (story.execute occasion arguments).kinds) :
    ∃ error, (story.perform arguments).verdict = .error error ∧ error.kind = kind := by
  rw [kinds_execute] at h
  obtain ⟨level, hl⟩ := story.alarms_perform arguments
  have hm : EventKind.errored kind message depth ∈
      (story.perform arguments).events.filter EventKind.alarms := List.mem_filter.mpr ⟨h, rfl⟩
  rw [hl] at hm
  match hv : (story.perform arguments).verdict with
  | .error error =>
    rw [hv] at hm
    cases List.mem_singleton.mp hm
    exact ⟨error, rfl, rfl⟩
  | .ok (.failed _) | .ok .completed | .ok (.returned _) => simp [hv, Verdict.alarms] at hm

/-- A call tells its errors apart unless one of its steps raises an error under the label of
another. -/
theorem distinguishes_iff (occasion : Occasion) :
    (story.execute occasion arguments).Distinguishes story arguments ↔
      ∀ name cause, story.Raises arguments name cause → ¬ cause.Misleads := by
  constructor
  · intro h name cause hr
    have hv := hr.verdict occasion
    exact StoryError.unambiguous_leave_iff.mp (h.kinds _ (congrArg Verdict.value hv))
  · intro h
    have hu : ∀ error, (story.perform arguments).verdict = .error error → error.Unambiguous := by
      intro error he
      rcases unambiguous_or_raises he with hu | ⟨name, cause, hr, rfl⟩
      · exact hu
      · exact StoryError.unambiguous_leave_iff.mpr (h name cause hr)
    have hf : ∀ error, (story.perform arguments).verdict = .error error →
        error.kind ≠ "FailureError" := by
      intro error he hk
      obtain ⟨failure, rfl⟩ := (hu error he).exists_failure hk
      exact story.perform_ne_failure arguments failure he
    constructor
    case kinds =>
      intro error he
      rcases Verdict.value_eq_error he with ⟨failure, rfl⟩ | hv
      · exact StoryError.unambiguous_of_ne_step nofun
      · exact hu error hv
    case recorded =>
      intro message depth hm
      obtain ⟨error, he, hk⟩ := story.errored_mem_kinds arguments hm
      exact hf error he hk
    case raised =>
      intro name cause hr
      have hv := hr.verdict occasion
      exact ⟨_, congrArg Verdict.value hv, hf _ hv⟩

end Story

namespace Demo

def past : Failure := ⟨"t", none, ["A.x", "B.y"]⟩

/-- A host of one step, which raises the failure of another call. -/
def relay : Host where
  name := "H"
  number := 0
  capabilities :=
    [.step "a" { run _ := .error (.failure past) }, .story { name := "s", body := ["a"] }]

def relayed : Story where
  owner := relay.owner
  declaration := { name := "s", body := ["a"] }
  scenes := [.step "a" { run _ := .error (.failure past) }]

theorem not_distinguishes_relayed : relay.bind "s" = .ok relayed ∧
    relayed.call .none = .error (.step "a" (.failure past)) ∧
    (StoryError.step "a" (.failure past)).kind = "FailureError" ∧
    (StoryError.step "a" (.failure past)).isFailure = false ∧
    .errored "FailureError" "step a raised FailureError: step t failed in A.x <- B.y" 1 ∈
      (relayed.execute occasion .none).kinds ∧
    ¬ (relayed.execute occasion .none).Distinguishes relayed .none := by
  have hb : relay.bind "s" = .ok relayed := by
    have hs : relay.surveyStory relayed.declaration = ⟨relayed.scenes, none⟩ := by
      unfold Host.surveyStory relayed
      rw [Host.survey_cons_of_step rfl, Host.survey_nil]
    exact Host.bind_eq_of_survey rfl rfl hs
  have hm : .errored "FailureError" "step a raised FailureError: step t failed in A.x <- B.y" 1 ∈
      (relayed.execute occasion .none).kinds := .tail _ (.tail _ (.head _))
  exact ⟨hb, rfl, rfl, rfl, hm, fun h => h.recorded _ _ hm⟩

end Demo

end StoryEngine
