import StoryEngine.Proofs.Run.Turns

/-! # Agreement of the entry points

A failure of the business is never confused with an error. No visit breaks a run off with a
failure as its error, whatever a step raised, so a failure that is reported as an error is one that
a step answered; and a record tells of failures and errors only where a run ended in one.
-/

namespace StoryEngine

def EventKind.alarms : EventKind → Bool
  | .stepFailed .. | .errored .. => true
  | _ => false

def Verdict.alarms (depth : Nat) : Verdict → List EventKind
  | .ok (.failed failure) => [.stepFailed failure.step failure.reason depth]
  | .ok _ => []
  | .error error => [.errored error.kind error.message depth]

namespace Verdict

variable {verdict : Verdict}

theorem summary_eq_failure_iff {failure : Failure} :
    verdict.summary = .ok (.failure failure) ↔ verdict = .ok (.failed failure) := by
  match verdict with
  | .ok (.failed f) => simp [summary, Except.map, Summary.ofTermination]
  | .ok .completed | .ok (.returned _) => simp [summary, Except.map, Summary.ofTermination]
  | .error _ => simp [summary, Except.map]

theorem status_eq_failed_iff :
    verdict.status = .failed ↔ ∃ failure, verdict = .ok (.failed failure) := by
  match verdict with
  | .ok (.failed f) => simp [status]
  | .ok .completed | .ok (.returned _) | .error _ => simp [status]

theorem value_eq_ok_iff {value : Option Value} :
    verdict.value = .ok value ↔ verdict.summary = .ok (.success value) := by
  match verdict with
  | .ok .completed | .ok (.returned _) | .ok (.failed _) =>
    simp [Verdict.value, summary, Except.map, Summary.ofTermination]
  | .error _ => simp [Verdict.value, summary, Except.map]

theorem value_eq_failure_iff (hn : ∀ failure, verdict ≠ .error (.failure failure))
    {failure : Failure} :
    verdict.value = .error (.failure failure) ↔ verdict.summary = .ok (.failure failure) := by
  rw [summary_eq_failure_iff]
  match verdict with
  | .ok .completed | .ok (.returned _) | .ok (.failed _) => simp [Verdict.value]
  | .error error => simpa [Verdict.value] using hn failure

end Verdict

theorem StepError.leave_ne_failure (error : StepError) (step : String) (failure : Failure) :
    error.leave step ≠ .failure failure := by
  cases error <;> nofun

namespace Walker

variable {walker next : Walker} {i : Instruction} {events : List EventKind} {verdict : Verdict}

theorem Breaks.ne_failure {owner : Owner} {origin : Origin} {name : String}
    {result : Except StepError (Option Outcome)} {error : StoryError}
    (h : walker.Breaks owner origin name result error) (failure : Failure) :
    error ≠ .failure failure := by
  cases h with
  | raised error => exact error.leave_ne_failure name failure
  | _ => nofun

theorem Course.ne_failure (h : walker.Course i events (.halt verdict)) (failure : Failure) :
    verdict ≠ .error (.failure failure) := by
  cases h with
  | refused => nofun
  | answered _ _ hans =>
    cases hans with
    | failed | returned => nofun
    | broken hb =>
      intro he
      exact hb.ne_failure failure (Except.error.inj he)

theorem Course.alarms_of_on (h : walker.Course i events (.on next)) :
    events.filter EventKind.alarms = [] := by
  cases h with
  | answered _ _ hans => cases hans with | passes _ hp => cases hp <;> rfl
  | _ => rfl

theorem Course.alarms_of_halt (h : walker.Course i events (.halt verdict)) :
    events.filter EventKind.alarms = verdict.alarms walker.depth := by
  cases h with
  | refused => rfl
  | answered _ _ hans => cases hans <;> rfl

/-- A walk raises an alarm once if it ends in a failure or an error, and none otherwise. -/
theorem alarms_walk (walker : Walker) (is : List Instruction) :
    ∃ depth, (walk walker is).events.filter EventKind.alarms =
      (walk walker is).verdict.alarms depth := by
  induction walker, is using walk_induction with
  | nil => exact ⟨0, rfl⟩
  | on walker i events next rest hv ih =>
    obtain ⟨depth, hd⟩ := ih
    refine ⟨depth, ?_⟩
    rw [walk_cons_of_on hv, Run.after, List.filter_append, (course_of_visit hv).alarms_of_on, hd]
    rfl
  | halt walker i events verdict rest hv =>
    rw [walk_cons_of_halt hv]
    exact ⟨walker.depth, (course_of_visit hv).alarms_of_halt⟩

theorem walk_ne_failure (walker : Walker) (is : List Instruction) (failure : Failure) :
    (walk walker is).verdict ≠ .error (.failure failure) := by
  induction walker, is using walk_induction with
  | nil => nofun
  | on walker i events next rest hv ih =>
    rw [walk_cons_of_on hv]
    exact ih
  | halt walker i events verdict rest hv =>
    rw [walk_cons_of_halt hv]
    exact (course_of_visit hv).ne_failure failure

end Walker

/-- What the entry points tell of one call agrees, also with the record of the call. -/
structure Execution.Agrees (execution : Execution) (story : Story) (arguments : Arguments) :
    Prop where
  genuine : ∀ failure, execution.verdict ≠ .error (.failure failure)
  failure : ∀ failure,
    story.call arguments = .error (.failure failure) ↔ story.run arguments = .ok (.failure failure)
  failed : (∃ failure, story.run arguments = .ok (.failure failure)) ↔
    execution.verdict.status = .failed ∧
      ∃ step reason depth, .stepFailed step reason depth ∈ execution.kinds
  /-- The record tells of the failure that the caller gets, and of nothing else that went wrong. -/
  reason : ∀ failure, story.run arguments = .ok (.failure failure) → ∃ depth,
    execution.kinds.filter EventKind.alarms = [.stepFailed failure.step failure.reason depth]
  success : ∀ value, story.call arguments = .ok value ↔ story.run arguments = .ok (.success value)
  otherwise : (∀ failure, story.run arguments ≠ .ok (.failure failure)) →
    (∃ value, story.call arguments = .ok value ∧ story.run arguments = .ok (.success value)) ∨
      ∃ error, story.call arguments = .error error ∧ story.run arguments = .error error ∧
        execution.verdict.status = .errored ∧ ∃ depth,
          execution.kinds.filter EventKind.alarms = [.errored error.kind error.message depth]

namespace Story

variable (story : Story) (arguments : Arguments)

theorem perform_ne_failure (failure : Failure) :
    (story.perform arguments).verdict ≠ .error (.failure failure) := by
  cases ho : story.root.opening arguments with
  | error error =>
    rw [perform_of_refused ho]
    nofun
  | ok context =>
    rw [perform_of_opening ho]
    exact Walker.walk_ne_failure _ _ failure

theorem alarms_perform : ∃ depth, (story.perform arguments).events.filter EventKind.alarms =
    (story.perform arguments).verdict.alarms depth := by
  cases ho : story.root.opening arguments with
  | error error =>
    rw [perform_of_refused ho]
    exact ⟨0, rfl⟩
  | ok context =>
    obtain ⟨depth, hd⟩ := Walker.alarms_walk (.start story.root context) story.trace.instructions
    refine ⟨depth, ?_⟩
    rw [perform_of_opening ho, Run.framed, List.filter_append]
    simp only [List.filter_cons, EventKind.alarms, hd]
    simp

/-- The entry points agree on every call. -/
theorem agrees_execute (occasion : Occasion) :
    (story.execute occasion arguments).Agrees story arguments := by
  have hk := story.kinds_execute arguments occasion
  have hn : ∀ failure, (story.perform arguments).verdict ≠ .error (.failure failure) :=
    story.perform_ne_failure arguments
  obtain ⟨depth, hd⟩ := story.alarms_perform arguments
  have hreason : ∀ failure, story.run arguments = .ok (.failure failure) →
      (story.perform arguments).events.filter EventKind.alarms =
        [.stepFailed failure.step failure.reason depth] := by
    intro failure hf
    rw [hd, Verdict.summary_eq_failure_iff.mp hf]
    rfl
  constructor
  case genuine => exact hn
  case failure => exact fun failure => Verdict.value_eq_failure_iff hn
  case success => exact fun value => Verdict.value_eq_ok_iff
  case failed =>
    constructor
    · rintro ⟨failure, hf⟩
      refine ⟨Verdict.status_eq_failed_iff.mpr ⟨failure, Verdict.summary_eq_failure_iff.mp hf⟩,
        failure.step, failure.reason, depth, ?_⟩
      have hm : .stepFailed failure.step failure.reason depth ∈
          (story.perform arguments).events.filter EventKind.alarms := by simp [hreason failure hf]
      rw [hk]
      exact (List.mem_filter.mp hm).1
    · rintro ⟨hs, -⟩
      obtain ⟨failure, hv⟩ := Verdict.status_eq_failed_iff.mp hs
      exact ⟨failure, Verdict.summary_eq_failure_iff.mpr hv⟩
  case reason =>
    intro failure hf
    exact ⟨depth, hk ▸ hreason failure hf⟩
  case otherwise =>
    intro hf
    cases hv : (story.perform arguments).verdict with
    | error error =>
      rw [hv] at hd
      have hs : (story.execute occasion arguments).verdict.status = .errored :=
        congrArg Verdict.status hv
      exact Or.inr ⟨error, congrArg Verdict.value hv, congrArg Verdict.summary hv, hs, depth,
        hk ▸ hd⟩
    | ok termination =>
      refine Or.inl ?_
      match termination with
      | .completed => exact ⟨none, congrArg Verdict.value hv, congrArg Verdict.summary hv⟩
      | .returned value =>
        exact ⟨some value, congrArg Verdict.value hv, congrArg Verdict.summary hv⟩
      | .failed failure => exact absurd (congrArg Verdict.summary hv) (hf failure)

end Story

end StoryEngine
