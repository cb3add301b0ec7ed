import StoryEngine.Proofs.Run.Turns

/-! # Coverage of the trace

The record of a call accounts for the instructions of the trace in order. Each turn reports its own
instruction once, as carried out or as bypassed, and an exit not at all; the turns of a call are
those of a beginning of the trace, up to the instruction that ended it.
-/

namespace StoryEngine

def EventKind.reported? : EventKind → Option String
  | .stepStarted step host _ => some (host ++ "." ++ step)
  | .substoryEntered _ story _ _ => some ("enter:" ++ story)
  | .instructionBypassed label _ => some label
  | _ => none

def reports (kinds : List EventKind) : List String := kinds.filterMap EventKind.reported?

def reportable (is : List Instruction) : List String :=
  (is.filter fun i => i.exited?.isNone).map Instruction.label

theorem reports_append (xs ys : List EventKind) : reports (xs ++ ys) = reports xs ++ reports ys :=
  List.filterMap_append

theorem reportable_append (xs ys : List Instruction) :
    reportable (xs ++ ys) = reportable xs ++ reportable ys := by
  simp [reportable]

theorem reportable_of_not_exited {i : Instruction} (h : i.exited? = none) :
    reportable [i] = [i.label] := by
  simp [reportable, h]

theorem reportable_prefix {xs ys : List Instruction} (h : xs <+: ys) :
    reportable xs <+: reportable ys := by
  obtain ⟨zs, rfl⟩ := h
  exact ⟨reportable zs, (reportable_append xs zs).symm⟩

namespace Walker

variable {walker : Walker} {i : Instruction}

theorem Answer.reported? {owner : Owner} {origin : Origin} {name : String} {step : Step}
    {event : EventKind} {move : Move} (h : walker.Answer owner origin name step event move) :
    event.reported? = none := by
  cases h with
  | passes _ hp => cases hp <;> rfl
  | _ => rfl

theorem Course.reports {events : List EventKind} {move : Move}
    (h : walker.Course i events move) : reports events = reportable [i] := by
  obtain ⟨owner, action, origin⟩ := i
  cases h with
  | bypassed _ hx => rw [reportable_of_not_exited hx]; rfl
  | left _ ha | exited _ ha | entered _ ha | refused _ ha => subst ha; rfl
  | @answered name step event move _ ha hans =>
    subst ha
    have hn := hans.reported?
    simp only [StoryEngine.reports, List.filterMap_cons, hn]
    rfl

theorem Course.not_bypassed {events : List EventKind} {move : Move}
    (h : walker.Course i events move) (hn : walker.skipping = none) (label : String)
    (depth : Nat) : .instructionBypassed label depth ∉ events := by
  intro hm
  cases h with
  | bypassed hs | left hs => cases hn.symm.trans hs
  | exited | entered | refused => simp [abort] at hm
  | answered _ _ hans =>
    have hr := hans.reported?
    rcases List.mem_cons.mp hm with he | hm
    · cases he
    · rw [← List.mem_singleton.mp hm] at hr
      cases hr

theorem Course.not_exited_of_halt {events : List EventKind} {verdict : Verdict}
    (h : walker.Course i events (.halt verdict)) : i.exited? = none := by
  obtain ⟨owner, action, origin⟩ := i
  cases h with
  | refused _ ha | answered _ ha => subst ha; rfl

theorem Course.ne_completed_of_halt {events : List EventKind} {verdict : Verdict}
    (h : walker.Course i events (.halt verdict)) : verdict ≠ .ok .completed := by
  cases h with
  | refused => nofun
  | answered _ _ hans => cases hans <;> nofun

theorem turns_prefix (walker : Walker) (is : List Instruction) :
    (walker.turns is).map Turn.instruction <+: is := by
  induction walker, is using walk_induction with
  | nil => exact List.prefix_rfl
  | on walker i events next rest hv ih =>
    rw [turns_cons_of_on hv]
    exact (List.prefix_cons_inj i).mpr ih
  | halt walker i events verdict rest hv =>
    rw [turns_cons_of_halt hv]
    exact ⟨rest, rfl⟩

end Walker

/-- The events of a turn report its instruction once, as carried out or else as bypassed. -/
structure Turn.Accounts (turn : Turn) : Prop where
  once : reports turn.events = reportable [turn.instruction]
  either : turn.instruction.exited? = none →
    (turn.before.CarriesOut turn.instruction ∧
        ∀ label depth, .instructionBypassed label depth ∉ turn.events) ∨
      (¬ turn.before.CarriesOut turn.instruction ∧ turn.before.Bypasses turn.instruction)

theorem Turn.accounts (turn : Turn) : turn.Accounts where
  once := turn.course.reports
  either hx := by
    cases hs : turn.before.skipping with
    | none => exact Or.inl ⟨Walker.carriesOut_iff.mpr hs, turn.course.not_bypassed hs⟩
    | some level =>
      refine Or.inr ⟨fun hc => ?_, (Walker.bypasses_iff hx).mpr (by rw [hs]; rfl)⟩
      rw [Walker.carriesOut_iff, hs] at hc
      cases hc

theorem reports_turns (turns : List Turn) :
    reports (turns.flatMap Turn.events) = reportable (turns.map Turn.instruction) := by
  induction turns with
  | nil => rfl
  | cons turn turns ih =>
    rw [List.flatMap_cons, reports_append, turn.accounts.once, ih, ← reportable_append]
    rfl

/-- The record of an execution covers the trace of the story up to where the run ended. -/
structure Execution.Covers (execution : Execution) (story : Story) (arguments : Arguments) :
    Prop where
  listed : reports execution.kinds <+: reportable story.trace.instructions
  completed : execution.verdict = .ok .completed →
    reports execution.kinds = reportable story.trace.instructions ∧
      (story.turns arguments).map Turn.instruction = story.trace.instructions
  rejected : ∀ error, story.root.opening arguments = .error error → reports execution.kinds = []
  /-- Otherwise the record goes up to the instruction whose visit ended the run. -/
  ended : ∀ context, story.root.opening arguments = .ok context →
    execution.verdict ≠ .ok .completed → ∃ k walker i, story.Reaches arguments k walker ∧
      story.trace.instructions[k]? = some i ∧ i.exited? = none ∧
      (walker.visit i).2 = .halt execution.verdict ∧ (story.turns arguments).length = k + 1 ∧
      reports execution.kinds = reportable (story.trace.instructions.take k) ++ [i.label]
  /-- Between the opening and the closing event each turn has its own part of the record. -/
  divided : ∀ context, story.root.opening arguments = .ok context →
    execution.kinds = .storyStarted story.label story.fingerprint ::
      (story.turns arguments).flatMap Turn.events ++ [.storyFinished execution.verdict.status]
  turns : ∀ k turn, (story.turns arguments)[k]? = some turn →
    story.Reaches arguments k turn.before ∧
      story.trace.instructions[k]? = some turn.instruction ∧ turn.Accounts

namespace Story

variable (story : Story) (arguments : Arguments)

theorem turns_prefix :
    (story.turns arguments).map Turn.instruction <+: story.trace.instructions := by
  cases ho : story.root.opening arguments with
  | error error =>
    rw [turns_of_refused ho]
    exact List.nil_prefix
  | ok context =>
    rw [turns_of_opening ho]
    exact Walker.turns_prefix _ _

variable {story arguments}

theorem reports_of_refused {error : ContractError}
    (he : story.root.opening arguments = .error error) :
    reports (story.perform arguments).events = [] := by
  rw [perform_of_refused he]
  rfl

theorem reports_of_opening {context : Context}
    (ho : story.root.opening arguments = .ok context) :
    reports (story.perform arguments).events =
      reportable ((story.turns arguments).map Turn.instruction) := by
  rw [events_of_opening ho, reports_append, ← reports_turns]
  exact List.append_nil _

theorem exists_turn_of_ended {context : Context}
    (ho : story.root.opening arguments = .ok context)
    (hv : (story.perform arguments).verdict ≠ .ok .completed) : ∃ k walker i,
      story.Reaches arguments k walker ∧ story.trace.instructions[k]? = some i ∧
      i.exited? = none ∧ (walker.visit i).2 = .halt (story.perform arguments).verdict ∧
      (story.turns arguments).length = k + 1 ∧
      reports (story.perform arguments).events =
        reportable (story.trace.instructions.take k) ++ [i.label] := by
  rcases perform_cases ho with ⟨hc, -⟩ | ⟨turns, ⟨walker, i⟩, ht, hm, -⟩
  · exact absurd hc hv
  · have hlast : (story.turns arguments)[turns.length]? = some ⟨walker, i⟩ := by
      rw [ht, List.getElem?_concat_length]
    obtain ⟨hr, hi⟩ := getElem?_turns.mp hlast
    have hx : i.exited? = none := (hm ▸ Turn.course ⟨walker, i⟩).not_exited_of_halt
    have hp := story.turns_prefix arguments
    rw [ht, List.map_append] at hp
    have htake := List.prefix_iff_eq_take.mp ((List.prefix_append _ _).trans hp)
    rw [List.length_map] at htake
    refine ⟨turns.length, walker, i, hr, hi, hx, hm, by rw [ht]; simp, ?_⟩
    rw [reports_of_opening ho, ht, List.map_append, reportable_append, htake,
      ← reportable_of_not_exited hx]
    rfl

theorem instructions_of_completed (hc : (story.perform arguments).verdict = .ok .completed) :
    (story.turns arguments).map Turn.instruction = story.trace.instructions := by
  cases ho : story.root.opening arguments with
  | error error =>
    rw [perform_of_refused ho] at hc
    cases hc
  | ok context =>
    rcases perform_cases ho with ⟨-, hi⟩ | ⟨turns, turn, -, hm, -⟩
    · exact hi
    · rw [hc] at hm
      exact absurd rfl (hm ▸ turn.course).ne_completed_of_halt

/-- The record of every call accounts for each instruction that the call got to. -/
theorem covers_execute (occasion : Occasion) :
    (story.execute occasion arguments).Covers story arguments := by
  have hk := story.kinds_execute arguments occasion
  have hv : (story.execute occasion arguments).verdict = (story.perform arguments).verdict := rfl
  constructor
  case listed =>
    rw [hk]
    cases ho : story.root.opening arguments with
    | error error =>
      rw [reports_of_refused ho]
      exact List.nil_prefix
    | ok context =>
      rw [reports_of_opening ho]
      exact reportable_prefix (story.turns_prefix arguments)
  case completed =>
    intro hc
    rw [hv] at hc
    rw [hk]
    have hi := instructions_of_completed hc
    cases ho : story.root.opening arguments with
    | error error =>
      rw [perform_of_refused ho] at hc
      cases hc
    | ok context => exact ⟨by rw [reports_of_opening ho, hi], hi⟩
  case rejected =>
    intro error he
    rw [hk, reports_of_refused he]
  case ended =>
    intro context ho hc
    rw [hv] at hc
    rw [hk, hv]
    exact exists_turn_of_ended ho hc
  case divided =>
    intro context ho
    rw [hk, hv, events_of_opening ho]
  case turns =>
    intro k turn ht
    obtain ⟨hr, hi⟩ := getElem?_turns.mp ht
    exact ⟨hr, hi, turn.accounts⟩

end Story

end StoryEngine
