import StoryEngine.Proofs.Run.EntryPoints

/-! # Reported failures

A run fails at the last instruction that it gets to, a step that answered with the failure. What
is reported names this step and all stories that are open there in the trace, and a reason is one
that the step's own story declares. Any other reason is an error, whatever an enclosing story says.
-/

namespace StoryEngine

namespace Declaration

variable {declaration : Declaration} {step story : String} {reason : Option String}

def Permits (declaration : Declaration) (reason : Option String) : Prop :=
  ∀ r, reason = some r → ∃ declared, declaration.failures = some declared ∧ r ∈ declared

inductive Breaches (declaration : Declaration) (step story : String) :
    Option String → ProtocolError → Prop where
  | undeclared {reason : String} {declared : List String} :
      declaration.failures = some declared → reason ∉ declared →
      Breaches declaration step story (some reason) (.undeclaredReason step story reason declared)
  | unprotected {reason : String} : declaration.failures = none →
      Breaches declaration step story (some reason) (.noProtocol step story reason)

theorem permits_none (declaration : Declaration) : declaration.Permits none := nofun

theorem permits_some_iff {r : String} : declaration.Permits (some r) ↔
    ∃ declared, declaration.failures = some declared ∧ r ∈ declared := by
  simp [Permits]

theorem checkReason_eq_ok_iff :
    declaration.checkReason step story reason = .ok () ↔ declaration.Permits reason := by
  cases reason with
  | none => exact iff_of_true rfl declaration.permits_none
  | some r =>
    rw [permits_some_iff]
    cases hf : declaration.failures with
    | none => simp [checkReason, hf]
    | some declared => simp [checkReason, hf]

theorem checkReason_eq_error_iff {error : ProtocolError} :
    declaration.checkReason step story reason = .error error ↔
      declaration.Breaches step story reason error := by
  constructor
  · intro h
    cases reason with
    | none => cases h
    | some r =>
      cases hf : declaration.failures with
      | none =>
        obtain rfl : .noProtocol step story r = error := by simpa [checkReason, hf] using h
        exact .unprotected hf
      | some declared =>
        rw [checkReason, hf] at h
        dsimp only at h
        split at h
        case isTrue => cases h
        case isFalse hr =>
          obtain rfl := Except.error.inj h
          exact .undeclared hf (by simpa using hr)
  · rintro (⟨hf, hr⟩ | hf)
    · simp [checkReason, hf, hr]
    · simp [checkReason, hf]

theorem permits_or_breaches (declaration : Declaration) (step story : String)
    (reason : Option String) :
    declaration.Permits reason ∨ ∃ error, declaration.Breaches step story reason error := by
  cases hc : declaration.checkReason step story reason with
  | ok => exact Or.inl (checkReason_eq_ok_iff.mp hc)
  | error error => exact Or.inr ⟨error, checkReason_eq_error_iff.mp hc⟩

end Declaration

namespace Walker

variable {walker : Walker} {i : Instruction}

def Fails (walker : Walker) (i : Instruction) (name : String) (reason : Option String) : Prop :=
  walker.CarriesOut i ∧ ∃ step, i.action = .step name step ∧
    step.run walker.context = .ok (some (.failure reason))

section Fails

variable {name : String} {reason : Option String} (h : walker.Fails i name reason)

include h

theorem Fails.visit_of_permits (hp : i.origin.declaration.Permits reason) :
    walker.visit i = ([.stepStarted name i.owner.host walker.depth,
      .stepFailed name reason walker.depth],
      .halt (.ok (.failed ⟨name, reason, walker.active.map Origin.label⟩))) := by
  obtain ⟨hc, step, ha, hr⟩ := h
  have hk : i.origin.declaration.checkReason (i.owner.host ++ "." ++ name) i.origin.label reason =
      .ok () := Declaration.checkReason_eq_ok_iff.mpr hp
  simp only [CarriesOut, ha] at hc
  rw [hc]
  simp only [perform, hr, settle, hk]
  rfl

theorem Fails.visit_of_breaches {error : ProtocolError}
    (hb : i.origin.declaration.Breaches (i.owner.host ++ "." ++ name) i.origin.label reason error) :
    walker.visit i = ([.stepStarted name i.owner.host walker.depth,
      walker.abort (.protocol error)], .halt (.error (.protocol error))) := by
  obtain ⟨hc, step, ha, hr⟩ := h
  have hk := Declaration.checkReason_eq_error_iff.mpr hb
  simp only [CarriesOut, ha] at hc
  rw [hc]
  simp only [perform, hr, settle, hk]
  rfl

end Fails

/-- A walk fails only at a step that answers so, for a reason that its own story permits. -/
theorem fails_of_visit {events : List EventKind} {failure : Failure}
    (h : walker.visit i = (events, .halt (.ok (.failed failure)))) :
    walker.Fails i failure.step failure.reason ∧
      i.origin.declaration.Permits failure.reason ∧
      failure.chain = walker.active.map Origin.label ∧
      events = [.stepStarted failure.step i.owner.host walker.depth,
        .stepFailed failure.step failure.reason walker.depth] := by
  have hf : walker.Fails i failure.step failure.reason := by
    cases course_of_visit h with
    | answered hs ha hans =>
      cases hans with
      | failed hr => exact ⟨carriesOut_iff.mpr hs, _, ha, hr⟩
  rcases i.origin.declaration.permits_or_breaches (i.owner.host ++ "." ++ failure.step)
    i.origin.label failure.reason with hp | ⟨error, hb⟩
  · have hv := (hf.visit_of_permits hp).symm.trans h
    obtain ⟨rfl, hm⟩ := Prod.mk.inj hv
    refine ⟨hf, hp, ?_, rfl⟩
    exact congrArg Failure.chain (Termination.failed.inj (Except.ok.inj (Move.halt.inj hm))).symm
  · cases (hf.visit_of_breaches hb).symm.trans h

end Walker

/-- An execution failed at the step at `k`, the instruction `i` of the trace. -/
structure Execution.FailsAt (execution : Execution) (story : Story) (arguments : Arguments)
    (failure : Failure) (k : Nat) (i : Instruction) : Prop where
  instruction : story.trace.instructions[k]? = some i
  answered : ∃ walker, story.Reaches arguments k walker ∧
    walker.Fails i failure.step failure.reason
  last : ∀ j walker, story.Reaches arguments j walker → j ≤ k
  /-- All stories that are open at the step, from the inside out. -/
  chain : failure.chain = (story.trace.activeBefore k).map Origin.label
  own : i.origin = story.trace.innermost k ∧ failure.chain.head? = some i.origin.label
  root : failure.chain.getLast? = some story.label
  declared : i.origin.declaration.Permits failure.reason
  recorded : ∃ events, execution.kinds = events ++
    [.stepStarted failure.step i.owner.host failure.chain.length,
      .stepFailed failure.step failure.reason failure.chain.length, .storyFinished .failed]

/-- A failure is reported exactly for a step that answered with it and was permitted to. -/
structure Execution.Accounts (execution : Execution) (story : Story) (arguments : Arguments) :
    Prop where
  failed : ∀ failure, execution.verdict = .ok (.failed failure) →
    ∃ k i, execution.FailsAt story arguments failure k i
  permitted : ∀ k walker i name reason, story.Reaches arguments k walker →
    story.trace.instructions[k]? = some i → walker.Fails i name reason →
    i.origin.declaration.Permits reason →
    execution.verdict = .ok (.failed ⟨name, reason, (story.trace.activeBefore k).map Origin.label⟩)
  breached : ∀ k walker i name reason error, story.Reaches arguments k walker →
    story.trace.instructions[k]? = some i → walker.Fails i name reason →
    i.origin.declaration.Breaches (i.owner.host ++ "." ++ name) i.origin.label reason error →
    i.origin = story.trace.innermost k ∧ execution.verdict = .error (.protocol error) ∧
      ∀ step why depth, .stepFailed step why depth ∉ execution.kinds

namespace Story

variable {story : Story} {arguments : Arguments} {k : Nat} {walker : Walker} {i : Instruction}

theorem origin_of_fails (hi : story.trace.instructions[k]? = some i) {name : String}
    {reason : Option String} (hf : walker.Fails i name reason) :
    i.origin = story.trace.innermost k := by
  obtain ⟨-, step, ha, -⟩ := hf
  exact story.nested_trace.origin_of_not_exit hi (by simp [Instruction.exited?, ha])

theorem not_stepFailed_of_error {error : StoryError}
    (h : (story.perform arguments).verdict = .error error) (step : String) (reason : Option String)
    (depth : Nat) : .stepFailed step reason depth ∉ (story.perform arguments).events := by
  intro hm
  obtain ⟨depth', hd⟩ := story.alarms_perform arguments
  have ha : EventKind.stepFailed step reason depth ∈
      (story.perform arguments).events.filter EventKind.alarms := List.mem_filter.mpr ⟨hm, rfl⟩
  rw [hd, h] at ha
  cases List.mem_singleton.mp ha

variable (story arguments)

theorem exists_failsAt (occasion : Occasion) {failure : Failure}
    (hv : (story.perform arguments).verdict = .ok (.failed failure)) :
    ∃ k i, (story.execute occasion arguments).FailsAt story arguments failure k i := by
  cases ho : story.root.opening arguments with
  | error error =>
    rw [perform_of_refused ho] at hv
    cases hv
  | ok context =>
    rcases perform_cases ho with ⟨hc, -⟩ | ⟨turns, ⟨walker, i⟩, ht, hm, -⟩
    · cases hc.symm.trans hv
    rw [hv] at hm
    have hk : (story.turns arguments)[turns.length]? = some ⟨walker, i⟩ := by simp [ht]
    obtain ⟨hr, hi⟩ := getElem?_turns.mp hk
    obtain ⟨hf, hp, hc, he⟩ := Walker.fails_of_visit (Prod.ext rfl hm)
    have ha := hr.active_eq (Nat.le_of_lt (Trace.lt_size_of_getElem? hi))
    have horigin := origin_of_fails hi hf
    rw [ha] at hc
    have hdepth : walker.depth = failure.chain.length := by
      rw [Walker.depth, ha, hc, List.length_map]
    obtain ⟨outer, hin⟩ := story.trace.activeBefore_eq_cons turns.length
    refine ⟨turns.length, i, hi, ⟨walker, hr, hf⟩, fun j later hj => hr.le_of_halt hi hm hj, hc,
      ⟨horigin, ?_⟩, ?_, hp, ?_⟩
    · rw [hc, hin, horigin]
      rfl
    · rw [hc, Trace.activeBefore, List.map_append, List.getLast?_append]
      rfl
    · rw [kinds_execute, events_of_opening ho, ht, hv, ← hdepth, List.flatMap_append]
      refine ⟨.storyStarted story.label story.fingerprint :: turns.flatMap Turn.events, ?_⟩
      simp [Turn.events, he, Verdict.status]

/-- Every execution accounts for its failures. -/
theorem accounts_execute (occasion : Occasion) :
    (story.execute occasion arguments).Accounts story arguments := by
  constructor
  case failed => exact fun failure hv => story.exists_failsAt arguments occasion hv
  case permitted =>
    intro k walker i name reason hr hi hf hp
    rw [hr.verdict_of_visit hi (hf.visit_of_permits hp) occasion,
      hr.active_eq (Nat.le_of_lt (Trace.lt_size_of_getElem? hi))]
  case breached =>
    intro k walker i name reason error hr hi hf hb
    have hv := hr.verdict_of_visit hi (hf.visit_of_breaches hb) occasion
    refine ⟨origin_of_fails hi hf, hv, ?_⟩
    rw [kinds_execute]
    exact not_stepFailed_of_error hv

end Story

/-- An order of more than is left fails in the story of the inventory. -/
example : (Demo.smallShop.perform (.ofPositional [.string "tea", .int 30])).verdict =
    .ok (.failed ⟨"check_stock", some "out_of_stock", ["Inventory.reserve", "Shop.purchase"]⟩) := by
  rfl

end StoryEngine
