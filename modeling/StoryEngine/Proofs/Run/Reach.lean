import StoryEngine.Proofs.Run.Visit
import StoryEngine.Proofs.Story.Brackets

/-! # States of a walk

The state of a walk just before an instruction, for as far as the walk gets, and what leads from
one state to the next: the stack shifts with the markers, and the skip region is opened by a step
that skips and closed by an exit at its own depth.
-/

namespace StoryEngine

namespace Walker

/-- The state after a list of instructions, if the walk gets that far. -/
def advance (walker : Walker) : List Instruction → Option Walker
  | [] => some walker
  | instruction :: rest =>
    match (walker.visit instruction).2 with
    | .on next => next.advance rest
    | .halt _ => none

theorem advance_append (walker : Walker) (xs ys : List Instruction) :
    walker.advance (xs ++ ys) = (walker.advance xs).bind fun next => next.advance ys := by
  induction xs generalizing walker with
  | nil => rfl
  | cons i xs ih =>
    rw [List.cons_append, advance, advance]
    cases (walker.visit i).2 with
    | on next => exact ih next
    | halt verdict => rfl

theorem walk_of_advance {walker next : Walker} {xs : List Instruction}
    (h : walker.advance xs = some next) :
    ∃ events, ∀ ys, walk walker (xs ++ ys) = (walk next ys).after events := by
  induction xs generalizing walker with
  | nil =>
    obtain rfl := Option.some.inj h
    exact ⟨[], fun _ => rfl⟩
  | cons i xs ih =>
    rw [advance] at h
    cases hv : walker.visit i with
    | mk events move =>
      cases move with
      | halt verdict => simp [hv] at h
      | on middle =>
        have hm : middle.advance xs = some next := by simpa [hv] using h
        obtain ⟨events', hw⟩ := ih hm
        refine ⟨events ++ events', fun ys => ?_⟩
        rw [List.cons_append, walk_cons_of_on hv, hw, Run.after_after]

section Perform

variable {walker next : Walker} {owner : Owner} {origin : Origin} {name : String} {step : Step}

theorem head_perform :
    (walker.perform owner origin name step).1.head? =
      some (.stepStarted name owner.host walker.depth) := by
  unfold perform
  dsimp only
  split <;> rfl

/-- What is left of the state where an outcome lets the walk go on. -/
inductive Passes (walker : Walker) (owner : Owner) (name : String) :
    Option Outcome → Walker → Prop where
  | nothing : Passes walker owner name none walker
  | skip : Passes walker owner name (some .skip) { walker with skipping := some walker.depth }
  | success {outputs : Outputs} {context : Context} :
      checkOutputs walker.active outputs.pairs = .ok () →
      walker.context.extend outputs ⟨owner.host, name⟩ = .ok context →
      Passes walker owner name (some (.success outputs)) { walker with context }

theorem passes_of_settle {outcome : Option Outcome} {event : EventKind}
    (h : walker.settle owner origin name outcome = .ok (event, .on next)) :
    walker.Passes owner name outcome next := by
  match outcome with
  | none =>
    cases h
    exact .nothing
  | some .skip =>
    cases h
    exact .skip
  | some (.result value) => cases h
  | some (.failure reason) =>
    unfold settle at h
    cases hr : origin.declaration.checkReason (owner.host ++ "." ++ name) origin.label reason
    all_goals simp only [hr] at h; cases h
  | some (.success outputs) =>
    unfold settle at h
    cases hc : checkOutputs walker.active outputs.pairs with
    | error error => simp only [hc] at h; cases h
    | ok =>
      cases he : walker.context.extend outputs ⟨owner.host, name⟩ with
      | error error => simp only [hc, he] at h; cases h
      | ok context =>
        simp only [hc, he] at h
        cases h
        exact .success hc he

theorem passes_of_perform (h : (walker.perform owner origin name step).2 = .on next) :
    ∃ outcome, step.run walker.context = .ok outcome ∧ walker.Passes owner name outcome next := by
  unfold perform at h
  dsimp only at h
  split at h
  case h_2 => cases h
  case h_1 event move hs =>
    obtain rfl : move = .on next := h
    cases hr : step.run walker.context with
    | error error => simp only [hr] at hs; cases hs
    | ok outcome =>
      simp only [hr] at hs
      exact ⟨outcome, rfl, passes_of_settle hs⟩

/-- A step keeps the stack, and only a skip opens a skip region. -/
theorem perform_on (h : (walker.perform owner origin name step).2 = .on next) :
    (step.run walker.context = .ok (some .skip) ∧
        next = { walker with skipping := some walker.depth }) ∨
      (step.run walker.context ≠ .ok (some .skip) ∧ next.active = walker.active ∧
        next.skipping = walker.skipping) := by
  obtain ⟨outcome, hr, hp⟩ := passes_of_perform h
  rw [hr]
  cases hp with
  | nothing => exact Or.inr ⟨nofun, rfl, rfl⟩
  | skip => exact Or.inl ⟨rfl, rfl⟩
  | success => exact Or.inr ⟨nofun, rfl, rfl⟩

end Perform

variable {walker next : Walker} {instruction : Instruction}

theorem enter_on {story : Origin} {title : String} {injected : Bool}
    (h : (walker.enter story title injected).2 = .on next) :
    next = { walker with active := story :: walker.active } := by
  unfold enter at h
  dsimp only at h
  split at h
  · exact (Move.on.inj h).symm
  · cases h

def CarriesOut (walker : Walker) (instruction : Instruction) : Prop :=
  match instruction.action with
  | .step name step =>
    walker.visit instruction = walker.perform instruction.owner instruction.origin name step
  | .enter story title injected =>
    walker.visit instruction = walker.enter story title injected
  | .exit story => walker.visit instruction = walker.exit story

/-- The instruction is reported as bypassed, and nothing but the stack changes. -/
def Bypasses (walker : Walker) (instruction : Instruction) : Prop :=
  walker.visit instruction = ([.instructionBypassed instruction.label walker.depth],
    .on { walker with active := instruction.shift id walker.active })

def Skips (walker : Walker) (instruction : Instruction) : Prop :=
  walker.CarriesOut instruction ∧ ∃ name step,
    instruction.action = .step name step ∧ step.run walker.context = .ok (some .skip)

theorem head_enter (story : Origin) (title : String) (injected : Bool) :
    (walker.enter story title injected).1.head? =
      some (.substoryEntered title story.label injected walker.depth) := by
  unfold enter
  dsimp only
  split <;> rfl

theorem carriesOut_iff : walker.CarriesOut instruction ↔ walker.skipping = none := by
  obtain ⟨active, skipping, context⟩ := walker
  obtain ⟨owner, action, origin⟩ := instruction
  cases skipping with
  | none =>
    refine iff_of_true ?_ rfl
    cases action <;> rfl
  | some level =>
    refine iff_of_false (fun h => ?_) nofun
    cases action with
    | step name step =>
      have hh := congrArg (fun visited => visited.1.head?) h
      rw [visit_bypassed_step, head_perform] at hh
      cases hh
    | enter story title injected =>
      have hh := congrArg (fun visited => visited.1.head?) h
      rw [visit_bypassed_enter, head_enter] at hh
      cases hh
    | exit story =>
      have hh := congrArg Prod.fst h
      cases hh

theorem bypasses_iff (hx : instruction.exited? = none) :
    walker.Bypasses instruction ↔ walker.skipping.isSome := by
  obtain ⟨active, skipping, context⟩ := walker
  obtain ⟨owner, action, origin⟩ := instruction
  cases skipping with
  | some level =>
    refine iff_of_true ?_ rfl
    cases action with
    | step => rfl
    | enter => rfl
    | exit => cases hx
  | none =>
    refine iff_of_false (fun h => ?_) nofun
    have hh := congrArg (fun visited => visited.1.head?) h
    cases action with
    | step name step =>
      rw [visit_step, head_perform] at hh
      cases hh
    | enter story title injected =>
      rw [visit_enter, head_enter] at hh
      cases hh
    | exit => cases hx

theorem active_of_visit (h : (walker.visit instruction).2 = .on next) :
    next.active = instruction.shift id walker.active := by
  obtain ⟨active, skipping, context⟩ := walker
  obtain ⟨owner, action, origin⟩ := instruction
  cases skipping with
  | some level => cases action <;> cases h <;> rfl
  | none =>
    cases action with
    | step name step =>
      rcases perform_on h with ⟨-, rfl⟩ | ⟨-, ha, -⟩
      · rfl
      · exact ha
    | enter story title injected =>
      obtain rfl := enter_on h
      rfl
    | exit story =>
      cases h
      rfl

theorem skipping_of_visit (hn : walker.skipping = none)
    (h : (walker.visit instruction).2 = .on next) :
    (walker.Skips instruction ∧ next.skipping = some walker.depth) ∨
      (¬ walker.Skips instruction ∧ next.skipping = none) := by
  have hc : walker.CarriesOut instruction := carriesOut_iff.mpr hn
  obtain ⟨active, skipping, context⟩ := walker
  obtain rfl : skipping = none := hn
  obtain ⟨owner, action, origin⟩ := instruction
  cases action with
  | step name step =>
    rcases perform_on h with ⟨hr, rfl⟩ | ⟨hr, -, hs⟩
    · exact Or.inl ⟨⟨hc, name, step, rfl, hr⟩, rfl⟩
    · refine Or.inr ⟨?_, hs⟩
      rintro ⟨-, _, _, he, hr'⟩
      cases he
      exact hr hr'
  | enter story title injected =>
    obtain rfl := enter_on h
    exact Or.inr ⟨fun ⟨_, _, _, he, _⟩ => (nomatch he), rfl⟩
  | exit story =>
    cases h
    exact Or.inr ⟨fun ⟨_, _, _, he, _⟩ => (nomatch he), rfl⟩

theorem visit_of_skips (h : walker.Skips instruction) :
    (walker.visit instruction).2 = .on { walker with skipping := some walker.depth } := by
  obtain ⟨hc, name, step, ha, hr⟩ := h
  simp only [CarriesOut, ha] at hc
  rw [hc]
  unfold perform
  simp only [hr]
  rfl

/-- Inside a skip region every instruction is passed in silence or reported as bypassed, and only
an exit at the depth of the region closes it. -/
theorem visit_of_skipping {level : Nat} (hs : walker.skipping = some level)
    (instruction : Instruction) :
    ∃ next, walker.visit instruction =
        (if instruction.exited?.isSome then []
          else [.instructionBypassed instruction.label walker.depth], .on next) ∧
      next.context = walker.context ∧
      next.skipping =
        if instruction.exited?.isSome ∧ walker.depth = level then none else some level := by
  obtain ⟨active, skipping, context⟩ := walker
  obtain rfl : skipping = some level := hs
  obtain ⟨owner, action, origin⟩ := instruction
  cases action with
  | step => exact ⟨_, rfl, rfl, rfl⟩
  | enter => exact ⟨_, rfl, rfl, rfl⟩
  | exit story =>
    by_cases hd : active.length = level
    · refine ⟨_, visit_bypassed_exit_of_eq _ _ _ _ _ _ hd, rfl, ?_⟩
      simp [Instruction.exited?, depth, hd]
    · refine ⟨_, visit_bypassed_exit_of_ne _ _ _ _ _ _ hd, rfl, ?_⟩
      simp [depth, hd]

end Walker

namespace Trace

variable {trace : Trace} {context : Context} {k : Nat}

def walkerAt (trace : Trace) (context : Context) (k : Nat) : Option Walker :=
  (Walker.start trace.root context).advance (trace.instructions.take k)

theorem walk_of_walkerAt {walker : Walker} (h : trace.walkerAt context k = some walker) :
    ∃ events, walk (.start trace.root context) trace.instructions =
      (walk walker (trace.instructions.drop k)).after events := by
  obtain ⟨events, hw⟩ := Walker.walk_of_advance h
  refine ⟨events, ?_⟩
  rw [← hw, List.take_append_drop]

theorem walkerAt_succ {next : Walker} {i : Instruction} (hi : trace.instructions[k]? = some i) :
    trace.walkerAt context (k + 1) = some next ↔
      ∃ walker, trace.walkerAt context k = some walker ∧ (walker.visit i).2 = .on next := by
  unfold walkerAt
  rw [List.take_add_one, hi, Walker.advance_append, Option.bind_eq_some_iff]
  refine exists_congr fun walker => and_congr_right fun _ => ?_
  rw [Option.toList_some, Walker.advance]
  cases (walker.visit i).2 with
  | on middle => simp [Walker.advance]
  | halt verdict => simp

end Trace

end StoryEngine
