import StoryEngine.Proofs.Run.Growth
import StoryEngine.Proofs.Run.Turns
import StoryEngine.Proofs.Story.Erasure

/-! # Contracts as filters

A contract does nothing but let a run go on or break it off. Without contracts a run goes on as it
did with them, and where a contract rejected something it goes on from there.
-/

namespace StoryEngine

def Verdict.Rejected (verdict : Verdict) : Prop :=
  ∃ story violations, verdict = .error (.contract (.invalidVariables story violations))

theorem rejection_of_checkOutputs {active : List Origin} {outputs : List (String × Value)}
    {error : ContractError} (h : checkOutputs active outputs = .error error) :
    ∃ story violations, error = .invalidVariables story violations := by
  obtain ⟨story, violations, he, -⟩ := checkOutputs_eq_error_iff.mp h
  exact ⟨story.label, violations, he⟩

theorem Declaration.checkVariables_cases (declaration : Declaration) (story : String)
    (pairs : List (String × Value)) : declaration.checkVariables story pairs = .ok () ∨
      ∃ violations,
        declaration.checkVariables story pairs = .error (.invalidVariables story violations) := by
  unfold checkVariables
  split
  · exact Or.inl rfl
  · split
    · exact Or.inl rfl
    · exact Or.inr ⟨_, rfl⟩

theorem checkOutputs_erase (active : List Origin) (outputs : List (String × Value)) :
    checkOutputs (active.map Origin.erase) outputs = .ok () := by
  refine checkOutputs_eq_ok_iff.mpr (Or.inl fun story hs => ?_)
  obtain ⟨erased, -, rfl⟩ := List.mem_map.mp hs
  rfl

namespace Walker

def erase (walker : Walker) : Walker := { walker with active := walker.active.map Origin.erase }

variable {walker : Walker} {owner : Owner} {origin : Origin} {name : String} {step : Step}

theorem depth_erase (walker : Walker) : walker.erase.depth = walker.depth :=
  List.length_map Origin.erase

theorem labels_erase (walker : Walker) :
    walker.erase.active.map Origin.label = walker.active.map Origin.label :=
  List.map_map

end Walker

def Move.erase : Move → Move
  | .on next => .on next.erase
  | .halt verdict => .halt verdict

namespace Walker

variable {walker : Walker} {owner : Owner} {origin : Origin} {name : String} {step : Step}

theorem abort_erase (walker : Walker) (error : StoryError) :
    walker.erase.abort error = walker.abort error := by
  rw [abort, abort, depth_erase]

theorem settle_erase {outcome : Option Outcome} (accepted : ∀ outputs,
      outcome = some (.success outputs) → checkOutputs walker.active outputs.pairs = .ok ()) :
    walker.erase.settle owner origin.erase name outcome =
      (walker.settle owner origin name outcome).map fun (event, move) => (event, move.erase) := by
  have hr (label : String) (reason : Option String) :
      origin.erase.declaration.checkReason label origin.erase.label reason =
        origin.declaration.checkReason label origin.label reason := rfl
  match outcome with
  | none | some .skip | some (.result _) =>
    simp only [settle, depth_erase]
    rfl
  | some (.failure reason) =>
    simp only [settle, depth_erase, labels_erase, hr]
    cases origin.declaration.checkReason (owner.host ++ "." ++ name) origin.label reason <;> rfl
  | some (.success outputs) =>
    have ha : checkOutputs walker.erase.active outputs.pairs = .ok () :=
      checkOutputs_erase walker.active outputs.pairs
    have hc : walker.erase.context = walker.context := rfl
    simp only [settle, depth_erase, ha, hc, accepted outputs rfl]
    cases walker.context.extend outputs ⟨owner.host, name⟩ <;> rfl

/-- A step whose outputs the contracts accept is carried out as without them. -/
theorem perform_erase (accepted : ∀ outputs,
      step.run walker.context = .ok (some (.success outputs)) →
      checkOutputs walker.active outputs.pairs = .ok ()) :
    walker.erase.perform owner origin.erase name step =
      ((walker.perform owner origin name step).1,
        (walker.perform owner origin name step).2.erase) := by
  have hc : walker.erase.context = walker.context := rfl
  unfold perform
  cases hr : step.run walker.context with
  | error error =>
    simp only [hc, hr, depth_erase, abort_erase]
    rfl
  | ok outcome =>
    have hs := @settle_erase walker owner origin name outcome fun outputs ho =>
      accepted outputs (ho ▸ hr)
    simp only [hc, hr, depth_erase, abort_erase, hs]
    cases walker.settle owner origin name outcome <;> rfl

/-- How a visit goes, and how it goes without contracts. -/
inductive Filtered : List EventKind × Move → List EventKind × Move → Prop where
  | on (events : List EventKind) (next : Walker) :
      Filtered (events, .on next) (events, .on next.erase)
  | halt {verdict : Verdict} (events : List EventKind) : ¬ verdict.Rejected →
      Filtered (events, .halt verdict) (events, .halt verdict)
  | rejected {story : String} {violations : List Violation} {error : StoryError}
      {visited : List EventKind × Move} (before : List EventKind) (depth : Nat) :
      error = .contract (.invalidVariables story violations) → before <+: visited.1 →
      Filtered (before ++ [.errored error.kind error.message depth], .halt (.error error)) visited

theorem not_rejected_of_answer {event : EventKind} {verdict : Verdict}
    (accepted : ∀ outputs, step.run walker.context = .ok (some (.success outputs)) →
      checkOutputs walker.active outputs.pairs = .ok ())
    (h : walker.Answer owner origin name step event (.halt verdict)) : ¬ verdict.Rejected := by
  rintro ⟨story, violations, hv⟩
  cases h with
  | failed | returned => cases hv
  | @broken error hb =>
    have he := Except.error.inj hv
    generalize step.run walker.context = answer at accepted hb
    cases hb with
    | raised error => cases error <;> cases he
    | collides | undeclared => cases he
    | rejected hc => cases (accepted _ rfl).symm.trans hc

theorem filtered_perform (walker : Walker) (owner : Owner) (origin : Origin) (name : String)
    (step : Step) : Filtered (walker.perform owner origin name step)
      (walker.erase.perform owner origin.erase name step) := by
  by_cases accepted : ∀ outputs, step.run walker.context = .ok (some (.success outputs)) →
      checkOutputs walker.active outputs.pairs = .ok ()
  · rw [perform_erase accepted]
    obtain ⟨event, move, hp, ha⟩ := walker.exists_answer owner origin name step
    rw [hp]
    cases move with
    | on next => exact .on _ next
    | halt verdict => exact .halt _ (not_rejected_of_answer accepted ha)
  · simp only [not_forall] at accepted
    obtain ⟨outputs, hr, hne⟩ := accepted
    cases hc : checkOutputs walker.active outputs.pairs with
    | ok => exact absurd hc hne
    | error error =>
      obtain ⟨story, violations, rfl⟩ := rejection_of_checkOutputs hc
      have hp : walker.perform owner origin name step =
          ([.stepStarted name owner.host walker.depth] ++
            [walker.abort (.contract (.invalidVariables story violations))],
              .halt (.error (.contract (.invalidVariables story violations)))) := by
        simp only [perform, hr, settle, hc]
        rfl
      obtain ⟨event, move, hp', -⟩ := walker.erase.exists_answer owner origin.erase name step
      rw [hp, hp', depth_erase]
      exact .rejected _ _ rfl ⟨[event], rfl⟩

/-- Without contracts a story is entered as it was before, unless its contract rejected what it
found. -/
theorem checkEntry_erase_cases (walker : Walker) (story : Origin) :
    (walker.erase.checkEntry story.erase = walker.checkEntry story ∧
        ∀ label violations,
          walker.checkEntry story ≠ .error (.contract (.invalidVariables label violations))) ∨
      (walker.erase.checkEntry story.erase = .ok () ∧ ∃ violations,
        walker.checkEntry story =
          .error (.contract (.invalidVariables story.label violations))) := by
  have he (pairs : List (String × Value)) :
      story.erase.declaration.checkVariables story.erase.label pairs = .ok () := rfl
  have hm : walker.erase.context.missing story.erase.declaration.arguments =
      walker.context.missing story.declaration.arguments := rfl
  rw [checkEntry, checkEntry, hm]
  cases walker.context.missing story.declaration.arguments with
  | cons => exact Or.inl ⟨rfl, nofun⟩
  | nil =>
    dsimp only
    rw [he]
    rcases story.declaration.checkVariables_cases story.label
      (walker.context.visible story.declaration.arguments) with hv | ⟨violations, hv⟩
    · rw [hv]
      exact Or.inl ⟨rfl, nofun⟩
    · rw [hv]
      exact Or.inr ⟨rfl, violations, rfl⟩

theorem filtered_enter (walker : Walker) (story : Origin) (title : String) (injected : Bool) :
    Filtered (walker.enter story title injected)
      (walker.erase.enter story.erase title injected) := by
  rcases walker.checkEntry_erase_cases story with ⟨he, hn⟩ | ⟨he, violations, hc⟩
  · simp only [enter, he, depth_erase, abort_erase, Origin.label_erase]
    cases hc : walker.checkEntry story with
    | ok => exact .on _ { walker with active := story :: walker.active }
    | error error =>
      refine .halt _ ?_
      rintro ⟨label, violations, hv⟩
      obtain rfl := Except.error.inj hv
      exact hn label violations hc
  · simp only [enter, he, hc, depth_erase, Origin.label_erase]
    exact .rejected [.substoryEntered title story.label injected walker.depth] _ rfl
      List.prefix_rfl

theorem exit_erase (walker : Walker) (story : Origin) :
    walker.erase.exit story.erase = ((walker.exit story).1, (walker.exit story).2.erase) := by
  have ht : walker.erase.active.tail = walker.active.tail.map Origin.erase := List.map_tail.symm
  simp only [exit, ht, List.length_map, Origin.label_erase]
  rfl

theorem bypass_erase (walker : Walker) (level : Nat) (i : Instruction) :
    walker.erase.bypass level i.erase =
      ((walker.bypass level i).1, (walker.bypass level i).2.erase) := by
  have hl := i.label_erase
  obtain ⟨owner, action, origin⟩ := i
  cases action with
  | step | enter =>
    simp only [bypass, depth_erase, hl]
    rfl
  | exit story =>
    have ht : walker.erase.active.tail = walker.active.tail.map Origin.erase := List.map_tail.symm
    simp only [bypass, depth_erase, ht]
    rfl

theorem filtered_visit (walker : Walker) (i : Instruction) :
    Filtered (walker.visit i) (walker.erase.visit i.erase) := by
  obtain ⟨active, skipping, context⟩ := walker
  obtain ⟨owner, action, origin⟩ := i
  cases skipping with
  | none =>
    cases action with
    | step name step => exact filtered_perform _ owner origin name step
    | enter story title injected => exact filtered_enter _ story title injected
    | exit story =>
      have hv : visit (erase ⟨active, none, context⟩) (Instruction.erase
          ⟨owner, .exit story, origin⟩) = (erase ⟨active, none, context⟩).exit story.erase := rfl
      rw [hv, exit_erase]
      exact .on _ _
  | some level =>
    have hb := bypass_erase ⟨active, some level, context⟩ level ⟨owner, action, origin⟩
    have hv (walker : Walker) (hs : walker.skipping = some level) (i : Instruction) :
        walker.visit i = ((walker.bypass level i).1, .on (walker.bypass level i).2) := by
      simp only [visit, hs]
    rw [hv _ rfl, hv _ rfl, hb]
    exact .on _ _

end Walker

inductive Run.Filtered : Run → Run → Prop where
  | same (run : Run) : ¬ run.verdict.Rejected → Filtered run run
  | rejected {story : String} {violations : List Violation} {error : StoryError}
      {context : Context} {run : Run} (before : List EventKind) (depth : Nat) :
      error = .contract (.invalidVariables story violations) → before <+: run.events →
      context.entries <+: run.context.entries →
      Filtered ⟨before ++ [.errored error.kind error.message depth], context, .error error⟩ run

theorem Run.Filtered.after {run run' : Run} (h : run.Filtered run') (events : List EventKind) :
    (run.after events).Filtered (run'.after events) := by
  cases h with
  | same _ hv => exact .same _ hv
  | rejected before depth he hb hc =>
    rw [Run.after, ← List.append_assoc]
    exact .rejected _ depth he ((List.prefix_append_right_inj events).mpr hb) hc

theorem Walker.prefix_context_walk (walker : Walker) (is : List Instruction) :
    walker.context.entries <+: (walk walker is).context.entries := by
  induction walker, is using walk_induction with
  | nil => exact List.prefix_rfl
  | on walker i events next rest hv ih =>
    obtain ⟨added, ha, -⟩ := entries_of_visit (congrArg Prod.snd hv)
    rw [walk_cons_of_on hv]
    exact (ha ▸ List.prefix_append _ added).trans ih
  | halt walker i events verdict rest hv =>
    simp only [walk_cons_of_halt hv, List.prefix_rfl]

theorem Walker.prefix_events_walk (walker : Walker) (i : Instruction) (rest : List Instruction) :
    (walker.visit i).1 <+: (walk walker (i :: rest)).events := by
  cases hv : walker.visit i with
  | mk events move =>
    cases move with
    | on next =>
      rw [walk_cons_of_on hv]
      exact List.prefix_append _ _
    | halt verdict =>
      simp only [walk_cons_of_halt hv, List.prefix_rfl]

theorem Walker.filtered_walk (walker : Walker) (is : List Instruction) :
    (walk walker is).Filtered (walk walker.erase (is.map Instruction.erase)) := by
  induction walker, is using walk_induction with
  | nil walker => exact .same _ nofun
  | on walker i events next rest hv ih =>
    have hf := walker.filtered_visit i
    rw [hv] at hf
    cases hv' : walker.erase.visit i.erase with
    | mk events' move' =>
      rw [hv'] at hf
      cases hf with
      | on =>
        rw [walk_cons_of_on hv, List.map_cons, walk_cons_of_on hv']
        exact ih.after events
  | halt walker i events verdict rest hv =>
    have hf := walker.filtered_visit i
    rw [hv] at hf
    cases hv' : walker.erase.visit i.erase with
    | mk events' move' =>
      rw [hv'] at hf
      cases hf with
      | halt _ hn =>
        rw [walk_cons_of_halt hv, List.map_cons, walk_cons_of_halt hv']
        exact .same _ hn
      | rejected before depth he hb =>
        rw [walk_cons_of_halt hv, List.map_cons]
        refine .rejected before depth he (hb.trans ?_) (prefix_context_walk walker.erase _)
        rw [← hv']
        exact prefix_events_walk _ _ _

theorem Arguments.not_rejection_of_bind {arguments : Arguments} {story : String}
    {declared : List String} {label : String} {violations : List Violation} :
    arguments.bind story declared ≠ .error (.invalidVariables label violations) := by
  unfold bind
  split
  · nofun
  · split
    · nofun
    · dsimp only
      split
      · split <;> nofun
      · split <;> nofun

theorem Origin.opening_erase_cases (root : Origin) (arguments : Arguments) :
    (root.erase.opening arguments = root.opening arguments ∧ ∀ label violations,
        root.opening arguments ≠ .error (.invalidVariables label violations)) ∨
      ∃ violations, root.opening arguments = .error (.invalidVariables root.label violations) := by
  have he (pairs : List (String × Value)) :
      root.erase.declaration.checkVariables root.erase.label pairs = .ok () := rfl
  have hb : arguments.bind root.erase.label root.erase.declaration.arguments =
      arguments.bind root.label root.declaration.arguments := rfl
  rw [opening, opening, hb]
  cases hbind : arguments.bind root.label root.declaration.arguments with
  | error error =>
    refine Or.inl ⟨rfl, fun label violations h => ?_⟩
    obtain rfl := Except.error.inj h
    exact Arguments.not_rejection_of_bind hbind
  | ok bound =>
    dsimp only [Bind.bind, Except.bind]
    rw [he]
    rcases root.declaration.checkVariables_cases root.label bound with hv | ⟨violations, hv⟩
    · rw [hv]
      exact Or.inl ⟨rfl, nofun⟩
    · rw [hv]
      exact Or.inr ⟨violations, rfl⟩

theorem Story.filtered_perform (story : Story) (arguments : Arguments) : ∃ run run' : Run,
    run.Filtered run' ∧
      story.perform arguments = run.framed story.label story.fingerprint ∧
      story.erase.perform arguments = run'.framed story.label story.fingerprint := by
  have hl : story.erase.label = story.label := rfl
  have hf := story.fingerprint_erase
  rcases story.root.opening_erase_cases arguments with ⟨he, hn⟩ | ⟨violations, ho⟩
  · cases ho : story.root.opening arguments with
    | ok context =>
      refine ⟨_, _, Walker.filtered_walk (.start story.root context) story.trace.instructions,
        perform_of_opening ho, ?_⟩
      have ho' : story.erase.root.opening arguments = .ok context := he.trans ho
      rw [perform_of_opening ho', instructions_erase, hl, hf]
      rfl
    | error error =>
      refine ⟨_, _, .same (.rejected error) ?_, perform_of_refused ho, ?_⟩
      · rintro ⟨label, violations, hv⟩
        cases hv
        exact hn label violations ho
      · have ho' : story.erase.root.opening arguments = .error error := he.trans ho
        rw [perform_of_refused ho', hl, hf]
  · have hr : ∃ run' : Run, story.erase.perform arguments =
        run'.framed story.label story.fingerprint := by
      rw [← hl, ← hf]
      exact ⟨_, rfl⟩
    obtain ⟨run', hr⟩ := hr
    exact ⟨_, run', .rejected [] 0 rfl List.nil_prefix List.nil_prefix, perform_of_refused ho, hr⟩

/-- The first execution is broken off by a contract, and the second one has gone on from there. -/
structure Execution.CutShort (execution whole : Execution) : Prop where
  events : ∃ before stop finish error depth,
    execution.events = before ++ [stop, finish] ∧ before <+: whole.events ∧
      execution.verdict = .error error ∧ stop.kind = .errored error.kind error.message depth ∧
      finish.kind = .storyFinished .errored
  context : execution.context.entries <+: whole.context.entries

/-- The second story runs as the first one does, as far as the contracts of the first one let it
run. -/
structure Story.Filters (story bare : Story) : Prop where
  labels : bare.trace.labels = story.trace.labels
  fingerprint : bare.fingerprint = story.fingerprint
  accepted : ∀ occasion arguments, ¬ (story.execute occasion arguments).verdict.Rejected →
    bare.execute occasion arguments = story.execute occasion arguments
  rejected : ∀ occasion arguments, (story.execute occasion arguments).verdict.Rejected →
    (story.execute occasion arguments).CutShort (bare.execute occasion arguments)

theorem Occasion.stamp_prefix (occasion : Occasion) {xs ys : List EventKind} (h : xs <+: ys) :
    occasion.stamp xs <+: occasion.stamp ys := by
  obtain ⟨zs, rfl⟩ := h
  rw [stamp, stamp, List.mapIdx_append]
  exact List.prefix_append _ _

namespace Story

variable (story : Story) (occasion : Occasion) (arguments : Arguments)

theorem execute_erase_of_not_rejected
    (h : ¬ (story.execute occasion arguments).verdict.Rejected) :
    story.erase.execute occasion arguments = story.execute occasion arguments := by
  obtain ⟨run, run', hr, hp, hp'⟩ := story.filtered_perform arguments
  cases hr with
  | same =>
    rw [execute, execute, hp, hp']
    rfl
  | rejected _ _ he =>
    rw [execute, hp] at h
    exact absurd ⟨_, _, congrArg Except.error he⟩ h

theorem cutShort_of_rejected (h : (story.execute occasion arguments).verdict.Rejected) :
    (story.execute occasion arguments).CutShort (story.erase.execute occasion arguments) := by
  obtain ⟨run, run', hr, hp, hp'⟩ := story.filtered_perform arguments
  cases hr with
  | same _ hn =>
    rw [execute, hp] at h
    exact absurd h hn
  | @rejected _ _ error context _ before depth he hb hc =>
    have hk : (story.execute occasion arguments).events =
        occasion.stamp ((.storyStarted story.label story.fingerprint :: before) ++
          [.errored error.kind error.message depth, .storyFinished .errored]) := by
      rw [execute, hp]
      exact congrArg (fun kinds => occasion.stamp (.storyStarted _ _ :: kinds))
        (List.append_assoc before _ _)
    have hb' : .storyStarted story.label story.fingerprint :: before <+:
        (story.erase.perform arguments).events := by
      rw [hp']
      exact (List.prefix_cons_inj _).mpr (hb.trans (List.prefix_append _ _))
    rw [Occasion.stamp, List.mapIdx_append] at hk
    refine ⟨⟨_, _, _, error, depth, hk, occasion.stamp_prefix hb', ?_, rfl, rfl⟩, ?_⟩
    · rw [execute, hp]
      rfl
    · rw [execute, execute, hp, hp']
      exact hc

end Story

/-- A compiled story and what it is compiled to without its contracts. -/
theorem Host.filters_of_bind {host : Host} {name : String} {story : Story}
    (h : host.bind name = .ok story) :
    host.erase.bind name = .ok story.erase ∧ story.Filters story.erase :=
  ⟨bind_erase h, {
    labels := story.labels_erase
    fingerprint := story.fingerprint_erase
    accepted := story.execute_erase_of_not_rejected
    rejected := story.cutShort_of_rejected }⟩

namespace Demo

def largeOrder : Arguments := .ofKeyword [("item", .string "tea"), ("quantity", .int 12)]

/-- Where goods are sold below nothing, the contract of the purchase rejects the discount. -/
theorem filters_purchase :
    (Shop.host (-5) (reserved 20)).bind "purchase" = .ok (purchased (-5) (reserved 20)) ∧
    (purchased (-5) (reserved 20)).Filters (purchased (-5) (reserved 20)).erase ∧
    codes ((purchased (-5) (reserved 20)).execute occasion largeOrder).kinds =
      ["I", "S", "F", ">", "S", "F", "S", "F", "<", ">", "S", "F", "S", "E", "C"] ∧
    codes ((purchased (-5) (reserved 20)).erase.execute occasion largeOrder).kinds =
      ["I", "S", "F", ">", "S", "F", "S", "F", "<", ">", "S", "F", "S", "F", "<", "S", "R",
        "C"] :=
  ⟨bind_purchase (-5) (reserved 20), (Host.filters_of_bind (bind_purchase (-5) (reserved 20))).2,
    rfl, rfl⟩

end Demo

end StoryEngine
