import Mathlib.Data.List.Forall2
import StoryEngine.Proofs.Context.Binding
import StoryEngine.Proofs.Demo.Shop
import StoryEngine.Proofs.Run.Turns

/-! # Provenance of variables

The context of a call is explained by its record. Each turn adds the outputs of a step that
succeeded and that no contract and no variable stood against, or it adds nothing; so the names of
the context and the steps that set them can be read off the events.
-/

namespace StoryEngine

namespace EventKind

def outputs : EventKind → List String
  | .stepFinished _ outputs _ => outputs
  | _ => []

def starts? : EventKind → Option StepIdentity
  | .stepStarted step host _ => some ⟨host, step⟩
  | _ => none

def settings (event : EventKind) : Option StepIdentity → List (String × Provenance)
  | some identity => event.outputs.map fun name => (name, .setBy identity)
  | none => []

end EventKind

/-- The names that a record reports to be set, each by the step that was started just before. -/
def settings : Option StepIdentity → List EventKind → List (String × Provenance)
  | _, [] => []
  | started, event :: rest => event.settings started ++ settings event.starts? rest

theorem settings_eq_nil {started : Option StepIdentity} {events : List EventKind}
    (h : ∀ event ∈ events, event.outputs = []) : settings started events = [] := by
  induction events generalizing started with
  | nil => rfl
  | cons event rest ih =>
    have he := h event List.mem_cons_self
    rw [settings, ih fun e hm => h e (List.mem_cons_of_mem _ hm)]
    cases started with
    | none => rfl
    | some identity => simp [EventKind.settings, he]

namespace Walker

/-- The instruction is a step that is carried out and succeeds with outputs that no contract and no
variable stands against. -/
def Contributes (walker : Walker) (i : Instruction) (name : String) (outputs : Outputs) : Prop :=
  walker.skipping = none ∧ ∃ step, i.action = .step name step ∧
    step.run walker.context = .ok (some (.success outputs)) ∧
    checkOutputs walker.active outputs.pairs = .ok () ∧
    ∀ output ∈ outputs.names, walker.context.contains output = false

variable {walker next : Walker} {i : Instruction} {events : List EventKind} {move : Move}

theorem visit_of_contributes {name : String} {outputs : Outputs}
    (h : walker.Contributes i name outputs) : walker.visit i =
      ([.stepStarted name i.owner.host walker.depth,
        .stepFinished name outputs.names walker.depth],
        .on { walker with
          context := ⟨walker.context.entries ++ outputs.setBy ⟨i.owner.host, name⟩⟩ }) := by
  obtain ⟨hn, step, ha, hr, hc, hfree⟩ := h
  obtain ⟨active, skipping, context⟩ := walker
  obtain rfl : skipping = none := hn
  obtain ⟨owner, action, origin⟩ := i
  obtain rfl : action = .step name step := ha
  have he : context.extend outputs ⟨owner.host, name⟩ =
      .ok ⟨context.entries ++ outputs.setBy ⟨owner.host, name⟩⟩ :=
    Context.extend_eq_ok_iff.mpr ⟨hfree, rfl⟩
  rw [visit_step, perform]
  simp only [hr, settle, hc, he]
  rfl

/-- Any other instruction adds nothing to the context, and its events report nothing to be set. -/
theorem Course.adds_nothing (h : walker.Course i events move)
    (hc : ∀ name outputs, ¬ walker.Contributes i name outputs) :
    (∀ event ∈ events, event.outputs = []) ∧
      ∀ next, move = .on next → next.context = walker.context := by
  cases h with
  | bypassed | left | exited | entered =>
    constructor
    · simp [EventKind.outputs]
    · rintro next ⟨⟩
      rfl
  | refused => exact ⟨by simp [EventKind.outputs, abort], nofun⟩
  | answered hn ha hans =>
    cases hans with
    | failed | returned | broken => exact ⟨by simp [EventKind.outputs, abort], nofun⟩
    | passes hr hp =>
      cases hp with
      | success hchecked he =>
        have hfree := (Context.extend_eq_ok_iff.mp he).1
        exact absurd ⟨hn, _, ha, hr, hchecked, hfree⟩ (hc _ _)
      | nothing | skip =>
        constructor
        · simp [EventKind.outputs, EventKind.ofOutcome]
        · rintro next ⟨⟩
          rfl

theorem Answer.starts? {owner : Owner} {origin : Origin} {name : String} {step : Step}
    {event : EventKind} (h : walker.Answer owner origin name step event move) :
    event.starts? = none := by
  cases h with
  | passes _ hp => cases hp <;> rfl
  | _ => rfl

theorem nodup_names_of_visit (h : (walker.visit i).2 = .on next)
    (hd : walker.context.names.Nodup) : next.context.names.Nodup := by
  by_cases hc : ∃ name outputs, walker.Contributes i name outputs
  · obtain ⟨name, outputs, hc⟩ := hc
    obtain ⟨-, -, -, -, -, hfree⟩ := id hc
    rw [visit_of_contributes hc] at h
    obtain rfl := Move.on.inj h
    exact Context.nodup_names_of_extend (Context.extend_eq_ok_iff.mpr ⟨hfree, rfl⟩) hd
  · have hc' := walker.course_visit i |>.adds_nothing fun name outputs h => hc ⟨name, outputs, h⟩
    rw [hc'.2 next h]
    exact hd

end Walker

/-- The variables that a turn adds to the context: those that its step returned and its events
report to be set, or none. -/
inductive Turn.Sets (turn : Turn) : List Variable → Prop where
  | outputs {name : String} {outputs : Outputs} :
      turn.before.Contributes turn.instruction name outputs →
      turn.events = [.stepStarted name turn.instruction.owner.host turn.before.depth,
        .stepFinished name outputs.names turn.before.depth] →
      Sets turn (outputs.setBy ⟨turn.instruction.owner.host, name⟩)
  | nothing : (∀ name outputs, ¬ turn.before.Contributes turn.instruction name outputs) →
      (∀ event ∈ turn.events, event.outputs = []) → Sets turn []

namespace Turn

variable {turn : Turn} {added : List Variable}

theorem exists_sets (turn : Turn) : ∃ added, turn.Sets added ∧
    (∀ next, turn.move = .on next →
      next.context.entries = turn.before.context.entries ++ added) ∧
    ∀ verdict, turn.move = .halt verdict → added = [] := by
  by_cases hc : ∃ name outputs, turn.before.Contributes turn.instruction name outputs
  · obtain ⟨name, outputs, hc⟩ := hc
    have hv := Walker.visit_of_contributes hc
    refine ⟨_, .outputs hc (congrArg Prod.fst hv), ?_, ?_⟩
    · intro next hm
      obtain rfl := Move.on.inj ((congrArg Prod.snd hv).symm.trans hm)
      rfl
    · intro verdict hm
      cases (congrArg Prod.snd hv).symm.trans hm
  · have hc' : ∀ name outputs, ¬ turn.before.Contributes turn.instruction name outputs :=
      fun name outputs h => hc ⟨name, outputs, h⟩
    obtain ⟨he, hm⟩ := turn.course.adds_nothing hc'
    refine ⟨[], .nothing hc' he, ?_, fun _ _ => rfl⟩
    intro next hn
    rw [hm next hn, List.append_nil]

theorem Sets.settings (h : turn.Sets added) :
    added.map (fun v => (v.name, v.provenance)) = settings none turn.events := by
  cases h with
  | outputs _ he =>
    rw [he]
    simp [StoryEngine.settings, EventKind.settings, EventKind.starts?, EventKind.outputs,
      Bindings.setBy, Bindings.names]
  | nothing _ he => rw [settings_eq_nil he]; rfl

theorem Sets.names (h : turn.Sets added) :
    added.map Variable.name = turn.events.flatMap EventKind.outputs := by
  cases h with
  | outputs _ he =>
    rw [he]
    simp [EventKind.outputs, Bindings.setBy, Bindings.names]
  | nothing _ he => exact (List.flatMap_eq_nil_iff.mpr he).symm

/-- The events of a turn stand for themselves: none of them leaves a step without its answer. -/
theorem settings_append (turn : Turn) (rest : List EventKind) :
    settings none (turn.events ++ rest) = settings none turn.events ++ settings none rest := by
  have h := turn.course
  generalize turn.events = events at h
  generalize turn.move = move at h
  cases h with
  | answered _ _ hans => simp [settings, hans.starts?]
  | _ => simp [settings, EventKind.settings, EventKind.starts?, Walker.abort]

end Turn

namespace Walker

theorem exists_groups (walker : Walker) (is : List Instruction) :
    ∃ groups, List.Forall₂ Turn.Sets (walker.turns is) groups ∧
      (walk walker is).context.entries = walker.context.entries ++ groups.flatten := by
  induction walker, is using walk_induction with
  | nil => exact ⟨[], .nil, (List.append_nil _).symm⟩
  | on walker i events next rest hv ih =>
    obtain ⟨added, hs, hon, -⟩ := Turn.exists_sets ⟨walker, i⟩
    obtain ⟨groups, hg, he⟩ := ih
    rw [turns_cons_of_on hv, walk_cons_of_on hv]
    refine ⟨added :: groups, .cons hs hg, ?_⟩
    rw [List.flatten_cons, ← List.append_assoc, ← hon next (congrArg Prod.snd hv)]
    exact he
  | halt walker i events verdict rest hv =>
    obtain ⟨added, hs, -, hhalt⟩ := Turn.exists_sets ⟨walker, i⟩
    rw [turns_cons_of_halt hv, walk_cons_of_halt hv]
    refine ⟨[added], .cons hs .nil, ?_⟩
    rw [hhalt verdict (congrArg Prod.snd hv)]
    exact (List.append_nil _).symm

theorem nodup_names_walk {walker : Walker} (hd : walker.context.names.Nodup)
    (is : List Instruction) : (walk walker is).context.names.Nodup := by
  induction walker, is using walk_induction with
  | nil => exact hd
  | on walker i events next rest hv ih =>
    rw [walk_cons_of_on hv]
    exact ih (nodup_names_of_visit (congrArg Prod.snd hv) hd)
  | halt walker i events verdict rest hv =>
    rw [walk_cons_of_halt hv]
    exact hd

end Walker

section Record

variable {turns : List Turn} {groups : List (List Variable)}

theorem settings_turns (h : List.Forall₂ Turn.Sets turns groups) (rest : List EventKind) :
    settings none (turns.flatMap Turn.events ++ rest) =
      groups.flatten.map (fun v => (v.name, v.provenance)) ++ settings none rest := by
  induction h with
  | nil => rfl
  | cons hs _ ih =>
    rw [List.flatMap_cons, List.append_assoc, Turn.settings_append, ih, List.flatten_cons,
      List.map_append, hs.settings, List.append_assoc]

theorem names_turns (h : List.Forall₂ Turn.Sets turns groups) :
    groups.flatten.map Variable.name =
      (turns.flatMap Turn.events).flatMap EventKind.outputs := by
  induction h with
  | nil => rfl
  | cons hs _ ih =>
    rw [List.flatten_cons, List.map_append, hs.names, ih, List.flatMap_cons, List.flatMap_append]

end Record

/-- How the context of an execution comes about, and how its record tells of it. -/
structure Execution.Explained (execution : Execution) (story : Story) (arguments : Arguments) :
    Prop where
  /-- Arguments that are refused leave nothing behind. -/
  refused : ∀ error, story.root.opening arguments = .error error →
    execution.context = .empty ∧ execution.kinds.flatMap EventKind.outputs = []
  /-- The arguments come first, in declared order. They come as they were bound, unless values in
  the places of a repeated parameter were bound to one name. -/
  supplied : ∀ initial, story.root.opening arguments = .ok initial → ∃ bound,
    arguments.bind story.label story.arguments = .ok bound ∧
      initial.names = story.arguments.eraseDups ∧
      (∀ v ∈ initial.entries, v.provenance = .argument ∧ (v.name, v.value) ∈ bound) ∧
      (arguments.positional = [] ∨ story.arguments.Nodup →
        initial.entries = bound.map fun (name, value) => ⟨name, value, .argument⟩)
  /-- Then come the variables that the turns of the run set, in order. -/
  outputs : ∀ initial, story.root.opening arguments = .ok initial →
    ∃ groups, List.Forall₂ Turn.Sets (story.turns arguments) groups ∧
      execution.context.entries = initial.entries ++ groups.flatten
  /-- These are the names that the record reports, set by the steps that it reports. -/
  recorded : ∀ initial, story.root.opening arguments = .ok initial →
    execution.context.names = initial.names ++ execution.kinds.flatMap EventKind.outputs ∧
      execution.context.entries.map (fun v => (v.name, v.provenance)) =
        initial.names.map (fun name => (name, .argument)) ++ settings none execution.kinds
  distinct : execution.context.names.Nodup
  /-- The contexts on the way only grow. -/
  grows : ∀ j k earlier later, j ≤ k → k ≤ story.trace.size → story.Reaches arguments j earlier →
    story.Reaches arguments k later → earlier.context.entries <+: later.context.entries ∧
      later.context.entries <+: execution.context.entries
  /-- An instruction that is not a step whose outputs are all fit to be set sets none of them. -/
  silent : ∀ k walker i, story.Reaches arguments k walker →
    story.trace.instructions[k]? = some i →
    (∀ name outputs, ¬ walker.Contributes i name outputs) →
    (∀ next, story.Reaches arguments (k + 1) next → next.context = walker.context) ∧
      ∀ verdict, (walker.visit i).2 = .halt verdict → execution.context = walker.context

namespace Story

variable {story : Story} {arguments : Arguments} {initial : Context}

section Opening

variable (ho : story.root.opening arguments = .ok initial)

include ho

theorem exists_groups : ∃ groups, List.Forall₂ Turn.Sets (story.turns arguments) groups ∧
    (story.perform arguments).context.entries = initial.entries ++ groups.flatten := by
  rw [turns_of_opening ho, perform_of_opening ho]
  exact Walker.exists_groups _ _

theorem supplied_of_opening : ∃ bound,
    arguments.bind story.label story.arguments = .ok bound ∧
      initial.names = story.arguments.eraseDups ∧
      (∀ v ∈ initial.entries, v.provenance = .argument ∧ (v.name, v.value) ∈ bound) ∧
      (arguments.positional = [] ∨ story.arguments.Nodup →
        initial.entries = bound.map fun (name, value) => ⟨name, value, .argument⟩) := by
  obtain ⟨bound, hb, -, rfl⟩ := Origin.opening_eq_ok ho
  have ha := (Arguments.bind_eq_iff _ _).mp hb
  exact ⟨bound, hb, Context.names_of_bind hb, fun v hv => Context.of_mem_ofArguments hv,
    fun hone => Context.entries_ofArguments (ha.nodup_iff.mpr hone)⟩

theorem recorded_perform :
    (story.perform arguments).context.names =
        initial.names ++ (story.perform arguments).events.flatMap EventKind.outputs ∧
      (story.perform arguments).context.entries.map (fun v => (v.name, v.provenance)) =
        initial.names.map (fun name => (name, .argument)) ++
          settings none (story.perform arguments).events := by
  obtain ⟨groups, hg, he⟩ := exists_groups ho
  obtain ⟨bound, -, -, hp, -⟩ := supplied_of_opening ho
  rw [events_of_opening ho, Context.names, he]
  constructor
  · rw [List.map_append, names_turns hg, List.cons_append, List.flatMap_cons, List.flatMap_append]
    simp [EventKind.outputs, Context.names]
  · have hf : initial.entries.map (fun v => (v.name, v.provenance)) =
        initial.names.map (fun name => (name, .argument)) := by
      rw [Context.names, List.map_map]
      exact List.map_congr_left fun v hv => congrArg (v.name, ·) (hp v hv).1
    have hs : settings none (.storyStarted story.label story.fingerprint ::
        (story.turns arguments).flatMap Turn.events ++
          [.storyFinished (story.perform arguments).verdict.status]) =
        groups.flatten.map (fun v => (v.name, v.provenance)) :=
      (settings_turns hg _).trans (List.append_nil _)
    rw [List.map_append, hf, hs]

theorem nodup_names_perform : (story.perform arguments).context.names.Nodup := by
  obtain ⟨bound, -, -, rfl⟩ := Origin.opening_eq_ok ho
  rw [perform_of_opening ho]
  exact Walker.nodup_names_walk (Context.nodup_names_ofArguments bound) _

end Opening

theorem Reaches.prefix_perform {k : Nat} {walker : Walker}
    (h : story.Reaches arguments k walker) :
    walker.context.entries <+: (story.perform arguments).context.entries := by
  obtain ⟨events, hp⟩ := h.perform
  obtain ⟨groups, -, he⟩ := walker.exists_groups (story.trace.instructions.drop k)
  refine ⟨groups.flatten, ?_⟩
  rw [hp]
  exact he.symm

theorem Reaches.silent {k : Nat} {walker : Walker} {i : Instruction}
    (h : story.Reaches arguments k walker) (hi : story.trace.instructions[k]? = some i)
    (hc : ∀ name outputs, ¬ walker.Contributes i name outputs) :
    (∀ next, story.Reaches arguments (k + 1) next → next.context = walker.context) ∧
      ∀ verdict, (walker.visit i).2 = .halt verdict →
        (story.perform arguments).context = walker.context := by
  constructor
  · rintro next ⟨context, ho, hn⟩
    obtain ⟨walker', hw, hv⟩ := (Trace.walkerAt_succ hi).mp hn
    obtain rfl := Option.some.inj ((h.walkerAt ho).symm.trans hw)
    exact ((walker.course_visit i).adds_nothing hc).2 next hv
  · intro verdict hv
    obtain ⟨events, hp⟩ := h.perform
    obtain ⟨hk, hg⟩ := List.getElem?_eq_some_iff.mp hi
    rw [hp, List.drop_eq_getElem_cons hk, hg, walk_cons_of_halt (Prod.ext rfl hv)]
    rfl

/-- The context of every call is explained by its arguments and its record. -/
theorem explained_execute (occasion : Occasion) :
    (story.execute occasion arguments).Explained story arguments := by
  have hk := story.kinds_execute arguments occasion
  have hc : (story.execute occasion arguments).context = (story.perform arguments).context := rfl
  constructor
  case refused =>
    intro error he
    rw [hc, hk, perform_of_refused he]
    exact ⟨rfl, rfl⟩
  case supplied => exact fun initial ho => supplied_of_opening ho
  case outputs => exact fun initial ho => exists_groups ho
  case recorded =>
    intro initial ho
    rw [hc, hk]
    exact recorded_perform ho
  case distinct =>
    cases ho : story.root.opening arguments with
    | error error =>
      rw [hc, perform_of_refused ho]
      exact List.nodup_nil
    | ok initial => exact nodup_names_perform ho
  case grows =>
    intro j k earlier later hjk hs hj hk
    exact ⟨hj.prefix_of_le hk hjk hs, hk.prefix_perform⟩
  case silent => exact fun k walker i h hi hc => h.silent hi hc

end Story

namespace Demo

def misorder : Arguments := .ofKeyword [("item", .string "tea"), ("quantity", .string "three")]

def repetitive : Story where
  owner := ⟨"H", 0⟩
  declaration := { name := "s", arguments := ["a", "a"] }
  scenes := []

def pair : Arguments := .ofPositional [.int 1, .int 2]

/-- Bound arguments are not always in the context: those that the contract refuses leave it empty,
and of two values for one name only the last is kept. -/
theorem bound_not_prefix :
    (∃ bound, misorder.bind smallShop.label smallShop.arguments = .ok bound ∧
      ¬ bound <+: (smallShop.execute occasion misorder).context.entries.map Variable.pair) ∧
    ∃ bound, pair.bind repetitive.label repetitive.arguments = .ok bound ∧
      ¬ bound <+: (repetitive.execute occasion pair).context.entries.map Variable.pair := by
  constructor
  · obtain ⟨error, he⟩ : ∃ error, smallShop.root.opening misorder = .error error := ⟨_, rfl⟩
    refine ⟨_, rfl, fun hp => ?_⟩
    have hc : (smallShop.execute occasion misorder).context = .empty :=
      congrArg Run.context (Story.perform_of_refused he)
    rw [hc] at hp
    cases List.prefix_nil.mp hp
  · refine ⟨_, rfl, fun hp => ?_⟩
    exact absurd hp.length_le (by decide)

end Demo

end StoryEngine
