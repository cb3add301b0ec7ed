import StoryEngine.Presenter.Render
import StoryEngine.Proofs.Demo.Shop
import StoryEngine.Proofs.Run.Coverage
import StoryEngine.Proofs.Run.Stack

/-! # What a presented run lists

The presenter only reads events: it opens a line or leaves a note on the line that it opened last.
Over the record of an execution this gives each instruction that was carried out, apart from the
exits, a line of its own, and what the instruction came to is noted on that line.
-/

namespace StoryEngine

open Presenter (Config pad)

inductive Note where
  | failed (reason : Option String)
  | skipped
  | returned (value : Value)
  | errored (kind : String)

namespace Note

def text : Note → String
  | .failed (some reason) => " (failed: " ++ Text.quoted reason ++ ")"
  | .failed none => " (failed)"
  | .skipped => " (skipped)"
  | .returned value => " (returned: " ++ value.text ++ ")"
  | .errored kind => " (errored: " ++ kind ++ ")"

def suffix (note : Option Note) : String := (note.map text).getD ""

theorem length_text_pos (note : Note) : 0 < note.text.length := by
  have hb : 0 < ")".length := by decide
  match note with
  | .failed none | .skipped => decide
  | .failed (some _) | .returned _ | .errored _ =>
    rw [text, String.length_append]
    exact Nat.add_pos_right _ hb

end Note

/-- How an instruction is shown at a depth, if it is: a step under its name, an entered story
under the name that the body gives it, with its label besides if it is injected. -/
def Instruction.heading? (instruction : Instruction) (config : Config) (depth : Nat) :
    Option String :=
  match instruction.action with
  | .step name _ => some (pad config depth ++ name)
  | .enter story title injected =>
    some (pad config depth ++ title ++ if injected then " (" ++ story.label ++ ")" else "")
  | .exit _ => none

theorem Instruction.isSome_heading? {instruction : Instruction} {config : Config} {depth : Nat} :
    (instruction.heading? config depth).isSome ↔ instruction.exited? = none := by
  obtain ⟨owner, action, origin⟩ := instruction
  cases action <;> simp [heading?, exited?]

namespace Walker

def note? (walker : Walker) : Move → Option Note
  | .halt (.ok (.failed failure)) => some (.failed failure.reason)
  | .halt (.ok (.returned value)) => some (.returned value)
  | .halt (.ok .completed) => none
  | .halt (.error error) => some (.errored error.kind)
  | .on next =>
    if walker.skipping.isNone && next.skipping.isSome then some .skipped else none

/-- The line of a visit, which an instruction has that is carried out and is no exit. -/
def line? (walker : Walker) (config : Config) (instruction : Instruction) (move : Move) :
    Option String :=
  if walker.skipping.isSome then none
  else (instruction.heading? config walker.depth).map fun heading =>
    heading ++ Note.suffix (walker.note? move)

variable {walker : Walker} {i : Instruction} {config : Config} {move : Move}

theorem note?_on (h : walker.skipping = none) (active : List Origin) (context : Context) :
    walker.note? (.on { walker with active, context }) = none := by
  simp [note?, h]

theorem line?_of_skipping {level : Nat} (h : walker.skipping = some level) :
    walker.line? config i move = none := by
  simp [line?, h]

theorem line?_of_carriesOut (h : walker.skipping = none) :
    walker.line? config i move = (i.heading? config walker.depth).map fun heading =>
      heading ++ Note.suffix (walker.note? move) := by
  simp [line?, h]

theorem isSome_line? : (walker.line? config i move).isSome ↔
    walker.CarriesOut i ∧ i.exited? = none := by
  rw [carriesOut_iff]
  cases hs : walker.skipping with
  | some level => simp [line?_of_skipping hs]
  | none =>
    rw [line?_of_carriesOut hs, Option.isSome_map, Instruction.isSome_heading?]
    exact (and_iff_right rfl).symm

/-- The events of an answer after the first one leave their note on the line of the step. -/
theorem Answer.addEvent {owner : Owner} {origin : Origin} {name : String} {step : Step}
    {event : EventKind} (hn : walker.skipping = none)
    (h : walker.Answer owner origin name step event move) (line : String) (above : List String) :
    Presenter.addEvent config (line :: above) event =
      (line ++ Note.suffix (walker.note? move)) :: above := by
  cases h with
  | failed =>
    rename_i reason _
    cases reason <;> rfl
  | returned | broken => rfl
  | passes _ hp =>
    cases hp with
    | skip =>
      have ha : walker.note? (.on { walker with skipping := some walker.depth }) =
          some .skipped := by simp [note?, hn]
      rw [ha]
      rfl
    | nothing | success =>
      rw [note?_on hn]
      exact congrArg (· :: above) String.append_empty.symm

theorem Course.carriesOut_of_halt {events : List EventKind} {verdict : Verdict}
    (h : walker.Course i events (.halt verdict)) : walker.CarriesOut i := by
  cases h with
  | refused hs | answered hs => exact carriesOut_iff.mpr hs

/-- The events of a visit open its line, if it has one, and leave the lines above as they are. -/
theorem Course.addEvents {events : List EventKind} (h : walker.Course i events move)
    (above : List String) :
    events.foldl (Presenter.addEvent config) above =
      (walker.line? config i move).toList ++ above := by
  obtain ⟨owner, action, origin⟩ := i
  cases h with
  | bypassed hs | left hs =>
    rw [line?_of_skipping hs]
    rfl
  | exited hs ha =>
    subst ha
    rw [line?_of_carriesOut hs]
    rfl
  | entered hs ha =>
    subst ha
    rw [line?_of_carriesOut hs, note?_on hs]
    exact congrArg (· :: above) String.append_empty.symm
  | refused hs ha =>
    subst ha
    rw [line?_of_carriesOut hs]
    rfl
  | answered hs ha hans =>
    subst ha
    rw [line?_of_carriesOut hs]
    exact hans.addEvent hs _ above

end Walker

namespace Turn

variable (config : Config) (turn : Turn)

def note? : Option Note := turn.before.note? turn.move

def line? : Option String := turn.before.line? config turn.instruction turn.move

/-- What a turn came to, where that ends the run or leaves the rest of a story out. -/
inductive Notes (turn : Turn) : Note → Prop where
  | skipped : turn.before.Skips turn.instruction → Notes turn .skipped
  | failed {failure : Failure} : turn.move = .halt (.ok (.failed failure)) →
      Notes turn (.failed failure.reason)
  | returned {value : Value} : turn.move = .halt (.ok (.returned value)) →
      Notes turn (.returned value)
  | errored {error : StoryError} : turn.move = .halt (.error error) →
      Notes turn (.errored error.kind)

theorem note?_of_skips (h : turn.before.Skips turn.instruction) :
    turn.note? = some .skipped := by
  have hn : turn.before.skipping = none := Walker.carriesOut_iff.mp h.1
  rw [note?, move, Walker.visit_of_skips h, Walker.note?, hn]
  rfl

theorem note?_eq_some_iff {note : Note} :
    turn.note? = some note ↔ turn.Notes note := by
  constructor
  · intro h
    rw [note?] at h
    cases hm : turn.move with
    | halt verdict =>
      rw [hm] at h
      match verdict with
      | .ok (.failed _) | .ok (.returned _) | .error _ =>
        cases h
        constructor
        exact hm
    | on next =>
      rw [hm, Walker.note?] at h
      split at h
      case isFalse => cases h
      case isTrue hs =>
        cases h
        rw [Bool.and_eq_true, Option.isNone_iff_eq_none] at hs
        rcases Walker.skipping_of_visit hs.1 hm with ⟨hk, -⟩ | ⟨-, hn⟩
        · exact .skipped hk
        · simp [hn] at hs
  · intro h
    cases h with
    | skipped hk => exact turn.note?_of_skips hk
    | failed hm | returned hm | errored hm => rw [note?, hm, Walker.note?]

theorem isSome_line?_of_note? (h : turn.note?.isSome) :
    (turn.line? config).isSome := by
  rw [line?, Walker.isSome_line?]
  obtain ⟨note, ha⟩ := Option.isSome_iff_exists.mp h
  have hhalt {verdict : Verdict} (hm : turn.move = .halt verdict) :
      turn.before.CarriesOut turn.instruction ∧ turn.instruction.exited? = none := by
    have hc := hm ▸ turn.course
    exact ⟨hc.carriesOut_of_halt, hc.not_exited_of_halt⟩
  cases turn.note?_eq_some_iff.mp ha with
  | skipped hk =>
    obtain ⟨hc, name, step, hs, -⟩ := hk
    exact ⟨hc, by rw [Instruction.exited?, hs]⟩
  | failed hm | returned hm | errored hm => exact hhalt hm

theorem addEvents (above : List String) :
    turn.events.foldl (Presenter.addEvent config) above = (turn.line? config).toList ++ above :=
  turn.course.addEvents above

end Turn

namespace Presenter

variable (config : Config)

theorem addEvents_turns (turns : List Turn) (above : List String) :
    (turns.flatMap Turn.events).foldl (addEvent config) above =
      (turns.filterMap (Turn.line? config)).reverse ++ above := by
  induction turns generalizing above with
  | nil => rfl
  | cons turn turns ih =>
    rw [List.flatMap_cons, List.foldl_append, turn.addEvents, ih]
    cases hl : turn.line? config <;> simp [hl]

end Presenter

namespace Story

variable (config : Config) (story : Story) (arguments : Arguments)

/-- The first line of a presented call: the label, and the error if the arguments are refused. -/
def caption : String :=
  story.label ++ Note.suffix
    (match story.root.opening arguments with
      | .ok _ => none
      | .error error => some (.errored (StoryError.contract error).kind))

/-- The lines of a presented call: below the caption those of its turns. -/
def listing : List String :=
  story.caption arguments :: (story.turns arguments).filterMap (Turn.line? config)

theorem lines_perform :
    Presenter.lines config story.label (story.perform arguments).events =
      story.listing config arguments := by
  unfold listing caption
  cases ho : story.root.opening arguments with
  | error error =>
    rw [perform_of_refused ho, turns_of_refused ho]
    rfl
  | ok context =>
    have hopen : Presenter.addEvent config [story.label]
        (.storyStarted story.label story.fingerprint) = [story.label] := rfl
    have hclose (lines : List String) (status : RunStatus) :
        [EventKind.storyFinished status].foldl (Presenter.addEvent config) lines = lines := rfl
    rw [events_of_opening ho, Presenter.lines, List.cons_append, List.foldl_cons, hopen,
      List.foldl_append, Presenter.addEvents_turns, hclose, List.reverse_append,
      List.reverse_reverse]
    exact congrArg (· :: _) String.append_empty.symm

example : Presenter.lines {} Demo.smallShop.label (Demo.smallShop.perform Demo.order).events =
    ["Shop.purchase", "  price", "  reserve (Inventory.reserve)", "    check_stock", "    hold",
      "  discount", "    bulk_only (skipped)",
      "  receipt (returned: \x7b\"item\":\"tea\",\"total\":15\x7d)"] := by rfl

theorem caption_ne_label : story.caption arguments ≠ story.label ↔
    ∃ error, story.root.opening arguments = .error error := by
  unfold caption
  cases ho : story.root.opening arguments with
  | ok context =>
    refine iff_of_false (fun h => h String.append_empty) nofun
  | error error =>
    refine iff_of_true (fun h => ?_) ⟨error, rfl⟩
    have hl := congrArg String.length h
    have hp := (Note.errored (StoryError.contract error).kind).length_text_pos
    rw [String.length_append] at hl
    exact absurd (Nat.left_eq_add.mp hl.symm) (Nat.ne_of_gt hp)

end Story

/-- The lines of a presented execution tell what was carried out, and what it came to. -/
structure Execution.Listed (execution : Execution) (config : Config) (story : Story)
    (arguments : Arguments) : Prop where
  render : Presenter.render config execution =
    "\n".intercalate (story.listing config arguments) ++ "\n\n" ++
      Presenter.renderContext config execution.context
  lines : Presenter.lines config execution.story execution.kinds = story.listing config arguments
  refused : story.caption arguments ≠ story.label ↔
    ∃ error, story.root.opening arguments = .error error
  /-- The turns go through the trace in order, as far as the run gets. -/
  ordered : (story.turns arguments).map Turn.instruction <+: story.trace.instructions
  completed : execution.verdict = .ok .completed →
    (story.turns arguments).map Turn.instruction = story.trace.instructions
  ended : ∀ context, story.root.opening arguments = .ok context →
    execution.verdict ≠ .ok .completed → ∃ turn,
      (story.turns arguments).getLast? = some turn ∧ turn.move = .halt execution.verdict
  last : ∀ k turn verdict, (story.turns arguments)[k]? = some turn → turn.move = .halt verdict →
    k + 1 = (story.turns arguments).length ∧ verdict = execution.verdict
  depth : ∀ k turn, (story.turns arguments)[k]? = some turn →
    turn.before.depth = story.trace.nesting k + 1
  /-- A turn has a line if its instruction is carried out and is no exit. -/
  shown : ∀ turn ∈ story.turns arguments, (turn.line? config).isSome ↔
    turn.before.CarriesOut turn.instruction ∧ turn.instruction.exited? = none
  /-- The note on a line tells what this very turn came to, and no note is lost. -/
  annotated : ∀ turn ∈ story.turns arguments, ∀ note,
    (turn.note? = some note ↔ turn.Notes note) ∧
      (turn.Notes note → (turn.line? config).isSome)

namespace Story

variable {story : Story} {arguments : Arguments} (occasion : Occasion)

theorem eq_last_of_halt {k : Nat} {turn : Turn} {verdict : Verdict}
    (ht : (story.turns arguments)[k]? = some turn) (hm : turn.move = .halt verdict) :
    k + 1 = (story.turns arguments).length ∧
      verdict = (story.execute occasion arguments).verdict := by
  obtain ⟨hr, hi⟩ := getElem?_turns.mp ht
  constructor
  · refine Nat.le_antisymm (List.getElem?_eq_some_iff.mp ht).1 (Nat.not_lt.mp fun hlt => ?_)
    obtain ⟨hnext, -⟩ := getElem?_turns.mp (List.getElem?_eq_getElem hlt)
    exact Nat.not_succ_le_self k (hr.le_of_halt hi hm hnext)
  · have hv : turn.before.visit turn.instruction = (turn.events, .halt verdict) :=
      Prod.ext rfl hm
    exact (hr.verdict_of_visit hi hv occasion).symm

/-- Every execution is presented line by line as it went. -/
theorem listed_execute (config : Config) :
    (story.execute occasion arguments).Listed config story arguments := by
  have hl : Presenter.lines config (story.execute occasion arguments).story
      (story.execute occasion arguments).kinds = story.listing config arguments := by
    rw [kinds_execute]
    exact story.lines_perform config arguments
  constructor
  case render => rw [Presenter.render, hl]
  case lines => exact hl
  case refused => exact story.caption_ne_label arguments
  case ordered => exact story.turns_prefix arguments
  case completed => exact instructions_of_completed
  case ended =>
    intro context ho hv
    rcases perform_cases ho with ⟨hc, -⟩ | ⟨turns, turn, ht, hm, -⟩
    · exact absurd hc hv
    · exact ⟨turn, by rw [ht, List.getLast?_concat], hm⟩
  case last => exact fun k turn verdict => eq_last_of_halt occasion
  case depth =>
    intro k turn ht
    obtain ⟨⟨context, -, hw⟩, hi⟩ := getElem?_turns.mp ht
    exact story.nested_trace.depth_eq hw (Nat.le_of_lt (Trace.lt_size_of_getElem? hi))
  case shown => exact fun turn _ => Walker.isSome_line?
  case annotated =>
    intro turn _ note
    have hn := @Turn.note?_eq_some_iff turn note
    refine ⟨hn, fun h => turn.isSome_line?_of_note? config ?_⟩
    rw [hn.mpr h]
    rfl

end Story

end StoryEngine
