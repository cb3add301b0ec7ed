import StoryEngine.Proofs.Run.Course
import StoryEngine.Proofs.Run.Entry
import StoryEngine.Proofs.Run.Evaluation

/-! # Turns of a run

A run as the list of its turns: the instructions that it gets to, each with the state in which it
does. The events of the run are those of its turns, and it gets to the instructions of the trace
one after the other until a turn ends it or none is left.
-/

namespace StoryEngine

/-- An instruction that a walk gets to, and the state in which it does. -/
structure Turn where
  before : Walker
  instruction : Instruction

namespace Turn

variable (turn : Turn)

def events : List EventKind := (turn.before.visit turn.instruction).1

def move : Move := (turn.before.visit turn.instruction).2

theorem course : turn.before.Course turn.instruction turn.events turn.move :=
  turn.before.course_visit turn.instruction

end Turn

namespace Walker

def turns (walker : Walker) : List Instruction → List Turn
  | [] => []
  | instruction :: rest => ⟨walker, instruction⟩ ::
    match (walker.visit instruction).2 with
    | .on next => next.turns rest
    | .halt _ => []

variable {walker next : Walker} {instruction : Instruction} {events : List EventKind}

theorem turns_cons_of_on (h : walker.visit instruction = (events, .on next))
    (rest : List Instruction) :
    walker.turns (instruction :: rest) = ⟨walker, instruction⟩ :: next.turns rest := by
  rw [turns, h]

theorem turns_cons_of_halt {verdict : Verdict}
    (h : walker.visit instruction = (events, .halt verdict)) (rest : List Instruction) :
    walker.turns (instruction :: rest) = [⟨walker, instruction⟩] := by
  rw [turns, h]

theorem events_walk (walker : Walker) (is : List Instruction) :
    (walk walker is).events = (walker.turns is).flatMap Turn.events := by
  induction walker, is using walk_induction with
  | nil => rfl
  | on walker i events next rest hv ih =>
    rw [walk_cons_of_on hv, turns_cons_of_on hv, List.flatMap_cons, ← ih, Turn.events, hv]
    rfl
  | halt walker i events verdict rest hv =>
    rw [walk_cons_of_halt hv, turns_cons_of_halt hv, List.flatMap_singleton, Turn.events, hv]

/-- A walk either comes to the end of its instructions, or its last turn ends it. -/
theorem walk_cases (walker : Walker) (is : List Instruction) :
    ((walk walker is).verdict = .ok .completed ∧ (walker.turns is).map Turn.instruction = is) ∨
      ∃ turns turn, walker.turns is = turns ++ [turn] ∧
        turn.move = .halt (walk walker is).verdict ∧
        (walk walker is).context = turn.before.context := by
  induction walker, is using walk_induction with
  | nil => exact Or.inl ⟨rfl, rfl⟩
  | on walker i events next rest hv ih =>
    rw [walk_cons_of_on hv, turns_cons_of_on hv]
    rcases ih with ⟨hc, hi⟩ | ⟨turns, turn, ht, hh, hc⟩
    · exact Or.inl ⟨hc, by rw [List.map_cons, hi]⟩
    · exact Or.inr ⟨_ :: turns, turn, by rw [ht]; rfl, hh, hc⟩
  | halt walker i events verdict rest hv =>
    rw [walk_cons_of_halt hv, turns_cons_of_halt hv]
    exact Or.inr ⟨[], _, rfl, congrArg Prod.snd hv, rfl⟩

theorem getElem?_turns {is : List Instruction} {k : Nat} {turn : Turn} :
    (walker.turns is)[k]? = some turn ↔
      walker.advance (is.take k) = some turn.before ∧ is[k]? = some turn.instruction := by
  obtain ⟨before, instruction⟩ := turn
  induction is generalizing walker k with
  | nil => simp [turns]
  | cons i is ih =>
    cases k with
    | zero => simp [turns, advance]
    | succ k =>
      rw [List.take_succ_cons, advance, List.getElem?_cons_succ]
      cases hv : walker.visit i with
      | mk events move =>
        cases move with
        | on next => rw [turns_cons_of_on hv, List.getElem?_cons_succ, ih]
        | halt verdict => simp [turns_cons_of_halt hv]

end Walker

namespace Story

variable (story : Story) (arguments : Arguments)

/-- The turns of a call; there are none if its arguments are refused. -/
def turns : List Turn :=
  match story.root.opening arguments with
  | .ok context => (Walker.start story.root context).turns story.trace.instructions
  | .error _ => []

theorem kinds_execute (occasion : Occasion) :
    (story.execute occasion arguments).kinds = (story.perform arguments).events :=
  occasion.map_kind_stamp _

variable {story arguments} {k : Nat} {walker : Walker} {i : Instruction}

theorem getElem?_turns : (story.turns arguments)[k]? = some ⟨walker, i⟩ ↔
    story.Reaches arguments k walker ∧ story.trace.instructions[k]? = some i := by
  unfold turns Reaches
  cases story.root.opening arguments with
  | error error => simp
  | ok context =>
    simp only [Walker.getElem?_turns, Except.ok.injEq, exists_eq_left']
    rfl

section Opening

variable {context : Context} (ho : story.root.opening arguments = .ok context)

include ho

theorem perform_of_opening : story.perform arguments =
    (walk (.start story.root context) story.trace.instructions).framed story.label
      story.fingerprint := by
  have hr : story.trace.root = story.root := rfl
  rw [perform, Trace.perform, hr, ho]
  rfl

theorem turns_of_opening :
    story.turns arguments = (Walker.start story.root context).turns story.trace.instructions := by
  rw [turns, ho]

theorem events_of_opening : (story.perform arguments).events =
    .storyStarted story.label story.fingerprint ::
      (story.turns arguments).flatMap Turn.events ++
        [.storyFinished (story.perform arguments).verdict.status] := by
  rw [perform_of_opening ho, turns_of_opening ho, ← Walker.events_walk]
  rfl

theorem perform_cases :
    ((story.perform arguments).verdict = .ok .completed ∧
        (story.turns arguments).map Turn.instruction = story.trace.instructions) ∨
      ∃ turns turn, story.turns arguments = turns ++ [turn] ∧
        turn.move = .halt (story.perform arguments).verdict ∧
        (story.perform arguments).context = turn.before.context := by
  rw [perform_of_opening ho, turns_of_opening ho]
  exact Walker.walk_cases _ _

end Opening

theorem perform_of_refused {error : ContractError}
    (he : story.root.opening arguments = .error error) :
    story.perform arguments = (Run.rejected error).framed story.label story.fingerprint := by
  have hr : story.trace.root = story.root := rfl
  rw [perform, Trace.perform, hr, he]
  rfl

theorem turns_of_refused {error : ContractError}
    (he : story.root.opening arguments = .error error) : story.turns arguments = [] := by
  rw [turns, he]

end Story

end StoryEngine
