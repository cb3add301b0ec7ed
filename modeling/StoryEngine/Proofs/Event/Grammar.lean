import StoryEngine.Event.Basic

/-! # The grammar of records

Which event may follow which in the record of a run, and how the depths of the events nest. A
reader who goes through a record event by event needs to know the last event and the stories whose
bodies are open; the grammar is read off what is allowed at each place.
-/

namespace StoryEngine

namespace EventKind

/-- The event answers a step of the name that was started at the depth. -/
def Answers (step : String) (depth : Nat) : EventKind → Prop
  | .stepFinished s _ d | .stepFailed s _ d | .stepSkipped s d | .stepReturned s _ d =>
    s = step ∧ d = depth
  | .errored _ _ d => d = depth
  | _ => False

def Ends : EventKind → Prop
  | .stepFailed .. | .stepReturned .. | .errored .. => True
  | _ => False

/-- Whatever follows the event is the next instruction, if there is one. -/
def Continues : EventKind → Prop
  | .storyStarted .. | .substoryEntered .. | .stepFinished .. | .stepSkipped ..
  | .instructionBypassed .. | .substoryExited .. => True
  | _ => False

/-- The event stands in a region that a step skipped, or opens one. -/
def Skips : EventKind → Prop
  | .stepSkipped .. | .instructionBypassed .. => True
  | _ => False

def depthAfter (depth : Nat) : EventKind → Nat
  | .substoryEntered .. => depth + 1
  | .substoryExited .. | .stepSkipped .. => depth - 1
  | _ => depth

/-- The labels of the open stories after the event, the innermost first. -/
def nest (stories : List String) : EventKind → List String
  | .substoryEntered _ story _ _ => story :: stories
  | .substoryExited .. | .stepSkipped .. => stories.tail
  | _ => stories

theorem length_nest (stories : List String) (event : EventKind) :
    (event.nest stories).length = event.depthAfter stories.length := by
  cases event <;> simp [nest, depthAfter]

theorem suffix_nest {stories outer : List String} {event : EventKind} (h : outer <:+ stories)
    (hl : outer.length ≤ (event.nest stories).length) : outer <:+ event.nest stories := by
  cases event with
  | substoryEntered => exact h.trans (List.suffix_cons _ _)
  | substoryExited | stepSkipped =>
    exact List.suffix_of_suffix_length_le h (List.tail_suffix _) hl
  | _ => exact h

theorem Skips.continues {event : EventKind} (h : event.Skips) : event.Continues := by
  cases event with
  | stepSkipped | instructionBypassed => trivial
  | _ => exact h.elim

theorem Ends.not_continues {event : EventKind} (h : event.Ends) : ¬ event.Continues := by
  cases event with
  | stepFailed | stepReturned | errored => exact id
  | _ => exact h.elim

end EventKind

namespace Record

variable {record : List EventKind} {status : RunStatus}

/-- The depth at which a record stands before its event at `k`. It starts at one. -/
def depthAt (record : List EventKind) (k : Nat) : Nat :=
  (record.take k).foldl EventKind.depthAfter 1

/-- The event at `j` is the first to bring the depth back to what it was before the one at `i`. -/
def Closes (record : List EventKind) (i j : Nat) : Prop :=
  i < j ∧ depthAt record (j + 1) = depthAt record i ∧
    ∀ m, i < m → m ≤ j → depthAt record i < depthAt record m

theorem Closes.unique {i j j' : Nat} (h : Closes record i j) (h' : Closes record i j') :
    j = j' := by
  rcases Nat.lt_trichotomy j j' with hlt | rfl | hlt
  · have := h'.2.2 (j + 1) (Nat.lt_succ_of_lt h.1) hlt
    have := h.2.1
    omega
  · rfl
  · have := h.2.2 (j' + 1) (Nat.lt_succ_of_lt h'.1) hlt
    have := h'.2.1
    omega

/-- How the events of a record follow one another and how they nest. -/
structure Grammatical (record : List EventKind) (status : RunStatus) : Prop where
  opened : (∃ story fingerprint, record[0]? = some (.storyStarted story fingerprint)) ∧
    ∀ k story fingerprint, record[k]? = some (.storyStarted story fingerprint) → k = 0
  closed : ∀ k s, record[k]? = some (.storyFinished s) ↔ k + 1 = record.length ∧ s = status
  answered : ∀ k step host depth, record[k]? = some (.stepStarted step host depth) →
    ∃ event, record[k + 1]? = some event ∧ event.Answers step depth
  /-- An answer stands nowhere else, but an error also behind an entry or at the opening. -/
  answers : ∀ k event, record[k]? = some event → (∃ step depth, event.Answers step depth) →
    ∃ j, k = j + 1 ∧
      ((∃ step host depth, record[j]? = some (.stepStarted step host depth) ∧
          event.Answers step depth) ∨
        ∃ kind message depth, event = .errored kind message depth ∧
          ((∃ name story injected,
              record[j]? = some (.substoryEntered name story injected depth)) ∨
            (∃ story fingerprint, record[j]? = some (.storyStarted story fingerprint)) ∧
              depth = 0))
  ends : ∀ k event, record[k]? = some event → event.Ends →
    record[k + 1]? = some (.storyFinished status)
  started : ∀ k step host depth, record[k]? = some (.stepStarted step host depth) →
    depthAt record k = depth ∧ depthAt record (k + 1) = depth
  entered : ∀ k name story injected depth,
    record[k]? = some (.substoryEntered name story injected depth) →
    1 ≤ depth ∧ depthAt record k = depth ∧ depthAt record (k + 1) = depth + 1
  exited : ∀ k story depth, record[k]? = some (.substoryExited story depth) →
    1 ≤ depth ∧ depthAt record k = depth + 1 ∧ depthAt record (k + 1) = depth
  /-- Behind a skip stand only bypassed instructions, none above the depth of the skip, until the
  record goes on one level up or, where the root skips, comes to its end. -/
  skipped : ∀ k step depth, record[k]? = some (.stepSkipped step depth) →
    1 ≤ depth ∧ depthAt record k = depth ∧ ∃ n event, k < n ∧ record[n]? = some event ∧
      ¬ event.Skips ∧ depthAt record n = depth - 1 ∧ (depth = 1 → event = .storyFinished status) ∧
      ∀ m, k < m → m < n →
        ∃ label d, record[m]? = some (.instructionBypassed label d) ∧ depth ≤ d
  bypassed : ∀ k label depth, record[k]? = some (.instructionBypassed label depth) →
    ∃ j event, k = j + 1 ∧ record[j]? = some event ∧ event.Skips
  /-- Where the run is completed each story that was entered is closed once, by its own exit or by
  a skip of one of its own steps. -/
  completed : status = .completed → ∀ i name story injected depth,
    record[i]? = some (.substoryEntered name story injected depth) →
    ∃ j, Closes record i j ∧
      (record[j]? = some (.substoryExited story depth) ∨
        ∃ step, record[j]? = some (.stepSkipped step (depth + 1))) ∧
      ∀ j', Closes record i j' → j' = j

/-- Where a reader stands: behind an event, if there was one, and inside some stories. -/
structure Place where
  last : Option EventKind
  stories : List String

namespace Place

def after (place : Place) (event : EventKind) : Place := ⟨some event, event.nest place.stories⟩

inductive Allows (place : Place) : EventKind → Prop where
  | storyStarted {story fingerprint : String} : place.last = none →
      Allows place (.storyStarted story fingerprint)
  | stepStarted {last : EventKind} {step host : String} {depth : Nat} :
      place.last = some last → last.Continues → place.stories ≠ [] →
      place.stories.length = depth → Allows place (.stepStarted step host depth)
  | substoryEntered {last : EventKind} {name story : String} {injected : Bool} {depth : Nat} :
      place.last = some last → last.Continues → place.stories ≠ [] →
      place.stories.length = depth → Allows place (.substoryEntered name story injected depth)
  | substoryExited {last : EventKind} {story : String} {outer : List String} {depth : Nat} :
      place.last = some last → last.Continues → place.stories = story :: outer → outer ≠ [] →
      outer.length = depth → Allows place (.substoryExited story depth)
  | answer {step host : String} {depth : Nat} {event : EventKind} :
      place.last = some (.stepStarted step host depth) → place.stories ≠ [] →
      place.stories.length = depth → event.Answers step depth → Allows place event
  | refused {name story kind message : String} {injected : Bool} {depth : Nat} :
      place.last = some (.substoryEntered name story injected depth) →
      Allows place (.errored kind message depth)
  | rejected {story fingerprint kind message : String} :
      place.last = some (.storyStarted story fingerprint) →
      Allows place (.errored kind message 0)
  | bypassed {last : EventKind} {label : String} {depth : Nat} : place.last = some last →
      last.Skips → place.stories.length < depth →
      Allows place (.instructionBypassed label depth)
  | storyFinished {last : EventKind} {status : RunStatus} : place.last = some last →
      last.Continues ∨ last.Ends → (status = .completed → place.stories.length ≤ 1) →
      Allows place (.storyFinished status)

variable {place : Place} {event last : EventKind}

theorem Allows.eq_finished_of_ends (h : place.Allows event) (hl : place.last = some last)
    (he : last.Ends) : ∃ status, event = .storyFinished status := by
  cases h with
  | storyStarted hn => rw [hn] at hl; cases hl
  | stepStarted hp hc | substoryEntered hp hc | substoryExited hp hc =>
    obtain rfl := Option.some.inj (hp.symm.trans hl)
    exact absurd hc he.not_continues
  | answer hp | refused hp | rejected hp =>
    obtain rfl := Option.some.inj (hp.symm.trans hl)
    exact he.elim
  | bypassed hp hs =>
    obtain rfl := Option.some.inj (hp.symm.trans hl)
    exact absurd hs.continues he.not_continues
  | storyFinished => exact ⟨_, rfl⟩

theorem not_allows_of_finished {status : RunStatus}
    (hl : place.last = some (.storyFinished status)) : ¬ place.Allows event := by
  intro h
  cases h with
  | storyStarted hn => rw [hn] at hl; cases hl
  | stepStarted hp hc | substoryEntered hp hc | substoryExited hp hc | bypassed hp hc =>
    obtain rfl := Option.some.inj (hp.symm.trans hl)
    exact hc
  | answer hp | refused hp | rejected hp => cases hp.symm.trans hl
  | storyFinished hp hc =>
    obtain rfl := Option.some.inj (hp.symm.trans hl)
    exact hc.elim id id

theorem Allows.answers_of_started {step host : String} {depth : Nat} (h : place.Allows event)
    (hl : place.last = some (.stepStarted step host depth)) : event.Answers step depth := by
  cases h with
  | storyStarted hn => rw [hn] at hl; cases hl
  | stepStarted hp hc | substoryEntered hp hc | substoryExited hp hc | bypassed hp hc =>
    obtain rfl := Option.some.inj (hp.symm.trans hl)
    exact hc.elim
  | answer hp _ _ ha =>
    cases hp.symm.trans hl
    exact ha
  | refused hp | rejected hp => cases hp.symm.trans hl
  | storyFinished hp hc =>
    obtain rfl := Option.some.inj (hp.symm.trans hl)
    exact hc.elim False.elim False.elim

end Place

/-- A reader gets through the events from one place to another. -/
inductive Reads : Place → List EventKind → Place → Prop where
  | nil (place : Place) : Reads place [] place
  | cons {place last : Place} {event : EventKind} {rest : List EventKind} :
      place.Allows event → Reads (place.after event) rest last → Reads place (event :: rest) last

namespace Reads

variable {place middle last : Place} {xs ys : List EventKind} {event : EventKind}

theorem append (h : Reads place xs middle) (h' : Reads middle ys last) :
    Reads place (xs ++ ys) last := by
  induction h with
  | nil => exact h'
  | cons ha _ ih => exact .cons ha (ih h')

theorem single (h : place.Allows event) : Reads place [event] (place.after event) :=
  .cons h (.nil _)

theorem allows (h : Reads place record last) {k : Nat} (he : record[k]? = some event) :
    ((record.take k).foldl Place.after place).Allows event := by
  induction h generalizing k with
  | nil => simp at he
  | cons ha _ ih =>
    cases k with
    | zero =>
      obtain rfl := Option.some.inj he
      exact ha
    | succ k => exact ih he

end Reads

end Record

end StoryEngine
