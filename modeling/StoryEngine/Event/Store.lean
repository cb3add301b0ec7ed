import StoryEngine.Event.Basic
import StoryEngine.Event.RunId
import StoryEngine.Event.Timestamp

/-! # Event stores

A stamped event knows its run and its place in it. A store keeps the events of each run in the
order of their arrival, and the runs in the order of their first events.
-/

namespace StoryEngine

structure Event where
  seq : Nat
  run : RunId
  kind : EventKind
  time : Timestamp

/-- The number and the clock of one run. -/
structure Occasion where
  run : RunId
  clock : Nat → Timestamp

/-- Stamps events in order, counting from zero. -/
def Occasion.stamp (occasion : Occasion) (kinds : List EventKind) : List Event :=
  kinds.mapIdx fun seq kind => ⟨seq, occasion.run, kind, occasion.clock seq⟩

structure EventStore where
  entries : List (RunId × List Event)

namespace EventStore

def empty : EventStore := ⟨[]⟩

def appendTo (event : Event) : List (RunId × List Event) → List (RunId × List Event)
  | [] => [(event.run, [event])]
  | (run, events) :: rest =>
    if run = event.run then (run, events ++ [event]) :: rest
    else (run, events) :: appendTo event rest

theorem lookup_appendTo (event : Event) (run : RunId) (entries : List (RunId × List Event)) :
    ((appendTo event entries).lookup run).getD [] =
      if run = event.run then (entries.lookup run).getD [] ++ [event]
      else (entries.lookup run).getD [] := by
  have hb (r : RunId) (h : run ≠ r) : (run == r) = false := beq_eq_false_iff_ne.2 h
  induction entries with
  | nil => by_cases h : run = event.run <;> simp [appendTo, List.lookup_cons, h, hb]
  | cons p rest ih =>
    obtain ⟨r, events⟩ := p
    by_cases hr : r = event.run
    · subst hr
      by_cases h : run = event.run <;> simp [appendTo, List.lookup_cons, h, hb]
    · by_cases h : run = r
      · subst h
        simp [appendTo, hr]
      · simp [appendTo, List.lookup_cons, hr, hb r h, ih]

variable (store : EventStore)

def append (event : Event) : EventStore := ⟨appendTo event store.entries⟩

def appendAll (events : List Event) : EventStore := events.foldl append store

/-- The events of a run in the order of their arrival. -/
def list (run : RunId) : List Event := (store.entries.lookup run).getD []

/-- The runs in the order of their first events. -/
def runs : List RunId := store.entries.map Prod.fst

/-- An event joins the events of its own run, at their end, and no others. -/
theorem list_append (event : Event) (run : RunId) :
    (store.append event).list run =
      if run = event.run then store.list run ++ [event] else store.list run :=
  lookup_appendTo event run store.entries

end EventStore

end StoryEngine
