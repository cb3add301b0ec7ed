import StoryEngine.Story.Basic

/-! # Hosts

A host offers steps, stories and compiled stories of other hosts under names of one name space.
Compiling resolves the body of a story against its host, depth first and from the left, and stops
at the first name that is unknown or leads back to an active story.
-/

namespace StoryEngine

inductive Capability where
  | step (name : String) (run : Step)
  | story (declaration : Declaration)
  | injected (name : String) (story : Story)

def Capability.name : Capability → String
  | .step name _ => name
  | .story declaration => declaration.name
  | .injected name _ => name

/-- A host instance, with its capabilities in the order of their registration. -/
structure Host where
  name : String
  number : Nat
  capabilities : List Capability

namespace Host

variable (host : Host)

def owner : Owner := ⟨host.name, host.number⟩

def label (story : String) : String := host.name ++ "." ++ story

/-- The names that were taken when they were registered, in order. -/
def duplicates : List String := repeats (host.capabilities.map Capability.name)

def steps : List (String × Step) := host.capabilities.filterMap fun
  | .step name run => some (name, run)
  | _ => none

def stories : List (String × Declaration) := host.capabilities.filterMap fun
  | .story declaration => some (declaration.name, declaration)
  | _ => none

def injections : List (String × Story) := host.capabilities.filterMap fun
  | .injected name story => some (name, story)
  | _ => none

/-- The value registered last under a name. -/
def lastOf {α : Type} (name : String) (pairs : List (String × α)) : Option α :=
  pairs.reverse.lookup name

def declaration? (name : String) : Option Declaration := lastOf name host.stories

/-- What a name stands for: a step before a story, a story before an injected one. -/
def resolve (name : String) : Option Capability :=
  match lastOf name host.steps with
  | some run => some (.step name run)
  | none =>
    match host.declaration? name with
    | some declaration => some (.story declaration)
    | none => (lastOf name host.injections).map (.injected name)

theorem mem_of_lastOf {α : Type} {name : String} {pairs : List (String × α)} {x : α}
    (h : lastOf name pairs = some x) : (name, x) ∈ pairs :=
  List.mem_reverse.1 (mem_of_lookup h)

theorem name_of_mem_stories {name : String} {declaration : Declaration}
    (h : (name, declaration) ∈ host.stories) : declaration.name = name := by
  obtain ⟨c, -, hc⟩ := List.mem_filterMap.1 h
  cases c with
  | story d =>
    obtain ⟨hn, rfl⟩ : d.name = name ∧ d = declaration := by simpa using hc
    exact hn
  | step => simp at hc
  | injected => simp at hc

theorem mem_stories_of_resolve {name : String} {declaration : Declaration}
    (h : host.resolve name = some (.story declaration)) :
    declaration.name ∈ host.stories.map Prod.fst := by
  unfold resolve at h
  split at h
  · simp at h
  · split at h
    · rename_i d hd
      have hm := mem_of_lastOf hd
      obtain rfl : d = declaration := by simpa using h
      rw [host.name_of_mem_stories hm]
      exact List.mem_map_of_mem hm
    · cases hl : lastOf name host.injections <;> simp [hl] at h

/-- How many registered stories are not active. -/
def inactive (active : List String) : Nat :=
  (host.stories.filter fun s => !active.contains s.1).length

theorem inactive_lt {active : List String} {name : String}
    (registered : name ∈ host.stories.map Prod.fst) (fresh : name ∉ active) :
    host.inactive (active ++ [name]) < host.inactive active := by
  obtain ⟨⟨n, d⟩, hmem, rfl⟩ := List.mem_map.1 registered
  have sub : host.stories.filter (fun s => !(active ++ [n]).contains s.1) =
      (host.stories.filter fun s => !active.contains s.1).filter fun s => s.1 != n := by
    rw [List.filter_filter]
    congr 1
    funext s
    by_cases h : s.1 = n <;> simp [h]
  unfold inactive
  rw [sub]
  refine List.length_filter_lt_length_iff_exists.2 ⟨(n, d), ?_, by simp⟩
  exact List.mem_filter.2 ⟨hmem, by simpa using fresh⟩

end Host

/-- The scenes found so far, and the error that ended the search if one did. -/
structure Survey where
  scenes : List Scene
  error : Option CompileError

namespace Host

variable (host : Host)

/-- Resolves a body of the story `origin` while the named stories are active, outermost first. -/
def survey (active : List String) (origin : String) : List String → Survey
  | [] => ⟨[], none⟩
  | name :: rest =>
    match _found : host.resolve name with
    | none => ⟨[], some (.unknownCapability host.name (host.label origin) name)⟩
    | some (.step name run) =>
      let after := survey active origin rest
      ⟨.step name run :: after.scenes, after.error⟩
    | some (.injected title story) =>
      let after := survey active origin rest
      ⟨story.scene title :: after.scenes, after.error⟩
    | some (.story declaration) =>
      if _fresh : declaration.name ∈ active then
        ⟨[], some (.recursive (host.label origin) ((active ++ [declaration.name]).map host.label))⟩
      else
        let inner := survey (active ++ [declaration.name]) declaration.name declaration.body
        let scene := Scene.story name false host.owner declaration inner.scenes
        match inner.error with
        | some error => ⟨[scene], some error⟩
        | none =>
          let after := survey active origin rest
          ⟨scene :: after.scenes, after.error⟩
termination_by body => (host.inactive active, body.length)
decreasing_by
  · exact Prod.Lex.right _ (by simp)
  · exact Prod.Lex.right _ (by simp)
  · exact Prod.Lex.left _ _ (host.inactive_lt (host.mem_stories_of_resolve _found) _fresh)
  · exact Prod.Lex.right _ (by simp)

/-- The survey of a declared story from its own body down. -/
def surveyStory (declaration : Declaration) : Survey :=
  host.survey [declaration.name] declaration.name declaration.body

/-- Compiles the story of a name. -/
def compile (name : String) : Except CompileError Story :=
  match host.declaration? name with
  | none => .error (.unknownStory host.name name)
  | some declaration =>
    let survey := host.surveyStory declaration
    match survey.error with
    | some error => .error error
    | none => .ok ⟨host.owner, declaration, survey.scenes⟩

/-- Compiles the story of a name, if no name of the host is registered twice. -/
def bind (name : String) : Except CompileError Story :=
  match host.duplicates with
  | duplicate :: _ => .error (.duplicate host.name duplicate)
  | [] => host.compile name

end Host

end StoryEngine
