import StoryEngine.Story.Trace

/-! # Compiled stories

A compiled story is its declaration with every name of its body resolved: a tree of scenes whose
leaves are steps. Flattening the tree gives the trace.
-/

namespace StoryEngine

inductive Scene where
  | step (name : String) (run : Step)
  | story (title : String) (injected : Bool) (owner : Owner) (declaration : Declaration)
      (scenes : List Scene)

structure Story where
  owner : Owner
  declaration : Declaration
  scenes : List Scene

mutual

/-- The instructions of the scene at a place of the body of `origin`. -/
def Scene.instructions (owner : Owner) (origin : Origin) (place : Nat) : Scene → List Instruction
  | .step name run => [⟨owner, .step name run, origin⟩]
  | .story title injected inner declaration scenes =>
    let story : Origin := ⟨inner.host, declaration, origin.site ++ [place]⟩
    ⟨owner, .enter story title injected, origin⟩ ::
      (Scene.flatten inner story 0 scenes ++ [⟨owner, .exit story, origin⟩])

/-- The instructions of a body from the given place on. -/
def Scene.flatten (owner : Owner) (origin : Origin) (place : Nat) : List Scene → List Instruction
  | [] => []
  | scene :: rest => scene.instructions owner origin place ++ flatten owner origin (place + 1) rest

end

namespace Story

variable (story : Story)

def root : Origin := ⟨story.owner.host, story.declaration, []⟩

def name : String := story.declaration.name

def label : String := story.root.label

def arguments : List String := story.declaration.arguments

def trace : Trace := ⟨story.root, Scene.flatten story.owner story.root 0 story.scenes⟩

def fingerprint : String := story.trace.fingerprint

/-- The scene of an injected story under the name it has in a body. -/
def scene (title : String) : Scene :=
  .story title true story.owner story.declaration story.scenes

def text (stored : Bool) : String :=
  "BoundStory \x7b story: " ++ Text.quoted story.label ++
    s!", instructions: {story.trace.size}, event_store: " ++
    (if stored then "true" else "false") ++ " \x7d"

end Story

end StoryEngine
