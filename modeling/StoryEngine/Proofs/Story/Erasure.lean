import StoryEngine.Proofs.Story.Compilation
import StoryEngine.Proofs.Story.Layout

/-! # Stories without contracts

A contract belongs to a declaration and plays no part in compiling. A host whose declarations have
lost their contracts compiles its stories to what they were compiled to before, without contracts.
-/

namespace StoryEngine

def Declaration.erase (declaration : Declaration) : Declaration :=
  { declaration with contract := none }

def Origin.erase (origin : Origin) : Origin :=
  { origin with declaration := origin.declaration.erase }

@[simp]
theorem Origin.label_erase (origin : Origin) : origin.erase.label = origin.label := rfl

def Action.erase : Action → Action
  | .step name run => .step name run
  | .enter story title injected => .enter story.erase title injected
  | .exit story => .exit story.erase

def Instruction.erase (instruction : Instruction) : Instruction :=
  ⟨instruction.owner, instruction.action.erase, instruction.origin.erase⟩

theorem Instruction.label_erase (instruction : Instruction) :
    instruction.erase.label = instruction.label := by
  obtain ⟨owner, action, origin⟩ := instruction
  cases action <;> rfl

mutual

def Scene.erase : Scene → Scene
  | .step name run => .step name run
  | .story title injected owner declaration scenes =>
    .story title injected owner declaration.erase (Scene.eraseAll scenes)

def Scene.eraseAll : List Scene → List Scene
  | [] => []
  | scene :: rest => scene.erase :: eraseAll rest

end

mutual

theorem Scene.instructions_erase (owner : Owner) (origin : Origin) (place : Nat) :
    ∀ scene : Scene, scene.erase.instructions owner origin.erase place =
      (scene.instructions owner origin place).map Instruction.erase
  | .step _ _ => rfl
  | .story title injected inner declaration scenes => by
    have hb := Scene.flatten_erase inner ⟨inner.host, declaration, origin.site ++ [place]⟩ 0 scenes
    have hs : Origin.erase ⟨inner.host, declaration, origin.site ++ [place]⟩ =
        ⟨inner.host, declaration.erase, origin.erase.site ++ [place]⟩ := rfl
    rw [hs] at hb
    simp only [Scene.erase, Scene.instructions, List.map_cons, List.map_append, List.map_nil, hb,
      Instruction.erase, Action.erase, hs]

theorem Scene.flatten_erase (owner : Owner) (origin : Origin) (place : Nat) :
    ∀ scenes : List Scene, Scene.flatten owner origin.erase place (Scene.eraseAll scenes) =
      (Scene.flatten owner origin place scenes).map Instruction.erase
  | [] => rfl
  | scene :: rest => by
    rw [Scene.eraseAll, Scene.flatten, Scene.flatten, List.map_append,
      Scene.instructions_erase owner origin place scene,
      Scene.flatten_erase owner origin (place + 1) rest]

end

namespace Story

variable (story : Story)

def erase : Story := ⟨story.owner, story.declaration.erase, Scene.eraseAll story.scenes⟩

theorem instructions_erase :
    story.erase.trace.instructions = story.trace.instructions.map Instruction.erase :=
  Scene.flatten_erase story.owner story.root 0 story.scenes

theorem labels_erase : story.erase.trace.labels = story.trace.labels := by
  rw [Trace.labels, instructions_erase, List.map_map]
  exact List.map_congr_left fun i _ => i.label_erase

theorem fingerprint_erase : story.erase.fingerprint = story.fingerprint :=
  Trace.fingerprint_congr rfl rfl story.labels_erase

end Story

def Capability.erase : Capability → Capability
  | .step name run => .step name run
  | .story declaration => .story declaration.erase
  | .injected name sub => .injected name sub.erase

theorem Capability.name_erase (c : Capability) : c.erase.name = c.name := by cases c <;> rfl

namespace Host

def erase (host : Host) : Host :=
  { host with capabilities := host.capabilities.map Capability.erase }

variable {host : Host}

theorem names_erase (host : Host) :
    host.erase.capabilities.map Capability.name = host.capabilities.map Capability.name := by
  rw [erase, List.map_map]
  exact List.map_congr_left fun c _ => c.name_erase

section Distinct

variable (distinct : (host.capabilities.map Capability.name).Nodup)

include distinct

theorem resolve_erase {name : String} {c : Capability} (h : host.resolve name = some c) :
    host.erase.resolve name = some c.erase := by
  obtain ⟨hm, hn⟩ := mem_of_resolve h
  rw [resolve_eq_some_iff (host.names_erase.symm ▸ distinct)]
  exact ⟨List.mem_map_of_mem hm, c.name_erase.trans hn⟩

theorem Resolves.erase {body : List String} {scenes : List Scene}
    (h : host.Resolves body scenes) : host.erase.Resolves body (Scene.eraseAll scenes) := by
  induction h with
  | nil => exact .nil
  | step hr _ ih => exact .step (resolve_erase distinct hr) ih
  | injected hr _ ih => exact .injected (resolve_erase distinct hr) ih
  | story hr _ _ ihd ih => exact .story (resolve_erase distinct hr) ihd ih

end Distinct

/-- Without contracts a story is compiled to what it was compiled to before. -/
theorem bind_erase {name : String} {story : Story} (h : host.bind name = .ok story) :
    host.erase.bind name = .ok story.erase := by
  obtain ⟨distinct, hd, ho, hr⟩ := bind_eq_ok_iff_resolves.mp h
  have distinct' : (host.erase.capabilities.map Capability.name).Nodup :=
    host.names_erase.symm ▸ distinct
  obtain ⟨hm, hn⟩ := (declaration?_eq_some_iff distinct).mp hd
  refine bind_eq_ok_iff_resolves.mpr ⟨distinct', ?_, ho, hr.erase distinct⟩
  exact (declaration?_eq_some_iff distinct').mpr ⟨List.mem_map_of_mem hm, hn⟩

end Host

end StoryEngine
