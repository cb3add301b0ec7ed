import StoryEngine.Proofs.Story.Compilation

/-! # Extracting a part of a body

A part of the body of a declared story may be moved to a story of its own, which is declared beside
it and is named where the part stood. The shortened story compiles if the whole one does, to the
same scenes but for the new one around those of the part.
-/

namespace StoryEngine

mutual

inductive Scene.Renumbered : Scene → Scene → Prop where
  | step (name : String) (run : Step) : Renumbered (.step name run) (.step name run)
  | story (title : String) (injected : Bool) (host : String) (number number' : Nat)
      (declaration : Declaration) {scenes scenes' : List Scene} :
      Scene.RenumberedAll scenes scenes' →
      Renumbered (.story title injected ⟨host, number⟩ declaration scenes)
        (.story title injected ⟨host, number'⟩ declaration scenes')

inductive Scene.RenumberedAll : List Scene → List Scene → Prop where
  | nil : RenumberedAll [] []
  | cons {scene scene' : Scene} {rest rest' : List Scene} : Scene.Renumbered scene scene' →
      RenumberedAll rest rest' → RenumberedAll (scene :: rest) (scene' :: rest')

end

mutual

theorem Scene.renumbered_self : ∀ scene : Scene, scene.Renumbered scene
  | .step name run => .step name run
  | .story title injected ⟨host, number⟩ declaration scenes =>
    .story title injected host number number declaration (Scene.renumberedAll_self scenes)

theorem Scene.renumberedAll_self : ∀ scenes : List Scene, Scene.RenumberedAll scenes scenes
  | [] => .nil
  | scene :: rest => .cons scene.renumbered_self (Scene.renumberedAll_self rest)

end

namespace Declaration

def withBody (declaration : Declaration) (body : List String) : Declaration :=
  { declaration with body }

/-- A story without parameters and contract that may fail as the whole one. -/
def part (whole : Declaration) (name : String) (body : List String) : Declaration where
  name := name
  body := body
  failures := whole.failures

end Declaration

/-- What is registered when a declared story gets another body. -/
def Capability.withBody (name : String) (body : List String) : Capability → Capability
  | .story declaration =>
    if declaration.name = name then .story (declaration.withBody body) else .story declaration
  | capability => capability

/-- The second host registers what the first one does, in any order, but has the middle part of the
body of one declared story in a new story of its own. -/
structure Host.Extracts (a b : Host) (whole : Declaration) (before middle after : List String)
    (name : String) : Prop where
  declared : Capability.story whole ∈ a.capabilities
  body_eq : whole.body = before ++ middle ++ after
  fresh : name ∉ a.capabilities.map Capability.name
  name_eq : b.name = a.name
  capabilities_perm : b.capabilities.Perm (.story (whole.part name middle) ::
    a.capabilities.map (Capability.withBody whole.name (before ++ name :: after)))

/-- The second story has the scenes of the first one, but those in the middle in a story of their
own. -/
structure Story.Extracts (story story' : Story) (name : String) (middle : List String)
    (xs ys zs : List Scene) : Prop where
  host_eq : story'.owner.host = story.owner.host
  declaration_eq : ∃ body, story'.declaration = story.declaration.withBody body
  scenes_eq : story.scenes = xs ++ ys ++ zs
  parted : ∃ xs' ys' zs', Scene.RenumberedAll xs xs' ∧ Scene.RenumberedAll ys ys' ∧
    Scene.RenumberedAll zs zs' ∧ story'.scenes = xs' ++
      .story name false story'.owner (story.declaration.part name middle) ys' :: zs'

namespace Host

theorem Resolves.append {host : Host} {xs ys : List String} {us vs : List Scene}
    (h : host.Resolves xs us) (h' : host.Resolves ys vs) : host.Resolves (xs ++ ys) (us ++ vs) := by
  induction h with
  | nil => exact h'
  | step hr _ ih => exact .step hr ih
  | injected hr _ ih => exact .injected hr ih
  | story hr hi _ _ ih => exact .story hr hi ih

theorem Resolves.split {host : Host} {xs ys : List String} {scenes : List Scene}
    (h : host.Resolves (xs ++ ys) scenes) : ∃ us vs, scenes = us ++ vs ∧
      us.length = xs.length ∧ host.Resolves xs us ∧ host.Resolves ys vs := by
  induction xs generalizing scenes with
  | nil => exact ⟨[], scenes, rfl, rfl, .nil, h⟩
  | cons x xs ih =>
    cases h with
    | step hr h =>
      obtain ⟨us, vs, rfl, hl, hu, hv⟩ := ih h
      exact ⟨_ :: us, vs, rfl, congrArg Nat.succ hl, .step hr hu, hv⟩
    | injected hr h =>
      obtain ⟨us, vs, rfl, hl, hu, hv⟩ := ih h
      exact ⟨_ :: us, vs, rfl, congrArg Nat.succ hl, .injected hr hu, hv⟩
    | story hr hi h =>
      obtain ⟨us, vs, rfl, hl, hu, hv⟩ := ih h
      exact ⟨_ :: us, vs, rfl, congrArg Nat.succ hl, .story hr hi hu, hv⟩

end Host

theorem Capability.name_withBody (name : String) (body : List String) (c : Capability) :
    (c.withBody name body).name = c.name := by
  cases c with
  | step | injected => rfl
  | story declaration =>
    rw [withBody]
    split <;> rfl

namespace Host.Extracts

variable {a b : Host} {whole : Declaration} {before middle after : List String} {name : String}
  (h : a.Extracts b whole before middle after name)

include h

theorem names_perm :
    (b.capabilities.map Capability.name).Perm (name :: a.capabilities.map Capability.name) := by
  have hm := h.capabilities_perm.map Capability.name
  rw [List.map_cons, List.map_map] at hm
  have hn : Capability.name ∘ Capability.withBody whole.name (before ++ name :: after) =
      Capability.name := funext (Capability.name_withBody _ _)
  rwa [hn] at hm

theorem distinct (hd : (a.capabilities.map Capability.name).Nodup) :
    (b.capabilities.map Capability.name).Nodup :=
  h.names_perm.nodup_iff.mpr (List.nodup_cons.mpr ⟨h.fresh, hd⟩)

section Distinct

variable (distinct : (a.capabilities.map Capability.name).Nodup)

include distinct

theorem resolve {n : String} {c : Capability} (hr : a.resolve n = some c) :
    b.resolve n = some (c.withBody whole.name (before ++ name :: after)) := by
  obtain ⟨hc, hn⟩ := mem_of_resolve hr
  refine (resolve_eq_some_iff (h.distinct distinct)).mpr ⟨?_, ?_⟩
  · exact h.capabilities_perm.mem_iff.mpr (List.mem_cons_of_mem _ (List.mem_map_of_mem hc))
  · exact (Capability.name_withBody _ _ c).trans hn

theorem resolve_part : b.resolve name = some (.story (whole.part name middle)) :=
  (resolve_eq_some_iff (h.distinct distinct)).mpr
    ⟨h.capabilities_perm.mem_iff.mpr List.mem_cons_self, rfl⟩

theorem declaration?_whole : b.declaration? whole.name =
    some (whole.withBody (before ++ name :: after)) := by
  refine (declaration?_eq_some_iff (h.distinct distinct)).mpr ⟨?_, rfl⟩
  refine h.capabilities_perm.mem_iff.mpr (List.mem_cons_of_mem _ ?_)
  exact List.mem_map.mpr ⟨_, h.declared, if_pos rfl⟩

/-- A body that does not lead to the story resolves in the second host as in the first one. -/
theorem resolves {body : List String} {scenes : List Scene} (hr : a.Resolves body scenes)
    (apart : ∀ d, Capability.story d ∈ a.capabilities → d.name ∈ body →
      ¬ Relation.ReflTransGen a.References d whole) :
    ∃ scenes', b.Resolves body scenes' ∧ Scene.RenumberedAll scenes scenes' := by
  induction hr with
  | nil => exact ⟨[], .nil, .nil⟩
  | step hr _ ih =>
    obtain ⟨scenes', hs, hn⟩ := ih fun d hd hb => apart d hd (List.mem_cons_of_mem _ hb)
    exact ⟨_, .step (h.resolve distinct hr) hs, .cons (.step _ _) hn⟩
  | injected hr _ ih =>
    obtain ⟨scenes', hs, hn⟩ := ih fun d hd hb => apart d hd (List.mem_cons_of_mem _ hb)
    exact ⟨_, .injected (h.resolve distinct hr) hs, .cons (Scene.renumbered_self _) hn⟩
  | @story n declaration rest inner scenes hr _ _ ihd ih =>
    obtain ⟨hm, rfl⟩ : _ ∧ declaration.name = n := mem_of_resolve hr
    have hleads := apart declaration hm List.mem_cons_self
    have hne : declaration.name ≠ whole.name := fun he => by
      obtain rfl := declared_injective distinct hm h.declared he
      exact hleads .refl
    have hb : b.resolve declaration.name = some (.story declaration) := by
      rw [h.resolve distinct hr, Capability.withBody, if_neg hne]
    obtain ⟨inner', hi, hin⟩ := ihd fun d hd hn hw => hleads (.head ⟨hd, hn⟩ hw)
    obtain ⟨scenes', hs, hsn⟩ := ih fun d hd hn => apart d hd (List.mem_cons_of_mem _ hn)
    refine ⟨_, .story hb hi hs, .cons ?_ hsn⟩
    rw [owner, owner, h.name_eq]
    exact .story _ _ _ _ _ _ hin

end Distinct

theorem exists_bind {story : Story} (hp : a.bind whole.name = .ok story) :
    ∃ xs ys zs story', b.bind whole.name = .ok story' ∧ xs.length = before.length ∧
      ys.length = middle.length ∧ story.Extracts story' name middle xs ys zs := by
  obtain ⟨distinct, hd, ho, hr⟩ := bind_eq_ok_iff_resolves.mp hp
  obtain ⟨hm, hn⟩ := (declaration?_eq_some_iff distinct).mp hd
  have hw : story.declaration = whole := declared_injective distinct hm h.declared hn
  rw [hw] at hr
  have apart (d : Declaration) (hd : Capability.story d ∈ a.capabilities)
      (hn : d.name ∈ whole.body) : ¬ Relation.ReflTransGen a.References d whole := fun hdw =>
    hr.not_transGen distinct d hd hn (.tail' hdw ⟨hd, hn⟩)
  rw [h.body_eq] at hr apart
  obtain ⟨us, zs, hs, hul, hus, hzs⟩ := hr.split
  obtain ⟨xs, ys, rfl, hxl, hxs, hys⟩ := hus.split
  rw [List.length_append, List.length_append, hxl] at hul
  obtain ⟨xs', hxs', hxn⟩ := h.resolves distinct hxs fun d hd hn =>
    apart d hd (List.mem_append_left _ (List.mem_append_left _ hn))
  obtain ⟨ys', hys', hyn⟩ := h.resolves distinct hys fun d hd hn =>
    apart d hd (List.mem_append_left _ (List.mem_append_right _ hn))
  obtain ⟨zs', hzs', hzn⟩ := h.resolves distinct hzs fun d hd hn =>
    apart d hd (List.mem_append_right _ hn)
  let story' : Story := ⟨b.owner, whole.withBody (before ++ name :: after),
    xs' ++ .story name false b.owner (whole.part name middle) ys' :: zs'⟩
  have hb : b.bind whole.name = .ok story' := bind_eq_ok_iff_resolves.mpr
    ⟨h.distinct distinct, h.declaration?_whole distinct, rfl,
      hxs'.append (.story (h.resolve_part distinct) hys' hzs')⟩
  refine ⟨xs, ys, zs, story', hb, hxl, Nat.add_left_cancel hul, ?_⟩
  exact {
    host_eq := by rw [ho]; exact h.name_eq
    declaration_eq := ⟨_, by rw [hw]⟩
    scenes_eq := hs
    parted := ⟨xs', ys', zs', hxn, hyn, hzn, by rw [hw]⟩ }

end Host.Extracts

end StoryEngine
