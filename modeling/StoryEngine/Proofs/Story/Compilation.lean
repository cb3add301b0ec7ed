import Mathlib.Data.List.Nodup
import Mathlib.Logic.Relation
import StoryEngine.Proofs.Story.Resolution

/-! # What compiles

The names in the bodies of declared stories make a graph. A story compiles exactly when no name is
registered twice and, from the story on, every name is registered and no story leads back to
itself. A story may be reached on many ways, and what an injected story is called where it was
compiled plays no part.
-/

namespace StoryEngine

namespace Host

section Resolve

variable {host : Host} {name : String}

theorem lastOf_eq_none_iff {α : Type} {pairs : List (String × α)} :
    lastOf name pairs = none ↔ name ∉ pairs.map Prod.fst := by
  rw [lastOf, lookup_eq_none_iff, List.map_reverse, List.mem_reverse]

theorem mem_steps {run : Step} :
    (name, run) ∈ host.steps ↔ Capability.step name run ∈ host.capabilities := by
  rw [steps, List.mem_filterMap]
  constructor
  · rintro ⟨c, hc, he⟩
    cases c <;> simp_all
  · exact fun h => ⟨_, h, rfl⟩

theorem mem_stories {declaration : Declaration} :
    (name, declaration) ∈ host.stories ↔
      Capability.story declaration ∈ host.capabilities ∧ declaration.name = name := by
  rw [stories, List.mem_filterMap]
  constructor
  · rintro ⟨c, hc, he⟩
    cases c with
    | story d =>
      obtain ⟨hn, rfl⟩ : d.name = name ∧ d = declaration := by simpa using he
      exact ⟨hc, hn⟩
    | step => simp at he
    | injected => simp at he
  · rintro ⟨h, rfl⟩
    exact ⟨_, h, rfl⟩

theorem mem_injections {story : Story} :
    (name, story) ∈ host.injections ↔ Capability.injected name story ∈ host.capabilities := by
  rw [injections, List.mem_filterMap]
  constructor
  · rintro ⟨c, hc, he⟩
    cases c <;> simp_all
  · exact fun h => ⟨_, h, rfl⟩

theorem mem_of_resolve {c : Capability} (h : host.resolve name = some c) :
    c ∈ host.capabilities ∧ c.name = name := by
  unfold resolve at h
  split at h
  case h_1 run hs =>
    obtain rfl := Option.some.inj h
    exact ⟨mem_steps.mp (mem_of_lastOf hs), rfl⟩
  case h_2 =>
    split at h
    case h_1 declaration hd =>
      obtain rfl := Option.some.inj h
      exact mem_stories.mp (mem_of_lastOf hd)
    case h_2 =>
      obtain ⟨story, hi, rfl⟩ := Option.map_eq_some_iff.mp h
      exact ⟨mem_injections.mp (mem_of_lastOf hi), rfl⟩

theorem resolve_ne_none {c : Capability} (h : c ∈ host.capabilities) :
    host.resolve c.name ≠ none := by
  intro hn
  unfold resolve at hn
  split at hn
  case h_1 => cases hn
  case h_2 hs =>
    split at hn
    case h_1 => cases hn
    case h_2 hd =>
      have hi := Option.map_eq_none_iff.mp hn
      rw [declaration?, lastOf_eq_none_iff] at hd
      rw [lastOf_eq_none_iff] at hs hi
      cases c with
      | step n run => exact hs (List.mem_map_of_mem (mem_steps.mpr h))
      | story d => exact hd (List.mem_map_of_mem (mem_stories.mpr ⟨h, rfl⟩))
      | injected n story => exact hi (List.mem_map_of_mem (mem_injections.mpr h))

theorem isSome_resolve_iff :
    (host.resolve name).isSome ↔ ∃ c ∈ host.capabilities, c.name = name := by
  rw [Option.isSome_iff_exists]
  constructor
  · rintro ⟨c, hc⟩
    exact ⟨c, mem_of_resolve hc⟩
  · rintro ⟨c, hc, rfl⟩
    exact Option.ne_none_iff_exists'.mp (resolve_ne_none hc)

theorem resolve_eq_some_iff (h : (host.capabilities.map Capability.name).Nodup)
    {c : Capability} : host.resolve name = some c ↔ c ∈ host.capabilities ∧ c.name = name := by
  constructor
  · exact mem_of_resolve
  · rintro ⟨hc, rfl⟩
    obtain ⟨c', hc'⟩ := Option.ne_none_iff_exists'.mp (resolve_ne_none hc)
    obtain ⟨hm, hn⟩ := mem_of_resolve hc'
    rw [hc', List.inj_on_of_nodup_map h hm hc hn]

theorem declaration?_eq_some_iff (h : (host.capabilities.map Capability.name).Nodup)
    {declaration : Declaration} : host.declaration? name = some declaration ↔
      Capability.story declaration ∈ host.capabilities ∧ declaration.name = name := by
  constructor
  · exact fun hd => mem_stories.mp (mem_of_lastOf hd)
  · rintro ⟨hc, rfl⟩
    cases hd : host.declaration? declaration.name with
    | none =>
      rw [declaration?, lastOf_eq_none_iff] at hd
      exact absurd (List.mem_map_of_mem (mem_stories.mpr ⟨hc, rfl⟩)) hd
    | some other =>
      obtain ⟨hm, hn⟩ := mem_stories.mp (mem_of_lastOf hd)
      obtain rfl := Capability.story.inj (List.inj_on_of_nodup_map h hm hc hn)
      rfl

end Resolve

section Survey

variable {host : Host}

/-- A survey succeeds if every name of the body is registered and every story among them is not
active and can be surveyed while it is. -/
theorem survey_error_eq_none_iff (active : List String) (origin : String) (body : List String) :
    (host.survey active origin body).error = none ↔ ∀ n ∈ body, (host.resolve n).isSome ∧
      ∀ d, host.resolve n = some (.story d) → d.name ∉ active ∧
        (host.survey (active ++ [d.name]) d.name d.body).error = none := by
  induction body with
  | nil => simp [survey_nil]
  | cons n rest ih =>
    rw [List.forall_mem_cons, ← ih, survey]
    split
    case h_1 hr => simp [hr]
    case h_2 hr => simp [hr]
    case h_3 hr => simp [hr]
    case h_4 d hr =>
      split
      case isTrue ha => simp [hr, ha]
      case isFalse ha =>
        dsimp only
        split <;> simp_all

end Survey

def References (host : Host) (a b : Declaration) : Prop :=
  Capability.story b ∈ host.capabilities ∧ b.name ∈ a.body

/-- A declared story that the one of a name leads to, by the names of stories in bodies. -/
def Reaches (host : Host) (name : String) (declaration : Declaration) : Prop :=
  ∃ root, Capability.story root ∈ host.capabilities ∧ root.name = name ∧
    Relation.ReflTransGen host.References root declaration

/-- What a story of a host asks for to be compiled. -/
structure Compilable (host : Host) (name : String) : Prop where
  distinct : (host.capabilities.map Capability.name).Nodup
  declared : ∃ declaration, Capability.story declaration ∈ host.capabilities ∧
    declaration.name = name
  registered : ∀ declaration, host.Reaches name declaration → ∀ n ∈ declaration.body,
    ∃ c ∈ host.capabilities, c.name = n
  acyclic : ∀ declaration, host.Reaches name declaration →
    ¬ Relation.TransGen host.References declaration declaration

variable {host : Host} {name : String}

theorem declared_of_reflTransGen {a b : Declaration} (ha : Capability.story a ∈ host.capabilities)
    (h : Relation.ReflTransGen host.References a b) : Capability.story b ∈ host.capabilities := by
  rcases Relation.ReflTransGen.cases_tail h with rfl | ⟨_, -, hb⟩
  · exact ha
  · exact hb.1

theorem references_of_resolve {a b : Declaration} {n : String} (hn : n ∈ a.body)
    (hr : host.resolve n = some (.story b)) : host.References a b := by
  obtain ⟨hb, rfl⟩ := mem_of_resolve hr
  exact ⟨hb, hn⟩

section Graph

variable (distinct : (host.capabilities.map Capability.name).Nodup)

include distinct

theorem References.resolve {a b : Declaration} (h : host.References a b) :
    host.resolve b.name = some (.story b) := (resolve_eq_some_iff distinct).mpr ⟨h.1, rfl⟩

theorem declared_injective {a b : Declaration} (ha : Capability.story a ∈ host.capabilities)
    (hb : Capability.story b ∈ host.capabilities) (hn : a.name = b.name) : a = b :=
  Capability.story.inj (List.inj_on_of_nodup_map distinct ha hb hn)

/-- While a story is surveyed, so is every story that it leads to, with all those before it on the
way active. -/
theorem exists_survey_of_reflTransGen {a b : Declaration} {active : List String}
    (hab : Relation.ReflTransGen host.References a b) (ha : a.name ∈ active)
    (hs : (host.survey active a.name a.body).error = none) :
    ∃ active', active ⊆ active' ∧ b.name ∈ active' ∧
      (host.survey active' b.name b.body).error = none := by
  induction hab with
  | refl => exact ⟨active, List.Subset.refl active, ha, hs⟩
  | @tail b c _ hbc ih =>
    obtain ⟨active', hsub, -, hb⟩ := ih
    have hc := ((survey_error_eq_none_iff _ _ _).mp hb _ hbc.2).2 c (hbc.resolve distinct)
    exact ⟨active' ++ [c.name], fun n hn => List.mem_append_left _ (hsub hn), by simp, hc.2⟩

/-- A story that leads back to itself is met again while it is active. -/
theorem not_transGen_of_survey {a : Declaration} {active : List String} (ha : a.name ∈ active)
    (hs : (host.survey active a.name a.body).error = none) :
    ¬ Relation.TransGen host.References a a := by
  intro hcycle
  obtain ⟨b, hab, hba⟩ := Relation.TransGen.tail'_iff.mp hcycle
  obtain ⟨active', hsub, -, hb⟩ := exists_survey_of_reflTransGen distinct hab ha hs
  have hfresh := ((survey_error_eq_none_iff _ _ _).mp hb _ hba.2).2 a (hba.resolve distinct)
  exact hfresh.1 (hsub ha)

/-- A body is surveyed to its end if no story that it leads to is active, leads back to itself or
names what is not registered. -/
theorem survey_error_eq_none {active body : List String} {origin : String}
    (hbody : ∀ n ∈ body, ∃ c ∈ host.capabilities, c.name = n)
    (hs : ∀ a b, Capability.story a ∈ host.capabilities → a.name ∈ body →
      Relation.ReflTransGen host.References a b →
      b.name ∉ active ∧ ¬ Relation.TransGen host.References b b ∧
        ∀ n ∈ b.body, ∃ c ∈ host.capabilities, c.name = n) :
    (host.survey active origin body).error = none := by
  induction hm : host.inactive active using Nat.strongRecOn generalizing active body origin with
  | ind m ih =>
    subst hm
    rw [survey_error_eq_none_iff]
    refine fun n hn => ⟨isSome_resolve_iff.mpr (hbody n hn), fun a hr => ?_⟩
    obtain ⟨ha, rfl⟩ := mem_of_resolve hr
    obtain ⟨hfresh, hacyclic, hreg⟩ := hs a a ha hn .refl
    refine ⟨hfresh, ih _ (host.inactive_lt (host.mem_stories_of_resolve hr) hfresh) hreg ?_ rfl⟩
    intro b c hb hbn hbc
    have hab : host.References a b := ⟨hb, hbn⟩
    obtain ⟨hc, hrest⟩ := hs a c ha hn (.head hab hbc)
    refine ⟨?_, hrest⟩
    rw [List.mem_append, List.mem_singleton]
    rintro (hca | hca)
    · exact hc hca
    · -- the way has come back to `a` itself
      obtain rfl := declared_injective distinct (declared_of_reflTransGen hb hbc) ha hca
      exact hacyclic (.head' hab hbc)

end Graph

theorem bind_eq_ok_iff {story : Story} : host.bind name = .ok story ↔
    host.duplicates = [] ∧ ∃ declaration, host.declaration? name = some declaration ∧
      (host.surveyStory declaration).error = none ∧
      story = ⟨host.owner, declaration, (host.surveyStory declaration).scenes⟩ := by
  unfold bind compile
  grind

theorem duplicates_eq_nil_iff :
    host.duplicates = [] ↔ (host.capabilities.map Capability.name).Nodup := repeats_eq_nil_iff

theorem Compilable.exists_bind (h : host.Compilable name) :
    ∃ story, host.bind name = .ok story := by
  obtain ⟨distinct, ⟨root, hm, hn⟩, hreg, hacyclic⟩ := h
  have hroot : host.Reaches name root := ⟨root, hm, hn, .refl⟩
  refine ⟨_, bind_eq_ok_iff.mpr ⟨duplicates_eq_nil_iff.mpr distinct, root,
    (declaration?_eq_some_iff distinct).mpr ⟨hm, hn⟩, ?_, rfl⟩⟩
  refine survey_error_eq_none distinct (hreg root hroot) fun a b ha han hab => ?_
  have hra : host.References root a := ⟨ha, han⟩
  have hb : host.Reaches name b := ⟨root, hm, hn, .head hra hab⟩
  refine ⟨?_, hacyclic b hb, hreg b hb⟩
  rw [List.mem_singleton]
  intro hbn
  obtain rfl := declared_injective distinct (declared_of_reflTransGen ha hab) hm hbn
  exact hacyclic b hroot (.head' hra hab)

theorem compilable_of_bind {story : Story} (h : host.bind name = .ok story) :
    host.Compilable name := by
  obtain ⟨hu, root, hd, hs, -⟩ := bind_eq_ok_iff.mp h
  have distinct := duplicates_eq_nil_iff.mp hu
  obtain ⟨hm, hn⟩ := (declaration?_eq_some_iff distinct).mp hd
  have hsurvey (declaration : Declaration) (hr : host.Reaches name declaration) :
      ∃ active, declaration.name ∈ active ∧
        (host.survey active declaration.name declaration.body).error = none := by
    obtain ⟨root', hm', hn', hr⟩ := hr
    obtain rfl := declared_injective distinct hm hm' (hn.trans hn'.symm)
    obtain ⟨active, -, ha⟩ :=
      exists_survey_of_reflTransGen distinct hr (List.mem_singleton_self _) hs
    exact ⟨active, ha⟩
  refine ⟨distinct, ⟨root, hm, hn⟩, fun declaration hr n hb => ?_, fun declaration hr => ?_⟩
  · obtain ⟨active, -, hs⟩ := hsurvey declaration hr
    exact isSome_resolve_iff.mp ((survey_error_eq_none_iff _ _ _).mp hs n hb).1
  · obtain ⟨active, ha, hs⟩ := hsurvey declaration hr
    exact not_transGen_of_survey distinct ha hs

section Resolved

variable {body : List String} {scenes : List Scene}

theorem Resolves.registered (h : host.Resolves body scenes) {n : String} (hn : n ∈ body) :
    ∃ c ∈ host.capabilities, c.name = n := by
  rw [← isSome_resolve_iff]
  induction h with
  | nil => cases hn
  | step hr _ ih | injected hr _ ih | story hr _ _ _ ih =>
    rcases List.mem_cons.mp hn with rfl | hn
    · rw [hr]
      rfl
    · exact ih hn

theorem Resolves.inner (h : host.Resolves body scenes) {d : Declaration} {n : String}
    (hn : n ∈ body) (hd : host.resolve n = some (.story d)) :
    ∃ inner, host.Resolves d.body inner := by
  induction h with
  | nil => cases hn
  | step hr _ ih | injected hr _ ih =>
    rcases List.mem_cons.mp hn with rfl | hn
    · cases hr.symm.trans hd
    · exact ih hn
  | story hr hi _ _ ih =>
    rcases List.mem_cons.mp hn with rfl | hn
    · cases hr.symm.trans hd
      exact ⟨_, hi⟩
    · exact ih hn

theorem not_transGen_of_references {a : Declaration}
    (h : ∀ b, host.References a b → ¬ Relation.TransGen host.References b b) :
    ¬ Relation.TransGen host.References a a := by
  intro hcycle
  obtain ⟨b, hab, hba⟩ := Relation.TransGen.head'_iff.mp hcycle
  exact h b hab (.tail' hba hab)

variable (distinct : (host.capabilities.map Capability.name).Nodup)

include distinct

theorem Resolves.of_reflTransGen {a b : Declaration}
    (hab : Relation.ReflTransGen host.References a b) (h : host.Resolves a.body scenes) :
    ∃ inner, host.Resolves b.body inner := by
  induction hab with
  | refl => exact ⟨scenes, h⟩
  | tail _ hbc ih =>
    obtain ⟨inner, hi⟩ := ih
    exact hi.inner hbc.2 (hbc.resolve distinct)

/-- No story that a resolved body names leads back to itself, since its scenes are finite. -/
theorem Resolves.not_transGen (h : host.Resolves body scenes) : ∀ a,
    Capability.story a ∈ host.capabilities → a.name ∈ body →
      ¬ Relation.TransGen host.References a a := by
  induction h with
  | nil => exact fun _ _ hn => nomatch hn
  | step hr _ ih | injected hr _ ih =>
    intro a ha hn
    rcases List.mem_cons.mp hn with rfl | hn
    · cases hr.symm.trans ((resolve_eq_some_iff distinct).mpr ⟨ha, rfl⟩)
    · exact ih a ha hn
  | story hr _ _ ihd ih =>
    intro a ha hn
    rcases List.mem_cons.mp hn with rfl | hn
    · cases hr.symm.trans ((resolve_eq_some_iff distinct).mpr ⟨ha, rfl⟩)
      exact not_transGen_of_references fun b hab => ihd b hab.1 hab.2
    · exact ih a ha hn

theorem Resolves.surveyStory_eq {root : Declaration}
    (hm : Capability.story root ∈ host.capabilities) (h : host.Resolves root.body scenes) :
    host.surveyStory root = ⟨scenes, none⟩ := by
  have hacyclic {a : Declaration} {scenes : List Scene} (ha : host.Resolves a.body scenes) :
      ¬ Relation.TransGen host.References a a :=
    not_transGen_of_references fun b hab => ha.not_transGen distinct b hab.1 hab.2
  have herror : (host.surveyStory root).error = none := by
    refine survey_error_eq_none distinct (fun n hn => h.registered hn) fun a b ha han hab => ?_
    have hroot : Relation.TransGen host.References root b := .head' ⟨ha, han⟩ hab
    obtain ⟨inner, hb⟩ := h.of_reflTransGen distinct hroot.to_reflTransGen
    refine ⟨?_, hacyclic hb, fun n hn => hb.registered hn⟩
    rw [List.mem_singleton]
    intro hbn
    obtain rfl := declared_injective distinct (declared_of_reflTransGen ha hab) hm hbn
    exact hacyclic h hroot
  have hscenes : (host.surveyStory root).scenes = scenes := (resolves_survey _ _ _ herror).unique h
  rw [← hscenes, ← herror]

end Resolved

theorem bind_eq_ok_iff_resolves {story : Story} : host.bind name = .ok story ↔
    (host.capabilities.map Capability.name).Nodup ∧
      host.declaration? name = some story.declaration ∧ story.owner = host.owner ∧
      host.Resolves story.declaration.body story.scenes := by
  rw [← duplicates_eq_nil_iff]
  constructor
  · exact bind_eq_ok
  · rintro ⟨hu, hd, ho, hr⟩
    have distinct := duplicates_eq_nil_iff.mp hu
    have hm := ((declaration?_eq_some_iff distinct).mp hd).1
    rw [bind_eq_of_survey hu hd (hr.surveyStory_eq distinct hm), ← ho]

/-- Compiling ends for every host and every name, and it ends in a story exactly if the story of
the name is compilable. -/
theorem exists_bind_iff (host : Host) (name : String) :
    (∃ story, host.bind name = .ok story) ↔ host.Compilable name :=
  ⟨fun ⟨_, h⟩ => compilable_of_bind h, Compilable.exists_bind⟩

end Host

/-- A host in which a tour leads to the square on three ways and to a tour of another host. -/
def Demo.town : Host where
  name := "Town"
  number := 2
  capabilities :=
    [.step "walk" { run := fun _ => .ok none },
     .story { name := "square", body := ["walk"] },
     .story { name := "east", body := ["square", "walk"] },
     .story { name := "west", body := ["square"] },
     .injected "detour" ⟨⟨"Town", 3⟩, { name := "tour" }, []⟩,
     .story { name := "tour", body := ["east", "west", "square", "detour"] }]

example : (Demo.town.bind "tour").isOk = true := by cbv

end StoryEngine
