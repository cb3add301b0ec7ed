import StoryEngine.Proofs.Story.Compilation
import StoryEngine.Proofs.Story.WellFormed

/-! # Injecting a declared story

A host may declare a story or be given what the story is compiled to. A story that compiles in the
first host compiles in the second, and its scenes differ only in who owns them and in that those of
the one story are said to be injected.
-/

namespace StoryEngine

/-- What is registered when a compiled story takes the place of the declared one of its name. -/
def Capability.inject (name : String) (story : Story) : Capability → Capability
  | .story declaration =>
    if declaration.name = name then .injected name story else .story declaration
  | capability => capability

/-- The second host registers what the first one does, in any order, but has a compiled story
injected where the first one declares it. -/
structure Host.Injects (a b : Host) (name : String) (story : Story) : Prop where
  name_eq : b.name = a.name
  capabilities_perm : b.capabilities.Perm (a.capabilities.map (Capability.inject name story))

mutual

def Scene.inject (name : String) (owner : Owner) : Scene → Scene
  | .step title run => .step title run
  | .story title true inner declaration scenes => .story title true inner declaration scenes
  | .story title false inner declaration scenes =>
    if title = name then .story title true inner declaration scenes
    else .story title false owner declaration (Scene.injectAll name owner scenes)

def Scene.injectAll (name : String) (owner : Owner) : List Scene → List Scene
  | [] => []
  | scene :: rest => scene.inject name owner :: injectAll name owner rest

end

def Story.inject (name : String) (owner : Owner) (story : Story) : Story :=
  ⟨owner, story.declaration, Scene.injectAll name owner story.scenes⟩

theorem Capability.name_inject (name : String) (story : Story) (c : Capability) :
    (c.inject name story).name = c.name := by
  cases c with
  | step => rfl
  | injected => rfl
  | story declaration =>
    rw [inject]
    split
    case isTrue h => exact h.symm
    case isFalse => rfl

namespace Host

variable {a b : Host} {p s : String} {sub story : Story}

namespace Injects

variable (h : a.Injects b s sub)

include h

theorem mem_capabilities {c : Capability} :
    c ∈ b.capabilities ↔ ∃ c' ∈ a.capabilities, c'.inject s sub = c := by
  rw [h.capabilities_perm.mem_iff, List.mem_map]

theorem names_perm :
    (b.capabilities.map Capability.name).Perm (a.capabilities.map Capability.name) := by
  have hm := h.capabilities_perm.map Capability.name
  rw [List.map_map] at hm
  have hn : Capability.name ∘ Capability.inject s sub = Capability.name :=
    funext (Capability.name_inject s sub)
  rwa [hn] at hm

theorem distinct (hd : (a.capabilities.map Capability.name).Nodup) :
    (b.capabilities.map Capability.name).Nodup := h.names_perm.nodup_iff.mpr hd

theorem declared_iff {declaration : Declaration} :
    Capability.story declaration ∈ b.capabilities ↔
      Capability.story declaration ∈ a.capabilities ∧ declaration.name ≠ s := by
  rw [h.mem_capabilities]
  constructor
  · rintro ⟨c, hc, he⟩
    cases c with
    | step => cases he
    | injected => cases he
    | story d =>
      rw [Capability.inject] at he
      split at he
      case isTrue => cases he
      case isFalse hn =>
        obtain rfl := Capability.story.inj he
        exact ⟨hc, hn⟩
  · rintro ⟨hm, hn⟩
    exact ⟨_, hm, if_neg hn⟩

theorem resolve (hd : (a.capabilities.map Capability.name).Nodup) {n : String} {c : Capability}
    (hr : a.resolve n = some c) : b.resolve n = some (c.inject s sub) := by
  obtain ⟨hc, hn⟩ := mem_of_resolve hr
  exact (resolve_eq_some_iff (h.distinct hd)).mpr
    ⟨h.mem_capabilities.mpr ⟨c, hc, rfl⟩, (Capability.name_inject s sub c).trans hn⟩

theorem resolves (hd : (a.capabilities.map Capability.name).Nodup) (hs : a.bind s = .ok sub)
    {body : List String} {scenes : List Scene} (hr : a.Resolves body scenes) :
    b.Resolves body (Scene.injectAll s b.owner scenes) := by
  induction hr with
  | nil => exact .nil
  | step hn _ ih => exact .step (h.resolve hd hn) ih
  | injected hn _ ih => exact .injected (h.resolve hd hn) ih
  | @story name declaration rest inner scenes hn hi _ ihd ih =>
    have hb := h.resolve hd hn
    obtain ⟨hm, hname⟩ : _ ∧ declaration.name = name := mem_of_resolve hn
    subst hname
    rw [Capability.inject] at hb
    rw [Scene.injectAll, Scene.inject]
    split at hb
    case isTrue he =>
      rw [if_pos he]
      obtain ⟨-, hsd, hso, hsr⟩ := bind_eq_ok hs
      obtain ⟨hsm, hsn⟩ := (declaration?_eq_some_iff hd).mp hsd
      have hdecl := declared_injective hd hm hsm (he.trans hsn.symm)
      rw [← hdecl] at hsr
      have hscene : Scene.story declaration.name true a.owner declaration inner =
          sub.scene declaration.name := by
        rw [Story.scene, hso, ← hdecl, hi.unique hsr]
      rw [hscene]
      rw [he] at hb ⊢
      exact .injected hb ih
    case isFalse he =>
      rw [if_neg he]
      exact .story hb ihd ih

theorem bind (hp : a.bind p = .ok story) (hs : a.bind s = .ok sub) (hne : s ≠ p) :
    b.bind p = .ok (story.inject s b.owner) := by
  obtain ⟨distinct, hd, -, hr⟩ := bind_eq_ok_iff_resolves.mp hp
  obtain ⟨hm, hn⟩ := (declaration?_eq_some_iff distinct).mp hd
  have hdecl : b.declaration? p = some story.declaration :=
    (declaration?_eq_some_iff (h.distinct distinct)).mpr
      ⟨h.declared_iff.mpr ⟨hm, fun he => hne (he.symm.trans hn)⟩, hn⟩
  exact bind_eq_ok_iff_resolves.mpr
    ⟨h.distinct distinct, hdecl, rfl, h.resolves distinct hs hr⟩

end Injects

theorem exists_bind_of_reaches {declaration : Declaration} (hp : a.bind p = .ok story)
    (hr : a.Reaches p declaration) : ∃ sub, a.bind declaration.name = .ok sub := by
  obtain ⟨root, hm, rfl, hr⟩ := hr
  have hc := compilable_of_bind hp
  have hd := declared_of_reflTransGen hm hr
  have hreach {other : Declaration} (ho : a.Reaches declaration.name other) :
      a.Reaches root.name other := by
    obtain ⟨root', hm', hn', hr'⟩ := ho
    obtain rfl := declared_injective hc.distinct hm' hd hn'
    exact ⟨root, hm, rfl, hr.trans hr'⟩
  exact Compilable.exists_bind ⟨hc.distinct, ⟨declaration, hd, rfl⟩,
    fun d hr => hc.registered d (hreach hr), fun d hr => hc.acyclic d (hreach hr)⟩

/-- The declared story that a site leads to from the body of another one. -/
def declarationAt (host : Host) (root : Declaration) : List Nat → Option Declaration
  | [] => some root
  | place :: site =>
    match root.body[place]?.bind host.resolve with
    | some (.story declaration) => host.declarationAt declaration site
    | _ => none

def enters (host : Host) (root : Declaration) (name : String) (instruction : Instruction) : Bool :=
  instruction.entered?.any fun story =>
    (host.declarationAt root story.site).any fun declaration => declaration.name == name

theorem declarationAt_append (host : Host) (root : Declaration) (xs ys : List Nat) :
    host.declarationAt root (xs ++ ys) =
      (host.declarationAt root xs).bind fun declaration => host.declarationAt declaration ys := by
  induction xs generalizing root with
  | nil => rfl
  | cons place xs ih =>
    rw [List.cons_append, declarationAt, declarationAt]
    split
    case h_1 => exact ih _
    case h_2 => rfl

theorem declarationAt_cons {host : Host} {root : Declaration} {place : Nat} {n : String}
    (hn : root.body[place]? = some n) {declaration : Declaration}
    (hr : host.resolve n = some (.story declaration)) (site : List Nat) :
    host.declarationAt root (place :: site) = host.declarationAt declaration site := by
  rw [declarationAt, hn, Option.bind_some, hr]

theorem references_of_declarationAt {host : Host} {root declaration : Declaration} {place : Nat}
    {site : List Nat} (h : host.declarationAt root (place :: site) = some declaration) :
    ∃ next, host.References root next ∧ host.declarationAt next site = some declaration := by
  rw [declarationAt] at h
  split at h
  case h_1 next hn =>
    obtain ⟨n, hb, hr⟩ := Option.bind_eq_some_iff.mp hn
    exact ⟨next, references_of_resolve (List.mem_of_getElem? hb) hr, h⟩
  case h_2 => cases h

theorem transGen_of_declarationAt {host : Host} {root declaration : Declaration} {place : Nat}
    {site : List Nat} (h : host.declarationAt root (place :: site) = some declaration) :
    Relation.TransGen host.References root declaration := by
  induction site generalizing root place with
  | nil =>
    obtain ⟨next, hr, hd⟩ := references_of_declarationAt h
    obtain rfl : next = declaration := Option.some.inj hd
    exact .single hr
  | cons _ site ih =>
    obtain ⟨next, hr, hd⟩ := references_of_declarationAt h
    exact .head hr (ih hd)

end Host

theorem getElem?_of_drop_eq_cons {α : Type} {x : α} {xs rest : List α} {k : Nat}
    (h : xs.drop k = x :: rest) : xs[k]? = some x ∧ xs.drop (k + 1) = rest := by
  constructor
  · rw [← List.head?_drop, h, List.head?_cons]
  · rw [← List.tail_drop, h, List.tail_cons]

def Action.asInjected : Action → Action
  | .enter story title _ => .enter story title true
  | action => action

/-- The instruction in another trace, where its owner is another instance of the same host and a
story that it enters is said to be injected if the instruction is marked. -/
structure Instruction.Recast (mark : Instruction → Bool) (i i' : Instruction) : Prop where
  host_eq : i'.owner.host = i.owner.host
  origin_eq : i'.origin = i.origin
  action_eq : i'.action = if mark i then i.action.asInjected else i.action

section Recast

variable {mark : Instruction → Bool} {i i' : Instruction}

theorem Instruction.recast_self (h : mark i = false) : i.Recast mark i :=
  ⟨rfl, rfl, by simp [h]⟩

theorem Instruction.Recast.label_eq (h : i.Recast mark i') : i'.label = i.label := by
  obtain ⟨owner, action, origin⟩ := i
  obtain ⟨owner', action', origin'⟩ := i'
  obtain ⟨ho, -, ha⟩ := h
  obtain rfl : action' = _ := ha
  have ho' : owner'.host = owner.host := ho
  cases action with
  | step => simp [label, Action.asInjected, ho']
  | enter => split <;> rfl
  | exit => simp [label, Action.asInjected]

theorem forall₂_recast_self {is : List Instruction} (h : ∀ i ∈ is, mark i = false) :
    List.Forall₂ (Instruction.Recast mark) is is :=
  List.forall₂_same.mpr fun i hi => Instruction.recast_self (h i hi)

theorem forall₂_recast_block {owner owner' : Owner} (ho : owner'.host = owner.host)
    {origin story : Origin} {title : String} {injected injected' : Bool}
    (hf : injected' = (injected || mark ⟨owner, .enter story title injected, origin⟩))
    {is is' : List Instruction} (h : List.Forall₂ (Instruction.Recast mark) is is') :
    List.Forall₂ (Instruction.Recast mark)
      (⟨owner, .enter story title injected, origin⟩ :: (is ++ [⟨owner, .exit story, origin⟩]))
      (⟨owner', .enter story title injected', origin⟩ ::
        (is' ++ [⟨owner', .exit story, origin⟩])) := by
  refine .cons ⟨ho, rfl, ?_⟩ (List.rel_append h (.cons ⟨ho, rfl, ?_⟩ .nil))
  · subst hf
    cases mark ⟨owner, .enter story title injected, origin⟩ <;> cases injected <;> rfl
  · split <;> rfl

end Recast

namespace Host

variable {a : Host} {root : Declaration} {s : String}

theorem enters_eq_false {i : Instruction} (h : ∀ story declaration, i.entered? = some story →
    a.declarationAt root story.site = some declaration → declaration.name ≠ s) :
    a.enters root s i = false := by
  rw [enters, Option.any_eq_false]
  intro story hs
  rw [Option.any_eq_false]
  intro declaration hd
  simpa using h story declaration hs hd

/-- Below a site from which the story is not reached nothing is cast anew. -/
theorem forall₂_recast_flatten {origin : Origin} (h : ∀ q site declaration,
    a.declarationAt root (origin.site ++ q :: site) = some declaration → declaration.name ≠ s)
    (owner : Owner) (place : Nat) (scenes : List Scene) :
    List.Forall₂ (Instruction.Recast (a.enters root s)) (Scene.flatten owner origin place scenes)
      (Scene.flatten owner origin place scenes) := by
  refine forall₂_recast_self fun i hi => enters_eq_false fun story declaration he hd => ?_
  obtain ⟨q, site, -, hs⟩ := Scene.entersFrom_flatten _ _ _ _ i hi story he
  rw [hs] at hd
  exact h q site declaration hd

theorem Resolves.recast (number : Nat)
    (apart : ∀ x y, Capability.story x ∈ a.capabilities → x.name = s →
      Relation.TransGen a.References x y → y.name ≠ s)
    {body : List String} {scenes : List Scene} (hr : a.Resolves body scenes)
    {origin : Origin} {declaration : Declaration} {place : Nat}
    (hd : a.declarationAt root origin.site = some declaration)
    (hb : declaration.body.drop place = body) :
    List.Forall₂ (Instruction.Recast (a.enters root s))
      (Scene.flatten a.owner origin place scenes)
      (Scene.flatten ⟨a.name, number⟩ origin place
        (Scene.injectAll s ⟨a.name, number⟩ scenes)) := by
  induction hr generalizing origin declaration place with
  | nil => exact .nil
  | step _ _ ih =>
    obtain ⟨-, hrest⟩ := getElem?_of_drop_eq_cons hb
    exact .cons ⟨rfl, rfl, by simp [enters, Instruction.entered?]⟩ (ih hd hrest)
  | @injected name title story rest scenes hn _ ih =>
    obtain ⟨hplace, hrest⟩ := getElem?_of_drop_eq_cons hb
    have hsite (t : List Nat) : a.declarationAt root (origin.site ++ place :: t) = none := by
      rw [declarationAt_append, hd, Option.bind_some, declarationAt, hplace, Option.bind_some, hn]
    have hscene : List.Forall₂ (Instruction.Recast (a.enters root s))
        ((story.scene title).instructions a.owner origin place)
        (((story.scene title).inject s ⟨a.name, number⟩).instructions ⟨a.name, number⟩
          origin place) := by
      rw [Story.scene, Scene.inject, Scene.instructions, Scene.instructions]
      refine forall₂_recast_block ?_ rfl (forall₂_recast_flatten (fun q t inside hi => ?_) _ _ _)
      · rfl
      · rw [List.append_assoc, List.singleton_append, hsite] at hi
        cases hi
    exact List.rel_append hscene (ih hd hrest)
  | @story name inside rest inner scenes hn _ _ ihd ih =>
    obtain ⟨hplace, hrest⟩ := getElem?_of_drop_eq_cons hb
    obtain ⟨hm, hname⟩ : _ ∧ inside.name = name := mem_of_resolve hn
    have hsite (t : List Nat) :
        a.declarationAt root (origin.site ++ place :: t) = a.declarationAt inside t := by
      rw [declarationAt_append, hd, Option.bind_some, declarationAt_cons hplace hn]
    have hmark : a.enters root s
        ⟨a.owner, .enter ⟨a.name, inside, origin.site ++ [place]⟩ name false, origin⟩ =
          (name == s) := by
      simp [enters, Instruction.entered?, hsite, declarationAt, hname]
    have hscene : List.Forall₂ (Instruction.Recast (a.enters root s))
        ((Scene.story name false a.owner inside inner).instructions a.owner origin place)
        (((Scene.story name false a.owner inside inner).inject s ⟨a.name, number⟩).instructions
          ⟨a.name, number⟩ origin place) := by
      rw [Scene.inject, Scene.instructions]
      split
      case isTrue hs =>
        rw [Scene.instructions]
        refine forall₂_recast_block ?_ ?_ (forall₂_recast_flatten (fun q t below hi => ?_) _ _ _)
        · rfl
        · exact (hmark.trans (beq_iff_eq.mpr hs)).symm
        · rw [List.append_assoc, List.singleton_append, hsite] at hi
          exact apart inside below hm (hname.trans hs) (transGen_of_declarationAt hi)
      case isFalse hs =>
        rw [Scene.instructions]
        refine forall₂_recast_block ?_ ?_ (ihd (hsite []) List.drop_zero)
        · rfl
        · exact (hmark.trans (beq_eq_false_iff_ne.mpr hs)).symm
    exact List.rel_append hscene (ih hd hrest)

variable {b : Host} {p : String} {story sub : Story} {declaration : Declaration}

theorem Injects.owner_eq (h : a.Injects b s sub) : b.owner = ⟨a.name, b.number⟩ := by
  rw [owner, h.name_eq]

theorem Injects.root_inject (h : a.Injects b s sub) (hp : a.bind p = .ok story) :
    (story.inject s b.owner).root = story.root := by
  rw [Story.root, Story.root, Story.inject, (bind_eq_ok hp).2.2.1, h.owner_eq]
  rfl

theorem Injects.recast (h : a.Injects b declaration.name sub) (hp : a.bind p = .ok story)
    (hr : a.Reaches p declaration) :
    List.Forall₂ (Instruction.Recast (a.enters story.declaration declaration.name))
      story.trace.instructions (story.inject declaration.name b.owner).trace.instructions := by
  have hc := compilable_of_bind hp
  obtain ⟨-, -, ho, hs⟩ := bind_eq_ok hp
  have hd : Capability.story declaration ∈ a.capabilities := by
    obtain ⟨root, hm, -, hr⟩ := hr
    exact declared_of_reflTransGen hm hr
  have apart (x y : Declaration) (hx : Capability.story x ∈ a.capabilities)
      (hn : x.name = declaration.name) (hxy : Relation.TransGen a.References x y) :
      y.name ≠ declaration.name := by
    intro hy
    obtain rfl := declared_injective hc.distinct hx hd hn
    have hym := declared_of_reflTransGen hd hxy.to_reflTransGen
    obtain rfl := declared_injective hc.distinct hym hd hy
    exact hc.acyclic y hr hxy
  have hroot : a.declarationAt story.declaration story.root.site = some story.declaration := rfl
  have hi := hs.recast b.number apart hroot List.drop_zero
  rw [Story.trace, Story.trace, h.root_inject hp, ho]
  rw [Story.inject, h.owner_eq]
  exact hi

end Host

end StoryEngine
