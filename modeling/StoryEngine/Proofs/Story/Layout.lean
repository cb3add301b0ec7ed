import Mathlib.Data.List.Forall2
import StoryEngine.Proofs.Story.Nesting
import StoryEngine.Proofs.Story.Resolution

/-! # Layout of compiled traces

The instructions of a compiled story follow its body: a step gives one instruction, a declared
story its own layout between two markers, and an injected story the instructions of the trace it
was compiled to, with their owners, moved to the site where it is entered.
-/

namespace StoryEngine

theorem Trace.fingerprint_congr {trace trace' : Trace}
    (hl : trace'.root.label = trace.root.label)
    (ha : trace'.root.declaration.arguments = trace.root.declaration.arguments)
    (hs : trace'.labels = trace.labels) : trace'.fingerprint = trace.fingerprint := by
  rw [fingerprint, fingerprint, shape, shape, hl, ha, hs]

theorem map_label_of_forall₂ {r : Instruction → Instruction → Prop}
    (hr : ∀ i i', r i i' → i'.label = i.label) {is is' : List Instruction}
    (h : List.Forall₂ r is is') :
    is'.map Instruction.label = is.map Instruction.label := by
  induction h with
  | nil => rfl
  | cons hi _ ih => rw [List.map_cons, List.map_cons, hr _ _ hi, ih]

/-- An occurrence of a story in a trace that stands at a site of another trace. -/
def Origin.under (site : List Nat) (origin : Origin) : Origin :=
  { origin with site := site ++ origin.site }

def Action.under (site : List Nat) : Action → Action
  | .step name run => .step name run
  | .enter story title injected => .enter (story.under site) title injected
  | .exit story => .exit (story.under site)

def Instruction.under (site : List Nat) (instruction : Instruction) : Instruction :=
  ⟨instruction.owner, instruction.action.under site, instruction.origin.under site⟩

section Under

mutual

theorem Scene.map_under_instructions (site : List Nat) (owner : Owner) (origin : Origin)
    (place : Nat) : ∀ scene : Scene,
    (scene.instructions owner origin place).map (Instruction.under site) =
      scene.instructions owner (origin.under site) place
  | .step _ _ => rfl
  | .story _ _ inner declaration scenes => by
    have hs : Origin.under site ⟨inner.host, declaration, origin.site ++ [place]⟩ =
        ⟨inner.host, declaration, (origin.under site).site ++ [place]⟩ := by
      simp [Origin.under]
    have hb := Scene.map_under_flatten site inner
      ⟨inner.host, declaration, origin.site ++ [place]⟩ 0 scenes
    rw [hs] at hb
    simp only [Scene.instructions, List.map_cons, List.map_append, hb, Instruction.under,
      Action.under, hs, List.map_nil]

theorem Scene.map_under_flatten (site : List Nat) (owner : Owner) (origin : Origin)
    (place : Nat) : ∀ scenes : List Scene,
    (Scene.flatten owner origin place scenes).map (Instruction.under site) =
      Scene.flatten owner (origin.under site) place scenes
  | [] => rfl
  | scene :: rest => by
    rw [Scene.flatten, List.map_append, Scene.map_under_instructions site owner origin place scene,
      Scene.map_under_flatten site owner origin (place + 1) rest, Scene.flatten]

end

end Under

namespace Story

def entry (story : Story) (site : List Nat) : Origin := ⟨story.owner.host, story.declaration, site⟩

def spliced (story : Story) (site : List Nat) : List Instruction :=
  story.trace.instructions.map (Instruction.under site)

theorem spliced_eq (story : Story) (site : List Nat) :
    story.spliced site = Scene.flatten story.owner (story.entry site) 0 story.scenes := by
  have hr : story.root.under site = story.entry site := by simp [Origin.under, root, entry]
  rw [← hr]
  exact Scene.map_under_flatten site story.owner story.root 0 story.scenes

end Story

namespace Host

def block (host : Host) (origin story : Origin) (title : String) (injected : Bool)
    (inner : List Instruction) : List Instruction :=
  ⟨host.owner, .enter story title injected, origin⟩ ::
    (inner ++ [⟨host.owner, .exit story, origin⟩])

/-- The instructions that the names of a body of `origin` are compiled to, from a place on. -/
inductive Collects (host : Host) : Origin → Nat → List String → List Instruction → Prop where
  | nil {origin : Origin} {place : Nat} : Collects host origin place [] []
  | step {origin : Origin} {place : Nat} {name title : String} {run : Step} {rest : List String}
      {is : List Instruction} :
      host.resolve name = some (.step title run) → Collects host origin (place + 1) rest is →
      Collects host origin place (name :: rest) (⟨host.owner, .step title run, origin⟩ :: is)
  | injected {origin : Origin} {place : Nat} {name title : String} {story : Story}
      {rest : List String} {is : List Instruction} :
      host.resolve name = some (.injected title story) →
      Collects host origin (place + 1) rest is →
      Collects host origin place (name :: rest)
        (host.block origin (story.entry (origin.site ++ [place])) title true
          (story.spliced (origin.site ++ [place])) ++ is)
  | story {origin : Origin} {place : Nat} {name : String} {declaration : Declaration}
      {rest : List String} {inner is : List Instruction} :
      host.resolve name = some (.story declaration) →
      Collects host ⟨host.name, declaration, origin.site ++ [place]⟩ 0 declaration.body inner →
      Collects host origin (place + 1) rest is →
      Collects host origin place (name :: rest)
        (host.block origin ⟨host.name, declaration, origin.site ++ [place]⟩ name false inner ++ is)

variable {host : Host}

theorem collects_of_resolves {body : List String} {scenes : List Scene}
    (h : host.Resolves body scenes) (origin : Origin) (place : Nat) :
    host.Collects origin place body (Scene.flatten host.owner origin place scenes) := by
  induction h generalizing origin place with
  | nil => exact .nil
  | step hr _ ih => exact .step hr (ih origin (place + 1))
  | injected hr _ ih =>
    have hc := Collects.injected hr (ih origin (place + 1))
    rw [Story.spliced_eq] at hc
    exact hc
  | story hr _ _ ihd ih => exact .story hr (ihd _ 0) (ih origin (place + 1))

/-- The instruction at `k` is the one at `t` of the trace of an injected story, which stands
between the markers of its entry. -/
def Splices (host : Host) (is : List Instruction) (k : Nat) (story : Story) (t : Nat) : Prop :=
  ∃ name title origin site before after,
    host.resolve name = some (.injected title story) ∧
      is = before ++ (host.block origin (story.entry site) title true (story.spliced site) ++
        after) ∧
      k = before.length + 1 + t ∧ t < story.trace.size

variable {is : List Instruction} {k t : Nat} {story : Story}

theorem Splices.embed (h : host.Splices is k story t) (xs ys : List Instruction) :
    host.Splices (xs ++ (is ++ ys)) (xs.length + k) story t := by
  obtain ⟨name, title, origin, site, before, after, hr, rfl, rfl, ht⟩ := h
  refine ⟨name, title, origin, site, xs ++ before, after ++ ys, hr, ?_, ?_, ht⟩
  · simp only [List.append_assoc]
  · rw [List.length_append]
    omega

theorem Splices.instruction (h : host.Splices is k story t) {i : Instruction}
    (hi : is[k]? = some i) :
    ∃ site i', story.trace.instructions[t]? = some i' ∧ i = i'.under site := by
  obtain ⟨name, title, origin, site, before, after, hr, rfl, rfl, ht⟩ := h
  have hs : (story.spliced site).length = story.trace.size := List.length_map _
  rw [List.getElem?_append_right (by omega)] at hi
  have hk : before.length + 1 + t - before.length = t + 1 := by omega
  rw [hk, block, List.cons_append, List.getElem?_cons_succ, List.append_assoc,
    List.getElem?_append_left (by omega), Story.spliced, List.getElem?_map] at hi
  obtain ⟨i', hi', rfl⟩ := Option.map_eq_some_iff.mp hi
  exact ⟨site, i', hi', rfl⟩

/-- Instructions of which each is the host's own or belongs to an injected story. -/
def Owns (host : Host) (is : List Instruction) : Prop :=
  ∀ ⦃k i⦄, is[k]? = some i → i.owner = host.owner ∨ ∃ story t, host.Splices is k story t

theorem Owns.append {xs ys : List Instruction} (hx : host.Owns xs) (hy : host.Owns ys) :
    host.Owns (xs ++ ys) := by
  intro k i hi
  by_cases hk : k < xs.length
  · rw [List.getElem?_append_left hk] at hi
    refine (hx hi).imp_right ?_
    rintro ⟨story, t, hs⟩
    have he := hs.embed [] ys
    rw [List.length_nil, Nat.zero_add] at he
    exact ⟨story, t, he⟩
  · have hk' : xs.length + (k - xs.length) = k := by omega
    rw [List.getElem?_append_right (by omega)] at hi
    refine (hy hi).imp_right ?_
    rintro ⟨story, t, hs⟩
    have he := hs.embed xs []
    rw [hk', List.append_nil] at he
    exact ⟨story, t, he⟩

theorem owns_singleton {i : Instruction} (h : i.owner = host.owner) : host.Owns [i] := by
  intro k j hj
  obtain rfl : j = i := List.mem_singleton.mp (List.mem_of_getElem? hj)
  exact Or.inl h

theorem Owns.cons {i : Instruction} (hi : i.owner = host.owner) (h : host.Owns is) :
    host.Owns (i :: is) := (owns_singleton hi).append h

theorem Owns.block {inner : List Instruction} (h : host.Owns inner) (origin story : Origin)
    (title : String) (injected : Bool) : host.Owns (host.block origin story title injected inner) :=
  Owns.cons rfl (h.append (owns_singleton rfl))

theorem owns_block_of_injected {name title : String}
    (hr : host.resolve name = some (.injected title story)) (origin : Origin) (site : List Nat) :
    host.Owns (host.block origin (story.entry site) title true (story.spliced site)) := by
  intro k i hi
  have hs : (story.spliced site).length = story.trace.size := List.length_map _
  cases k with
  | zero =>
    obtain rfl := Option.some.inj hi
    exact Or.inl rfl
  | succ k =>
    by_cases hk : k < story.trace.size
    · exact Or.inr ⟨story, k, name, title, origin, site, [], [], hr, by simp, by simp; omega, hk⟩
    · rw [Host.block, List.getElem?_cons_succ, List.getElem?_append_right (by omega)] at hi
      obtain rfl := List.mem_singleton.mp (List.mem_of_getElem? hi)
      exact Or.inl rfl

theorem Collects.owns {origin : Origin} {place : Nat} {body : List String}
    (h : host.Collects origin place body is) : host.Owns is := by
  induction h with
  | nil => intro k i hi; simp at hi
  | step _ _ ih => exact ih.cons rfl
  | injected hr _ ih => exact (owns_block_of_injected hr _ _).append ih
  | story _ _ _ ihd ih => exact (ihd.block _ _ _ _).append ih

end Host

end StoryEngine
