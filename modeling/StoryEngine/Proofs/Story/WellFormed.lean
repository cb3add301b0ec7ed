import StoryEngine.Proofs.Demo.Shop
import StoryEngine.Proofs.Story.Layout

/-! # Well-formed traces

The markers of a compiled story match in pairs, every instruction names the story it stands in and
is owned by an instance of the host of that story, and what was compiled for another instance is
still owned by it.
-/

namespace StoryEngine

section Owner

mutual

theorem Scene.host_instructions {owner : Owner} {origin : Origin} (h : owner.host = origin.host)
    (place : Nat) : ∀ scene : Scene,
    ∀ i ∈ scene.instructions owner origin place, i.owner.host = i.origin.host
  | .step _ _ => by
    intro i hi
    obtain rfl := List.mem_singleton.mp hi
    exact h
  | .story _ _ inner declaration scenes => by
    intro i hi
    rcases List.mem_cons.mp hi with rfl | hi
    · exact h
    rcases List.mem_append.mp hi with hi | hi
    · exact Scene.host_flatten rfl 0 scenes i hi
    · obtain rfl := List.mem_singleton.mp hi
      exact h

theorem Scene.host_flatten {owner : Owner} {origin : Origin} (h : owner.host = origin.host)
    (place : Nat) : ∀ scenes : List Scene,
    ∀ i ∈ Scene.flatten owner origin place scenes, i.owner.host = i.origin.host
  | [] => fun _ hi => absurd hi List.not_mem_nil
  | scene :: rest => by
    intro i hi
    rcases List.mem_append.mp hi with hi | hi
    · exact Scene.host_instructions h place scene i hi
    · exact Scene.host_flatten h (place + 1) rest i hi

end

end Owner

/-- The sites of the stories that are entered in a body from a place on. -/
def Instruction.EntersFrom (site : List Nat) (place : Nat) (instruction : Instruction) : Prop :=
  ∀ story, instruction.entered? = some story → ∃ q t, place ≤ q ∧ story.site = site ++ q :: t

section Sites

theorem Instruction.EntersFrom.mono {site : List Nat} {place place' : Nat} {i : Instruction}
    (h : i.EntersFrom site place') (hp : place ≤ place') : i.EntersFrom site place := by
  intro story hs
  obtain ⟨q, t, hq, ht⟩ := h story hs
  exact ⟨q, t, Nat.le_trans hp hq, ht⟩

mutual

theorem Scene.entered_instructions (owner : Owner) (origin : Origin) (place : Nat) :
    ∀ scene : Scene, ∀ i ∈ scene.instructions owner origin place, ∀ story,
    i.entered? = some story → ∃ t, story.site = origin.site ++ place :: t
  | .step _ _ => by
    intro i hi story hs
    obtain rfl := List.mem_singleton.mp hi
    cases hs
  | .story _ _ inner declaration scenes => by
    intro i hi story hs
    rcases List.mem_cons.mp hi with rfl | hi
    · obtain rfl := Option.some.inj hs
      exact ⟨[], rfl⟩
    rcases List.mem_append.mp hi with hi | hi
    · obtain ⟨q, t, -, ht⟩ := Scene.entersFrom_flatten inner _ 0 scenes i hi story hs
      exact ⟨q :: t, by simpa using ht⟩
    · obtain rfl := List.mem_singleton.mp hi
      cases hs

theorem Scene.entersFrom_flatten (owner : Owner) (origin : Origin) (place : Nat) :
    ∀ scenes : List Scene,
    ∀ i ∈ Scene.flatten owner origin place scenes, i.EntersFrom origin.site place
  | [] => fun _ hi => absurd hi List.not_mem_nil
  | scene :: rest => by
    intro i hi
    rcases List.mem_append.mp hi with hi | hi
    · intro story hs
      obtain ⟨t, ht⟩ := Scene.entered_instructions owner origin place scene i hi story hs
      exact ⟨place, t, Nat.le_refl _, ht⟩
    · exact (Scene.entersFrom_flatten owner origin (place + 1) rest i hi).mono (Nat.le_succ _)

end

def Instruction.Apart (i j : Instruction) : Prop :=
  ∀ a b, i.entered? = some a → j.entered? = some b → a.site ≠ b.site

mutual

theorem Scene.pairwise_instructions (owner : Owner) (origin : Origin) (place : Nat) :
    ∀ scene : Scene, (scene.instructions owner origin place).Pairwise Instruction.Apart
  | .step _ _ => List.pairwise_singleton _ _
  | .story _ _ inner declaration scenes => by
    have hin := Scene.entersFrom_flatten inner ⟨inner.host, declaration, origin.site ++ [place]⟩ 0
      scenes
    refine List.pairwise_cons.mpr ⟨?_, List.pairwise_append.mpr
      ⟨Scene.pairwise_flatten inner _ 0 scenes, List.pairwise_singleton _ _, ?_⟩⟩
    · intro j hj a b ha hb
      obtain rfl := Option.some.inj ha
      rcases List.mem_append.mp hj with hj | hj
      · obtain ⟨q, t, -, ht⟩ := hin j hj b hb
        simp [ht]
      · obtain rfl := List.mem_singleton.mp hj
        cases hb
    · intro i _ j hj a b _ hb
      obtain rfl := List.mem_singleton.mp hj
      cases hb

theorem Scene.pairwise_flatten (owner : Owner) (origin : Origin) (place : Nat) :
    ∀ scenes : List Scene, (Scene.flatten owner origin place scenes).Pairwise Instruction.Apart
  | [] => .nil
  | scene :: rest => by
    refine List.pairwise_append.mpr ⟨Scene.pairwise_instructions owner origin place scene,
      Scene.pairwise_flatten owner origin (place + 1) rest, ?_⟩
    intro i hi j hj a b ha hb he
    obtain ⟨t, ht⟩ := Scene.entered_instructions owner origin place scene i hi a ha
    obtain ⟨q, t', hq, ht'⟩ := Scene.entersFrom_flatten owner origin (place + 1) rest j hj b hb
    rw [ht, ht', List.append_cancel_left_eq, List.cons.injEq] at he
    omega

end

end Sites

/-- The markers of the trace match in pairs, and every instruction has its place between them. -/
structure Trace.WellFormed (trace : Trace) : Prop where
  balanced : trace.isBalanced = true
  existsUnique_exit : ∀ i, (trace.enteredAt i).isSome → ∃! j, trace.Matches i j
  existsUnique_enter : ∀ j, (trace.exitedAt j).isSome → ∃! i, trace.Matches i j
  enteredAt_eq_exitedAt : ∀ i j, trace.Matches i j → trace.enteredAt i = trace.exitedAt j
  /-- An occurrence of a story is entered once. -/
  site_injective : ∀ i j a b, trace.enteredAt i = some a → trace.enteredAt j = some b →
    a.site = b.site → i = j
  origin_eq : ∀ k i, trace.instructions[k]? = some i → i.exited? = none →
    i.origin = trace.innermost k
  /-- An exit belongs to the story that encloses the one it closes. -/
  origin_exit : ∀ j k i, trace.Matches j k → trace.instructions[k]? = some i →
    i.origin = trace.innermost j
  owner_host : ∀ i ∈ trace.instructions, i.owner.host = i.origin.host

theorem Trace.eq_of_apart {trace : Trace} (h : trace.instructions.Pairwise Instruction.Apart)
    {i j : Nat} {a b : Origin} (ha : trace.enteredAt i = some a) (hb : trace.enteredAt j = some b)
    (hs : a.site = b.site) : i = j := by
  obtain ⟨x, hi, hx⟩ := Option.bind_eq_some_iff.mp ha
  obtain ⟨y, hj, hy⟩ := Option.bind_eq_some_iff.mp hb
  obtain ⟨hil, rfl⟩ := List.getElem?_eq_some_iff.mp hi
  obtain ⟨hjl, rfl⟩ := List.getElem?_eq_some_iff.mp hj
  rw [List.pairwise_iff_getElem] at h
  rcases Nat.lt_trichotomy i j with hlt | rfl | hlt
  · exact absurd hs (h i j hil hjl hlt a b hx hy)
  · rfl
  · exact absurd hs.symm (h j i hjl hil hlt b a hy hx)

theorem Story.wellFormed_trace (story : Story) : story.trace.WellFormed where
  balanced := story.nested_trace.isBalanced
  existsUnique_exit i hi := by
    obtain ⟨j, hj⟩ := story.nested_trace.exists_exit hi
    exact ⟨j, hj, fun j' hj' => story.nested_trace.exit_unique hj' hj⟩
  existsUnique_enter j hj := by
    obtain ⟨i, hi⟩ := story.nested_trace.exists_enter hj
    exact ⟨i, hi, fun i' hi' => hi'.enter_unique hi⟩
  enteredAt_eq_exitedAt i j hm := story.nested_trace.enteredAt_of_matches hm
  site_injective i j a b ha hb hs :=
    Trace.eq_of_apart (Scene.pairwise_flatten story.owner story.root 0 story.scenes) ha hb hs
  origin_eq k i hi hx := story.nested_trace.origin_of_not_exit hi hx
  origin_exit j k i hm hi := story.nested_trace.origin_of_exit hi hm
  owner_host := Scene.host_flatten rfl 0 story.scenes

/-- The instructions of a trace follow the body of a declaration of the host. They are owned by
the host, apart from those of an injected story, which are as in the trace of that story. -/
structure Host.LaysOut (host : Host) (declaration : Declaration) (trace : Trace) : Prop where
  root : trace.root = ⟨host.name, declaration, []⟩
  collects : host.Collects trace.root 0 declaration.body trace.instructions
  owns : host.Owns trace.instructions
  splices : ∀ k story t i, host.Splices trace.instructions k story t →
    trace.instructions[k]? = some i →
    ∃ site i', story.trace.instructions[t]? = some i' ∧ i = i'.under site

theorem Host.laysOut_of_bind {host : Host} {name : String} {story : Story}
    (h : host.bind name = .ok story) : host.LaysOut story.declaration story.trace := by
  obtain ⟨-, -, ho, hr⟩ := bind_eq_ok h
  have hc := collects_of_resolves hr story.root 0
  rw [← ho] at hc
  refine ⟨?_, hc, hc.owns, ?_⟩
  · rw [Story.trace, Story.root, ho]
    rfl
  · intro k injected t i hs hi
    exact hs.instruction hi

/-- The instruction at `k` of a bound story stems from a story that was bound against the host:
from the bound story itself, or at any depth from one that was injected into it. -/
inductive Story.BoundAt : Story → Nat → Host → Prop where
  | own {host : Host} {name : String} {story : Story} {k : Nat} :
      host.bind name = .ok story →
      (¬ ∃ injected t, host.Splices story.trace.instructions k injected t) → BoundAt story k host
  | injected {host binder : Host} {name : String} {story injected : Story} {k t : Nat} :
      host.bind name = .ok story → host.Splices story.trace.instructions k injected t →
      BoundAt injected t binder → BoundAt story k binder

theorem Story.BoundAt.owner {story : Story} {k : Nat} {binder : Host} (h : story.BoundAt k binder)
    {i : Instruction} (hi : story.trace.instructions[k]? = some i) : i.owner = binder.owner := by
  induction h generalizing i with
  | own hb hn =>
    rcases (Host.laysOut_of_bind hb).owns hi with ho | hs
    · exact ho
    · exact absurd hs hn
  | injected hb hs _ ih =>
    obtain ⟨site, i', hi', rfl⟩ := (Host.laysOut_of_bind hb).splices _ _ _ i hs hi
    have ho : i'.owner = _ := ih hi'
    exact ho

theorem Demo.not_splices_inventory (stock : Int) (is : List Instruction) (k : Nat) :
    ¬ ∃ injected t, (Inventory.host stock).Splices is k injected t := by
  rintro ⟨_, _, name, title, _, _, _, _, hr, -⟩
  have hn : (Inventory.host stock).injections = [] := rfl
  unfold Host.resolve at hr
  split at hr
  · cases hr
  · split at hr
    · cases hr
    · simp [hn, Host.lastOf] at hr

/-- In a purchase the first step of the injected story is owned by the inventory. -/
theorem Demo.boundAt_smallShop : smallShop.BoundAt 2 (Inventory.host 20) := by
  have hs : (Shop.host 5 (reserved 20)).Splices smallShop.trace.instructions 2 (reserved 20) 0 :=
    ⟨"reserve", "reserve", smallShop.root, [1], smallShop.trace.instructions.take 1,
      smallShop.trace.instructions.drop 5, rfl, rfl, rfl, by decide⟩
  exact .injected (bind_purchase 5 _) hs (.own (bind_reserve 20) (not_splices_inventory _ _ _))

/-- Binding a story gives a well-formed trace, laid out along the body of its declaration, in
which every instance owns what was bound against it. -/
theorem Host.wellFormed_of_bind {host : Host} {name : String} {story : Story}
    (h : host.bind name = .ok story) :
    story.trace.WellFormed ∧ host.declaration? name = some story.declaration ∧
      host.LaysOut story.declaration story.trace ∧
      ∀ k i binder, story.BoundAt k binder → story.trace.instructions[k]? = some i →
        i.owner = binder.owner :=
  ⟨story.wellFormed_trace, (bind_eq_ok h).2.1, laysOut_of_bind h,
    fun _ _ _ hb hi => hb.owner hi⟩

theorem Demo.wellFormed_smallShop :
    (Shop.host 5 (reserved 20)).bind "purchase" = .ok smallShop ∧ smallShop.trace.WellFormed ∧
      (Shop.host 5 (reserved 20)).LaysOut Shop.purchase smallShop.trace ∧
      ∀ i, smallShop.trace.instructions[2]? = some i → i.owner = ⟨"Inventory", 0⟩ := by
  have hb : (Shop.host 5 (reserved 20)).bind "purchase" = .ok smallShop := bind_purchase 5 _
  obtain ⟨hw, -, hl, ho⟩ := Host.wellFormed_of_bind hb
  exact ⟨hb, hw, hl, fun i hi => ho 2 i _ boundAt_smallShop hi⟩

end StoryEngine
