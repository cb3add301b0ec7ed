import Mathlib.Logic.ExistsUnique
import StoryEngine.Proofs.Story.Brackets
import StoryEngine.Story.Basic

/-! # Nested traces

The trace of a story leads from the root back to the root: each instruction belongs to the story
on top of the stack of open stories, and an exit closes that story.
-/

namespace StoryEngine

/-- An instruction belongs to the innermost active story, an exit to the one that encloses it. -/
def Instruction.Fits (instruction : Instruction) (active : List Origin) : Prop :=
  match instruction.action with
  | .exit story => ∃ outer, active = story :: instruction.origin :: outer
  | _ => ∃ outer, active = instruction.origin :: outer

/-- Instructions that lead from one stack of active stories to another. -/
inductive Nests : List Origin → List Instruction → List Origin → Prop where
  | nil (active : List Origin) : Nests active [] active
  | cons {i : Instruction} {active last : List Origin} {rest : List Instruction} :
      i.Fits active → Nests (i.shift id active) rest last → Nests active (i :: rest) last

namespace Nests

variable {active middle last : List Origin} {xs ys : List Instruction}

theorem append (h : Nests active xs middle) (h' : Nests middle ys last) :
    Nests active (xs ++ ys) last := by
  induction h with
  | nil => exact h'
  | cons hf _ ih => exact .cons hf (ih h')

theorem split (h : Nests active (xs ++ ys) last) :
    ∃ middle, Nests active xs middle ∧ Nests middle ys last := by
  induction xs generalizing active with
  | nil => exact ⟨active, .nil active, h⟩
  | cons i xs ih =>
    cases h with
    | cons hf h =>
      obtain ⟨middle, hx, hy⟩ := ih h
      exact ⟨middle, .cons hf hx, hy⟩

theorem last_unique (h : Nests active xs middle) (h' : Nests active xs last) : middle = last := by
  induction h with
  | nil => cases h'; rfl
  | cons _ _ ih => cases h' with | cons _ h' => exact ih h'

end Nests

section Flatten

mutual

theorem Scene.nests_instructions (owner : Owner) (origin : Origin) (outer : List Origin)
    (place : Nat) : ∀ scene : Scene,
    Nests (origin :: outer) (scene.instructions owner origin place) (origin :: outer)
  | .step _ _ => .cons ⟨outer, rfl⟩ (.nil _)
  | .story _ _ inner declaration scenes =>
    have hb := Scene.nests_flatten inner ⟨inner.host, declaration, origin.site ++ [place]⟩
      (origin :: outer) 0 scenes
    .cons ⟨outer, rfl⟩ (hb.append (.cons ⟨outer, rfl⟩ (.nil _)))

theorem Scene.nests_flatten (owner : Owner) (origin : Origin) (outer : List Origin)
    (place : Nat) : ∀ scenes : List Scene,
    Nests (origin :: outer) (Scene.flatten owner origin place scenes) (origin :: outer)
  | [] => .nil _
  | scene :: rest =>
    (Scene.nests_instructions owner origin outer place scene).append
      (Scene.nests_flatten owner origin outer (place + 1) rest)

end

end Flatten

def Trace.Nested (trace : Trace) : Prop := Nests [trace.root] trace.instructions [trace.root]

theorem Story.nested_trace (story : Story) : story.trace.Nested :=
  Scene.nests_flatten story.owner story.root [] 0 story.scenes

namespace Trace

variable {trace : Trace}

theorem Nested.at (h : trace.Nested) {k : Nat} {i : Instruction} {active : List Origin}
    (hi : trace.instructions[k]? = some i)
    (ha : Nests [trace.root] (trace.instructions.take k) active) : i.Fits active := by
  obtain ⟨hk, hg⟩ := List.getElem?_eq_some_iff.mp hi
  have hs : trace.instructions =
      trace.instructions.take k ++ i :: trace.instructions.drop (k + 1) := by
    rw [← hg, ← List.drop_eq_getElem_cons hk, List.take_append_drop]
  unfold Nested at h
  rw [hs] at h
  obtain ⟨middle, hm, hr⟩ := h.split
  rw [← hm.last_unique ha]
  cases hr with
  | cons hf _ => exact hf

theorem Nested.exists_stories (h : trace.Nested) (k : Nat) :
    ∃ stories, (trace.marksBefore k).map trace.enteredAt = stories.map some ∧
      Nests [trace.root] (trace.instructions.take k) (stories ++ [trace.root]) := by
  induction k with
  | zero => exact ⟨[], rfl, .nil _⟩
  | succ k ih =>
    obtain ⟨stories, hm, hn⟩ := ih
    cases hi : trace.instructions[k]? with
    | none =>
      rw [marksBefore_succ_of_none hi, List.take_add_one, hi, Option.toList_none, List.append_nil]
      exact ⟨stories, hm, hn⟩
    | some i =>
      have hf := h.at hi hn
      have hn' := hn.append (.cons hf (.nil _))
      rw [marksBefore_succ hi, List.take_add_one, hi]
      obtain ⟨owner, action, origin⟩ := i
      cases action with
      | step => exact ⟨stories, hm, hn'⟩
      | enter story title injected =>
        have he : trace.enteredAt k = some story := enteredAt_eq_some.mpr ⟨_, _, _, _, hi⟩
        exact ⟨story :: stories, by simp [Instruction.shift, he, hm], hn'⟩
      | exit story =>
        obtain ⟨outer, ho⟩ := hf
        cases stories with
        | nil => simp at ho
        | cons top stories =>
          refine ⟨stories, ?_, hn'⟩
          simp only [Instruction.shift, List.map_tail, hm, List.map_cons, List.tail_cons]

theorem Nested.entered_top (h : trace.Nested) {k : Nat} {owner : Owner} {origin story : Origin}
    (hi : trace.instructions[k]? = some ⟨owner, .exit story, origin⟩) :
    ∃ m rest, trace.marksBefore k = m :: rest ∧ trace.enteredAt m = some story := by
  obtain ⟨stories, hm, hn⟩ := h.exists_stories k
  obtain ⟨outer, ho⟩ := h.at hi hn
  cases stories with
  | nil => simp at ho
  | cons top stories =>
    obtain rfl : top = story := (List.cons.inj ho).1
    cases hs : trace.marksBefore k with
    | nil => simp [hs] at hm
    | cons m rest =>
      rw [hs] at hm
      exact ⟨m, rest, rfl, (List.cons.inj hm).1⟩

/-- Below the innermost open position lie those that were open there, and what follows it is
balanced. -/
theorem Nested.below_top (h : trace.Nested) {k m : Nat} {rest : List Nat}
    (hs : trace.marksBefore k = m :: rest) (hk : k ≤ trace.size) :
    rest = trace.marksBefore m ∧ balancedFrom [] (trace.between (m + 1) k) = true := by
  induction k using Nat.strongRecOn generalizing m rest with
  | ind k ih =>
    cases k with
    | zero => cases hs
    | succ k =>
      obtain ⟨i, hi⟩ : ∃ i, trace.instructions[k]? = some i :=
        ⟨_, List.getElem?_eq_getElem hk⟩
      have hm := (of_mem_marksBefore (hs ▸ List.mem_cons_self)).1
      have hb (hmk : m + 1 ≤ k) :
          trace.between (m + 1) k ++ trace.between k (k + 1) = trace.between (m + 1) (k + 1) :=
        between_append hmk (Nat.le_succ k)
      rw [between_succ hi] at hb
      rw [marksBefore_succ hi] at hs
      obtain ⟨owner, action, origin⟩ := i
      cases action with
      | step =>
        obtain ⟨hr, hbal⟩ := ih k (Nat.lt_succ_self k) hs (Nat.le_of_succ_le hk)
        have hmk := (of_mem_marksBefore (hs ▸ List.mem_cons_self)).1
        exact ⟨hr, by rw [← hb hmk, balancedFrom_closed hbal]; rfl⟩
      | enter =>
        obtain ⟨rfl, rfl⟩ := List.cons.inj hs
        exact ⟨rfl, by rw [between_self]; rfl⟩
      | exit story =>
        obtain ⟨u, outer, hu, he⟩ := h.entered_top hi
        obtain rfl : outer = m :: rest := by simpa [Instruction.shift, hu] using hs
        have huk := (of_mem_marksBefore (hu ▸ List.mem_cons_self)).1
        obtain ⟨hou, hbu⟩ := ih k (Nat.lt_succ_self k) hu (Nat.le_of_succ_le hk)
        have hmu := (of_mem_marksBefore (hou ▸ List.mem_cons_self)).1
        obtain ⟨hr, hbm⟩ := ih u (Nat.lt_succ_of_lt huk) hou.symm (by omega)
        refine ⟨hr, ?_⟩
        rw [← hb (by omega), ← between_append hmu (Nat.le_of_lt huk),
          ← between_append (Nat.le_succ u) huk, List.append_assoc, List.append_assoc]
        exact balancedFrom_block hbm he hbu _ _

theorem lt_size_of_getElem? {k : Nat} {i : Instruction} (hi : trace.instructions[k]? = some i) :
    k < trace.size := (List.getElem?_eq_some_iff.mp hi).1

theorem Nested.matches_top (h : trace.Nested) {k : Nat} {owner : Owner} {origin story : Origin}
    (hi : trace.instructions[k]? = some ⟨owner, .exit story, origin⟩) :
    ∃ m, trace.Matches m k ∧ trace.enteredAt m = some story := by
  obtain ⟨m, rest, hs, he⟩ := h.entered_top hi
  obtain ⟨hm, hb⟩ := h.below_top hs (Nat.le_of_lt (lt_size_of_getElem? hi))
  have hx : trace.exitedAt k = some story := exitedAt_eq_some.mpr ⟨_, _, hi⟩
  exact ⟨m, ⟨(of_mem_marksBefore (hs ▸ List.mem_cons_self)).1, by simp [he], by simp [hx], hb⟩, he⟩

/-- The enters that no exit has matched yet are the positions on the stack. -/
theorem Nested.openBefore_eq (h : trace.Nested) (k : Nat) :
    trace.openBefore k = (trace.marksBefore k).reverse := by
  induction k with
  | zero => rfl
  | succ k ih =>
    rw [openBefore_succ, ih]
    cases hi : trace.instructions[k]? with
    | none =>
      have hm (i : Nat) : ¬ trace.Matches i k := fun h => by simp [Matches, exitedAt, hi] at h
      have he : (trace.enteredAt k).isSome = false := by simp [enteredAt, hi]
      simp [marksBefore_succ_of_none hi, hm, he]
    | some i =>
      rw [marksBefore_succ hi]
      obtain ⟨owner, action, origin⟩ := i
      cases action with
      | step =>
        have hm (i : Nat) : ¬ trace.Matches i k := fun h => by
          simp [Matches, exitedAt, hi, Instruction.exited?] at h
        simp [hm, Instruction.shift, enteredAt, hi, Instruction.entered?]
      | enter =>
        have hm (i : Nat) : ¬ trace.Matches i k := fun h => by
          simp [Matches, exitedAt, hi, Instruction.exited?] at h
        simp [hm, Instruction.shift, enteredAt, hi, Instruction.entered?]
      | exit story =>
        obtain ⟨m, hm, -⟩ := h.matches_top hi
        have hbelow : ∀ i ∈ (trace.marksBefore m).reverse, ¬ trace.Matches i k := fun i him hik =>
          absurd (of_mem_marksBefore (List.mem_reverse.mp him)).1
            (Nat.not_lt.mpr (Nat.le_of_eq (hm.enter_unique hik)))
        have hkept : (trace.marksBefore m).reverse.filter (fun i => ¬ trace.Matches i k) =
            (trace.marksBefore m).reverse :=
          List.filter_eq_self.mpr fun i him => decide_eq_true (hbelow i him)
        rw [hm.marksBefore, List.reverse_cons, List.filter_append, hkept]
        simp [hm, Instruction.shift, enteredAt, hi, Instruction.entered?]

theorem activeBefore_eq_cons (trace : Trace) (k : Nat) :
    ∃ outer, trace.activeBefore k = trace.innermost k :: outer := by
  unfold activeBefore innermost
  rw [← List.head?_reverse]
  cases (trace.storiesBefore k).reverse with
  | nil => exact ⟨[], rfl⟩
  | cons story outer => exact ⟨outer ++ [trace.root], rfl⟩

theorem Nested.map_marksBefore (h : trace.Nested) (k : Nat) :
    (trace.marksBefore k).map trace.enteredAt = (trace.storiesBefore k).reverse.map some := by
  obtain ⟨stories, hm, -⟩ := h.exists_stories k
  have hf : (trace.marksBefore k).filterMap trace.enteredAt = stories := by
    have hid : (trace.marksBefore k).filterMap trace.enteredAt =
        ((trace.marksBefore k).map trace.enteredAt).filterMap id := by
      rw [List.filterMap_map, Function.id_comp]
    rw [hid, hm, List.filterMap_map, Function.id_comp, List.filterMap_some]
  rw [hm, storiesBefore, h.openBefore_eq, List.filterMap_reverse, hf, List.reverse_reverse]

/-- Every beginning of the trace leads to the stack of its open stories. -/
theorem Nested.activeBefore (h : trace.Nested) (k : Nat) :
    Nests [trace.root] (trace.instructions.take k) (trace.activeBefore k) := by
  obtain ⟨stories, hm, hn⟩ := h.exists_stories k
  have hs : stories = (trace.storiesBefore k).reverse :=
    (List.map_inj_right fun _ _ => Option.some.inj).mp (hm.symm.trans (h.map_marksBefore k))
  rw [Trace.activeBefore, ← hs]
  exact hn

theorem Nested.length_storiesBefore (h : trace.Nested) (k : Nat) :
    (trace.storiesBefore k).length = (trace.openBefore k).length := by
  have hl := congrArg List.length (h.map_marksBefore k)
  simpa [h.openBefore_eq] using hl.symm

theorem Nested.activeBefore_succ (h : trace.Nested) {k : Nat} {i : Instruction}
    (hi : trace.instructions[k]? = some i) :
    trace.activeBefore (k + 1) = i.shift id (trace.activeBefore k) := by
  have hk := h.activeBefore k
  have hs := hk.append (.cons (h.at hi hk) (.nil _))
  have hn := h.activeBefore (k + 1)
  rw [List.take_add_one, hi] at hn
  exact hn.last_unique hs

theorem Nested.length_activeBefore (h : trace.Nested) (k : Nat) :
    (trace.activeBefore k).length = (trace.openBefore k).length + 1 := by
  simp [Trace.activeBefore, h.length_storiesBefore]

theorem Nested.openBefore_size (h : trace.Nested) : trace.openBefore trace.size = [] := by
  have hn := h.activeBefore trace.size
  rw [size, List.take_length] at hn
  have hs : trace.activeBefore trace.size = [trace.root] := hn.last_unique h
  have hz : trace.storiesBefore trace.size = [] := by simpa [Trace.activeBefore] using hs
  rw [← List.length_eq_zero_iff, ← h.length_storiesBefore, hz, List.length_nil]

theorem Nested.exists_exit (h : trace.Nested) {i : Nat} (he : (trace.enteredAt i).isSome) :
    ∃ j, trace.Matches i j := by
  have hi : i < trace.size := by
    obtain ⟨story, hs⟩ := Option.isSome_iff_exists.mp he
    obtain ⟨_, _, _, _, hi⟩ := enteredAt_eq_some.mp hs
    exact lt_size_of_getElem? hi
  by_cases hj : ∃ j, trace.Matches i j
  · exact hj
  · have hm : i ∈ trace.openBefore trace.size :=
      mem_openBefore_iff.mpr ⟨hi, he, fun j _ h => hj ⟨j, h⟩⟩
    rw [h.openBefore_size] at hm
    cases hm

theorem Nested.exists_enter (h : trace.Nested) {j : Nat} (he : (trace.exitedAt j).isSome) :
    ∃ i, trace.Matches i j := by
  obtain ⟨story, hs⟩ := Option.isSome_iff_exists.mp he
  obtain ⟨_, _, hj⟩ := exitedAt_eq_some.mp hs
  obtain ⟨i, hi, -⟩ := h.matches_top hj
  exact ⟨i, hi⟩

theorem Nested.mem_of_matches (h : trace.Nested) {i j : Nat} (hm : trace.Matches i j) :
    i ∈ trace.openBefore j := by
  rw [h.openBefore_eq, hm.marksBefore]
  simp

theorem Nested.openBefore_of_getLast? (h : trace.Nested) {e k : Nat} (hk : k ≤ trace.size)
    (he : (trace.openBefore k).getLast? = some e) :
    trace.openBefore k = trace.openBefore e ++ [e] := by
  rw [h.openBefore_eq, List.getLast?_reverse] at he
  cases hs : trace.marksBefore k with
  | nil => simp [hs] at he
  | cons m rest =>
    obtain rfl : m = e := by simpa [hs] using he
    rw [h.openBefore_eq, hs, (h.below_top hs hk).1, List.reverse_cons, ← h.openBefore_eq]

theorem Nested.exit_unique (h : trace.Nested) {i j j' : Nat} (hm : trace.Matches i j)
    (hm' : trace.Matches i j') : j = j' := by
  rcases Nat.lt_trichotomy j j' with hlt | rfl | hlt
  · exact absurd hm ((mem_openBefore_iff.mp (h.mem_of_matches hm')).2.2 _ hlt)
  · rfl
  · exact absurd hm' ((mem_openBefore_iff.mp (h.mem_of_matches hm)).2.2 _ hlt)

theorem Nested.enteredAt_of_matches (h : trace.Nested) {i j : Nat} (hm : trace.Matches i j) :
    trace.enteredAt i = trace.exitedAt j := by
  obtain ⟨story, owner, origin, hi⟩ := hm.exists_exit
  obtain ⟨i', hm', hi'⟩ := h.matches_top hi
  rw [hm.enter_unique hm', hi', exitedAt_eq_some.mpr ⟨owner, origin, hi⟩]

theorem Nested.storiesBefore_of_matches (h : trace.Nested) {i j : Nat} {story : Origin}
    (hm : trace.Matches i j) (he : trace.enteredAt i = some story) :
    trace.storiesBefore j = trace.storiesBefore i ++ [story] := by
  rw [storiesBefore, h.openBefore_eq, hm.marksBefore, List.reverse_cons, List.filterMap_append,
    ← h.openBefore_eq]
  simp [storiesBefore, he]

theorem Nested.origin_of_not_exit (h : trace.Nested) {k : Nat} {i : Instruction}
    (hi : trace.instructions[k]? = some i) (hx : i.exited? = none) :
    i.origin = trace.innermost k := by
  obtain ⟨outer, ho⟩ := trace.activeBefore_eq_cons k
  have hf := h.at hi (h.activeBefore k)
  rw [ho] at hf
  obtain ⟨owner, action, origin⟩ := i
  cases action with
  | step => obtain ⟨_, he⟩ := hf; exact (List.cons.inj he).1.symm
  | enter => obtain ⟨_, he⟩ := hf; exact (List.cons.inj he).1.symm
  | exit => cases hx

theorem Nested.origin_of_exit (h : trace.Nested) {j k : Nat} {i : Instruction}
    (hi : trace.instructions[k]? = some i) (hm : trace.Matches j k) :
    i.origin = trace.innermost j := by
  obtain ⟨story, he⟩ := Option.isSome_iff_exists.mp hm.2.1
  have ha : trace.activeBefore k = story :: trace.activeBefore j := by
    simp [Trace.activeBefore, h.storiesBefore_of_matches hm he]
  obtain ⟨_, _, _, hk⟩ := hm.exists_exit
  obtain rfl := Option.some.inj (hi.symm.trans hk)
  obtain ⟨_, hf⟩ := h.at hi (h.activeBefore k)
  obtain ⟨outer, ho⟩ := trace.activeBefore_eq_cons j
  rw [ha, ho] at hf
  exact (List.cons.inj (List.cons.inj hf).2).1.symm

end Trace

theorem Nests.balancedFrom {root : Origin} {xs : List Origin} {is : List Instruction}
    (h : Nests (xs ++ [root]) is [root]) : Trace.balancedFrom xs is = true := by
  generalize ha : xs ++ [root] = active at h
  generalize hl : [root] = last at h
  induction h generalizing xs with
  | nil active =>
    subst hl
    obtain rfl : xs = [] := by simpa using ha
    rfl
  | @cons i active last rest hf _ ih =>
    subst ha
    obtain ⟨owner, action, origin⟩ := i
    cases action with
    | step => exact ih rfl hl
    | enter story =>
      have hs : (story :: xs) ++ [root] = story :: (xs ++ [root]) := rfl
      exact ih hs hl
    | exit story =>
      obtain ⟨outer, ho⟩ := hf
      cases xs with
      | nil => simp at ho
      | cons top xs =>
        obtain rfl : top = story := (List.cons.inj ho).1
        simp only [Trace.balancedFrom, Origin.same, beq_self_eq_true, Bool.and_self, Bool.true_and]
        exact ih rfl hl

theorem Trace.Nested.isBalanced {trace : Trace} (h : trace.Nested) : trace.isBalanced = true := by
  have hn : Nests ([] ++ [trace.root]) trace.instructions [trace.root] := h
  exact hn.balancedFrom

end StoryEngine
