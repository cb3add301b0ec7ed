import StoryEngine.Proofs.Demo.Shop
import StoryEngine.Proofs.Run.Reach
import StoryEngine.Proofs.Story.Nesting

/-! # The stack of a walk

Just before each instruction that a walk reaches, its stack holds the stories that are open there
in the trace, whether or not a skip region is open. The region that is open, if any, is the one of
the step that skipped in a story which has not been left since.
-/

namespace StoryEngine

namespace Trace

variable {trace : Trace} {context : Context} {k : Nat} {walker : Walker}

def SkipsAt (trace : Trace) (context : Context) (k : Nat) : Prop :=
  ∃ walker i, trace.walkerAt context k = some walker ∧ trace.instructions[k]? = some i ∧
    walker.Skips i

def nesting (trace : Trace) (k : Nat) : Nat := (trace.openBefore k).length

/-- No story that was open at `i` has been left before `k`. -/
def Stays (trace : Trace) (i k : Nat) : Prop :=
  i < k ∧ ∀ m, i < m → m ≤ k → trace.nesting i ≤ trace.nesting m

theorem Nested.active_eq (h : trace.Nested) (hw : trace.walkerAt context k = some walker)
    (hk : k ≤ trace.size) : walker.active = trace.activeBefore k := by
  induction k generalizing walker with
  | zero =>
    obtain rfl := Option.some.inj hw
    rfl
  | succ k ih =>
    have hi : trace.instructions[k]? = some trace.instructions[k] := List.getElem?_eq_getElem hk
    obtain ⟨previous, hp, hv⟩ := (walkerAt_succ hi).mp hw
    rw [Walker.active_of_visit hv, ih hp (Nat.le_of_succ_le hk), h.activeBefore_succ hi]

theorem Nested.depth_eq (h : trace.Nested) (hw : trace.walkerAt context k = some walker)
    (hk : k ≤ trace.size) : walker.depth = trace.nesting k + 1 := by
  rw [Walker.depth, h.active_eq hw hk, h.length_activeBefore, nesting]

theorem Nested.nesting_succ (h : trace.Nested) {i : Instruction}
    (hi : trace.instructions[k]? = some i) :
    (i.exited? = none ∧ trace.nesting k ≤ trace.nesting (k + 1)) ∨
      (i.exited?.isSome ∧ trace.nesting k = trace.nesting (k + 1) + 1) := by
  have hl := congrArg List.length (h.activeBefore_succ hi)
  have hk := h.length_activeBefore k
  have hf := h.at hi (h.activeBefore k)
  rw [h.length_activeBefore] at hl
  unfold nesting
  obtain ⟨owner, action, origin⟩ := i
  cases action with
  | step =>
    refine Or.inl ⟨rfl, ?_⟩
    simp only [Instruction.shift] at hl
    omega
  | enter =>
    refine Or.inl ⟨rfl, ?_⟩
    simp only [Instruction.shift, List.length_cons] at hl
    omega
  | exit =>
    obtain ⟨outer, ho⟩ := hf
    refine Or.inr ⟨rfl, ?_⟩
    simp only [Instruction.shift, ho, List.tail_cons, List.length_cons] at hl hk
    omega

theorem Stays.of_succ {i : Nat} (h : trace.Stays i (k + 1)) (hi : i ≠ k) : trace.Stays i k :=
  ⟨by have := h.1; omega, fun m hm hk => h.2 m hm (Nat.le_succ_of_le hk)⟩

theorem stays_succ {i : Nat} : trace.Stays i (k + 1) ↔
    (i = k ∨ trace.Stays i k) ∧ trace.nesting i ≤ trace.nesting (k + 1) := by
  constructor
  · intro h
    refine ⟨?_, h.2 _ h.1 (Nat.le_refl _)⟩
    by_cases hi : i = k
    · exact Or.inl hi
    · exact Or.inr (h.of_succ hi)
  · rintro ⟨hi, hn⟩
    refine ⟨by rcases hi with rfl | hi; omega; have := hi.1; omega, fun m hm hk => ?_⟩
    rcases Nat.lt_succ_iff_lt_or_eq.mp (Nat.lt_succ_of_le hk) with hlt | rfl
    · rcases hi with rfl | hi
      · omega
      · exact hi.2 m hm (Nat.le_of_lt_succ hlt)
    · exact hn

theorem skipsAt_iff {i : Instruction} (hw : trace.walkerAt context k = some walker)
    (hi : trace.instructions[k]? = some i) : trace.SkipsAt context k ↔ walker.Skips i := by
  constructor
  · rintro ⟨walker', i', hw', hi', hs⟩
    obtain rfl := Option.some.inj (hw.symm.trans hw')
    obtain rfl := Option.some.inj (hi.symm.trans hi')
    exact hs
  · exact fun hs => ⟨walker, i, hw, hi, hs⟩

theorem Nested.stays_of_not_exit (h : trace.Nested) {i : Nat} {instruction : Instruction}
    (hi : trace.instructions[k]? = some instruction) (hx : instruction.exited? = none)
    (hs : i = k ∨ trace.Stays i k) : trace.Stays i (k + 1) := by
  refine stays_succ.mpr ⟨hs, ?_⟩
  have hn : trace.nesting i ≤ trace.nesting k := by
    rcases hs with rfl | hs
    · exact Nat.le_refl _
    · exact hs.2 k hs.1 (Nat.le_refl _)
  rcases h.nesting_succ hi with ⟨-, hk⟩ | ⟨hx', -⟩
  · exact Nat.le_trans hn hk
  · simp [hx] at hx'

theorem Nested.stays_of_exit (h : trace.Nested) {i : Nat} {instruction : Instruction}
    (hi : trace.instructions[k]? = some instruction) (hx : instruction.exited?.isSome)
    (hs : trace.Stays i k) : trace.Stays i (k + 1) ↔ trace.nesting k ≠ trace.nesting i := by
  have hn := hs.2 k hs.1 (Nat.le_refl _)
  rw [stays_succ, and_iff_right (Or.inr hs)]
  rcases h.nesting_succ hi with ⟨hx', -⟩ | ⟨-, hk⟩
  · simp [hx'] at hx
  · omega

/-- The region that is open before `k`, if any, is the one of a step that skipped in a story which
has not been left since, and it bears the depth of that story. -/
def RegionBefore (trace : Trace) (context : Context) (k : Nat) (walker : Walker) : Prop :=
  ∀ level, walker.skipping = some level ↔
    ∃ i, trace.SkipsAt context i ∧ trace.Stays i k ∧ level = trace.nesting i + 1

section Step

variable {next : Walker} {instruction : Instruction} (h : trace.Nested)
  (hi : trace.instructions[k]? = some instruction) (hw : trace.walkerAt context k = some walker)
  (hd : walker.depth = trace.nesting k + 1) (hv : (walker.visit instruction).2 = .on next)
  (hr : trace.RegionBefore context k walker)

include h hi hw hd hv hr

/-- Outside of a region only a step that skips opens one. -/
theorem RegionBefore.succ_of_none (hs : walker.skipping = none) :
    trace.RegionBefore context (k + 1) next := by
  have hbefore (i : Nat) (hi : trace.SkipsAt context i) : ¬ trace.Stays i k := fun hst => by
    simpa [hs] using (hr _).mpr ⟨i, hi, hst, rfl⟩
  intro level
  rcases Walker.skipping_of_visit hs hv with ⟨hsk, hn⟩ | ⟨hsk, hn⟩
  · have hx : instruction.exited? = none := by
      obtain ⟨-, name, step, ha, -⟩ := hsk
      simp [Instruction.exited?, ha]
    rw [hn, hd]
    constructor
    · intro hl
      exact ⟨k, (skipsAt_iff hw hi).mpr hsk, h.stays_of_not_exit hi hx (Or.inl rfl),
        (Option.some.inj hl).symm⟩
    · rintro ⟨i, hsi, hst, rfl⟩
      rcases (stays_succ.mp hst).1 with rfl | hst
      · rfl
      · exact absurd hst (hbefore i hsi)
  · rw [hn]
    constructor
    · intro hl
      cases hl
    · rintro ⟨i, hsi, hst, rfl⟩
      rcases (stays_succ.mp hst).1 with rfl | hst
      · exact absurd ((skipsAt_iff hw hi).mp hsi) hsk
      · exact absurd hst (hbefore i hsi)

/-- Inside a region no step skips, and the exit at its depth closes it. -/
theorem RegionBefore.succ_of_some {depth : Nat} (hs : walker.skipping = some depth) :
    trace.RegionBefore context (k + 1) next := by
  obtain ⟨next', hv', -, hn⟩ := Walker.visit_of_skipping hs instruction
  obtain rfl : next' = next := by simpa [hv'] using hv
  have hstays (i : Nat) (hsi : trace.SkipsAt context i) (hst : trace.Stays i (k + 1)) :
      trace.Stays i k := by
    rcases (stays_succ.mp hst).1 with rfl | hst
    · have hsk := (skipsAt_iff hw hi).mp hsi
      simp [Walker.carriesOut_iff.mp hsk.1] at hs
    · exact hst
  have hlevel (i : Nat) (hsi : trace.SkipsAt context i) (hst : trace.Stays i k) :
      depth = trace.nesting i + 1 :=
    Option.some.inj (hs.symm.trans ((hr _).mpr ⟨i, hsi, hst, rfl⟩))
  obtain ⟨opener, hs₀, hst₀, hl₀⟩ := (hr depth).mp hs
  intro level
  by_cases hc : instruction.exited?.isSome ∧ walker.depth = depth
  · rw [hn, if_pos hc]
    constructor
    · intro hl
      cases hl
    · rintro ⟨i, hsi, hst, -⟩
      have hsk := hstays i hsi hst
      have hne := (h.stays_of_exit hi hc.1 hsk).mp hst
      have hl := hlevel i hsi hsk
      omega
  · have hst : trace.Stays opener (k + 1) := by
      by_cases hx : instruction.exited?.isSome
      · exact (h.stays_of_exit hi hx hst₀).mpr fun he => hc ⟨hx, by omega⟩
      · exact h.stays_of_not_exit hi (Option.not_isSome_iff_eq_none.mp hx) (Or.inr hst₀)
    rw [hn, if_neg hc]
    constructor
    · intro hl
      obtain rfl := Option.some.inj hl
      exact ⟨opener, hs₀, hst, hl₀⟩
    · rintro ⟨i, hsi, hsti, rfl⟩
      rw [hlevel i hsi (hstays i hsi hsti)]

end Step

theorem Nested.regionBefore (h : trace.Nested) (hw : trace.walkerAt context k = some walker)
    (hk : k ≤ trace.size) : trace.RegionBefore context k walker := by
  induction k generalizing walker with
  | zero =>
    obtain rfl := Option.some.inj hw
    intro level
    constructor
    · intro hl
      cases hl
    · rintro ⟨i, -, hi, -⟩
      exact absurd hi.1 (Nat.not_lt_zero i)
  | succ k ih =>
    have hi : trace.instructions[k]? = some trace.instructions[k] := List.getElem?_eq_getElem hk
    obtain ⟨previous, hp, hv⟩ := (walkerAt_succ hi).mp hw
    have hk' : k ≤ trace.size := Nat.le_of_succ_le hk
    have hd := h.depth_eq hp hk'
    cases hs : previous.skipping with
    | none => exact (ih hp hk').succ_of_none h hi hp hd hv hs
    | some level => exact (ih hp hk').succ_of_some h hi hp hd hv hs

theorem exists_of_skipsAt (h : trace.SkipsAt context k) :
    ∃ i, trace.instructions[k]? = some i ∧ i.exited? = none := by
  obtain ⟨_, i, _, hi, _, name, step, ha, _⟩ := h
  exact ⟨i, hi, by simp [Instruction.exited?, ha]⟩

theorem Nested.activeBefore_of_exitedAt (h : trace.Nested) {story : Origin}
    (hx : trace.exitedAt k = some story) :
    ∃ origin outer, trace.activeBefore k = story :: origin :: outer := by
  obtain ⟨_, origin, hi⟩ := exitedAt_eq_some.mp hx
  obtain ⟨outer, ho⟩ := h.at hi (h.activeBefore k)
  exact ⟨origin, outer, ho⟩

theorem Nested.nesting_size (h : trace.Nested) : trace.nesting trace.size = 0 := by
  rw [nesting, h.openBefore_size, List.length_nil]

theorem Nested.origin_of_nesting_zero (h : trace.Nested) {i : Instruction}
    (hi : trace.instructions[k]? = some i) (hx : i.exited? = none) (hn : trace.nesting k = 0) :
    i.origin = trace.root := by
  have ho : trace.openBefore k = [] := List.length_eq_zero_iff.mp hn
  rw [h.origin_of_not_exit hi hx, innermost, storiesBefore, ho]
  rfl

/-- What holds of the state of a walk just before the instruction at `k`. -/
structure StackInvariant (trace : Trace) (context : Context) (k : Nat) (walker : Walker) :
    Prop where
  /-- The walk over the whole trace goes on from this state. -/
  continues : ∃ events, walk (.start trace.root context) trace.instructions =
    (walk walker (trace.instructions.drop k)).after events
  active_reverse : walker.active.reverse = trace.root :: trace.storiesBefore k
  one_le_depth : 1 ≤ walker.depth
  exit_above_root : ∀ story, trace.exitedAt k = some story →
    walker.active.head? = some story ∧ 2 ≤ walker.depth
  skipping_le_depth : ∀ level, walker.skipping = some level → 1 ≤ level ∧ level ≤ walker.depth
  origin_step : ∀ i, trace.instructions[k]? = some i → i.isStep →
    walker.active.head? = some i.origin
  active_size : k = trace.size → walker.active = [trace.root]
  /-- A region that is open at the end was opened by a step of the root story. -/
  skipping_size : k = trace.size → ∀ level, walker.skipping = some level →
    level = 1 ∧ ∃ j i, j < k ∧ trace.SkipsAt context j ∧ trace.instructions[j]? = some i ∧
      i.origin = trace.root ∧ trace.openBefore j = []

end Trace

open Trace in
/-- A walk over the trace of a story keeps the invariant at every instruction that it reaches. -/
theorem Story.stackInvariant_walkerAt (story : Story) (context : Context) (k : Nat)
    (walker : Walker) (hk : k ≤ story.trace.size)
    (hw : story.trace.walkerAt context k = some walker) :
    story.trace.StackInvariant context k walker := by
  have h : story.trace.Nested := story.nested_trace
  have ha := h.active_eq hw hk
  have hd := h.depth_eq hw hk
  obtain ⟨outer, ho⟩ := story.trace.activeBefore_eq_cons k
  refine ⟨walk_of_walkerAt hw, ?_, by omega, ?_, ?_, ?_, ?_, ?_⟩
  · rw [ha, Trace.activeBefore, List.reverse_append, List.reverse_reverse]
    rfl
  · intro exited hx
    obtain ⟨origin, outer, ho⟩ := h.activeBefore_of_exitedAt hx
    rw [Walker.depth, ha, ho]
    exact ⟨rfl, by simp⟩
  · intro level hl
    obtain ⟨i, -, hst, rfl⟩ := (h.regionBefore hw hk level).mp hl
    have := hst.2 k hst.1 (Nat.le_refl k)
    omega
  · intro i hi hs
    rw [ha, ho, h.origin_of_not_exit hi (Instruction.exited?_of_isStep hs)]
    rfl
  · rintro rfl
    rw [ha, Trace.activeBefore, storiesBefore, h.openBefore_size]
    rfl
  · rintro rfl level hl
    obtain ⟨j, hs, hst, rfl⟩ := (h.regionBefore hw hk level).mp hl
    have hn := hst.2 _ hst.1 (Nat.le_refl _)
    have hz : story.trace.nesting j = 0 := Nat.le_zero.mp (h.nesting_size ▸ hn)
    obtain ⟨i, hi, hx⟩ := exists_of_skipsAt hs
    exact ⟨by rw [hz], j, i, hst.1, hs, hi, h.origin_of_nesting_zero hi hx hz,
      List.length_eq_zero_iff.mp hz⟩

theorem Demo.stackInvariant_discount :
    ∃ walker, 7 ≤ smallShop.trace.size ∧ smallShop.trace.walkerAt ordered 7 = some walker ∧
      walker.skipping = some 2 ∧ smallShop.trace.StackInvariant ordered 7 walker := by
  have hk : 7 ≤ smallShop.trace.size := by decide
  have hs : (smallShop.trace.walkerAt ordered 7).map Walker.skipping = some (some 2) := rfl
  obtain ⟨walker, hw, hl⟩ := Option.map_eq_some_iff.mp hs
  exact ⟨walker, hk, hw, hl, Story.stackInvariant_walkerAt smallShop ordered 7 walker hk hw⟩

end StoryEngine
