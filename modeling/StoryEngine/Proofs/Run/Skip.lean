import StoryEngine.Proofs.Run.Stack

/-! # Skip regions

The instructions that a skip leaves out, read off the markers of the trace: those from the step on
to the exit that matches the innermost enter open at it, or to the end where none is open. They
are the ones a walk bypasses, whatever lies between.
-/

namespace StoryEngine.Trace

variable {trace : Trace} {context : Context} {i j k : Nat}

/-- The instruction at `j` is after `i` and before the exit that matches the innermost enter open
at `i`, if one is open there. -/
def InRegion (trace : Trace) (i j : Nat) : Prop :=
  i < j ∧ ∀ e x, (trace.openBefore i).getLast? = some e → trace.Matches e x → j < x

theorem Nested.nesting_of_getLast? (h : trace.Nested) {e : Nat} (hk : k ≤ trace.size)
    (he : (trace.openBefore k).getLast? = some e) : trace.nesting k = trace.nesting e + 1 := by
  rw [nesting, h.openBefore_of_getLast? hk he, List.length_append]
  rfl

theorem Nested.nesting_lt_of_mem (h : trace.Nested) {e : Nat} (hk : k ≤ trace.size)
    (he : e ∈ trace.openBefore k) : trace.nesting e < trace.nesting k := by
  induction k using Nat.strongRecOn with
  | ind k ih =>
    obtain ⟨u, hu⟩ : ∃ u, (trace.openBefore k).getLast? = some u :=
      Option.isSome_iff_exists.mp (List.getLast?_isSome.mpr (List.ne_nil_of_mem he))
    have hn := h.nesting_of_getLast? hk hu
    have huk := (mem_openBefore_iff.mp (List.mem_of_getLast? hu)).1
    rw [h.openBefore_of_getLast? hk hu] at he
    rcases List.mem_append.mp he with he | he
    · have := ih u huk (by omega) he
      omega
    · obtain rfl := List.mem_singleton.mp he
      omega

theorem Nested.nesting_of_matches (h : trace.Nested) {e x : Nat} (hm : trace.Matches e x) :
    trace.nesting x = trace.nesting e + 1 ∧ trace.nesting (x + 1) = trace.nesting e := by
  have hx : (trace.openBefore x).getLast? = some e := by
    rw [h.openBefore_eq, hm.marksBefore, List.getLast?_reverse]
    rfl
  obtain ⟨_, _, _, hi⟩ := hm.exists_exit
  have hn := h.nesting_of_getLast? (Nat.le_of_lt (lt_size_of_getElem? hi)) hx
  rcases h.nesting_succ hi with ⟨hx', -⟩ | ⟨-, hk⟩
  · cases hx'
  · omega

theorem Nested.nesting_within (h : trace.Nested) {e x m : Nat} (hm : trace.Matches e x)
    (he : e < m) (hx : m ≤ x) : trace.nesting e < trace.nesting m := by
  have hs : m ≤ trace.size := by
    obtain ⟨_, _, _, hi⟩ := hm.exists_exit
    exact Nat.le_trans hx (Nat.le_of_lt (lt_size_of_getElem? hi))
  refine h.nesting_lt_of_mem hs (mem_openBefore_iff.mpr ⟨he, hm.2.1, fun j hj hm' => ?_⟩)
  have := h.exit_unique hm hm'
  omega

theorem Nested.stays_succ_of_inRegion (h : trace.Nested) (hk : i ≤ trace.size)
    (hr : trace.InRegion i j) : trace.Stays i (j + 1) := by
  refine ⟨Nat.lt_succ_of_lt hr.1, fun m him hmj => ?_⟩
  cases he : (trace.openBefore i).getLast? with
  | none =>
    rw [List.getLast?_eq_none_iff] at he
    simp [nesting, he]
  | some e =>
    have hmem := mem_openBefore_iff.mp (List.mem_of_getLast? he)
    obtain ⟨x, hx⟩ := h.exists_exit hmem.2.1
    have hlt := hr.2 e x he hx
    rw [h.nesting_of_getLast? hk he]
    exact h.nesting_within hx (by omega) (by omega)

theorem Nested.stays_of_inRegion (h : trace.Nested) (hk : i ≤ trace.size)
    (hr : trace.InRegion i j) : trace.Stays i j :=
  (h.stays_succ_of_inRegion hk hr).of_succ (Nat.ne_of_lt hr.1)

theorem Nested.inRegion_of_stays (h : trace.Nested) (hk : i ≤ trace.size)
    (hx : trace.exitedAt j = none) (hs : trace.Stays i j) : trace.InRegion i j := by
  refine ⟨hs.1, fun e x he hm => ?_⟩
  have hmem := mem_openBefore_iff.mp (List.mem_of_getLast? he)
  have hix : i ≤ x := Nat.not_lt.mp fun hlt => hmem.2.2 x hlt hm
  have hjx : j ≠ x := by
    rintro rfl
    simp [Matches, hx] at hm
  by_cases hle : j < x
  · exact hle
  · have hn := hs.2 (x + 1) (by omega) (by omega)
    rw [(h.nesting_of_matches hm).2, h.nesting_of_getLast? hk he] at hn
    omega

variable {walker : Walker} {instruction : Instruction}

theorem lt_size_of_skipsAt (h : trace.SkipsAt context k) : k < trace.size := by
  obtain ⟨i, hi, -⟩ := exists_of_skipsAt h
  exact lt_size_of_getElem? hi

theorem exitedAt_of_skipsAt (h : trace.SkipsAt context k) : trace.exitedAt k = none := by
  obtain ⟨i, hi, hx⟩ := exists_of_skipsAt h
  simp [exitedAt, hi, hx]

/-- While the story of a step that skipped is not left, the walk goes on with its region open and
its context unchanged. -/
theorem Nested.walkerAt_of_stays (h : trace.Nested) (hw : trace.walkerAt context i = some walker)
    (hs : trace.SkipsAt context i) (hst : trace.Stays i j) (hj : j ≤ trace.size) :
    ∃ next, trace.walkerAt context j = some next ∧ next.context = walker.context ∧
      next.skipping = some (trace.nesting i + 1) := by
  suffices hr : ∃ next, trace.walkerAt context j = some next ∧ next.context = walker.context by
    obtain ⟨next, hn, hc⟩ := hr
    exact ⟨next, hn, hc, (h.regionBefore hn hj _).mpr ⟨i, hs, hst, rfl⟩⟩
  induction j with
  | zero => exact absurd hst.1 (Nat.not_lt_zero i)
  | succ j ih =>
    have hi : trace.instructions[j]? = some trace.instructions[j] := List.getElem?_eq_getElem hj
    rcases (stays_succ.mp hst).1 with rfl | hst
    · have hv := Walker.visit_of_skips ((skipsAt_iff hw hi).mp hs)
      exact ⟨_, (walkerAt_succ hi).mpr ⟨walker, hw, hv⟩, rfl⟩
    · obtain ⟨previous, hp, hc⟩ := ih hst (Nat.le_of_succ_le hj)
      have hsk := (h.regionBefore hp (Nat.le_of_succ_le hj) _).mpr ⟨i, hs, hst, rfl⟩
      obtain ⟨next, hv, hn, -⟩ := Walker.visit_of_skipping hsk trace.instructions[j]
      exact ⟨next, (walkerAt_succ hi).mpr ⟨previous, hp, by rw [hv]⟩, hn.trans hc⟩

theorem Nested.skipping_iff_inRegion (h : trace.Nested)
    (hw : trace.walkerAt context j = some walker)
    (hi : trace.instructions[j]? = some instruction) (hx : instruction.exited? = none) :
    walker.skipping.isSome ↔ ∃ i, trace.SkipsAt context i ∧ trace.InRegion i j := by
  have hj : j ≤ trace.size := Nat.le_of_lt (lt_size_of_getElem? hi)
  have he : trace.exitedAt j = none := by simp [exitedAt, hi, hx]
  constructor
  · intro hs
    obtain ⟨level, hl⟩ := Option.isSome_iff_exists.mp hs
    obtain ⟨i, hsi, hst, -⟩ := (h.regionBefore hw hj level).mp hl
    exact ⟨i, hsi, h.inRegion_of_stays (Nat.le_of_lt (lt_size_of_skipsAt hsi)) he hst⟩
  · rintro ⟨i, hsi, hr⟩
    have hst := h.stays_of_inRegion (Nat.le_of_lt (lt_size_of_skipsAt hsi)) hr
    rw [(h.regionBefore hw hj _).mpr ⟨i, hsi, hst, rfl⟩]
    rfl

theorem Nested.not_skipsAt_of_stays (h : trace.Nested) (hs : trace.SkipsAt context i)
    (hst : trace.Stays i j) : ¬ trace.SkipsAt context j := by
  intro hj
  have hlt := lt_size_of_skipsAt hj
  obtain ⟨walker, _, hw, _, hc, _⟩ := hj
  have hl := (h.regionBefore hw (Nat.le_of_lt hlt) _).mpr ⟨i, hs, hst, rfl⟩
  rw [Walker.carriesOut_iff.mp hc] at hl
  cases hl

theorem Nested.region_unique (h : trace.Nested) {i' : Nat} (hs : trace.SkipsAt context i)
    (hs' : trace.SkipsAt context i') (hr : trace.InRegion i j) (hr' : trace.InRegion i' j) :
    i = i' := by
  have hi := Nat.le_of_lt (lt_size_of_skipsAt hs)
  have hi' := Nat.le_of_lt (lt_size_of_skipsAt hs')
  rcases Nat.lt_trichotomy i i' with hlt | rfl | hlt
  · have hst : trace.Stays i i' := h.stays_of_inRegion hi
      ⟨hlt, fun e x he hm => Nat.lt_trans hr'.1 (hr.2 e x he hm)⟩
    exact absurd hs' (h.not_skipsAt_of_stays hs hst)
  · rfl
  · have hst : trace.Stays i' i := h.stays_of_inRegion hi'
      ⟨hlt, fun e x he hm => Nat.lt_trans hr.1 (hr'.2 e x he hm)⟩
    exact absurd hs (h.not_skipsAt_of_stays hs' hst)

theorem Nested.resumes (h : trace.Nested) {e x : Nat} (hs : trace.SkipsAt context i)
    (hw : trace.walkerAt context i = some walker) (he : (trace.openBefore i).getLast? = some e)
    (hm : trace.Matches e x) :
    ∃ next, trace.walkerAt context (x + 1) = some next ∧ next.context = walker.context ∧
      next.skipping = none := by
  have hn := h.nesting_of_getLast? (Nat.le_of_lt (lt_size_of_skipsAt hs)) he
  obtain ⟨hnx, hnx'⟩ := h.nesting_of_matches hm
  obtain ⟨story, owner, origin, hi⟩ := hm.exists_exit
  have hmem := mem_openBefore_iff.mp (List.mem_of_getLast? he)
  have hix : i < x := by
    refine Nat.lt_of_le_of_ne (Nat.not_lt.mp fun hlt => hmem.2.2 x hlt hm) ?_
    rintro rfl
    simpa [exitedAt_of_skipsAt hs] using hm.2.2.1
  have hst : trace.Stays i x := ⟨hix, fun m him hmx => by
    rw [hn]
    exact h.nesting_within hm (Nat.lt_trans hmem.1 him) hmx⟩
  have hsz := lt_size_of_getElem? hi
  obtain ⟨last, hl, hc, hsk⟩ := h.walkerAt_of_stays hw hs hst (Nat.le_of_lt hsz)
  have hd := h.depth_eq hl (Nat.le_of_lt hsz)
  obtain ⟨next, hv, hnc, hns⟩ := Walker.visit_of_skipping hsk ⟨owner, .exit story, origin⟩
  refine ⟨next, (walkerAt_succ hi).mpr ⟨last, hl, by rw [hv]⟩, hnc.trans hc, ?_⟩
  rw [hns, if_pos ⟨rfl, by omega⟩]

/-- Which instructions the skips of a run leave out, and what happens to them. -/
structure SkipLaw (trace : Trace) (context : Context) : Prop where
  /-- The states that are spoken of are those of the walk over the whole trace. -/
  continues : ∀ j walker, trace.walkerAt context j = some walker →
    ∃ events, walk (.start trace.root context) trace.instructions =
      (walk walker (trace.instructions.drop j)).after events
  /-- Each step and enter that the walk reaches is either bypassed or carried out. -/
  bypasses_iff : ∀ j walker instruction, trace.walkerAt context j = some walker →
    trace.instructions[j]? = some instruction → instruction.exited? = none →
    (walker.Bypasses instruction ↔ ∃ i, trace.SkipsAt context i ∧ trace.InRegion i j) ∧
      (walker.CarriesOut instruction ↔ ¬ walker.Bypasses instruction)
  unique : ∀ i i' j, trace.SkipsAt context i → trace.SkipsAt context i' → trace.InRegion i j →
    trace.InRegion i' j → i = i'
  /-- Nothing in a region ends the run, changes the context or the region, or is carried out. -/
  passes : ∀ i j instruction, trace.SkipsAt context i → trace.InRegion i j →
    trace.instructions[j]? = some instruction → ¬ trace.SkipsAt context j ∧
      ∃ walker next, trace.walkerAt context j = some walker ∧
        walker.visit instruction = (if instruction.exited?.isSome then []
          else [.instructionBypassed instruction.label walker.depth], .on next) ∧
        next.context = walker.context ∧ next.skipping = walker.skipping
  /-- After the exit that ends a region the walk goes on as if nothing had been left out. -/
  resumes : ∀ i e x walker, trace.SkipsAt context i → trace.walkerAt context i = some walker →
    (trace.openBefore i).getLast? = some e → trace.Matches e x →
    ∃ next, trace.walkerAt context (x + 1) = some next ∧ next.context = walker.context ∧
      ∀ instruction, trace.instructions[x + 1]? = some instruction → next.CarriesOut instruction

end StoryEngine.Trace

namespace StoryEngine

open Trace in
/-- Every run of every compiled story keeps to the law, however its stories are nested. -/
theorem Story.skipLaw_trace (story : Story) (context : Context) :
    story.trace.SkipLaw context where
  continues _ _ hw := walk_of_walkerAt hw
  bypasses_iff j walker instruction hw hi hx := by
    have hb : walker.Bypasses instruction ↔ walker.skipping.isSome := Walker.bypasses_iff hx
    refine ⟨hb.trans (story.nested_trace.skipping_iff_inRegion hw hi hx), ?_⟩
    rw [Walker.carriesOut_iff, hb, Option.not_isSome_iff_eq_none]
  unique i i' j hs hs' hr hr' := story.nested_trace.region_unique hs hs' hr hr'
  passes i j instruction hs hr hi := by
    have hj := lt_size_of_getElem? hi
    have hst := story.nested_trace.stays_succ_of_inRegion (Nat.le_of_lt (lt_size_of_skipsAt hs)) hr
    have hst' := hst.of_succ (Nat.ne_of_lt hr.1)
    refine ⟨story.nested_trace.not_skipsAt_of_stays hs hst', ?_⟩
    obtain ⟨walker, _, hw, _⟩ := id hs
    obtain ⟨last, hl, -, hsk⟩ :=
      story.nested_trace.walkerAt_of_stays hw hs hst' (Nat.le_of_lt hj)
    obtain ⟨next, hv, hc, -⟩ := Walker.visit_of_skipping hsk instruction
    have hn := (walkerAt_succ hi).mpr ⟨last, hl, by rw [hv]⟩
    refine ⟨last, next, hl, hv, hc, ?_⟩
    rw [hsk]
    exact (story.nested_trace.regionBefore hn hj _).mpr ⟨i, hs, hst, rfl⟩
  resumes i e x walker hs hw he hm := by
    obtain ⟨next, hn, hc, hs⟩ := story.nested_trace.resumes hs hw he hm
    exact ⟨next, hn, hc, fun _ _ => Walker.carriesOut_iff.mpr hs⟩

/-- The discount of a small order skips, and its second step is in the region. -/
theorem Demo.skipLaw_discount :
    smallShop.trace.SkipsAt ordered 6 ∧ smallShop.trace.InRegion 6 7 ∧
      ∃ walker, smallShop.trace.walkerAt ordered 7 = some walker ∧
        walker.Bypasses ⟨⟨"Shop", 1⟩, .step "apply_discount" Shop.applyDiscount,
          ⟨"Shop", Shop.discount, [2]⟩⟩ := by
  have hlaw : smallShop.trace.SkipLaw ordered := Story.skipLaw_trace smallShop ordered
  have hs : (smallShop.trace.walkerAt ordered 6).map
      (fun walker => (walker.skipping, Shop.bulkOnly.run walker.context)) =
      some (none, .ok (some .skip)) := rfl
  obtain ⟨walker, hw, hp⟩ := Option.map_eq_some_iff.mp hs
  obtain ⟨hsk, hr⟩ := Prod.mk.inj hp
  have hskips : smallShop.trace.SkipsAt ordered 6 :=
    ⟨walker, _, hw, rfl, Walker.carriesOut_iff.mpr hsk, _, _, rfl, hr⟩
  have hexit : smallShop.trace.Matches 5 8 := by decide
  have hregion : smallShop.trace.InRegion 6 7 := by
    refine ⟨by decide, fun e x he hm => ?_⟩
    obtain rfl : 5 = e := Option.some.inj he
    rw [smallShop.nested_trace.exit_unique hm hexit]
    decide
  obtain ⟨-, next, _, hn, -⟩ := hlaw.passes 6 7 _ hskips hregion rfl
  have hb := (hlaw.bypasses_iff 7 next _ hn rfl rfl).1
  exact ⟨hskips, hregion, next, hn, hb.mpr ⟨6, hskips, hregion⟩⟩

end StoryEngine
