import StoryEngine.Proofs.Context.Arguments
import StoryEngine.Proofs.Run.Growth
import StoryEngine.Proofs.Run.Skip
import StoryEngine.Run.Execution

/-! # Entered stories

What a call has been through by the time it carries out a step. Its arguments were bound and
accepted, and each story that is open at the step was entered, with all its parameters in the
context and its contract content.
-/

namespace StoryEngine

theorem Origin.opening_eq_ok {root : Origin} {arguments : Arguments} {context : Context}
    (h : root.opening arguments = .ok context) :
    ∃ bound, arguments.bind root.label root.declaration.arguments = .ok bound ∧
      root.declaration.checkVariables root.label bound = .ok () ∧
      context = .ofArguments bound := by
  unfold opening at h
  obtain ⟨bound, hb, hr⟩ := exists_of_bind_eq_ok h
  obtain ⟨_, hc, hp⟩ := exists_of_bind_eq_ok hr
  exact ⟨bound, hb, hc, (Except.ok.inj hp).symm⟩

namespace Walker

variable {walker next : Walker} {story : Origin}

theorem checkEntry_eq_ok (h : walker.checkEntry story = .ok ()) :
    (∀ name ∈ story.declaration.arguments, ∃ value, walker.context.get? name = some value) ∧
      story.declaration.checkVariables story.label
        (walker.context.visible story.declaration.arguments) = .ok () := by
  unfold checkEntry at h
  cases hm : walker.context.missing story.declaration.arguments with
  | cons name more => simp only [hm] at h; cases h
  | nil =>
    simp only [hm] at h
    refine ⟨Context.missing_eq_nil_iff.mp hm, ?_⟩
    cases hc : story.declaration.checkVariables story.label
        (walker.context.visible story.declaration.arguments) with
    | error error => rw [hc] at h; cases h
    | ok => rfl

theorem checkEntry_of_missing (h : walker.context.missing story.declaration.arguments ≠ []) :
    walker.checkEntry story = .error (.contract (.missingVariables story.label
      (walker.context.missing story.declaration.arguments))) := by
  unfold checkEntry
  cases hm : walker.context.missing story.declaration.arguments with
  | nil => exact absurd hm h
  | cons => rfl

variable {instruction : Instruction}

theorem checkEntry_of_visit (hs : walker.skipping = none)
    (he : instruction.entered? = some story) (hv : (walker.visit instruction).2 = .on next) :
    walker.checkEntry story = .ok () ∧ next.context = walker.context := by
  obtain ⟨active, skipping, context⟩ := walker
  obtain rfl : skipping = none := hs
  obtain ⟨owner, action, origin⟩ := instruction
  cases action with
  | step => cases he
  | exit => cases he
  | enter entered title injected =>
    obtain rfl : entered = story := Option.some.inj he
    rw [visit_enter] at hv
    refine ⟨?_, by rw [enter_on hv]⟩
    unfold enter at hv
    cases hc : checkEntry ⟨active, none, context⟩ entered with
    | ok => rfl
    | error error => simp only [hc] at hv; cases hv

theorem visit_of_checkEntry {error : StoryError} (hs : walker.skipping = none)
    (he : instruction.entered? = some story) (hc : walker.checkEntry story = .error error) :
    ∃ events, walker.visit instruction = (events, .halt (.error error)) := by
  obtain ⟨active, skipping, context⟩ := walker
  obtain rfl : skipping = none := hs
  obtain ⟨owner, action, origin⟩ := instruction
  cases action with
  | step => cases he
  | exit => cases he
  | enter entered title injected =>
    obtain rfl : entered = story := Option.some.inj he
    rw [visit_enter, enter, hc]
    exact ⟨_, rfl⟩

end Walker

namespace Trace

variable {trace : Trace} {context : Context} {e j k : Nat} {walker entry : Walker}

theorem mem_openBefore_of_le (h : e ∈ trace.openBefore k) (he : e < j) (hj : j ≤ k) :
    e ∈ trace.openBefore j := by
  obtain ⟨-, hs, hm⟩ := mem_openBefore_iff.mp h
  exact mem_openBefore_iff.mpr ⟨he, hs, fun m hmj => hm m (Nat.lt_of_lt_of_le hmj hj)⟩

theorem mem_activeBefore {story : Origin} (h : e ∈ trace.openBefore k)
    (he : trace.enteredAt e = some story) : story ∈ trace.activeBefore k :=
  List.mem_append_left _ (List.mem_reverse.mpr (List.mem_filterMap.mpr ⟨e, h, he⟩))

theorem root_mem_activeBefore (trace : Trace) (k : Nat) : trace.root ∈ trace.activeBefore k :=
  List.mem_append_right _ (List.mem_singleton_self _)

/-- A region that is open where a story is entered stays open until the story is left. -/
theorem Nested.skipping_of_mem_openBefore (h : trace.Nested)
    (hw : trace.walkerAt context k = some walker) (hk : k ≤ trace.size)
    (hs : walker.skipping = none) (he : e ∈ trace.openBefore k)
    (hentry : trace.walkerAt context e = some entry) : entry.skipping = none := by
  cases hl : entry.skipping with
  | none => rfl
  | some level =>
    have hek : e < k := (mem_openBefore_iff.mp he).1
    obtain ⟨i, hi, hst, -⟩ := (h.regionBefore hentry (by omega) level).mp hl
    -- the story of the step that skipped is not left before `e`, nor within the story entered there
    have hstays : trace.Stays i k := by
      refine ⟨Nat.lt_trans hst.1 hek, fun m him hmk => ?_⟩
      by_cases hme : m ≤ e
      · exact hst.2 m him hme
      · have hlt := h.nesting_lt_of_mem (Nat.le_trans hmk hk)
          (mem_openBefore_of_le he (Nat.not_le.mp hme) hmk)
        exact Nat.le_trans (hst.2 e hst.1 (Nat.le_refl e)) (Nat.le_of_lt hlt)
    have hr := (h.regionBefore hw hk _).mpr ⟨i, hi, hstays, rfl⟩
    rw [hs] at hr
    cases hr

theorem le_of_walkerAt_of_halt {i : Instruction} {verdict : Verdict}
    (hw : trace.walkerAt context k = some walker) (hi : trace.instructions[k]? = some i)
    (hv : (walker.visit i).2 = .halt verdict) {later : Walker}
    (hj : trace.walkerAt context j = some later) : j ≤ k := by
  refine Nat.not_lt.mp fun hlt => ?_
  obtain ⟨next, hn⟩ := exists_walkerAt_of_le hj hlt
  obtain ⟨walker', hw', hv'⟩ := (walkerAt_succ hi).mp hn
  obtain rfl := Option.some.inj (hw.symm.trans hw')
  rw [hv] at hv'
  cases hv'

end Trace

namespace Story

variable (story : Story) (arguments : Arguments)

/-- The call gets to the instruction at `k`, and is then in this state. -/
def Reaches (k : Nat) (walker : Walker) : Prop :=
  ∃ context, story.root.opening arguments = .ok context ∧
    story.trace.walkerAt context k = some walker

def Executes (k : Nat) (walker : Walker) : Prop :=
  story.Reaches arguments k walker ∧ ∃ i, story.trace.instructions[k]? = some i ∧ i.isStep ∧
    walker.CarriesOut i

/-- The call enters the sub-story at `k` in this state, if the sub-story can be entered. -/
def Enters (k : Nat) (entered : Origin) (walker : Walker) : Prop :=
  story.Reaches arguments k walker ∧ ∃ i, story.trace.instructions[k]? = some i ∧
    i.entered? = some entered ∧ walker.CarriesOut i

variable {story arguments} {e j k : Nat} {walker entry : Walker} {entered : Origin}

/-- The run of the call is what it did so far and what it does from this state on. -/
theorem Reaches.perform (h : story.Reaches arguments k walker) :
    ∃ events, story.perform arguments =
      ((walk walker (story.trace.instructions.drop k)).after events).framed story.label
        story.fingerprint := by
  obtain ⟨context, ho, hw⟩ := h
  obtain ⟨events, hr⟩ := Trace.walk_of_walkerAt hw
  have ho' : story.trace.root.opening arguments = .ok context := ho
  refine ⟨events, ?_⟩
  rw [Story.perform, Trace.perform, ho']
  dsimp only
  rw [hr]
  rfl

theorem Reaches.walkerAt {context : Context} (h : story.Reaches arguments k walker)
    (ho : story.root.opening arguments = .ok context) :
    story.trace.walkerAt context k = some walker := by
  obtain ⟨context', ho', hw⟩ := h
  obtain rfl := Except.ok.inj (ho.symm.trans ho')
  exact hw

theorem Reaches.prefix_of_le (hj : story.Reaches arguments j entry)
    (hk : story.Reaches arguments k walker) (hjk : j ≤ k) (hs : k ≤ story.trace.size) :
    entry.context.entries <+: walker.context.entries := by
  obtain ⟨context, ho, hj⟩ := hj
  exact story.nested_trace.prefix_of_le hj (hk.walkerAt ho) hjk hs

theorem Reaches.verdict_of_visit {i : Instruction} {events : List EventKind} {verdict : Verdict}
    (hw : story.Reaches arguments k walker) (hi : story.trace.instructions[k]? = some i)
    (hv : walker.visit i = (events, .halt verdict)) (occasion : Occasion) :
    (story.execute occasion arguments).verdict = verdict := by
  obtain ⟨before, hp⟩ := hw.perform
  obtain ⟨hk, hg⟩ := List.getElem?_eq_some_iff.mp hi
  rw [List.drop_eq_getElem_cons hk, hg, walk_cons_of_halt hv] at hp
  rw [execute, hp]
  rfl

theorem Reaches.active_eq (h : story.Reaches arguments k walker) (hk : k ≤ story.trace.size) :
    walker.active = story.trace.activeBefore k := by
  obtain ⟨context, -, hw⟩ := h
  exact story.nested_trace.active_eq hw hk

theorem Reaches.le_of_halt {i : Instruction} {verdict : Verdict} {later : Walker}
    (h : story.Reaches arguments k walker) (hi : story.trace.instructions[k]? = some i)
    (hv : (walker.visit i).2 = .halt verdict) (hj : story.Reaches arguments j later) : j ≤ k := by
  obtain ⟨context, ho, hw⟩ := h
  exact Trace.le_of_walkerAt_of_halt hw hi hv (hj.walkerAt ho)

theorem exists_executes {context : Context} {i : Instruction}
    (ho : story.root.opening arguments = .ok context)
    (hs : (story.trace.walkerAt context k).map Walker.skipping = some none)
    (hi : story.trace.instructions[k]? = some i) (his : i.isStep) :
    ∃ walker, story.Executes arguments k walker := by
  obtain ⟨walker, hw, hn⟩ := Option.map_eq_some_iff.mp hs
  exact ⟨walker, ⟨context, ho, hw⟩, i, hi, his, Walker.carriesOut_iff.mpr hn⟩

theorem Executes.lt_size (h : story.Executes arguments k walker) : k < story.trace.size := by
  obtain ⟨-, i, hi, -⟩ := h
  exact Trace.lt_size_of_getElem? hi

theorem Executes.skipping_eq_none (h : story.Executes arguments k walker) :
    walker.skipping = none := by
  obtain ⟨-, i, -, -, hc⟩ := h
  exact Walker.carriesOut_iff.mp hc

theorem Enters.enteredAt (h : story.Enters arguments k entered walker) :
    story.trace.enteredAt k = some entered := by
  obtain ⟨-, i, hi, he, -⟩ := h
  rw [Trace.enteredAt, hi]
  exact he

/-- Where a step is carried out, all open sub-stories have been entered. -/
theorem Executes.exists_enters (h : story.Executes arguments k walker)
    (he : e ∈ story.trace.openBefore k) :
    ∃ entered entry, story.Enters arguments e entered entry := by
  obtain ⟨context, ho, hw⟩ := h.1
  obtain ⟨hek, hs, -⟩ := Trace.mem_openBefore_iff.mp he
  obtain ⟨entry, hentry⟩ := Trace.exists_walkerAt_of_le hw (Nat.le_of_lt hek)
  obtain ⟨entered, hentered⟩ := Option.isSome_iff_exists.mp hs
  obtain ⟨_, _, _, _, hi⟩ := Trace.enteredAt_eq_some.mp hentered
  have hskip := story.nested_trace.skipping_of_mem_openBefore hw (Nat.le_of_lt h.lt_size)
    h.skipping_eq_none he hentry
  exact ⟨entered, entry, ⟨context, ho, hentry⟩, _, hi, rfl, Walker.carriesOut_iff.mpr hskip⟩

/-- A sub-story whose entry a call has got past was fit to be entered, and entering it left the
context as it was. -/
theorem Enters.checkEntry (h : story.Enters arguments e entered entry)
    (hw : story.Reaches arguments k walker) (hek : e < k) :
    entry.checkEntry entered = .ok () ∧ ∃ next, story.Reaches arguments (e + 1) next ∧
      next.context = entry.context := by
  obtain ⟨⟨context, ho, hentry⟩, i, hi, he, hc⟩ := h
  obtain ⟨next, hn⟩ := Trace.exists_walkerAt_of_le (hw.walkerAt ho) hek
  obtain ⟨entry', hentry', hv⟩ := (Trace.walkerAt_succ hi).mp hn
  obtain rfl := Option.some.inj (hentry.symm.trans hentry')
  obtain ⟨hce, hnc⟩ := Walker.checkEntry_of_visit (Walker.carriesOut_iff.mp hc) he hv
  exact ⟨hce, next, ⟨context, ho, hn⟩, hnc⟩

end Story

end StoryEngine
