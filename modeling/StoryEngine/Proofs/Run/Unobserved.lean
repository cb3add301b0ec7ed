import StoryEngine.Proofs.Demo.Shop
import StoryEngine.Proofs.Run.Turns
import StoryEngine.Proofs.Story.Layout

/-! # What a run does not look at

A run looks at the answers of the steps that it carries out, each in the context that the step is
shown, and at the declarations of the sub-stories that it enters. Two runs over traces of one shape
that find the same there go in lockstep: outside of a skip region they are in the same state, and
inside of one their stacks differ at most above the story whose step skipped.
-/

namespace StoryEngine

/-- The instruction as it may stand in another trace of the same shape: a step may do other things,
and a story may be declared otherwise under its label. -/
inductive Instruction.Varies : Instruction → Instruction → Prop where
  | step (owner : Owner) (name : String) (run run' : Step) (origin origin' : Origin) :
      Varies ⟨owner, .step name run, origin⟩ ⟨owner, .step name run', origin'⟩
  | enter (owner : Owner) {story story' : Origin} (title : String) (injected : Bool)
      (origin origin' : Origin) : story'.label = story.label →
      Varies ⟨owner, .enter story title injected, origin⟩
        ⟨owner, .enter story' title injected, origin'⟩
  | exit (owner : Owner) {story story' : Origin} (origin origin' : Origin) :
      story'.label = story.label →
      Varies ⟨owner, .exit story, origin⟩ ⟨owner, .exit story', origin'⟩

theorem Instruction.Varies.label_eq {i i' : Instruction} (h : i.Varies i') :
    i'.label = i.label := by
  cases h with
  | step => rfl
  | enter _ _ _ _ _ hl | exit _ _ _ hl => simp only [label, hl]

/-- What the turn looks at is the same in the other instruction: the answer of a step that is
carried out, and the story that is entered. -/
structure Turn.Finds (turn : Turn) (i' : Instruction) : Prop where
  answer : turn.before.CarriesOut turn.instruction → ∀ name name' step step',
    turn.instruction.action = .step name step → i'.action = .step name' step' →
    step'.run turn.before.context = step.run turn.before.context
  story : turn.before.CarriesOut turn.instruction → ∀ story,
    turn.instruction.entered? = some story → i'.entered? = some story

namespace Walker

inductive Lockstep : Walker → Walker → Prop where
  | running (active : List Origin) (context : Context) :
      Lockstep ⟨active, none, context⟩ ⟨active, none, context⟩
  | skipping (inner inner' outer : List Origin) (context : Context) :
      inner'.length = inner.length → inner ≠ [] →
      Lockstep ⟨inner ++ outer, some (outer.length + 1), context⟩
        ⟨inner' ++ outer, some (outer.length + 1), context⟩

inductive MovesAlike : Move → Move → Prop where
  | on {walker walker' : Walker} : walker.Lockstep walker' → MovesAlike (.on walker) (.on walker')
  | halt (verdict : Verdict) : MovesAlike (.halt verdict) (.halt verdict)

variable {walker walker' : Walker} {i i' : Instruction}

theorem Lockstep.context_eq (h : walker.Lockstep walker') : walker'.context = walker.context := by
  cases h <;> rfl

section Running

variable {active : List Origin} {context : Context}

theorem perform_congr_run {owner : Owner} {origin : Origin} {name : String} {step step' : Step}
    (h : step'.run context = step.run context) :
    perform ⟨active, none, context⟩ owner origin name step' =
      perform ⟨active, none, context⟩ owner origin name step := by
  simp only [perform, h]

/-- After a step both runs are in one state, and a skip region starts with the story on top. -/
theorem movesAlike_perform {owner : Owner} {origin : Origin} {name : String} {step : Step}
    (ha : active ≠ []) :
    MovesAlike (perform ⟨active, none, context⟩ owner origin name step).2
      (perform ⟨active, none, context⟩ owner origin name step).2 := by
  cases hm : (perform ⟨active, none, context⟩ owner origin name step).2 with
  | halt verdict => exact .halt verdict
  | on next =>
    refine .on ?_
    rcases perform_on hm with ⟨-, rfl⟩ | ⟨-, hn, hs⟩
    · obtain ⟨top, outer, rfl⟩ := List.exists_cons_of_ne_nil ha
      exact .skipping [top] [top] outer context rfl nofun
    · obtain ⟨active', skipping', context'⟩ := next
      obtain rfl : skipping' = none := hs
      exact .running active' context'

theorem movesAlike_running (hv : i.Varies i') (hf : i.Fits active) (hf' : i'.Fits active)
    (hs : Turn.Finds ⟨⟨active, none, context⟩, i⟩ i') :
    (visit ⟨active, none, context⟩ i').1 = (visit ⟨active, none, context⟩ i).1 ∧
      MovesAlike (visit ⟨active, none, context⟩ i).2 (visit ⟨active, none, context⟩ i').2 := by
  have hc : CarriesOut ⟨active, none, context⟩ i := carriesOut_iff.mpr rfl
  cases hv with
  | step owner name run run' origin origin' =>
    obtain ⟨outer, rfl⟩ := hf
    obtain ⟨outer', ho⟩ := hf'
    obtain ⟨rfl, -⟩ := List.cons.inj ho
    have hr : run'.run context = run.run context := hs.answer hc _ _ _ _ rfl rfl
    rw [visit_step, visit_step, perform_congr_run hr]
    exact ⟨rfl, movesAlike_perform (List.cons_ne_nil _ _)⟩
  | enter owner title injected =>
    obtain rfl := Option.some.inj (hs.story hc _ rfl)
    refine ⟨rfl, ?_⟩
    rw [visit_enter, visit_enter, enter]
    cases checkEntry ⟨active, none, context⟩ _ with
    | ok => exact .on (.running _ context)
    | error error => exact .halt _
  | exit owner origin origin' hl =>
    rw [visit_exit, visit_exit, hl]
    exact ⟨rfl, .on (.running _ context)⟩

end Running

theorem movesAlike_skipping {inner inner' outer : List Origin} {context : Context}
    (hl : inner'.length = inner.length) (hn : inner ≠ []) (hv : i.Varies i') :
    (visit ⟨inner' ++ outer, some (outer.length + 1), context⟩ i').1 =
        (visit ⟨inner ++ outer, some (outer.length + 1), context⟩ i).1 ∧
      MovesAlike (visit ⟨inner ++ outer, some (outer.length + 1), context⟩ i).2
        (visit ⟨inner' ++ outer, some (outer.length + 1), context⟩ i').2 := by
  have hd : (inner' ++ outer).length = (inner ++ outer).length := by
    rw [List.length_append, List.length_append, hl]
  cases hv with
  | step =>
    rw [visit_bypassed_step, visit_bypassed_step, hd]
    exact ⟨rfl, .on (.skipping inner inner' outer context hl hn)⟩
  | enter _ _ _ _ _ hs =>
    rw [visit_bypassed_enter, visit_bypassed_enter, hd, hs]
    exact ⟨rfl, .on (.skipping (_ :: inner) (_ :: inner') outer context
      (congrArg Nat.succ hl) nofun)⟩
  | exit =>
    obtain ⟨top, below, rfl⟩ := List.exists_cons_of_ne_nil hn
    obtain ⟨top', below', rfl⟩ := List.exists_cons_of_length_eq_add_one hl
    have hb : below'.length = below.length := Nat.succ.inj hl
    -- the exit of the story that skipped leaves what is common to both stacks
    by_cases he : below = []
    · subst he
      obtain rfl := List.eq_nil_of_length_eq_zero hb
      have ht (story : Origin) : ([story] ++ outer).length = outer.length + 1 := rfl
      rw [visit_bypassed_exit_of_eq _ _ _ _ _ _ (ht top),
        visit_bypassed_exit_of_eq _ _ _ _ _ _ (ht top')]
      exact ⟨rfl, .on (.running outer context)⟩
    · have hp := List.length_pos_iff.mpr he
      have hne : (top :: below ++ outer).length ≠ outer.length + 1 := by
        simp only [List.length_append, List.length_cons]
        omega
      have hne' : (top' :: below' ++ outer).length ≠ outer.length + 1 := hd ▸ hne
      rw [visit_bypassed_exit_of_ne _ _ _ _ _ _ hne, visit_bypassed_exit_of_ne _ _ _ _ _ _ hne']
      exact ⟨rfl, .on (.skipping below below' outer context hb he)⟩

theorem Lockstep.visit (h : walker.Lockstep walker') (hv : i.Varies i')
    (hf : i.Fits walker.active) (hf' : i'.Fits walker'.active) (hs : Turn.Finds ⟨walker, i⟩ i') :
    (walker'.visit i').1 = (walker.visit i).1 ∧
      MovesAlike (walker.visit i).2 (walker'.visit i').2 := by
  cases h with
  | running => exact movesAlike_running hv hf hf' hs
  | skipping _ _ _ _ hl hn => exact movesAlike_skipping hl hn hv

theorem Lockstep.walk {is is' : List Instruction} {last last' : List Origin}
    (h : walker.Lockstep walker') (hv : List.Forall₂ Instruction.Varies is is')
    (hn : Nests walker.active is last) (hn' : Nests walker'.active is' last')
    (hs : ∀ (k : Nat) (turn : Turn) (i' : Instruction), (walker.turns is)[k]? = some turn →
      is'[k]? = some i' → turn.Finds i') :
    walk walker' is' = walk walker is := by
  induction hv generalizing walker walker' with
  | nil => rw [StoryEngine.walk, StoryEngine.walk, h.context_eq]
  | @cons i i' is is' hi _ ih =>
    cases hn with
    | cons hf hn =>
      cases hn' with
      | cons hf' hn' =>
        obtain ⟨he, hm⟩ := h.visit hi hf hf' (hs 0 _ i' rfl rfl)
        cases hw : walker.visit i with
        | mk events move =>
          cases hw' : walker'.visit i' with
          | mk events' move' =>
            rw [hw, hw'] at he hm
            obtain rfl : events' = events := he
            cases hm with
            | halt verdict => rw [walk_cons_of_halt hw, walk_cons_of_halt hw', h.context_eq]
            | on hl =>
              rw [walk_cons_of_on hw, walk_cons_of_on hw', ih hl]
              · rw [active_of_visit (congrArg Prod.snd hw)]
                exact hn
              · rw [active_of_visit (congrArg Prod.snd hw')]
                exact hn'
              · intro k turn i' ht hi'
                refine hs (k + 1) turn i' ?_ hi'
                rw [turns_cons_of_on hw]
                exact ht

end Walker

namespace Story

/-- The second story has the trace of the first one, apart from what a call of the first one does
not look at: what is done by steps that it does not carry out, what the others would do in contexts
that they are not shown, and how sub-stories are declared that it does not enter. -/
structure Coincides (story story' : Story) (arguments : Arguments) : Prop where
  root : story'.root = story.root
  varies : List.Forall₂ Instruction.Varies story.trace.instructions story'.trace.instructions
  executed : ∀ k walker i i' name name' step step', story.Executes arguments k walker →
    story.trace.instructions[k]? = some i → story'.trace.instructions[k]? = some i' →
    i.action = .step name step → i'.action = .step name' step' →
    step'.run walker.context = step.run walker.context
  entered : ∀ k entered walker, story.Enters arguments k entered walker →
    story'.trace.enteredAt k = some entered

variable {story story' : Story} {arguments : Arguments}

namespace Coincides

variable (h : story.Coincides story' arguments)

include h

theorem fingerprint_eq : story'.fingerprint = story.fingerprint := by
  have hroot : story'.trace.root = story.trace.root := h.root
  refine Trace.fingerprint_congr (by rw [hroot]) (by rw [hroot]) ?_
  exact map_label_of_forall₂ (fun _ _ hv => hv.label_eq) h.varies

theorem finds {k : Nat} {turn : Turn} {i' : Instruction}
    (ht : (story.turns arguments)[k]? = some turn)
    (hi' : story'.trace.instructions[k]? = some i') : turn.Finds i' := by
  obtain ⟨hr, hi⟩ := getElem?_turns.mp ht
  constructor
  · intro hc name name' step step' ha ha'
    have his : turn.instruction.isStep := by rw [Instruction.isStep, ha]
    exact h.executed k _ _ _ _ _ _ _ ⟨hr, _, hi, his, hc⟩ hi hi' ha ha'
  · intro hc entered he
    have hk := h.entered k entered _ ⟨hr, _, hi, he, hc⟩
    rwa [Trace.enteredAt, hi'] at hk

theorem perform_eq : story'.perform arguments = story.perform arguments := by
  have hroot := h.root
  have hl : story'.label = story.label := congrArg Origin.label hroot
  cases ho : story.root.opening arguments with
  | error error =>
    rw [perform_of_refused ho, perform_of_refused (hroot ▸ ho), hl, h.fingerprint_eq]
  | ok context =>
    have hstart : (Walker.start story.root context).Lockstep (.start story'.root context) := by
      rw [hroot]
      exact .running _ context
    rw [perform_of_opening ho, perform_of_opening (hroot ▸ ho), hl, h.fingerprint_eq,
      hstart.walk h.varies story.nested_trace story'.nested_trace]
    intro k turn i' ht hi'
    rw [← turns_of_opening ho] at ht
    exact h.finds ht hi'

end Coincides

/-- What a call does not look at has no influence on what it leaves. -/
theorem execute_eq_of_coincides (h : story.Coincides story' arguments) (occasion : Occasion) :
    story'.execute occasion arguments = story.execute occasion arguments := by
  have hl : story'.label = story.label := congrArg Origin.label h.root
  rw [execute, execute, h.perform_eq, hl]

end Story

namespace Demo

/-- A purchase that comes to its discount only where the order is a large one. -/
def bulkPurchase (bulkOnly applyDiscount : Step) (discount : Declaration) : Story where
  owner := (Shop.host 5 (reserved 20)).owner
  declaration := { Shop.purchase with body := ["bulk_only", "discount"] }
  scenes := [.step "bulk_only" bulkOnly,
    .story "discount" false (Shop.host 5 (reserved 20)).owner discount
      [.step "apply_discount" applyDiscount]]

def bulkSale : Story := bulkPurchase Shop.bulkOnly Shop.applyDiscount Shop.discount

/-- The same purchase with a test that no order passes, a discount that no total is good enough
for, and a step that breaks the run off. -/
def noSale : Story := bulkPurchase { run := fun _ => .ok (some .skip) }
  { run := fun _ => .error (.plain "no discount") }
  { Shop.discount with
    failures := some []
    contract := some { check := fun _ => .error [⟨"total", "too small"⟩] } }

theorem skipping_of_reaches_bulkSale {k : Nat} {walker : Walker}
    (h : bulkSale.Reaches order k walker) (hk : 0 < k) (hs : k ≤ bulkSale.trace.size) :
    walker.skipping = some 1 := by
  obtain ⟨context, ho, hw⟩ := h
  obtain rfl : ordered = context := Except.ok.inj ho
  have hskips : bulkSale.trace.SkipsAt ordered 0 :=
    ⟨_, _, rfl, rfl, Walker.carriesOut_iff.mpr rfl, _, _, rfl, rfl⟩
  exact (bulkSale.nested_trace.regionBefore hw hs 1).mpr
    ⟨0, hskips, ⟨hk, fun _ _ _ => Nat.zero_le _⟩, rfl⟩

theorem coincides_bulkSale : bulkSale.Coincides noSale order where
  root := rfl
  varies := .cons (.step ..) (.cons (.enter _ _ _ _ _ rfl) (.cons (.step ..)
    (.cons (.exit _ _ _ rfl) .nil)))
  executed := by
    intro k walker i i' name name' step step' hx hi hi' ha ha'
    cases k with
    | zero =>
      obtain ⟨⟨context, ho, hw⟩, -⟩ := hx
      obtain rfl : ordered = context := Except.ok.inj ho
      obtain rfl := Option.some.inj hw
      obtain rfl := Option.some.inj hi
      obtain rfl := Option.some.inj hi'
      cases ha
      cases ha'
      rfl
    | succ k =>
      have hk := skipping_of_reaches_bulkSale hx.1 k.succ_pos (Nat.le_of_lt hx.lt_size)
      rw [hx.skipping_eq_none] at hk
      cases hk
  entered := by
    rintro k entered walker ⟨hr, i, hi, he, hc⟩
    cases k with
    | zero =>
      obtain rfl := Option.some.inj hi
      cases he
    | succ k =>
      have hk := skipping_of_reaches_bulkSale hr k.succ_pos
        (Nat.le_of_lt (Trace.lt_size_of_getElem? hi))
      rw [Walker.carriesOut_iff.mp hc] at hk
      cases hk

/-- A small order never gets to the discount, so that it may be replaced. -/
theorem execute_noSale : bulkSale.Coincides noSale order ∧
    noSale.execute occasion order = bulkSale.execute occasion order ∧
    codes (noSale.execute occasion order).kinds = ["I", "S", "K", "-", "-", "C"] := by
  have he := Story.execute_eq_of_coincides coincides_bulkSale occasion
  exact ⟨coincides_bulkSale, he, (congrArg (codes ∘ Execution.kinds) he).trans rfl⟩

end Demo

end StoryEngine
