import StoryEngine.Proofs.Context.Binding
import StoryEngine.Proofs.Run.Entry

/-! # Visible parameters

A step that is carried out sees the parameters of every story that is active, with the values that
they had when the story was entered. A sub-story whose parameters are not all there ends the run.
-/

namespace StoryEngine

def Context.Agree (earlier later : Context) (names : List String) : Prop :=
  ∀ name ∈ names, ∃ value, earlier.get? name = some value ∧ later.get? name = some value

theorem Context.Agree.of_bound {earlier later : Context} {names : List String}
    (hp : earlier.entries <+: later.entries)
    (hn : ∀ name ∈ names, ∃ value, earlier.get? name = some value) : earlier.Agree later names := by
  intro name hm
  obtain ⟨value, hv⟩ := hn name hm
  exact ⟨value, hv, get?_mono hp hv⟩

theorem Origin.exists_get?_of_opening {root : Origin} {arguments : Arguments} {context : Context}
    (h : root.opening arguments = .ok context) {name : String}
    (hn : name ∈ root.declaration.arguments) : ∃ value, context.get? name = some value := by
  obtain ⟨bound, hb, -, rfl⟩ := opening_eq_ok h
  have hm : name ∈ (Context.ofArguments bound).names := by
    rw [Context.names_of_bind hb]
    exact List.mem_eraseDups.mpr hn
  rw [← Option.isSome_iff_exists, Context.isSome_get?]
  exact List.contains_iff_mem.mpr hm

namespace Story

/-- What the steps of a call see of the parameters of the active stories. -/
structure ParametersVisible (story : Story) (arguments : Arguments) : Prop where
  /-- The states that are spoken of are those of the run of the call. -/
  continues : ∀ k walker, story.Reaches arguments k walker → ∃ events, story.perform arguments =
    ((walk walker (story.trace.instructions.drop k)).after events).framed story.label
      story.fingerprint
  /-- The active stories are the root and those that are open in the trace. -/
  active : ∀ k walker, story.Executes arguments k walker →
    walker.active.reverse = story.root :: story.trace.storiesBefore k
  /-- The parameters of the root have the values that the call started with. -/
  root : ∀ k walker, story.Executes arguments k walker →
    ∃ context, story.root.opening arguments = .ok context ∧
      context.Agree walker.context story.arguments
  /-- The parameters of an open story have the values with which the story was entered. -/
  entered : ∀ k walker, story.Executes arguments k walker → ∀ e ∈ story.trace.openBefore k,
    ∃ entered entry, story.trace.enteredAt e = some entered ∧
      story.Enters arguments e entered entry ∧
      entry.context.Agree walker.context entered.declaration.arguments
  /-- Where a parameter is missing the call is over, with an error that lists all that are. -/
  refused : ∀ e entered entry, story.Enters arguments e entered entry →
    (∃ name ∈ entered.declaration.arguments, entry.context.get? name = none) →
    (∀ occasion, (story.execute occasion arguments).verdict =
      .error (.contract (.missingVariables entered.label
        (entered.declaration.arguments.filter fun name => (entry.context.get? name).isNone)))) ∧
      ∀ j walker, story.Reaches arguments j walker → j ≤ e

/-- In every call, whatever its steps do and skip, the parameters of active stories are visible. -/
theorem parametersVisible (story : Story) (arguments : Arguments) :
    story.ParametersVisible arguments where
  continues _ _ h := h.perform
  active k walker h := by
    obtain ⟨context, -, hw⟩ := h.1
    rw [story.nested_trace.active_eq hw (Nat.le_of_lt h.lt_size), Trace.activeBefore,
      List.reverse_append, List.reverse_reverse]
    rfl
  root k walker h := by
    obtain ⟨context, ho, hw⟩ := h.1
    have hfirst : story.Reaches arguments 0 (.start story.root context) := ⟨context, ho, rfl⟩
    have hp := hfirst.prefix_of_le h.1 (Nat.zero_le k) (Nat.le_of_lt h.lt_size)
    exact ⟨context, ho, .of_bound hp fun _ hn => Origin.exists_get?_of_opening ho hn⟩
  entered k walker h e he := by
    obtain ⟨entered, entry, hentry⟩ := h.exists_enters he
    have hek : e < k := (Trace.mem_openBefore_iff.mp he).1
    obtain ⟨hc, -⟩ := hentry.checkEntry h.1 hek
    have hp := hentry.1.prefix_of_le h.1 (Nat.le_of_lt hek) (Nat.le_of_lt h.lt_size)
    exact ⟨entered, entry, hentry.enteredAt, hentry,
      .of_bound hp (Walker.checkEntry_eq_ok hc).1⟩
  refused e entered entry hentry hn := by
    obtain ⟨⟨context, ho, hw⟩, i, hi, he, hc⟩ := id hentry
    have hm : entry.context.missing entered.declaration.arguments ≠ [] := by
      obtain ⟨name, hn, hv⟩ := hn
      intro hnil
      obtain ⟨value, hv'⟩ := Context.missing_eq_nil_iff.mp hnil name hn
      simp [hv] at hv'
    obtain ⟨events, hv⟩ := Walker.visit_of_checkEntry (Walker.carriesOut_iff.mp hc) he
      (Walker.checkEntry_of_missing hm)
    rw [← Context.missing_eq]
    refine ⟨hentry.1.verdict_of_visit hi hv, fun j walker hj => ?_⟩
    exact Trace.le_of_walkerAt_of_halt hw hi (by rw [hv]) (hj.walkerAt ho)

end Story

namespace Demo

def unpriced : Story where
  owner := (Shop.host 5 (reserved 20)).owner
  declaration := { Shop.purchase with body := ["discount"] }
  scenes := [discountScene 5 (reserved 20)]

/-- The discount of a purchase sees the total it was entered with, and without a total there is
no discount. -/
theorem parametersVisible_discount :
    (∃ walker entry, smallShop.Executes order 6 walker ∧
        smallShop.Enters order 5 ⟨"Shop", Shop.discount, [2]⟩ entry ∧
        entry.context.Agree walker.context ["total"]) ∧
      (∀ occasion, (unpriced.execute occasion order).verdict =
        .error (.contract (.missingVariables "Shop.discount" ["total"]))) := by
  constructor
  · have ho : smallShop.root.opening order = .ok ordered := rfl
    obtain ⟨walker, hw⟩ : ∃ walker, smallShop.Executes order 6 walker :=
      Story.exists_executes ho rfl rfl rfl
    obtain ⟨entered, entry, he, hentry, ha⟩ :=
      (Story.parametersVisible smallShop order).entered 6 walker hw 5 (by decide)
    obtain rfl := Option.some.inj he
    exact ⟨walker, entry, hw, hentry, ha⟩
  · have hentry : unpriced.Enters order 0 ⟨"Shop", Shop.discount, [0]⟩
        (.start unpriced.root ordered) := ⟨⟨ordered, rfl, rfl⟩, _, rfl, rfl, rfl⟩
    exact ((Story.parametersVisible unpriced order).refused 0 _ _ hentry
      ⟨"total", by decide, rfl⟩).1

end Demo

end StoryEngine
