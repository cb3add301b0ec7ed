import StoryEngine.Proofs.Contract.Acceptance
import StoryEngine.Proofs.Run.Entry

/-! # Guaranteed variables

A schema vouches for the variables of its story. In a context there come values from the arguments
of a call, from those that are there when a story is entered, and from outputs of steps at any
depth; on each way the schema is asked about the variables that it declares.
-/

namespace StoryEngine

variable {schema : Schema}

theorem Declaration.checkVariables_eq_ok {declaration : Declaration} {label : String}
    {pairs : List (String × Value)} (hc : declaration.contract = some schema.contract)
    (h : declaration.checkVariables label pairs = .ok ()) {p : String × Value} (hp : p ∈ pairs) :
    ∃ check, schema.fields.get? p.1 = some check ∧ check p.2 = none := by
  unfold checkVariables at h
  rw [hc] at h
  dsimp only at h
  split at h
  case h_1 hok => exact Schema.check_eq_ok_iff.mp hok p hp
  case h_2 => cases h

theorem Origin.accepts_of_opening {root : Origin} {arguments : Arguments} {context : Context}
    (h : root.opening arguments = .ok context)
    (hc : root.declaration.contract = some schema.contract) : schema.Accepts context.entries := by
  obtain ⟨bound, -, hok, rfl⟩ := opening_eq_ok h
  intro v hv check hf
  obtain ⟨p, hp, rfl⟩ := List.mem_map.mp hv
  obtain ⟨check', hf', hn⟩ :=
    Declaration.checkVariables_eq_ok hc hok (Bindings.mem_of_mem_ofList hp)
  obtain rfl := Option.some.inj (hf.symm.trans hf')
  exact hn

/-- Of the variables that are added while a story is active, its schema has been asked about all
that it declares. -/
theorem Trace.Nested.accepts_added {trace : Trace} (h : trace.Nested) {context : Context}
    {j k : Nat} {earlier later : Walker} {story : Origin}
    (hj : trace.walkerAt context j = some earlier) (hk : trace.walkerAt context k = some later)
    (hjk : j ≤ k) (hs : k ≤ trace.size)
    (ha : ∀ m, j ≤ m → m < k → story ∈ trace.activeBefore m)
    (hc : story.declaration.contract = some schema.contract) :
    ∃ added, later.context.entries = earlier.context.entries ++ added ∧ schema.Accepts added := by
  obtain ⟨added, he, hadded⟩ := h.exists_added hj hk hjk hs
  refine ⟨added, he, fun v hv check hf => ?_⟩
  obtain ⟨m, outputs, hjm, hmk, hp, hok⟩ := hadded v hv
  exact Schema.check_of_checkOutputs hok (ha m hjm hmk) hc hp hf

namespace Story

variable {story : Story} {arguments : Arguments} {e k : Nat} {walker entry : Walker}
  {entered : Origin}

/-- The schema of the root vouches for every variable of every state of a call. -/
theorem Reaches.accepts (h : story.Reaches arguments k walker) (hk : k ≤ story.trace.size)
    (hc : story.declaration.contract = some schema.contract) :
    schema.Accepts walker.context.entries := by
  obtain ⟨context, ho, hw⟩ := h
  obtain ⟨added, he, ha⟩ := story.nested_trace.accepts_added rfl hw (Nat.zero_le k) hk
    (fun m _ _ => story.trace.root_mem_activeBefore m) hc
  rw [he]
  exact Schema.accepts_append.mpr ⟨Origin.accepts_of_opening ho hc, ha⟩

theorem context_execute (story : Story) (occasion : Occasion) (arguments : Arguments) :
    (story.execute occasion arguments).context = .empty ∨
      ∃ k walker, k ≤ story.trace.size ∧ story.Reaches arguments k walker ∧
        (story.execute occasion arguments).context = walker.context := by
  have hr : story.trace.root = story.root := rfl
  unfold execute perform Trace.perform
  rw [hr]
  cases ho : story.root.opening arguments with
  | error error => exact Or.inl rfl
  | ok context =>
    obtain ⟨k, last, hk, hw, hc⟩ := Trace.exists_walkerAt_walk story.trace context
    exact Or.inr ⟨k, last, hk, ⟨context, ho, hw⟩, hc⟩

theorem Enters.accepts (h : story.Enters arguments e entered entry)
    (hw : story.Reaches arguments k walker) (hk : k ≤ story.trace.size)
    (he : e ∈ story.trace.openBefore k)
    (hc : entered.declaration.contract = some schema.contract) :
    (∀ name ∈ entered.declaration.arguments, ∃ value check,
        walker.context.get? name = some value ∧ schema.fields.get? name = some check ∧
        check value = none) ∧
      ∃ added, walker.context.entries = entry.context.entries ++ added ∧
        schema.Accepts added := by
  have hek : e < k := (Trace.mem_openBefore_iff.mp he).1
  obtain ⟨hce, next, hnext, hnc⟩ := h.checkEntry hw hek
  obtain ⟨hbound, hok⟩ := Walker.checkEntry_eq_ok hce
  obtain ⟨context, ho, hn⟩ := hnext
  obtain ⟨added, ha, hacc⟩ := story.nested_trace.accepts_added hn (hw.walkerAt ho) hek hk
    (fun m hem hmk => Trace.mem_activeBefore (Trace.mem_openBefore_of_le he hem (Nat.le_of_lt hmk))
      h.enteredAt) hc
  rw [hnc] at ha
  refine ⟨fun name hname => ?_, added, ha, hacc⟩
  obtain ⟨value, hv⟩ := hbound name hname
  obtain ⟨check, hf, hpass⟩ :=
    Declaration.checkVariables_eq_ok hc hok (Context.mem_visible hname hv)
  exact ⟨value, check, Context.get?_mono ⟨added, ha.symm⟩ hv, hf, hpass⟩

/-- What the schemas of a story and of its sub-stories vouch for in a call. -/
structure Guaranteed (story : Story) (arguments : Arguments) : Prop where
  /-- The states that are spoken of are those of the run of the call. -/
  continues : ∀ k walker, story.Reaches arguments k walker → ∃ events, story.perform arguments =
    ((walk walker (story.trace.instructions.drop k)).after events).framed story.label
      story.fingerprint
  /-- No step and no caller sees a variable that the schema of the root declares and refuses. -/
  root : ∀ schema : Schema, story.declaration.contract = some schema.contract →
    (∀ k walker, story.Executes arguments k walker → schema.Accepts walker.context.entries) ∧
      ∀ occasion, schema.Accepts (story.execute occasion arguments).context.entries
  /-- A step that decodes a field as it was declared is never told that it cannot. -/
  decodes : ∀ schema : Schema, story.declaration.contract = some schema.contract →
    ∀ (α : Type) (read : Value → Except Mismatch α) name,
      schema.fields.get? name = some (Schema.decodable read) →
      ∀ k walker, story.Executes arguments k walker →
      ∀ other cause, walker.context.decode read name ≠ .error (.mismatch other cause)
  /-- While a sub-story is active its parameters, and whatever has been added since it was entered,
  are as its schema wants them. -/
  entered : ∀ e entered entry, story.Enters arguments e entered entry →
    ∀ schema : Schema, entered.declaration.contract = some schema.contract →
    ∀ k walker, k ≤ story.trace.size → story.Reaches arguments k walker →
    e ∈ story.trace.openBefore k →
    (∀ name ∈ entered.declaration.arguments, ∃ value check,
        walker.context.get? name = some value ∧ schema.fields.get? name = some check ∧
        check value = none) ∧
      ∃ added, walker.context.entries = entry.context.entries ++ added ∧ schema.Accepts added

/-- Schemas vouch for what steps see, in every call and whatever the steps do. -/
theorem guaranteed (story : Story) (arguments : Arguments) : story.Guaranteed arguments where
  continues _ _ h := h.perform
  root schema hc := by
    constructor
    · exact fun k walker h => h.1.accepts (Nat.le_of_lt h.lt_size) hc
    · intro occasion
      rcases story.context_execute occasion arguments with he | ⟨k, walker, hk, hw, he⟩
      · rw [he]
        exact nofun
      · rw [he]
        exact hw.accepts hk hc
  decodes schema hc α read name hf k walker h :=
    Context.decode_ne_mismatch (h.1.accepts (Nat.le_of_lt h.lt_size) hc) hf
  entered e entered entry h schema hc k walker hk hw he := h.accepts hw hk he hc

end Story

/-- The receipt of a purchase can read the total, and the reservation adds what its schema wants. -/
theorem Demo.guaranteed_purchase :
    (∃ walker, smallShop.Executes order 9 walker ∧
        ∀ other cause, walker.context.read .i64 "total" ≠ .error (.mismatch other cause)) ∧
      ∃ entry walker added, smallShop.Enters order 1 ⟨"Inventory", Inventory.reserve, [1]⟩ entry ∧
        smallShop.Reaches order 4 walker ∧
        walker.context.entries = entry.context.entries ++ added ∧
        added.map Variable.name = ["reserved"] ∧ Inventory.schema.Accepts added := by
  have ho : smallShop.root.opening order = .ok ordered := rfl
  constructor
  · obtain ⟨walker, hw⟩ : ∃ walker, smallShop.Executes order 9 walker :=
      Story.exists_executes ho rfl rfl rfl
    refine ⟨walker, hw, fun other cause => ?_⟩
    have hf : Shop.schema.fields.get? "total" = some (Schema.decodable Shape.i64.read) := by
      rw [← Schema.readable_eq_decodable]
      rfl
    rw [Context.read_eq_decode]
    exact (Story.guaranteed smallShop order).decodes Shop.schema rfl _ _ _ hf 9 walker hw other
      cause
  · have hnames (k : Nat) (names : List String) (h : (smallShop.trace.walkerAt ordered k).map
        (fun walker => (walker.skipping, walker.context.names)) = some (none, names)) :
        ∃ walker, smallShop.trace.walkerAt ordered k = some walker ∧ walker.skipping = none ∧
          walker.context.names = names := by
      obtain ⟨walker, hw, hp⟩ := Option.map_eq_some_iff.mp h
      exact ⟨walker, hw, Prod.mk.inj hp⟩
    obtain ⟨entry, hentry, hskip, hbefore⟩ := hnames 1 ["item", "quantity", "total"] rfl
    obtain ⟨walker, hwalker, -, hafter⟩ := hnames 4 ["item", "quantity", "total", "reserved"] rfl
    have he : smallShop.Enters order 1 ⟨"Inventory", Inventory.reserve, [1]⟩ entry :=
      ⟨⟨ordered, ho, hentry⟩, _, rfl, rfl, Walker.carriesOut_iff.mpr hskip⟩
    have hw : smallShop.Reaches order 4 walker := ⟨ordered, ho, hwalker⟩
    obtain ⟨-, added, hadded, haccepts⟩ := (Story.guaranteed smallShop order).entered 1 _ entry he
      Inventory.schema rfl 4 walker (by decide) hw (by decide)
    refine ⟨entry, walker, added, he, hw, hadded, ?_, haccepts⟩
    have hsplit : walker.context.names = entry.context.names ++ added.map Variable.name := by
      rw [Context.names, hadded, List.map_append]
      rfl
    rw [hafter, hbefore] at hsplit
    have hsplit' : ["item", "quantity", "total"] ++ ["reserved"] =
        ["item", "quantity", "total"] ++ added.map Variable.name := hsplit
    exact (List.append_cancel_left hsplit').symm

end StoryEngine
