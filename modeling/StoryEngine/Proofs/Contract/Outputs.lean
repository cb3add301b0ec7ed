import StoryEngine.Proofs.Contract.Acceptance

/-! # Checked outputs

Which outputs of a step get past the contracts of the active stories, and which story is named if
they do not. A contract judges what it declares; what none of them declares is unknown.
-/

namespace StoryEngine

namespace Origin

variable (story : Origin)

def declares (name : String) : Bool := story.declaration.contract.any (·.declares name)

/-- Whatever contract the story has accepts the outputs that it declares, if it declares any. -/
def Accepts (outputs : List (String × Value)) : Prop :=
  ∀ contract, story.declaration.contract = some contract → declaredPart contract outputs ≠ [] →
    contract.check (declaredPart contract outputs) = .ok ()

end Origin

/-- The innermost story whose contract does not accept what it declares, and the violations that
this contract names. -/
inductive Rejected (outputs : List (String × Value)) :
    List Origin → Origin → List Violation → Prop where
  | here {story : Origin} {contract : Contract} {outer : List Origin}
      {violations : List Violation} : story.declaration.contract = some contract →
      declaredPart contract outputs ≠ [] →
      contract.check (declaredPart contract outputs) = .error violations →
      Rejected outputs (story :: outer) story violations
  | outer {inner story : Origin} {active : List Origin} {violations : List Violation} :
      inner.Accepts outputs → Rejected outputs active story violations →
      Rejected outputs (inner :: active) story violations

/-- A violation for each output that no active story declares. -/
def uncovered (active : List Origin) (outputs : List (String × Value)) : List Violation :=
  (outputs.filter fun p => !active.any (·.declares p.1)).map fun p => ⟨p.1, "unknown variable"⟩

/-- All contracts accept, and the innermost story that has one answers for what none declares. -/
structure Uncovered (outputs : List (String × Value)) (active : List Origin) (story : Origin)
    (violations : List Violation) : Prop where
  accepted : ∀ s ∈ active, s.Accepts outputs
  innermost : active.find? (·.declaration.contract.isSome) = some story
  violations_eq : violations = uncovered active outputs
  violations_ne : violations ≠ []

namespace Origin

variable {story : Origin} {outputs : List (String × Value)} {contract : Contract}

theorem accepts_of_none (h : story.declaration.contract = none) : story.Accepts outputs := by
  intro contract hc
  rw [h] at hc
  cases hc

theorem accepts_iff_of_some (h : story.declaration.contract = some contract) :
    story.Accepts outputs ↔ (declaredPart contract outputs ≠ [] →
      contract.check (declaredPart contract outputs) = .ok ()) := by
  constructor
  · exact fun ha => ha contract h
  · intro hk contract' hc
    obtain rfl := Option.some.inj (h.symm.trans hc)
    exact hk

end Origin

section Contracted

variable {active : List Origin} {outputs : List (String × Value)} {story : Origin}
  {violations : List Violation} {error : ContractError}

theorem contracted_cons_of_none {inner : Origin} (h : inner.declaration.contract = none) :
    contracted (inner :: active) = contracted active := by
  simp [contracted, h]

theorem contracted_cons_of_some {inner : Origin} {contract : Contract}
    (h : inner.declaration.contract = some contract) :
    contracted (inner :: active) = (inner, contract) :: contracted active := by
  simp [contracted, h]

theorem contracted_eq_nil_iff :
    contracted active = [] ↔ ∀ story ∈ active, story.declaration.contract = none := by
  simp [contracted, List.filterMap_eq_nil_iff]

theorem any_contracted (active : List Origin) (name : String) :
    (contracted active).any (fun judge => judge.2.declares name) =
      active.any (·.declares name) := by
  induction active with
  | nil => rfl
  | cons inner active ih =>
    rw [List.any_cons, ← ih, Origin.declares]
    cases hc : inner.declaration.contract with
    | none => rw [contracted_cons_of_none hc]; rfl
    | some contract => rw [contracted_cons_of_some hc]; rfl

theorem innermost_of_contracted {contract : Contract} {rest : List (Origin × Contract)}
    (h : contracted active = (story, contract) :: rest) :
    active.find? (·.declaration.contract.isSome) = some story := by
  induction active with
  | nil => cases h
  | cons inner active ih =>
    cases hc : inner.declaration.contract with
    | none =>
      rw [contracted_cons_of_none hc] at h
      rw [List.find?_cons_of_neg (by simp [hc]), ih h]
    | some own =>
      rw [contracted_cons_of_some hc] at h
      obtain ⟨rfl, rfl⟩ := Prod.mk.inj (List.cons.inj h).1
      rw [List.find?_cons_of_pos (by simp [hc])]

theorem checkDeclared_contracted_eq_ok_iff :
    checkDeclared outputs (contracted active) = .ok () ↔ ∀ s ∈ active, s.Accepts outputs := by
  rw [checkDeclared_eq_ok_iff]
  constructor
  · intro h s hs contract hc hne
    exact (h _ (mem_contracted hs hc)).resolve_left hne
  · rintro h ⟨s, contract⟩ hj
    obtain ⟨s', hs, hm⟩ := List.mem_filterMap.mp hj
    obtain ⟨contract', hc, he⟩ := Option.map_eq_some_iff.mp hm
    obtain ⟨rfl, rfl⟩ := Prod.mk.inj he
    by_cases hp : declaredPart contract' outputs = []
    · exact .inl hp
    · exact .inr (h s' hs contract' hc hp)

theorem rejected_cons_of_accepts {inner : Origin} (h : inner.Accepts outputs) :
    Rejected outputs (inner :: active) story violations ↔
      Rejected outputs active story violations := by
  constructor
  · rintro (⟨hc, hne, he⟩ | ⟨-, hr⟩)
    · rw [h _ hc hne] at he
      cases he
    · exact hr
  · exact .outer h

theorem rejected_cons_of_error {inner : Origin} {contract : Contract} {reasons : List Violation}
    (hc : inner.declaration.contract = some contract) (hne : declaredPart contract outputs ≠ [])
    (he : contract.check (declaredPart contract outputs) = .error reasons) :
    Rejected outputs (inner :: active) story violations ↔ story = inner ∧ violations = reasons := by
  constructor
  · rintro (⟨hc', -, he'⟩ | ⟨ha, -⟩)
    · obtain rfl := Option.some.inj (hc.symm.trans hc')
      exact ⟨rfl, Except.error.inj (he'.symm.trans he)⟩
    · rw [ha contract hc hne] at he
      cases he
  · rintro ⟨rfl, rfl⟩
    exact .here hc hne he

theorem checkDeclared_contracted_eq_error_iff :
    checkDeclared outputs (contracted active) = .error error ↔
      ∃ story violations, error = .invalidVariables story.label violations ∧
        Rejected outputs active story violations := by
  induction active with
  | nil => exact iff_of_false nofun fun ⟨_, _, _, hr⟩ => nomatch hr
  | cons inner active ih =>
    cases hc : inner.declaration.contract with
    | none =>
      simp only [contracted_cons_of_none hc, ih,
        rejected_cons_of_accepts (Origin.accepts_of_none hc)]
    | some contract =>
      rw [contracted_cons_of_some hc, checkDeclared]
      by_cases hp : declaredPart contract outputs = []
      · have ha : inner.Accepts outputs :=
          (Origin.accepts_iff_of_some hc).mpr fun hne => absurd hp hne
        simp only [hp, List.isEmpty_nil, if_true, rejected_cons_of_accepts ha, ih]
      · cases hk : contract.check (declaredPart contract outputs) with
        | ok =>
          have ha : inner.Accepts outputs := (Origin.accepts_iff_of_some hc).mpr fun _ => hk
          simp only [List.isEmpty_iff, hp, if_false, rejected_cons_of_accepts ha, ih]
        | error reasons =>
          simp only [List.isEmpty_iff, hp, if_false, rejected_cons_of_error hc hp hk,
            Except.error.injEq]
          constructor
          · rintro rfl
            exact ⟨inner, reasons, rfl, rfl, rfl⟩
          · rintro ⟨_, _, rfl, rfl, rfl⟩
            rfl

theorem uncovered_eq_nil_iff :
    uncovered active outputs = [] ↔ ∀ p ∈ outputs, ∃ story ∈ active, story.declares p.1 := by
  simp [uncovered, List.filter_eq_nil_iff]

theorem checkOutputs_of_contracted {contract : Contract} {rest : List (Origin × Contract)}
    (h : contracted active = (story, contract) :: rest) :
    checkOutputs active outputs = checkDeclared outputs (contracted active) >>= fun _ =>
      if uncovered active outputs = [] then .ok ()
      else .error (.invalidVariables story.label (uncovered active outputs)) := by
  have hu : (outputs.filter fun p => !(contracted active).any fun judge => judge.2.declares p.1) =
      outputs.filter fun p => !active.any (·.declares p.1) :=
    List.filter_congr fun p _ => congrArg Bool.not (any_contracted active p.1)
  simp only [uncovered, ← hu, ← List.isEmpty_iff, List.isEmpty_map]
  rw [checkOutputs, h]

theorem checkOutputs_eq_ok_iff : checkOutputs active outputs = .ok () ↔
    (∀ story ∈ active, story.declaration.contract = none) ∨
      (∀ p ∈ outputs, ∃ story ∈ active, story.declares p.1) ∧
        ∀ story ∈ active, story.Accepts outputs := by
  rw [← contracted_eq_nil_iff, ← uncovered_eq_nil_iff, ← checkDeclared_contracted_eq_ok_iff]
  cases hj : contracted active with
  | nil => exact iff_of_true (by rw [checkOutputs, hj]) (.inl rfl)
  | cons judge rest =>
    rw [checkOutputs_of_contracted hj, ← hj]
    cases checkDeclared outputs (contracted active) with
    | error => exact iff_of_false nofun (by simp [hj])
    | ok => by_cases hu : uncovered active outputs = [] <;> simp [hj, hu, bind, Except.bind]

theorem uncovered_iff {judge : Origin × Contract} {rest : List (Origin × Contract)}
    (h : contracted active = judge :: rest) : Uncovered outputs active story violations ↔
      checkDeclared outputs (contracted active) = .ok () ∧ uncovered active outputs ≠ [] ∧
        story = judge.1 ∧ violations = uncovered active outputs := by
  rw [checkDeclared_contracted_eq_ok_iff]
  constructor
  · rintro ⟨ha, hi, rfl, hne⟩
    exact ⟨ha, hne, Option.some.inj (hi.symm.trans (innermost_of_contracted h)), rfl⟩
  · rintro ⟨ha, hne, rfl, rfl⟩
    exact ⟨ha, innermost_of_contracted h, rfl, hne⟩

theorem not_rejected_of_ok (h : checkDeclared outputs (contracted active) = .ok ()) :
    ¬ Rejected outputs active story violations := by
  intro hr
  rw [checkDeclared_contracted_eq_error_iff.mpr ⟨story, violations, rfl, hr⟩] at h
  cases h

theorem checkOutputs_eq_error_iff : checkOutputs active outputs = .error error ↔
    ∃ story violations, error = .invalidVariables story.label violations ∧
      (Rejected outputs active story violations ∨ Uncovered outputs active story violations) := by
  cases hj : contracted active with
  | nil =>
    refine iff_of_false (by rw [checkOutputs, hj]; exact nofun) ?_
    rintro ⟨story, violations, -, hr | hu⟩
    · exact not_rejected_of_ok (by rw [hj]; rfl) hr
    · have hc := contracted_eq_nil_iff.mp hj story (List.mem_of_find?_eq_some hu.innermost)
      have hs := List.find?_some hu.innermost
      rw [hc] at hs
      cases hs
  | cons judge rest =>
    simp only [checkOutputs_of_contracted hj, uncovered_iff hj]
    cases hd : checkDeclared outputs (contracted active) with
    | error refusal =>
      simp only [reduceCtorEq, false_and, or_false]
      rw [← checkDeclared_contracted_eq_error_iff, hd]
      rfl
    | ok =>
      simp only [not_rejected_of_ok hd, false_or, true_and]
      by_cases hu : uncovered active outputs = []
      · simp [hu, bind, Except.bind]
      · rw [if_neg hu]
        constructor
        · rintro ⟨⟩
          exact ⟨judge.1, _, rfl, hu, rfl, rfl⟩
        · rintro ⟨_, _, rfl, -, rfl, rfl⟩
          rfl

end Contracted

namespace Schema

variable {schema : Schema}

/-- A violation for each output whose field is declared and whose own check refuses it. -/
def failures (schema : Schema) (outputs : List (String × Value)) : List Violation :=
  outputs.filterMap fun p =>
    (schema.fields.get? p.1).bind fun check => (check p.2).map fun reason => ⟨p.1, reason⟩

theorem check_declaredPart (schema : Schema) (outputs : List (String × Value)) :
    schema.contract.check (declaredPart schema.contract outputs) =
      Contract.ofViolations (schema.failures outputs) := by
  have hv : schema.violations (declaredPart schema.contract outputs) = schema.failures outputs := by
    rw [violations, Contract.judge, declaredPart, List.filterMap_filter]
    congr 1
    funext p
    cases hf : schema.fields.get? p.1 with
    | none =>
      have hd : schema.contract.declares p.1 = false := Bindings.get?_eq_none_iff.mp hf
      simp [hd]
    | some check =>
      simp only [declares_iff.mpr ⟨check, hf⟩, if_true, verdict, hf]
      rfl
  exact congrArg Contract.ofViolations hv

theorem accepts_iff {schema : Schema} {story : Origin} {outputs : List (String × Value)}
    (hs : story.declaration.contract = some schema.contract) :
    story.Accepts outputs ↔ schema.failures outputs = [] := by
  have hc := schema.check_declaredPart outputs
  rw [Origin.accepts_iff_of_some hs, hc, Contract.ofViolations_eq_ok_iff]
  refine ⟨fun h => ?_, fun h _ => h⟩
  by_cases hp : declaredPart schema.contract outputs = []
  · rw [hp] at hc
    exact Contract.ofViolations_eq_ok_iff.mp hc.symm
  · exact h hp

theorem violations_of_rejected {schema : Schema} {active : List Origin} {story : Origin}
    {outputs : List (String × Value)} {violations : List Violation}
    (hr : Rejected outputs active story violations)
    (hs : story.declaration.contract = some schema.contract) :
    violations = schema.failures outputs := by
  induction hr with
  | here hc _ he =>
    obtain rfl := Option.some.inj (hs.symm.trans hc)
    rw [check_declaredPart] at he
    cases hf : schema.failures outputs with
    | nil => rw [hf] at he; cases he
    | cons => rw [hf] at he; exact (Except.error.inj he).symm
  | outer _ _ ih => exact ih hs

end Schema

/-- Outputs pass exactly if no active story has a contract, or each of them is declared and each
contract accepts what it declares. Otherwise the innermost story is named that does not accept its
part, and where all do, the innermost one with a contract for the outputs that none declares. A
schema names those of its fields that fail their own checks. -/
theorem checkOutputs_law (active : List Origin) (outputs : List (String × Value)) :
    (checkOutputs active outputs = .ok () ↔
      (∀ story ∈ active, story.declaration.contract = none) ∨
        (∀ p ∈ outputs, ∃ story ∈ active, story.declares p.1) ∧
          ∀ story ∈ active, story.Accepts outputs) ∧
    (∀ error, checkOutputs active outputs = .error error ↔
      ∃ story violations, error = .invalidVariables story.label violations ∧
        (Rejected outputs active story violations ∨ Uncovered outputs active story violations)) ∧
    ∀ (story : Origin) (schema : Schema), story.declaration.contract = some schema.contract →
      (story.Accepts outputs ↔ schema.failures outputs = []) ∧
        ∀ violations, Rejected outputs active story violations →
          violations = schema.failures outputs :=
  ⟨checkOutputs_eq_ok_iff, fun _ => checkOutputs_eq_error_iff, fun _ _ hs =>
    ⟨Schema.accepts_iff hs, fun _ hr => Schema.violations_of_rejected hr hs⟩⟩

end StoryEngine
