import StoryEngine.Context.View
import StoryEngine.Contract.Schema
import StoryEngine.Proofs.Context.Arguments
import StoryEngine.Run.Walk

/-! # Accepted variables

A schema accepts variables if it has a field for each of them and the check of the field passes.
Outputs that get past the contracts of the active stories are accepted by each of these contracts,
as far as it declares them.
-/

namespace StoryEngine

theorem Bindings.get?_eq_none_iff {α : Type} {b : Bindings α} {name : String} :
    b.get? name = none ↔ b.contains name = false := by
  rw [get?, lookup_eq_none_iff, contains, names, List.contains_eq_mem, decide_eq_false_iff_not]

namespace Contract

theorem ofViolations_eq_ok_iff {violations : List Violation} :
    ofViolations violations = .ok () ↔ violations = [] := by
  cases violations with
  | nil => exact iff_of_true rfl rfl
  | cons violation rest => exact iff_of_false nofun nofun

theorem judge_eq_nil_iff {verdict : String → Value → Option String}
    {pairs : List (String × Value)} :
    judge verdict pairs = [] ↔ ∀ p ∈ pairs, verdict p.1 p.2 = none := by
  simp [judge, List.filterMap_eq_nil_iff]

end Contract

namespace Schema

variable {schema : Schema} {name : String} {value : Value}

theorem verdict_eq_none_iff :
    schema.verdict name value = none ↔
      ∃ check, schema.fields.get? name = some check ∧ check value = none := by
  unfold verdict
  cases schema.fields.get? name with
  | none => exact iff_of_false nofun nofun
  | some check => simp

theorem declares_iff :
    schema.contract.declares name = true ↔ ∃ check, schema.fields.get? name = some check := by
  rw [← Option.isSome_iff_exists, ← Option.ne_none_iff_isSome, Ne, Bindings.get?_eq_none_iff,
    Bool.not_eq_false]
  rfl

theorem check_eq_ok_iff {pairs : List (String × Value)} :
    schema.contract.check pairs = .ok () ↔
      ∀ p ∈ pairs, ∃ check, schema.fields.get? p.1 = some check ∧ check p.2 = none := by
  have hc : schema.contract.check pairs =
      Contract.ofViolations (Contract.judge schema.verdict pairs) := rfl
  rw [hc, Contract.ofViolations_eq_ok_iff, Contract.judge_eq_nil_iff]
  simp only [verdict_eq_none_iff]

/-- Each of the variables passes the check of its field, if it has one. -/
def Accepts (schema : Schema) (entries : List Variable) : Prop :=
  ∀ v ∈ entries, ∀ check, schema.fields.get? v.name = some check → check v.value = none

theorem accepts_append {xs ys : List Variable} :
    schema.Accepts (xs ++ ys) ↔ schema.Accepts xs ∧ schema.Accepts ys := List.forall_mem_append

def decodable {α : Type} (decode : Value → Except Mismatch α) : FieldCheck := fun value =>
  match decode value with
  | .ok _ => none
  | .error cause => some cause.message

theorem readable_eq_decodable (shape : Shape) : readable shape = decodable shape.read := by
  funext value
  unfold readable decodable
  cases shape.read value <;> rfl

end Schema

namespace Context

def decode {α : Type} (context : Context) (decode : Value → Except Mismatch α) (name : String) :
    Except VariableError α :=
  (context.require name).bind fun value => (decode value).mapError (.mismatch name)

theorem read_eq_decode (context : Context) (shape : Shape) (name : String) :
    context.read shape name = context.decode shape.read name := by
  unfold read decode
  cases context.require name with
  | error error => rfl
  | ok value => cases h : shape.read value <;> simp only [bind, Except.bind, h] <;> rfl

variable {context : Context} {schema : Schema} {name : String}

theorem decode_of_get? {α : Type} {value : Value} (h : context.get? name = some value)
    (read : Value → Except Mismatch α) :
    context.decode read name = (read value).mapError (.mismatch name) := by
  rw [decode, require, h]
  rfl

/-- What passed the check of its field can be decoded. -/
theorem decode_ne_mismatch {α : Type} {read : Value → Except Mismatch α}
    (ha : schema.Accepts context.entries)
    (hf : schema.fields.get? name = some (Schema.decodable read)) (other : String)
    (cause : Mismatch) : context.decode read name ≠ .error (.mismatch other cause) := by
  cases hv : context.get? name with
  | none =>
    rw [decode, require, hv]
    exact nofun
  | some value =>
    obtain ⟨v, hm, rfl, rfl⟩ := mem_of_get? hv
    have hd := ha v hm _ hf
    unfold Schema.decodable at hd
    rw [decode_of_get? hv]
    cases hr : read v.value with
    | error cause => simp [hr] at hd
    | ok x => exact nofun

end Context

section Outputs

variable {active : List Origin} {outputs : List (String × Value)} {story : Origin}

theorem checkDeclared_eq_ok_iff {judges : List (Origin × Contract)} :
    checkDeclared outputs judges = .ok () ↔ ∀ judge ∈ judges, declaredPart judge.2 outputs = [] ∨
      judge.2.check (declaredPart judge.2 outputs) = .ok () := by
  induction judges with
  | nil => simp [checkDeclared]
  | cons judge rest ih =>
    obtain ⟨origin, contract⟩ := judge
    rw [checkDeclared, List.forall_mem_cons, ← ih]
    cases hp : declaredPart contract outputs with
    | nil => simp
    | cons p part => cases contract.check (p :: part) <;> simp

theorem checkDeclared_of_checkOutputs (h : checkOutputs active outputs = .ok ()) :
    checkDeclared outputs (contracted active) = .ok () := by
  unfold checkOutputs at h
  cases hj : contracted active with
  | nil => rfl
  | cons judge rest =>
    simp only [hj] at h
    obtain ⟨_, hd, -⟩ := exists_of_bind_eq_ok h
    exact hd

theorem mem_contracted {contract : Contract} (hs : story ∈ active)
    (hc : story.declaration.contract = some contract) : (story, contract) ∈ contracted active :=
  List.mem_filterMap.mpr ⟨story, hs, by rw [hc]; rfl⟩

/-- Outputs pass the schema of every active story, as far as it declares them. -/
theorem Schema.check_of_checkOutputs {schema : Schema} {p : String × Value} {check : FieldCheck}
    (h : checkOutputs active outputs = .ok ()) (hs : story ∈ active)
    (hc : story.declaration.contract = some schema.contract) (hp : p ∈ outputs)
    (hf : schema.fields.get? p.1 = some check) : check p.2 = none := by
  have hm : p ∈ declaredPart schema.contract outputs :=
    List.mem_filter.mpr ⟨hp, declares_iff.mpr ⟨check, hf⟩⟩
  have hd := checkDeclared_eq_ok_iff.mp (checkDeclared_of_checkOutputs h) _ (mem_contracted hs hc)
  have hok := hd.resolve_left (List.ne_nil_of_mem hm)
  obtain ⟨check', hf', hn⟩ := check_eq_ok_iff.mp hok p hm
  obtain rfl := Option.some.inj (hf.symm.trans hf')
  exact hn

end Outputs

end StoryEngine
