import StoryEngine.Proofs.Contract.Outputs

/-! # Integer fields

Which values are read as an integer of a kind, and how a schema judges an integer that is given to
one of its fields.
-/

namespace StoryEngine

section Integers

def IntegerKind.Holds (kind : IntegerKind) (n : Int) : Prop := kind.low ≤ n ∧ n ≤ kind.high

variable {kind : IntegerKind} {n : Int} {value : Value}

theorem IntegerKind.holds_i64_iff :
    i64.Holds n ↔ -9223372036854775808 ≤ n ∧ n ≤ 9223372036854775807 := Iff.rfl

theorem IntegerKind.holds_u64_iff : u64.Holds n ↔ 0 ≤ n ∧ n ≤ 18446744073709551615 := Iff.rfl

theorem IntegerKind.read_int_of_holds (h : kind.Holds n) : kind.read (.int n) = .ok n := if_pos h

theorem IntegerKind.read_int_of_not_holds (h : ¬ kind.Holds n) :
    kind.read (.int n) = .error (.invalidValue (.number (.int n)) kind.name) := if_neg h

theorem Value.int64?_eq_some_iff :
    value.int64? = some n ↔ value = .int n ∧ IntegerKind.i64.Holds n := by
  constructor
  · intro h
    unfold int64? at h
    split at h
    case h_1 m =>
      rw [Option.ite_none_right_eq_some] at h
      obtain ⟨⟨hlow, hhigh⟩, he⟩ := h
      obtain rfl := Option.some.inj he
      exact ⟨rfl, hlow, Int.le_sub_one_of_lt hhigh⟩
    case h_2 => cases h
  · rintro ⟨rfl, hlow, hhigh⟩
    unfold int64? int
    exact if_pos ⟨hlow, Int.lt_of_le_sub_one hhigh⟩

theorem IntegerKind.read_i64_eq_ok_iff : i64.read value = .ok n ↔ value.int64? = some n := by
  rw [Value.int64?_eq_some_iff]
  constructor
  · intro h
    unfold read at h
    split at h
    case h_1 m =>
      split at h
      case isTrue hm =>
        obtain rfl := Except.ok.inj h
        exact ⟨rfl, hm⟩
      case isFalse => cases h
    case h_2 => cases h
  · rintro ⟨rfl, hn⟩
    exact read_int_of_holds hn

end Integers

namespace Schema

variable {schema : Schema} {name : String} {value : Value} {shape : Shape} {kind : IntegerKind}
  {n : Int}

theorem readable_eq_none_iff : readable shape value = none ↔ ∃ x, shape.read value = .ok x := by
  unfold readable
  cases shape.read value <;> simp

theorem failures_of_holds (h : kind.Holds n)
    (hf : schema.fields.get? name = some (readable (.integer kind))) :
    schema.failures [(name, .int n)] = [] := by
  have hc : readable (.integer kind) (.int n) = none :=
    readable_eq_none_iff.mpr ⟨n, IntegerKind.read_int_of_holds h⟩
  simp [failures, hf, hc]

theorem failures_of_not_holds (h : ¬ kind.Holds n)
    (hf : schema.fields.get? name = some (readable (.integer kind))) :
    schema.failures [(name, .int n)] =
      [⟨name, (Mismatch.invalidValue (.number (.int n)) kind.name).message⟩] := by
  have hr : (Shape.integer kind).read (.int n) = _ := IntegerKind.read_int_of_not_holds h
  simp [failures, hf, readable, hr]

theorem failures_of_undeclared (hf : schema.fields.get? name = none) :
    schema.failures [(name, value)] = [] := by
  simp [failures, hf]

end Schema

theorem Contract.eq_of_ofViolations_eq_error {violations reported : List Violation}
    (h : ofViolations violations = .error reported) : violations = reported := by
  cases violations with
  | nil => cases h
  | cons violation rest => exact Except.error.inj h

theorem Declaration.checkVariables_of_contract {declaration : Declaration} {contract : Contract}
    (hc : declaration.contract = some contract) (story : String) (pairs : List (String × Value)) :
    declaration.checkVariables story pairs =
      (contract.check pairs).mapError (.invalidVariables story) := by
  unfold checkVariables
  rw [hc]
  dsimp only
  cases contract.check pairs <;> rfl

theorem checkOutputs_of_declared {active : List Origin} {name : String} {value : Value}
    (hd : active.any (·.declares name)) (ha : ∀ story ∈ active, story.Accepts [(name, value)]) :
    checkOutputs active [(name, value)] = .ok () := by
  refine checkOutputs_eq_ok_iff.mpr (.inr ⟨?_, ha⟩)
  intro p hp
  obtain rfl := List.mem_singleton.mp hp
  simpa using hd

end StoryEngine
