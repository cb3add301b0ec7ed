import StoryEngine.Log
import StoryEngine.Error.Basic

/-! # Contracts

A contract judges the variables that it declares. Stories consult their contract on the arguments
of a call, on the variables visible when they are entered, and on every output of their steps.
-/

namespace StoryEngine

/-- A contract, with the lines it writes while checking. -/
structure Contract where
  declares : String → Bool := fun _ => true
  check : List (String × Value) → Except (List Violation) Unit
  remarks : List (String × Value) → List Line := fun _ => []

namespace Contract

/-- The violations of single variables, each variable judged by itself. -/
def judge (verdict : String → Value → Option String) (pairs : List (String × Value)) :
    List Violation :=
  pairs.filterMap fun (name, value) => (verdict name value).map fun reason => ⟨name, reason⟩

def ofViolations : List Violation → Except (List Violation) Unit
  | [] => .ok ()
  | violations => .error violations

end Contract

end StoryEngine
