import StoryEngine.Contract.Basic

/-! # Contracts without a schema

Contracts that ask for integers, or for any variable at all.
-/

namespace StoryEngine.Contract

def integerVerdict (_ : String) (value : Value) : Option String :=
  if value.int64?.isSome then none else some "expected integer"

/-- Every variable is declared and must be an integer. -/
def integers : Contract where
  check pairs := ofViolations (judge integerVerdict pairs)

/-- The named variables are declared; whatever is checked must be an integer. -/
def integerFields (names : List String) : Contract where
  declares := names.contains
  check pairs := ofViolations (judge integerVerdict pairs)

/-- The named variables are declared; an empty list of variables is refused. -/
def atLeastOne (names : List String) : Contract where
  declares := names.contains
  check
    | [] => .error [⟨"*", "no variables"⟩]
    | _ => .ok ()

end StoryEngine.Contract
