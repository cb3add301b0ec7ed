import StoryEngine.Context.Basic

/-! # Arguments

What a caller supplies: values by position or values by name. Binding them to the declared names
accepts exactly the complete and unambiguous calls, in declared order.
-/

namespace StoryEngine

/-- Supplied values in the order of supply, with repeated names still among the pairs. -/
structure Arguments where
  positional : List Value := []
  keyword : List (String × Value) := []

namespace Arguments

def none : Arguments := {}

def ofPositional (values : List Value) : Arguments := { positional := values }

def ofKeyword (pairs : List (String × Value)) : Arguments := { keyword := pairs }

variable (arguments : Arguments)

def arg (value : Value) : Arguments :=
  { arguments with positional := arguments.positional ++ [value] }

def kwarg (name : String) (value : Value) : Arguments :=
  { arguments with keyword := arguments.keyword ++ [(name, value)] }

def isEmpty : Bool := arguments.positional.isEmpty && arguments.keyword.isEmpty

def keywordNames : List String := arguments.keyword.map Prod.fst

/-- Pairs in declared order, each supplied value used for one declared name only. -/
def pick : List String → List (String × Value) → List (String × Value)
  | [], _ => []
  | name :: rest, supplied =>
    match supplied.lookup name with
    | some value => (name, value) :: pick rest (supplied.filter (·.1 != name))
    | .none => pick rest supplied

/-- The values of a call for the declared names of a story. -/
def bind (story : String) (declared : List String) :
    Except ContractError (List (String × Value)) :=
  if !arguments.positional.isEmpty && !arguments.keyword.isEmpty then
    .error (.mixedArguments story)
  else match repeats arguments.keywordNames with
    | name :: more => .error (.repeatedArguments story (name :: more))
    | [] =>
      if !arguments.positional.isEmpty then
        if arguments.positional.length = declared.length then
          .ok (declared.zip arguments.positional)
        else .error (.positionalCount story declared.length arguments.positional.length)
      else
        let missing := declared.filter fun name => !arguments.keywordNames.contains name
        let unexpected := arguments.keywordNames.filter fun name => !declared.contains name
        if missing.isEmpty && unexpected.isEmpty then .ok (pick declared arguments.keyword)
        else .error (.argumentMismatch story missing unexpected)

end Arguments

end StoryEngine
