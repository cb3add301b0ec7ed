import StoryEngine.Bindings
import StoryEngine.Contract.Basic
import StoryEngine.Value.Shape

/-! # Schemas

A schema is a contract written field by field. It declares its fields, checks the value of each
by itself and knows no other variable.
-/

namespace StoryEngine

/-- The check of one field: the reason why a value is refused, if it is. -/
abbrev FieldCheck := Value → Option String

structure Schema where
  fields : Bindings FieldCheck

namespace Schema

def empty : Schema := ⟨.empty⟩

/-- Adds a field with a check of its own; a name given again gets the new check. -/
def fieldWith (schema : Schema) (name : String) (check : FieldCheck) : Schema :=
  ⟨schema.fields.put name check⟩

def readable (shape : Shape) : FieldCheck := fun value =>
  match shape.read value with
  | .ok _ => none
  | .error cause => some cause.message

/-- Adds a field whose values must be readable as the shape. -/
def field (schema : Schema) (name : String) (shape : Shape) : Schema :=
  schema.fieldWith name (readable shape)

def names (schema : Schema) : List String := schema.fields.names

def verdict (schema : Schema) (name : String) (value : Value) : Option String :=
  match schema.fields.get? name with
  | some check => check value
  | none => some "unknown variable"

def violations (schema : Schema) (pairs : List (String × Value)) : List Violation :=
  Contract.judge schema.verdict pairs

def contract (schema : Schema) : Contract where
  declares := schema.fields.contains
  check pairs := Contract.ofViolations (schema.violations pairs)
  remarks pairs :=
    match schema.violations pairs with
    | [] => []
    | violations =>
      [⟨.warn, "contract:rejected variables=" ++
        Text.quotedList (violations.map Violation.variableName)⟩]

def text (schema : Schema) : String :=
  "SchemaContract \x7b fields: " ++ Text.quotedList schema.names ++ " \x7d"

end Schema

namespace FieldCheck

def even : FieldCheck := fun value =>
  match value.int64? with
  | some n => if n % 2 = 0 then none else some "expected an even integer"
  | none => some "expected an even integer"

def nonempty : FieldCheck
  | .string "" => some "must not be empty"
  | .string _ => none
  | value => some ("not a string: " ++ value.text)

end FieldCheck

end StoryEngine
