import StoryEngine.Value.Shape

/-! # Records and variants

How structured data is read from values. A record comes from named fields or, by position, from a
sequence; a variant is a name, or one field whose name is the variant's. Of several faults the one
met first is reported: fields that are there in the order in which they are met, then fields that
are missing in the order of their declaration.
-/

namespace StoryEngine

/-- A reading whose fault has a rank; the least rank is reported. -/
def Ranked (α : Type) : Type := Except (Nat × Mismatch) α

namespace Ranked

variable {α β : Type}

def both (f : Ranked (α → β)) (x : Ranked α) : Ranked β :=
  match f, x with
  | .ok f, .ok x => .ok (f x)
  | .ok _, .error e => .error e
  | .error e, .ok _ => .error e
  | .error e, .error e' => .error (if e'.1 < e.1 then e' else e)

instance : Applicative Ranked where
  pure x := .ok x
  seq f x := both f (x ())

def result (x : Ranked α) : Except Mismatch α := x.mapError Prod.snd

end Ranked

/-- The fields of a record in the order in which they are met. -/
structure Fields where
  entries : List (String × Value)
  declared : List String
  missing : String → Mismatch

namespace Fields

variable {α : Type} (fields : Fields)

/-- A field that is missing reads as `absent`, if that is given. -/
def readOr (absent : Option α) (name : String) (read : Value → Except Mismatch α) : Ranked α :=
  match fields.entries.findIdx? (·.1 == name), fields.entries.lookup name with
  | some rank, some value => (read value).mapError fun e => (rank, e)
  | _, _ =>
    match absent with
    | some x => .ok x
    | none =>
      .error (fields.entries.length + fields.declared.idxOf name, fields.missing name)

def read (name : String) (read : Value → Except Mismatch α) : Ranked α :=
  fields.readOr none name read

def shape (shape : Shape) (name : String) : Ranked shape.Carrier := fields.read name shape.read

end Fields

variable {α : Type}

/-- Reads a record from named fields or from a sequence of its fields. -/
def readStruct (typeName : String) (declared : List String) (build : Fields → Ranked α) :
    Value → Except Mismatch α
  | .object entries => (build ⟨entries, declared, .missingField⟩).result
  | .array items => do
    let size := s!"struct {typeName} with {declared.length} elements"
    let x ← (build ⟨declared.zip items, declared, fun _ => .invalidLength items.length size⟩).result
    if declared.length < items.length then
      throw (.invalidLength items.length "fewer elements in array")
    return x
  | v => .error (.invalidType v.found ("struct " ++ typeName))

/-- The name of a variant and its content, if it has one. -/
def readVariant (known : List String) (v : Value) : Except Mismatch (String × Option Value) := do
  let (name, content) ← match v with
    | .string name => pure (name, none)
    | .object [(name, content)] => pure (name, some content)
    | .object _ => throw (.invalidValue .map "map with a single key")
    | v => throw (.invalidType v.found "string or map")
  if known.contains name then return (name, content) else throw (.unknownVariant name known)

def readPlain (x : α) : Option Value → Except Mismatch α
  | none => .ok x
  | some v => do
    Shape.readUnit v
    return x

def readContent (read : Value → Except Mismatch α) : Option Value → Except Mismatch α
  | none => .error (.invalidType .unitVariant "newtype variant")
  | some v => read v

/-- The content of a variant with named fields. -/
def readFields (declared : List String) (build : Fields → Ranked α) :
    Option Value → Except Mismatch α
  | none => .error (.invalidType .unitVariant "struct variant")
  | some (.object entries) => (build ⟨entries, declared, .missingField⟩).result
  | some v => .error (.invalidType v.found "struct variant")

def tagged (name : String) (content : Value) : Value := .object [(name, content)]

end StoryEngine
