import StoryEngine.Value.Basic

/-! # Canonical text

Records are finite maps. Their normal form has its names in ascending order, each once and with
its last value; the canonical text of a value is the compact text of its normal form.
-/

namespace StoryEngine.Value

/-- Inserts a field by its name, unless the name is there already. -/
def insertField (k : String) (v : Value) : List (String × Value) → List (String × Value)
  | [] => [(k, v)]
  | (l, w) :: rest =>
    if k = l then (l, w) :: rest
    else if k < l then (k, v) :: (l, w) :: rest
    else (l, w) :: insertField k v rest

/-- A record of the given fields; of a repeated name the last value counts. -/
def record : List (String × Value) → List (String × Value)
  | [] => []
  | (k, v) :: rest => insertField k v (record rest)

mutual

def normalize : Value → Value
  | .array items => .array (normalizeItems items)
  | .object fields => .object (record (normalizeFields fields))
  | v => v

def normalizeItems : List Value → List Value
  | [] => []
  | v :: rest => v.normalize :: normalizeItems rest

def normalizeFields : List (String × Value) → List (String × Value)
  | [] => []
  | (k, v) :: rest => (k, v.normalize) :: normalizeFields rest

end

def canonical (v : Value) : String := v.normalize.text

theorem normalizeItems_eq_map (items : List Value) :
    normalizeItems items = items.map normalize := by
  induction items with
  | nil => rfl
  | cons v rest ih => simp [normalizeItems, ih]

end StoryEngine.Value
