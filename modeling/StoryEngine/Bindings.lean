/-! # Bindings

Names bound to values in the order in which they were first bound. Binding a name again replaces
its value and keeps its place.
-/

namespace StoryEngine

/-- Names that occurred before, once for every later occurrence. -/
def repeats (names : List String) : List String := go [] names
where
  go (seen : List String) : List String → List String
    | [] => []
    | n :: rest => if n ∈ seen then n :: go seen rest else go (n :: seen) rest

theorem repeats_go_eq_nil_iff (seen names : List String) :
    repeats.go seen names = [] ↔ names.Nodup ∧ ∀ n ∈ names, n ∉ seen := by
  induction names generalizing seen with
  | nil => simp [repeats.go]
  | cons n rest ih =>
    rw [repeats.go]
    split
    · simp_all
    · rw [ih]
      grind

theorem repeats_eq_nil_iff {names : List String} : repeats names = [] ↔ names.Nodup := by
  simp [repeats, repeats_go_eq_nil_iff]

section Lookup

variable {α : Type} {name other : String} {value : α} {pairs : List (String × α)}

theorem lookup_cons_eq : ((name, value) :: pairs).lookup other =
    if other = name then some value else pairs.lookup other := by
  by_cases h : other = name
  · simp [h]
  · simp [List.lookup_cons, beq_eq_false_iff_ne.2 h, h]

theorem lookup_eq_none_iff : pairs.lookup name = none ↔ name ∉ pairs.map Prod.fst := by
  rw [List.lookup_eq_none_iff, List.mem_map, not_exists]
  refine forall_congr' fun p => ?_
  rw [bne_iff_ne, not_and, ne_comm]

theorem mem_of_lookup (h : pairs.lookup name = some value) : (name, value) ∈ pairs := by
  obtain ⟨front, back, rfl, -⟩ := List.lookup_eq_some_iff.1 h
  exact List.mem_append_right _ List.mem_cons_self

end Lookup

variable {α : Type}

def putPair (name : String) (value : α) : List (String × α) → List (String × α)
  | [] => [(name, value)]
  | (n, v) :: rest =>
    if n = name then (name, value) :: rest else (n, v) :: putPair name value rest

theorem map_fst_putPair (name : String) (value : α) (pairs : List (String × α)) :
    (putPair name value pairs).map Prod.fst =
      if name ∈ pairs.map Prod.fst then pairs.map Prod.fst else pairs.map Prod.fst ++ [name] := by
  induction pairs with
  | nil => simp [putPair]
  | cons p rest ih =>
    obtain ⟨n, v⟩ := p
    by_cases h : n = name
    · simp [putPair, h]
    · have h' : name ≠ n := fun e => h e.symm
      by_cases hm : name ∈ rest.map Prod.fst <;> simp_all [putPair]

/-- Pairs in which no name occurs twice. -/
structure Bindings (α : Type) where
  pairs : List (String × α)
  distinct : (pairs.map Prod.fst).Nodup

namespace Bindings

def empty : Bindings α := ⟨[], by simp⟩

instance : Inhabited (Bindings α) := ⟨empty⟩

def put (b : Bindings α) (name : String) (value : α) : Bindings α where
  pairs := putPair name value b.pairs
  distinct := by
    rw [map_fst_putPair]
    split
    · exact b.distinct
    · rename_i h
      rw [List.nodup_append]
      refine ⟨b.distinct, by simp, ?_⟩
      intro a ha c hc
      simp only [List.mem_singleton] at hc
      exact fun e => h (hc ▸ e ▸ ha)

def ofList (pairs : List (String × α)) : Bindings α :=
  pairs.foldl (fun b p => b.put p.1 p.2) empty

def names (b : Bindings α) : List String := b.pairs.map Prod.fst

def get? (b : Bindings α) (name : String) : Option α := b.pairs.lookup name

def contains (b : Bindings α) (name : String) : Bool := b.names.contains name

theorem names_put (b : Bindings α) (name : String) (value : α) :
    (b.put name value).names = if name ∈ b.names then b.names else b.names ++ [name] :=
  map_fst_putPair name value b.pairs

end Bindings

end StoryEngine
