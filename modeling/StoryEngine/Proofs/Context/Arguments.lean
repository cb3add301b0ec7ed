import Mathlib.Data.List.Induction
import StoryEngine.Context.Arguments

/-! # Bound arguments

Names are bound in the order in which they come first, and the context of a call has a variable for
each name that was bound. What is missing from a context and what is visible in it are read off
the values that are found there.
-/

namespace StoryEngine

theorem exists_of_bind_eq_ok {ε α β : Type} {x : Except ε α} {f : α → Except ε β} {b : β}
    (h : (x >>= f) = .ok b) : ∃ a, x = .ok a ∧ f a = .ok b := by
  cases x with
  | error error => cases h
  | ok a => exact ⟨a, rfl, h⟩

namespace Bindings

variable {α : Type}

theorem mem_of_mem_putPair {name : String} {value : α} {p : String × α}
    {pairs : List (String × α)} (h : p ∈ putPair name value pairs) :
    p = (name, value) ∨ p ∈ pairs := by
  induction pairs with
  | nil => exact Or.inl (List.mem_singleton.mp h)
  | cons q rest ih =>
    rw [putPair] at h
    split at h
    · exact (List.mem_cons.mp h).imp_right (List.mem_cons_of_mem _)
    · rcases List.mem_cons.mp h with rfl | h
      · exact Or.inr List.mem_cons_self
      · exact (ih h).imp_right (List.mem_cons_of_mem _)

theorem mem_of_mem_ofList {p : String × α} {pairs : List (String × α)}
    (h : p ∈ (ofList pairs).pairs) : p ∈ pairs := by
  suffices hf : ∀ b : Bindings α, p ∈ (pairs.foldl (fun b p => b.put p.1 p.2) b).pairs →
      p ∈ b.pairs ∨ p ∈ pairs from (hf empty h).resolve_left List.not_mem_nil
  clear h
  induction pairs with
  | nil => exact fun _ h => Or.inl h
  | cons q rest ih =>
    intro b h
    rcases ih (b.put q.1 q.2) h with h | h
    · rcases mem_of_mem_putPair h with rfl | h
      · exact Or.inr List.mem_cons_self
      · exact Or.inl h
    · exact Or.inr (List.mem_cons_of_mem _ h)

theorem names_ofList (pairs : List (String × α)) :
    (ofList pairs).names = (pairs.map Prod.fst).eraseDups := by
  induction pairs using List.reverseRecOn with
  | nil => rfl
  | append_singleton rest p ih =>
    have hput : ofList (rest ++ [p]) = (ofList rest).put p.1 p.2 := List.foldl_append
    rw [hput, names_put, ih, List.map_append, List.eraseDups_append]
    by_cases hn : p.1 ∈ rest.map Prod.fst
    · rw [if_pos (List.mem_eraseDups.mpr hn)]
      simp [List.removeAll, hn]
    · rw [if_neg (mt List.mem_eraseDups.mp hn)]
      simp [List.removeAll, hn, List.eraseDups_cons]

theorem mem_names_ofList {name : String} {pairs : List (String × α)} :
    name ∈ (ofList pairs).names ↔ name ∈ pairs.map Prod.fst := by
  rw [names_ofList, List.mem_eraseDups]

end Bindings

namespace Arguments

theorem mem_names_filter {supplied : List (String × Value)} {name first : String} :
    name ∈ (supplied.filter (·.1 != first)).map Prod.fst ↔
      name ∈ supplied.map Prod.fst ∧ name ≠ first := by
  simp only [List.mem_map, List.mem_filter, bne_iff_ne]
  constructor
  · rintro ⟨p, ⟨hp, hne⟩, rfl⟩
    exact ⟨⟨p, hp, rfl⟩, hne⟩
  · rintro ⟨⟨p, hp, rfl⟩, hne⟩
    exact ⟨p, ⟨hp, hne⟩, rfl⟩

/-- Of the declared names that are supplied, each is bound once, at its first place. -/
theorem names_pick (declared : List String) (supplied : List (String × Value)) :
    (pick declared supplied).map Prod.fst =
      (declared.filter (· ∈ supplied.map Prod.fst)).eraseDups := by
  induction declared generalizing supplied with
  | nil => rfl
  | cons first rest ih =>
    rw [pick]
    cases hl : supplied.lookup first with
    | none =>
      have hf := lookup_eq_none_iff.mp hl
      rw [List.filter_cons_of_neg (by simpa using hf)]
      exact ih supplied
    | some value =>
      have hf : first ∈ supplied.map Prod.fst := List.mem_map_of_mem (mem_of_lookup hl)
      rw [List.filter_cons_of_pos (by simpa using hf), List.eraseDups_cons, List.map_cons, ih,
        List.filter_filter]
      congr 2
      refine List.filter_congr fun name _ => ?_
      rw [Bool.eq_iff_iff, decide_eq_true_iff, mem_names_filter, and_comm]
      simp

end Arguments

namespace Context

variable {context : Context} {name : String} {value : Value} {required : List String}

theorem isSome_get? (context : Context) (name : String) :
    (context.get? name).isSome = context.contains name := by
  rw [Bool.eq_iff_iff]
  simp [contains, names, get?, find?]

theorem mem_of_get? (hv : context.get? name = some value) :
    ∃ v ∈ context.entries, v.name = name ∧ v.value = value := by
  obtain ⟨v, hf, rfl⟩ := Option.map_eq_some_iff.mp hv
  exact ⟨v, List.mem_of_find?_eq_some hf, by simpa using List.find?_some hf, rfl⟩

theorem missing_eq (context : Context) (required : List String) :
    context.missing required = required.filter fun name => (context.get? name).isNone := by
  simp only [missing, ← isSome_get?, Option.not_isSome]

theorem missing_eq_nil_iff :
    context.missing required = [] ↔ ∀ name ∈ required, ∃ value, context.get? name = some value := by
  simp [missing_eq, Option.ne_none_iff_exists']

theorem mem_visible (hn : name ∈ required) (hv : context.get? name = some value) :
    (name, value) ∈ context.visible required :=
  List.mem_filterMap.mpr ⟨name, hn, by rw [hv]; rfl⟩

theorem names_ofArguments (arguments : List (String × Value)) :
    (ofArguments arguments).names = (Bindings.ofList arguments).names := by
  simp [ofArguments, names, Bindings.names]

end Context

end StoryEngine
