import StoryEngine.Proofs.Context.Arguments

/-! # Extended contexts

An extension adds all of a step's outputs behind what is there, and only where none of their names
is set. Arguments that are bound to distinct names are the first context as they stand.
-/

namespace StoryEngine

namespace Bindings

variable {α : Type}

theorem putPair_of_not_mem {name : String} {pairs : List (String × α)}
    (h : name ∉ pairs.map Prod.fst) (value : α) :
    putPair name value pairs = pairs ++ [(name, value)] := by
  induction pairs with
  | nil => rfl
  | cons p rest ih =>
    rw [List.map_cons, List.mem_cons, not_or] at h
    rw [putPair, if_neg (Ne.symm h.1), ih h.2]
    rfl

/-- Pairs with distinct names are bound as they are. -/
theorem pairs_ofList {pairs : List (String × α)} (h : (pairs.map Prod.fst).Nodup) :
    (ofList pairs).pairs = pairs := by
  suffices hf : ∀ b : Bindings α, (b.names ++ pairs.map Prod.fst).Nodup →
      (pairs.foldl (fun b p => b.put p.1 p.2) b).pairs = b.pairs ++ pairs from hf empty h
  clear h
  induction pairs with
  | nil => exact fun b _ => (List.append_nil _).symm
  | cons p rest ih =>
    intro b hb
    have hp : p.1 ∉ b.names := by
      intro hm
      exact (List.nodup_append.mp hb).2.2 _ hm _ List.mem_cons_self rfl
    have hput : (b.put p.1 p.2).pairs = b.pairs ++ [p] := putPair_of_not_mem hp p.2
    rw [List.foldl_cons, ih, hput, List.append_assoc]
    · rfl
    · rw [names, hput, List.map_append, List.append_assoc]
      exact hb

end Bindings

namespace Arguments

theorem eraseDups_of_nodup {names : List String} (hd : names.Nodup) : names.eraseDups = names := by
  induction names with
  | nil => rfl
  | cons name rest ih =>
    obtain ⟨hn, hr⟩ := List.nodup_cons.mp hd
    rw [List.eraseDups_cons, List.filter_eq_self.mpr, ih hr]
    intro other ho
    rw [Bool.not_eq_true', beq_eq_false_iff_ne]
    rintro rfl
    exact hn ho

end Arguments

def Bindings.setBy (outputs : Outputs) (identity : StepIdentity) : List Variable :=
  outputs.pairs.map fun (name, value) => ⟨name, value, .setBy identity⟩

namespace Context

variable {context later : Context} {outputs : Outputs} {identity : StepIdentity}

theorem of_mem_ofArguments {arguments : List (String × Value)} {v : Variable}
    (h : v ∈ (ofArguments arguments).entries) :
    v.provenance = .argument ∧ (v.name, v.value) ∈ arguments := by
  obtain ⟨p, hp, rfl⟩ := List.mem_map.mp h
  exact ⟨rfl, Bindings.mem_of_mem_ofList hp⟩

theorem entries_ofArguments {arguments : List (String × Value)}
    (h : (arguments.map Prod.fst).Nodup) : (ofArguments arguments).entries =
      arguments.map fun (name, value) => ⟨name, value, .argument⟩ := by
  rw [ofArguments, Bindings.pairs_ofList h]

theorem nodup_names_ofArguments (arguments : List (String × Value)) :
    (ofArguments arguments).names.Nodup := by
  rw [names_ofArguments]
  exact (Bindings.ofList arguments).distinct

theorem extend_eq_ok_iff : context.extend outputs identity = .ok later ↔
    (∀ name ∈ outputs.names, context.contains name = false) ∧
      later = ⟨context.entries ++ outputs.setBy identity⟩ := by
  unfold extend
  cases hc : outputs.names.filter context.contains with
  | nil =>
    have hfree : ∀ name ∈ outputs.names, context.contains name = false := by
      simpa [List.filter_eq_nil_iff] using hc
    constructor
    · intro h
      exact ⟨hfree, (Except.ok.inj h).symm⟩
    · rintro ⟨-, rfl⟩
      rfl
  | cons name more =>
    constructor
    · intro h
      cases h
    · rintro ⟨hfree, -⟩
      have hn : name ∈ outputs.names.filter context.contains := hc ▸ List.mem_cons_self
      obtain ⟨hn, hk⟩ := List.mem_filter.mp hn
      rw [hfree name hn] at hk
      cases hk

theorem nodup_names_of_extend (h : context.extend outputs identity = .ok later)
    (hd : context.names.Nodup) : later.names.Nodup := by
  obtain ⟨hfree, rfl⟩ := extend_eq_ok_iff.mp h
  have hn : (⟨context.entries ++ outputs.setBy identity⟩ : Context).names =
      context.names ++ outputs.names := by
    simp [names, Bindings.setBy, Bindings.names]
  rw [hn, List.nodup_append]
  refine ⟨hd, outputs.distinct, ?_⟩
  rintro a ha b hb rfl
  have hfree := hfree a hb
  rw [contains, List.contains_eq_mem, decide_eq_false_iff_not] at hfree
  exact hfree ha

end Context

end StoryEngine
