import Mathlib.Data.List.Perm.Subperm
import StoryEngine.Proofs.Context.Binding
import StoryEngine.Proofs.Run.Entry
import StoryEngine.Proofs.Run.Provenance

/-! # Supplied values

The first context of a call has one variable for each name that was bound. Pairs are bound under
distinct names, so none of them is lost; values by position are kept just where no parameter is
declared twice, since a later value for a name takes the place of an earlier one.
-/

namespace StoryEngine

section Lookup

variable {α : Type} {name : String} {value : α} {pairs : List (String × α)}

theorem lookup_eq_some_iff_mem (hd : (pairs.map Prod.fst).Nodup) :
    pairs.lookup name = some value ↔ (name, value) ∈ pairs := by
  refine ⟨mem_of_lookup, fun hm => ?_⟩
  cases hl : pairs.lookup name with
  | none => exact absurd (List.mem_map_of_mem hm) (lookup_eq_none_iff.mp hl)
  | some other =>
    have he := List.inj_on_of_nodup_map hd (mem_of_lookup hl) hm rfl
    exact congrArg (some ·.2) he

theorem Bindings.length_ofList_eq_iff :
    (ofList pairs).pairs.length = pairs.length ↔ (pairs.map Prod.fst).Nodup := by
  constructor
  · intro hl
    have hs : (ofList pairs).names.Subperm (pairs.map Prod.fst) :=
      List.subperm_of_subset (ofList pairs).distinct fun _ => mem_names_ofList.mp
    have hp := hs.perm_of_length_le (by simp [names, hl])
    exact hp.nodup_iff.mp (ofList pairs).distinct
  · intro hd
    rw [pairs_ofList hd]

end Lookup

namespace Context

variable {name : String} {value : Value} {bound : List (String × Value)}

theorem get?_ofArguments (bound : List (String × Value)) (name : String) :
    (ofArguments bound).get? name = (Bindings.ofList bound).get? name := by
  rw [get?, find?, ofArguments, Bindings.get?]
  induction (Bindings.ofList bound).pairs with
  | nil => rfl
  | cons p rest ih =>
    obtain ⟨other, value⟩ := p
    rw [List.map_cons, List.find?_cons, lookup_cons_eq]
    by_cases hn : name = other
    · simp [hn]
    · simp only [beq_eq_false_iff_ne.mpr (Ne.symm hn), if_neg hn]
      exact ih

theorem get?_of_mem (hd : (bound.map Prod.fst).Nodup) (hm : (name, value) ∈ bound) :
    (ofArguments bound).get? name = some value := by
  rw [get?_ofArguments, Bindings.get?, Bindings.pairs_ofList hd]
  exact (lookup_eq_some_iff_mem hd).mpr hm

theorem size_ofArguments_eq_iff :
    (ofArguments bound).size = bound.length ↔ (bound.map Prod.fst).Nodup := by
  rw [size, ofArguments, List.length_map]
  exact Bindings.length_ofList_eq_iff

end Context

namespace Story

/-- The first context of a call has a variable for each value that was supplied, and each value is
found under the name that it was supplied for. -/
structure Keeps (story : Story) (arguments : Arguments) (context : Context) : Prop where
  size : context.size = arguments.positional.length + arguments.keyword.length
  placed : ∀ (k : Nat) name value, story.arguments[k]? = some name →
    arguments.positional[k]? = some value → context.get? name = some value
  named : ∀ name value, (name, value) ∈ arguments.keyword → context.get? name = some value

/-- A call that is accepted keeps its values unless they come by position to a story that declares
a parameter twice. -/
theorem keeps_iff {story : Story} {arguments : Arguments} {context : Context}
    (ho : story.root.opening arguments = .ok context) :
    story.Keeps arguments context ↔ arguments.positional = [] ∨ story.arguments.Nodup := by
  obtain ⟨bound, hb, -, rfl⟩ := Origin.opening_eq_ok ho
  have ha := (Arguments.bind_eq_iff _ _).mp hb
  have hl := ha.length_eq
  constructor
  · intro h
    exact ha.nodup_iff.mp (Context.size_ofArguments_eq_iff.mp (h.size.trans hl.symm))
  · intro h
    have hd := ha.nodup_iff.mpr h
    exact {
      size := (Context.size_ofArguments_eq_iff.mpr hd).trans hl
      placed := fun k name value hn hv => Context.get?_of_mem hd (ha.mem_of_placed hn hv)
      named := fun name value hm => Context.get?_of_mem hd (ha.mem_of_named hm) }

end Story

namespace Demo

def placedOrder : Arguments := .ofPositional [.string "tea", .int 3]

theorem keeps_placedOrder : smallShop.root.opening placedOrder = .ok ordered ∧
    smallShop.Keeps placedOrder ordered :=
  ⟨rfl, (Story.keeps_iff rfl).mpr (.inr (by decide))⟩

def careless : Host := ⟨"H", 0, [.story repetitive.declaration]⟩

/-- The story with a repeated parameter is compiled and takes two values, of which one is lost. -/
theorem not_keeps_pair : careless.bind "s" = .ok repetitive ∧
    ∃ context, repetitive.root.opening pair = .ok context ∧ context.size = 1 ∧
      context.get? "a" = some (.int 2) ∧ ¬ repetitive.Keeps pair context := by
  refine ⟨?_, _, rfl, rfl, rfl, fun h => ?_⟩
  · refine Host.bind_eq_of_survey rfl rfl ?_
    exact Host.survey_nil
  · exact absurd h.size (by decide)

end Demo

end StoryEngine
