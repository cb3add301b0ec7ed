import Mathlib.Data.List.Induction
import Mathlib.Data.List.Nodup
import StoryEngine.Proofs.Context.Extension

/-! # Which calls are accepted

A call supplies values by position and pairs by name, and what a story answers depends on nothing
but these two lists. It takes one value for each declared name, or one pair for each of them in any
order; every other call is refused for the first of four reasons that applies to it. The first
context of an accepted call has the declared names, in declared order.
-/

namespace StoryEngine

section Repeats

/-- Each occurrence of a name behind its first one, in order. -/
def laterOccurrences (names : List String) : List String :=
  (names.zipIdx.filter fun p => p.1 ∈ names.take p.2).map Prod.fst

theorem repeats_go_append (seen names : List String) (n : String) :
    repeats.go seen (names ++ [n]) =
      repeats.go seen names ++ if n ∈ seen ∨ n ∈ names then [n] else [] := by
  induction names generalizing seen with
  | nil => simp [repeats.go]
  | cons m rest ih =>
    rw [List.cons_append, repeats.go, repeats.go]
    split
    · rw [ih, List.cons_append]
      congr 2
      grind
    · rw [ih]
      congr 1
      grind

theorem laterOccurrences_append (names : List String) (n : String) :
    laterOccurrences (names ++ [n]) = laterOccurrences names ++ if n ∈ names then [n] else [] := by
  have hfront : names.zipIdx.filter (fun p => p.1 ∈ (names ++ [n]).take p.2) =
      names.zipIdx.filter fun p => p.1 ∈ names.take p.2 := by
    refine List.filter_congr fun p hp => ?_
    obtain ⟨n', k⟩ := p
    obtain ⟨hk, -⟩ := List.getElem?_eq_some_iff.mp (List.mem_zipIdx_iff_getElem?.mp hp)
    rw [List.take_append_of_le_length (Nat.le_of_lt hk)]
  rw [laterOccurrences, List.zipIdx_append, List.filter_append, List.map_append, hfront]
  congr 1
  by_cases h : n ∈ names <;> simp [h]

theorem repeats_eq_laterOccurrences (names : List String) :
    repeats names = laterOccurrences names := by
  induction names using List.reverseRecOn with
  | nil => rfl
  | append_singleton rest n ih =>
    rw [laterOccurrences_append, ← ih, repeats, repeats_go_append]
    simp [repeats]

end Repeats

namespace Arguments

variable {declared : List String} {supplied : List (String × Value)}

theorem names_pick_of_iff (hn : ∀ name, name ∈ supplied.map Prod.fst ↔ name ∈ declared) :
    (pick declared supplied).map Prod.fst = declared.eraseDups := by
  rw [names_pick, List.filter_eq_self.mpr]
  intro name hm
  exact decide_eq_true ((hn name).mpr hm)

theorem perm_cons_filter {name : String} {value : Value} (hd : (supplied.map Prod.fst).Nodup)
    (hl : supplied.lookup name = some value) :
    supplied.Perm ((name, value) :: supplied.filter (·.1 != name)) := by
  obtain ⟨front, back, rfl, -⟩ := List.lookup_eq_some_iff.mp hl
  have hne : name ∉ (front ++ back).map Prod.fst :=
    (List.nodup_cons.mp ((List.perm_middle.map Prod.fst).nodup_iff.mp hd)).1
  have hrest : ∀ p ∈ front ++ back, (p.1 != name) = true := by
    intro p hp
    rw [bne_iff_ne]
    rintro rfl
    exact hne (List.mem_map_of_mem hp)
  refine List.perm_middle.trans (.cons _ ?_)
  rw [List.filter_append, List.filter_cons_of_neg (by simp), ← List.filter_append,
    List.filter_eq_self.mpr hrest]

theorem pick_perm (hd : (supplied.map Prod.fst).Nodup)
    (hs : ∀ name ∈ supplied.map Prod.fst, name ∈ declared) :
    (pick declared supplied).Perm supplied := by
  induction declared generalizing supplied with
  | nil =>
    obtain rfl : supplied = [] := by
      rw [← List.map_eq_nil_iff (f := Prod.fst)]
      exact List.eq_nil_iff_forall_not_mem.mpr fun name hn => List.not_mem_nil (hs name hn)
    exact .nil
  | cons first rest ih =>
    rw [pick]
    cases hl : supplied.lookup first with
    | none =>
      refine ih hd fun name hn => (List.mem_cons.mp (hs name hn)).resolve_left ?_
      rintro rfl
      exact lookup_eq_none_iff.mp hl hn
    | some value =>
      refine .trans (.cons _ (ih ?_ fun name hn => ?_)) (perm_cons_filter hd hl).symm
      · exact hd.sublist (List.filter_sublist.map Prod.fst)
      · obtain ⟨hn, hne⟩ := mem_names_filter.mp hn
        exact (List.mem_cons.mp (hs name hn)).resolve_left hne

/-- Pairs with distinct names are told by their order. -/
theorem eq_of_perm_of_names {xs ys : List (String × Value)} (hp : xs.Perm ys)
    (hn : xs.map Prod.fst = ys.map Prod.fst) (hd : (xs.map Prod.fst).Nodup) : xs = ys := by
  refine List.ext_getElem hp.length_eq fun k hx hy => ?_
  have hk : xs[k].1 = ys[k].1 := by
    have hk := congrArg (·[k]?) hn
    simpa [hx, hy] using hk
  exact List.inj_on_of_nodup_map hd (List.getElem_mem hx) (hp.mem_iff.mpr (List.getElem_mem hy)) hk

end Arguments

/-- What a story with the declared names answers to values in places and pairs with names: it
refuses them for the first reason that applies, or it has one pair for each declared name, at the
place where the name is declared first. -/
inductive Answers (story : String) (declared : List String) (placed : List Value)
    (named : List (String × Value)) : Except ContractError (List (String × Value)) → Prop where
  | mixed : placed ≠ [] → named ≠ [] → Answers story declared placed named
      (.error (.mixedArguments story))
  | repeated : placed = [] ∨ named = [] → ¬ (named.map Prod.fst).Nodup →
      Answers story declared placed named
        (.error (.repeatedArguments story (laterOccurrences (named.map Prod.fst))))
  | placed : placed ≠ [] → named = [] → placed.length = declared.length →
      Answers story declared placed named (.ok (declared.zip placed))
  | count : placed ≠ [] → named = [] → placed.length ≠ declared.length →
      Answers story declared placed named
        (.error (.positionalCount story declared.length placed.length))
  | named {bound : List (String × Value)} : placed = [] → (named.map Prod.fst).Nodup →
      (∀ name, name ∈ named.map Prod.fst ↔ name ∈ declared) →
      bound.map Prod.fst = declared.eraseDups → bound.Perm named →
      Answers story declared placed named (.ok bound)
  | mismatch : placed = [] → (named.map Prod.fst).Nodup →
      (¬ ∀ name, name ∈ named.map Prod.fst ↔ name ∈ declared) →
      Answers story declared placed named
        (.error (.argumentMismatch story (declared.filter (· ∉ named.map Prod.fst))
          ((named.map Prod.fst).filter (· ∉ declared))))

namespace Arguments

section Ladder

variable {arguments : Arguments} (story : String) (declared : List String)

theorem bind_of_mixed (hp : arguments.positional ≠ []) (hk : arguments.keyword ≠ []) :
    arguments.bind story declared = .error (.mixedArguments story) := by
  rw [bind, if_pos]
  simp [hp, hk]

theorem bind_of_repeated (hone : arguments.positional = [] ∨ arguments.keyword = [])
    (hr : ¬ arguments.keywordNames.Nodup) : arguments.bind story declared =
      .error (.repeatedArguments story (laterOccurrences arguments.keywordNames)) := by
  rw [bind, if_neg (by rcases hone with h | h <;> simp [h]), ← repeats_eq_laterOccurrences]
  cases hn : repeats arguments.keywordNames with
  | nil => exact absurd (repeats_eq_nil_iff.mp hn) hr
  | cons => rfl

theorem bind_of_placed (hp : arguments.positional ≠ []) (hk : arguments.keyword = []) :
    arguments.bind story declared =
      if arguments.positional.length = declared.length then .ok (declared.zip arguments.positional)
      else .error (.positionalCount story declared.length arguments.positional.length) := by
  have hr : repeats arguments.keywordNames = [] := by
    rw [keywordNames, hk]
    rfl
  rw [bind, if_neg (by simp [hk]), hr]
  exact if_pos (by simp [hp])

section Named

variable (hp : arguments.positional = []) (hd : arguments.keywordNames.Nodup)

include hp hd

theorem bind_of_distinct : arguments.bind story declared =
    let missing := declared.filter fun name => !arguments.keywordNames.contains name
    let unexpected := arguments.keywordNames.filter fun name => !declared.contains name
    if missing.isEmpty && unexpected.isEmpty then .ok (pick declared arguments.keyword)
    else .error (.argumentMismatch story missing unexpected) := by
  rw [bind, if_neg (by simp [hp]), repeats_eq_nil_iff.mpr hd]
  exact if_neg (by simp [hp])

theorem bind_of_named (hn : ∀ name, name ∈ arguments.keywordNames ↔ name ∈ declared) :
    arguments.bind story declared = .ok (pick declared arguments.keyword) := by
  rw [bind_of_distinct story declared hp hd]
  refine if_pos ?_
  simp [hn]

theorem bind_of_mismatch (hn : ¬ ∀ name, name ∈ arguments.keywordNames ↔ name ∈ declared) :
    arguments.bind story declared = .error (.argumentMismatch story
      (declared.filter (· ∉ arguments.keywordNames))
      (arguments.keywordNames.filter (· ∉ declared))) := by
  rw [bind_of_distinct story declared hp hd]
  refine (if_neg fun he => hn fun name => ⟨?_, ?_⟩).trans (by simp)
  all_goals
    simp only [Bool.and_eq_true, List.isEmpty_iff, List.filter_eq_nil_iff, Bool.not_eq_true,
      Bool.not_eq_false', List.contains_iff_mem] at he
  · exact he.2 name
  · exact he.1 name

end Named

/-- A story answers as the call deserves, and only so. -/
theorem bind_eq_iff {answer : Except ContractError (List (String × Value))} :
    arguments.bind story declared = answer ↔
      Answers story declared arguments.positional arguments.keyword answer := by
  constructor
  · rintro rfl
    by_cases hp : arguments.positional = []
    · by_cases hd : arguments.keywordNames.Nodup
      · by_cases hn : ∀ name, name ∈ arguments.keywordNames ↔ name ∈ declared
        · rw [bind_of_named story declared hp hd hn]
          exact .named hp hd hn (names_pick_of_iff hn) (pick_perm hd fun name => (hn name).mp)
        · rw [bind_of_mismatch story declared hp hd hn]
          exact .mismatch hp hd hn
      · rw [bind_of_repeated story declared (.inl hp) hd]
        exact .repeated (.inl hp) hd
    · by_cases hk : arguments.keyword = []
      · rw [bind_of_placed story declared hp hk]
        split
        case isTrue hl => exact .placed hp hk hl
        case isFalse hl => exact .count hp hk hl
      · rw [bind_of_mixed story declared hp hk]
        exact .mixed hp hk
  · intro h
    cases h with
    | mixed hp hk => exact bind_of_mixed story declared hp hk
    | repeated hone hr => exact bind_of_repeated story declared hone hr
    | placed hp hk hl => rw [bind_of_placed story declared hp hk, if_pos hl]
    | count hp hk hl => rw [bind_of_placed story declared hp hk, if_neg hl]
    | named hp hd hn hb hs =>
      have hpick := pick_perm hd fun name => (hn name).mp
      rw [bind_of_named story declared hp hd hn]
      exact congrArg Except.ok (eq_of_perm_of_names (hpick.trans hs.symm)
        ((names_pick_of_iff hn).trans hb.symm) ((hpick.map Prod.fst).nodup_iff.mpr hd))
    | mismatch hp hd hn => exact bind_of_mismatch story declared hp hd hn

end Ladder

end Arguments

/-- How a caller comes to arguments: at once or by one more at a time. -/
inductive Call where
  | none
  | positional (values : List Value)
  | keyword (pairs : List (String × Value))
  | arg (call : Call) (value : Value)
  | kwarg (call : Call) (name : String) (value : Value)

namespace Call

def arguments : Call → Arguments
  | none => .none
  | positional values => .ofPositional values
  | keyword pairs => .ofKeyword pairs
  | arg call value => call.arguments.arg value
  | kwarg call name value => call.arguments.kwarg name value

def placed : Call → List Value
  | none | keyword _ => []
  | positional values => values
  | arg call value => call.placed ++ [value]
  | kwarg call _ _ => call.placed

def named : Call → List (String × Value)
  | none | positional _ => []
  | keyword pairs => pairs
  | arg call _ => call.named
  | kwarg call name value => call.named ++ [(name, value)]

theorem arguments_eq (call : Call) : call.arguments = ⟨call.placed, call.named⟩ := by
  induction call with
  | none | positional | keyword => rfl
  | arg call value ih => rw [arguments, ih, Arguments.arg, placed, named]
  | kwarg call name value ih => rw [arguments, ih, Arguments.kwarg, placed, named]

theorem bind_eq_iff (call : Call) (story : String) (declared : List String)
    {answer : Except ContractError (List (String × Value))} :
    call.arguments.bind story declared = answer ↔
      Answers story declared call.placed call.named answer := by
  rw [arguments_eq]
  exact Arguments.bind_eq_iff story declared

end Call

namespace Answers

variable {story : String} {declared : List String} {placed : List Value}
  {named named' bound : List (String × Value)}

section Accepted

variable {name : String} {value : Value} (h : Answers story declared placed named (.ok bound))

include h

theorem length_eq : bound.length = placed.length + named.length := by
  cases h with
  | placed _ hn hl => simp [hn, hl]
  | named hp _ _ _ hs => simp [hp, hs.length_eq]

/-- A name is bound twice only to values in the places of a repeated parameter. -/
theorem nodup_iff : (bound.map Prod.fst).Nodup ↔ placed = [] ∨ declared.Nodup := by
  cases h with
  | placed hp _ hl => rw [List.map_fst_zip (Nat.le_of_eq hl.symm), or_iff_right hp]
  | named hp hd _ _ hs => exact iff_of_true ((hs.map Prod.fst).nodup_iff.mpr hd) (.inl hp)

theorem eraseDups_names : (bound.map Prod.fst).eraseDups = declared.eraseDups := by
  cases h with
  | placed _ _ hl => rw [List.map_fst_zip (Nat.le_of_eq hl.symm)]
  | named _ hd _ hb hs =>
    have hn : (bound.map Prod.fst).Nodup := (hs.map Prod.fst).nodup_iff.mpr hd
    rw [Arguments.eraseDups_of_nodup hn, hb]

theorem map_fst_of_nodup (hd : declared.Nodup) : bound.map Prod.fst = declared := by
  cases h with
  | placed _ _ hl => exact List.map_fst_zip (Nat.le_of_eq hl.symm)
  | named _ _ _ hb _ => rw [hb, Arguments.eraseDups_of_nodup hd]

theorem mem_of_placed {k : Nat} (hn : declared[k]? = some name) (hv : placed[k]? = some value) :
    (name, value) ∈ bound := by
  cases h with
  | placed => exact List.mem_of_getElem? (List.getElem?_zip_eq_some.mpr ⟨hn, hv⟩)
  | named hp => simp [hp] at hv

theorem mem_of_named (hm : (name, value) ∈ named) : (name, value) ∈ bound := by
  cases h with
  | placed _ hn => simp [hn] at hm
  | named _ _ _ _ hs => exact hs.mem_iff.mpr hm

end Accepted

theorem perm (h : Answers story declared [] named (.ok bound)) (hp : named.Perm named') :
    Answers story declared [] named' (.ok bound) := by
  cases h with
  | placed hne => exact absurd rfl hne
  | named _ hd hn hb hs =>
    have hk := hp.map Prod.fst
    exact .named rfl (hk.nodup_iff.mp hd) (fun name => hk.mem_iff.symm.trans (hn name)) hb
      (hs.trans hp)

theorem of_placed (hb : bound.map Prod.fst = declared) :
    Answers story declared (bound.map Prod.snd) [] (.ok bound) := by
  subst hb
  cases bound with
  | nil => exact .named rfl .nil (fun _ => Iff.rfl) rfl .nil
  | cons p rest =>
    have hz : ((p :: rest).map Prod.fst).zip ((p :: rest).map Prod.snd) = p :: rest := by
      rw [List.zip_map', List.map_id'']
      exact fun _ => rfl
    have ha : Answers story ((p :: rest).map Prod.fst) ((p :: rest).map Prod.snd) []
        (.ok (((p :: rest).map Prod.fst).zip ((p :: rest).map Prod.snd))) :=
      .placed (List.cons_ne_nil _ _) rfl (by simp)
    rwa [hz] at ha

end Answers

/-- The first context of a call has each declared name once, where it is declared first. -/
theorem Context.names_of_bind {arguments : Arguments} {story : String} {declared : List String}
    {bound : List (String × Value)} (h : arguments.bind story declared = .ok bound) :
    (ofArguments bound).names = declared.eraseDups := by
  rw [names_ofArguments, Bindings.names_ofList]
  exact ((Arguments.bind_eq_iff story declared).mp h).eraseDups_names

end StoryEngine
