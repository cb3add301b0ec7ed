import Mathlib.Data.List.Induction
import Mathlib.Data.List.Nodup
import StoryEngine.Proofs.Context.Extension

/-! # Histories of a context

A context may be extended again and again, and each time all outputs are added or none. So every
name was set once, by an argument or by an extension that can be told, and a context can as well be
kept in two tables, one of values and one of origins, that are matched by place only.
-/

namespace StoryEngine

structure Extension where
  outputs : Outputs
  identity : StepIdentity

/-- A context kept in two tables: the values by their names, and the origins in the order in which
the names were set. -/
structure Tables where
  values : List (String × Value)
  origins : List Provenance

namespace Tables

def empty : Tables := ⟨[], []⟩

def ofArguments (arguments : List (String × Value)) : Tables where
  values := (Bindings.ofList arguments).pairs
  origins := List.replicate (Bindings.ofList arguments).pairs.length .argument

variable (tables : Tables)

def names : List String := tables.values.map Prod.fst

def provenance? (name : String) : Option Provenance :=
  (tables.names.idxOf? name).bind fun k => tables.origins[k]?

def rows : List Variable :=
  List.zipWith (fun p origin => ⟨p.1, p.2, origin⟩) tables.values tables.origins

/-- Binds a value, and adds an origin whether or not the name is new. -/
def put (name : String) (value : Value) (origin : Provenance) : Tables :=
  ⟨putPair name value tables.values, tables.origins ++ [origin]⟩

def extend (e : Extension) : Except ProtocolError Tables :=
  match e.outputs.names.filter tables.names.contains with
  | [] => .ok (e.outputs.pairs.foldl (fun t p => t.put p.1 p.2 (.setBy e.identity)) tables)
  | collisions => .error (.override e.identity.text collisions)

def attempt (e : Extension) : Tables :=
  match tables.extend e with
  | .ok later => later
  | .error _ => tables

def after (history : List Extension) : Tables := history.foldl attempt tables

end Tables

namespace Context

/-- The context when an extension was tried: a refused one changes nothing. -/
def attempt (context : Context) (e : Extension) : Context :=
  match context.extend e.outputs e.identity with
  | .ok later => later
  | .error _ => context

def after (context : Context) (history : List Extension) : Context :=
  history.foldl attempt context

/-- The extension at a place of a history is accepted, and the name is one of those it sets. -/
def Introduces (start : Context) (history : List Extension) (k : Nat) (e : Extension)
    (name : String) : Prop :=
  history[k]? = some e ∧ name ∈ e.outputs.names ∧
    ∃ later, (start.after (history.take k)).extend e.outputs e.identity = .ok later

def tables (context : Context) : Tables where
  values := context.entries.map fun v => (v.name, v.value)
  origins := context.entries.map Variable.provenance

variable {context later : Context} {e : Extension} {name : String} {v : Variable}

section Tables

theorem names_tables (context : Context) : context.tables.names = context.names := by
  simp [tables, Tables.names, names]

theorem rows_tables (context : Context) : context.tables.rows = context.entries := by
  rw [Tables.rows, tables, List.zipWith_map, List.zipWith_self]
  exact List.map_id _

theorem provenance?_tables (context : Context) (name : String) :
    context.tables.provenance? name = context.provenance? name := by
  rw [Tables.provenance?, names_tables, provenance?, find?, tables, names]
  induction context.entries with
  | nil => rfl
  | cons v entries ih =>
    rw [List.map_cons, List.map_cons, List.idxOf?_cons, List.find?_cons]
    cases v.name == name with
    | true => rfl
    | false =>
      rw [← ih, if_neg Bool.false_ne_true, Option.bind_map]
      rfl

theorem tables_ofArguments (arguments : List (String × Value)) :
    (ofArguments arguments).tables = .ofArguments arguments := by
  simp [tables, ofArguments, Tables.ofArguments, Function.comp_def, List.map_const']

/-- Names that are not set are put behind the others, each with its origin. -/
theorem foldl_put {origin : Provenance} {pairs : List (String × Value)} {tables : Tables}
    (hd : (pairs.map Prod.fst).Nodup) (hf : ∀ name ∈ pairs.map Prod.fst, name ∉ tables.names) :
    pairs.foldl (fun t p => t.put p.1 p.2 origin) tables =
      ⟨tables.values ++ pairs, tables.origins ++ pairs.map fun _ => origin⟩ := by
  induction pairs generalizing tables with
  | nil => simp
  | cons p rest ih =>
    rw [List.map_cons, List.nodup_cons] at hd
    rw [List.map_cons, List.forall_mem_cons] at hf
    have hput : tables.put p.1 p.2 origin =
        ⟨tables.values ++ [p], tables.origins ++ [origin]⟩ := by
      rw [Tables.put, Bindings.putPair_of_not_mem hf.1]
    rw [List.foldl_cons, hput, ih hd.2]
    · simp
    · intro name hn
      have hne : name ≠ p.1 := fun he => hd.1 (he ▸ hn)
      simpa [Tables.names, hne] using hf.2 name hn

theorem tables_extend (context : Context) (e : Extension) :
    context.tables.extend e = (context.extend e.outputs e.identity).map tables := by
  have hc : e.outputs.names.filter context.tables.names.contains =
      e.outputs.names.filter context.contains := by
    rw [names_tables]
    rfl
  unfold Tables.extend extend
  rw [hc]
  cases hn : e.outputs.names.filter context.contains with
  | cons name more => rfl
  | nil =>
    have hf : ∀ name ∈ e.outputs.names, name ∉ context.tables.names := by
      simpa [List.filter_eq_nil_iff, names_tables, contains] using hn
    dsimp only
    rw [foldl_put e.outputs.distinct hf]
    simp [Except.map, tables, Function.comp_def]

theorem tables_after (context : Context) (history : List Extension) :
    context.tables.after history = (context.after history).tables := by
  induction history generalizing context with
  | nil => rfl
  | cons e history ih =>
    have ha : context.tables.attempt e = (context.attempt e).tables := by
      rw [Tables.attempt, attempt, tables_extend]
      cases context.extend e.outputs e.identity <;> rfl
    rw [Tables.after, List.foldl_cons, ha]
    exact ih _

end Tables

section Attempts

theorem extend_eq_error_iff {error : ProtocolError} :
    context.extend e.outputs e.identity = .error error ↔
      (∃ name ∈ e.outputs.names, name ∈ context.names) ∧ error =
        .override e.identity.text (e.outputs.names.filter fun name => name ∈ context.names) := by
  have hf : (e.outputs.names.filter context.contains) =
      e.outputs.names.filter fun name => name ∈ context.names :=
    List.filter_congr fun name _ => List.contains_eq_mem name context.names
  rw [extend, hf]
  cases hn : e.outputs.names.filter fun name => decide (name ∈ context.names) with
  | nil =>
    refine iff_of_false nofun fun h => ?_
    obtain ⟨name, ho, hc⟩ := h.1
    exact List.filter_eq_nil_iff.mp hn name ho (decide_eq_true hc)
  | cons name more =>
    have hm : name ∈ e.outputs.names.filter fun name => name ∈ context.names :=
      hn ▸ List.mem_cons_self
    have hc : ∃ name ∈ e.outputs.names, name ∈ context.names :=
      ⟨name, (List.mem_filter.mp hm).1, of_decide_eq_true (List.mem_filter.mp hm).2⟩
    rw [and_iff_right hc]
    exact ⟨fun h => (Except.error.inj h).symm, fun h => congrArg Except.error h.symm⟩

theorem attempt_of_error {error : ProtocolError}
    (h : context.extend e.outputs e.identity = .error error) : context.attempt e = context := by
  rw [attempt, h]

theorem attempt_of_ok (h : context.extend e.outputs e.identity = .ok later) :
    context.attempt e = later := by
  rw [attempt, h]

theorem entries_attempt (context : Context) (e : Extension) :
    context.entries <+: (context.attempt e).entries := by
  cases hr : context.extend e.outputs e.identity with
  | error error => exact (attempt_of_error hr).symm ▸ List.prefix_rfl
  | ok later =>
    obtain ⟨-, rfl⟩ := extend_eq_ok_iff.mp hr
    rw [attempt_of_ok hr]
    exact List.prefix_append _ _

theorem nodup_names_attempt (h : context.names.Nodup) : (context.attempt e).names.Nodup := by
  cases hr : context.extend e.outputs e.identity with
  | error error => rwa [attempt_of_error hr]
  | ok later =>
    rw [attempt_of_ok hr]
    exact nodup_names_of_extend hr h

end Attempts

section Histories

variable {start : Context} {history : List Extension} {k l : Nat} {e' : Extension}

theorem after_append (start : Context) (front back : List Extension) :
    start.after (front ++ back) = (start.after front).after back := List.foldl_append

theorem after_take_succ (h : history[k]? = some e) :
    start.after (history.take (k + 1)) = (start.after (history.take k)).attempt e := by
  rw [List.take_add_one, h, after_append]
  rfl

theorem entries_after (context : Context) (history : List Extension) :
    context.entries <+: (context.after history).entries := by
  induction history generalizing context with
  | nil => exact List.prefix_rfl
  | cons e history ih => exact (context.entries_attempt e).trans (ih _)

theorem entries_after_take (h : k ≤ l) :
    (start.after (history.take k)).entries <+: (start.after (history.take l)).entries := by
  obtain ⟨back, hb⟩ := List.take_prefix_take_left h
  rw [← hb, after_append]
  exact entries_after _ _

theorem nodup_names_after (h : context.names.Nodup) : (context.after history).names.Nodup := by
  induction history generalizing context with
  | nil => exact h
  | cons e history ih => exact ih (nodup_names_attempt h)

theorem Introduces.mem_entries (h : start.Introduces history k e name) :
    ∃ value, ⟨name, value, .setBy e.identity⟩ ∈ (start.after (history.take (k + 1))).entries := by
  obtain ⟨hk, hn, later, hr⟩ := h
  obtain ⟨-, rfl⟩ := extend_eq_ok_iff.mp hr
  obtain ⟨p, hp, rfl⟩ := List.mem_map.mp hn
  refine ⟨p.2, ?_⟩
  rw [after_take_succ hk, attempt_of_ok hr]
  exact List.mem_append_right _ (List.mem_map_of_mem hp)

theorem Introduces.append (h : start.Introduces history k e name) (back : List Extension) :
    start.Introduces (history ++ back) k e name := by
  obtain ⟨hk, hn, hr⟩ := h
  have hl := (List.getElem?_eq_some_iff.mp hk).1
  refine ⟨by rwa [List.getElem?_append_left hl], hn, ?_⟩
  rwa [List.take_append_of_le_length (Nat.le_of_lt hl)]

theorem introduces_last (hr : (start.after history).extend e.outputs e.identity = .ok later)
    (hn : name ∈ e.outputs.names) :
    start.Introduces (history ++ [e]) history.length e name :=
  ⟨List.getElem?_concat_length, hn, later, by rwa [List.take_left]⟩

/-- Every variable was there from the start, or it is one that an accepted extension set. -/
theorem exists_introduces (h : v ∈ (start.after history).entries) :
    v ∈ start.entries ∨ ∃ k e, start.Introduces history k e v.name ∧
      v ∈ e.outputs.setBy e.identity := by
  induction history using List.reverseRecOn with
  | nil => exact Or.inl h
  | append_singleton history e ih =>
    have hold (hv : v ∈ (start.after history).entries) : v ∈ start.entries ∨
        ∃ k e', start.Introduces (history ++ [e]) k e' v.name ∧
          v ∈ e'.outputs.setBy e'.identity := by
      refine (ih hv).imp_right ?_
      rintro ⟨k, e', hi, hm⟩
      exact ⟨k, e', hi.append [e], hm⟩
    have ha : start.after (history ++ [e]) = (start.after history).attempt e :=
      after_append ..
    rw [ha] at h
    cases hr : (start.after history).extend e.outputs e.identity with
    | error error => exact hold (attempt_of_error hr ▸ h)
    | ok later =>
      rw [attempt_of_ok hr] at h
      obtain ⟨-, rfl⟩ := extend_eq_ok_iff.mp hr
      rcases List.mem_append.mp h with hv | hv
      · exact hold hv
      · obtain ⟨p, hp, rfl⟩ := List.mem_map.mp hv
        exact Or.inr ⟨_, e, introduces_last hr (List.mem_map_of_mem hp), hv⟩

theorem mem_names_of_mem (h : v ∈ context.entries) : v.name ∈ context.names :=
  List.mem_map_of_mem h

theorem Introduces.not_mem_names (h : start.Introduces history k e name) :
    name ∉ (start.after (history.take k)).names := by
  obtain ⟨-, hn, later, hr⟩ := h
  have hf := (extend_eq_ok_iff.mp hr).1 name hn
  simpa [contains] using hf

theorem Introduces.not_mem_start (h : start.Introduces history k e name) :
    name ∉ start.names := fun hm =>
  h.not_mem_names (((entries_after start _).map _).subset hm)

theorem Introduces.le (h : start.Introduces history k e name)
    (h' : start.Introduces history l e' name) : l ≤ k := by
  refine Nat.not_lt.mp fun hlt => h'.not_mem_names ?_
  obtain ⟨value, hm⟩ := h.mem_entries
  exact mem_names_of_mem ((entries_after_take hlt).subset hm)

end Histories

section Lookup

theorem find?_of_mem (hd : context.names.Nodup) (hv : v ∈ context.entries) :
    context.find? v.name = some v := by
  cases hf : context.find? v.name with
  | none => simpa using List.find?_eq_none.mp hf v hv
  | some w =>
    have hn : w.name = v.name := by simpa using List.find?_some hf
    exact congrArg some (List.inj_on_of_nodup_map hd (List.mem_of_find?_eq_some hf) hv hn)

theorem provenance?_eq_some_iff (hd : context.names.Nodup) {origin : Provenance} :
    context.provenance? name = some origin ↔
      ∃ v ∈ context.entries, v.name = name ∧ v.provenance = origin := by
  constructor
  · intro h
    obtain ⟨v, hf, rfl⟩ := Option.map_eq_some_iff.mp h
    exact ⟨v, List.mem_of_find?_eq_some hf, by simpa using List.find?_some hf, rfl⟩
  · rintro ⟨v, hv, rfl, rfl⟩
    rw [provenance?, find?_of_mem hd hv]
    rfl

end Lookup

/-- Over a history each extension is made in full or not at all, and each name is set once. -/
structure WrittenOnce (start : Context) (tables : Tables) (history : List Extension) : Prop where
  /-- An extension is refused where a name is set already, for exactly the names that are. -/
  refused : ∀ k e error, history[k]? = some e →
    ((start.after (history.take k)).extend e.outputs e.identity = .error error ↔
      (∃ name ∈ e.outputs.names, name ∈ (start.after (history.take k)).names) ∧
        error = .override e.identity.text
          (e.outputs.names.filter fun name => name ∈ (start.after (history.take k)).names))
  unchanged : ∀ k e error, history[k]? = some e →
    (start.after (history.take k)).extend e.outputs e.identity = .error error →
      start.after (history.take (k + 1)) = start.after (history.take k)
  /-- Else the outputs follow what was there, in their order. -/
  accepted : ∀ k e, history[k]? = some e →
    (∀ name ∈ e.outputs.names, name ∉ (start.after (history.take k)).names) →
      (start.after (history.take k)).extend e.outputs e.identity =
          .ok (start.after (history.take (k + 1))) ∧
        (start.after (history.take (k + 1))).entries =
          (start.after (history.take k)).entries ++ e.outputs.setBy e.identity
  distinct : (start.after history).names.Nodup
  /-- What is matched by place only is matched rightly. -/
  rows : (tables.after history).rows = (start.after history).entries
  balanced : (tables.after history).origins.length = (tables.after history).values.length
  origin : ∀ name, (tables.after history).provenance? name = (start.after history).provenance? name
  argument : ∀ name,
    (start.after history).provenance? name = some .argument ↔ name ∈ start.names
  setBy : ∀ name identity, (start.after history).provenance? name = some (.setBy identity) ↔
    ∃ k e, start.Introduces history k e name ∧ e.identity = identity
  once : ∀ k e name, start.Introduces history k e name →
    name ∉ start.names ∧ ∀ l e', start.Introduces history l e' name → l = k
  paired : ∀ v ∈ (start.after history).entries,
    (start.after history).provenance? v.name = some v.provenance ∧
      (start.after history).get? v.name = some v.value

theorem writtenOnce_of_arguments (start : Context) (hd : start.names.Nodup)
    (ha : ∀ v ∈ start.entries, v.provenance = .argument) (history : List Extension) :
    start.WrittenOnce start.tables history := by
  have hd' : (start.after history).names.Nodup := nodup_names_after hd
  constructor
  case refused => exact fun k e error _ => extend_eq_error_iff
  case unchanged =>
    intro k e error hk hr
    rw [after_take_succ hk, attempt_of_error hr]
  case accepted =>
    intro k e hk hf
    have hr : (start.after (history.take k)).extend e.outputs e.identity =
        .ok ⟨(start.after (history.take k)).entries ++ e.outputs.setBy e.identity⟩ :=
      extend_eq_ok_iff.mpr ⟨by simpa [contains] using hf, rfl⟩
    rw [after_take_succ hk, attempt_of_ok hr]
    exact ⟨hr, rfl⟩
  case distinct => exact hd'
  case rows => rw [tables_after, rows_tables]
  case balanced =>
    rw [tables_after]
    simp [tables]
  case origin => exact fun name => by rw [tables_after, provenance?_tables]
  case argument =>
    intro name
    rw [provenance?_eq_some_iff hd']
    constructor
    · rintro ⟨v, hv, rfl, hp⟩
      rcases exists_introduces hv with hs | ⟨k, e, -, hm⟩
      · exact mem_names_of_mem hs
      · obtain ⟨p, -, rfl⟩ := List.mem_map.mp hm
        cases hp
    · intro hn
      obtain ⟨v, hv, rfl⟩ := List.mem_map.mp hn
      exact ⟨v, (entries_after start history).subset hv, rfl, ha v hv⟩
  case setBy =>
    intro name identity
    rw [provenance?_eq_some_iff hd']
    constructor
    · rintro ⟨v, hv, rfl, hp⟩
      rcases exists_introduces hv with hs | ⟨k, e, hi, hm⟩
      · rw [ha v hs] at hp
        cases hp
      · obtain ⟨p, -, rfl⟩ := List.mem_map.mp hm
        exact ⟨k, e, hi, Provenance.setBy.inj hp⟩
    · rintro ⟨k, e, hi, rfl⟩
      obtain ⟨value, hm⟩ := hi.mem_entries
      have hp : (start.after (history.take (k + 1))).entries <+: (start.after history).entries := by
        have hb := entries_after (start.after (history.take (k + 1))) (history.drop (k + 1))
        rwa [← after_append, List.take_append_drop] at hb
      exact ⟨_, hp.subset hm, rfl, rfl⟩
  case once =>
    intro k e name h
    exact ⟨h.not_mem_start, fun l e' h' => Nat.le_antisymm (h.le h') (h'.le h)⟩
  case paired =>
    intro v hv
    have hf := find?_of_mem hd' hv
    exact ⟨by rw [provenance?, hf]; rfl, by rw [get?, hf]; rfl⟩

/-- Whatever is tried on an empty context or on the context of arguments, in two tables or in one,
names are written once. -/
theorem writtenOnce_after (history : List Extension) :
    WrittenOnce .empty .empty history ∧
      ∀ arguments, WrittenOnce (.ofArguments arguments) (.ofArguments arguments) history := by
  constructor
  · exact writtenOnce_of_arguments .empty List.nodup_nil
      (fun _ h => absurd h List.not_mem_nil) history
  · intro arguments
    rw [← tables_ofArguments]
    exact writtenOnce_of_arguments _ (nodup_names_ofArguments arguments)
      (fun _ hv => (of_mem_ofArguments hv).1) history

end Context

example : ((Context.ofArguments [("a", .int 1)]).after [
    ⟨.ofList [("b", .int 2), ("a", .int 3)], ⟨"H", "s"⟩⟩,
    ⟨.ofList [("c", .int 4), ("b", .int 5)], ⟨"H", "t"⟩⟩,
    ⟨.ofList [("c", .int 6)], ⟨"H", "u"⟩⟩]).text = "Context(a=1, c=4, b=5)" := by rfl

end StoryEngine
