import Mathlib.Data.List.Forall2
import Mathlib.Data.List.Sort
import StoryEngine.Bindings
import StoryEngine.Proofs.Value.Text
import StoryEngine.Value.Canonical

/-! # Canonical text tells values apart

Records are finite maps here: what counts is which value each name has, and the order in which the
names came does not. Values have the same canonical text exactly if they are the same in this sense.
-/

namespace StoryEngine

theorem forall₂_congr_of_mem {α β : Type} {R S : α → β → Prop} {xs : List α} {ys : List β}
    (h : ∀ x ∈ xs, ∀ y ∈ ys, R x y ↔ S x y) : List.Forall₂ R xs ys ↔ List.Forall₂ S xs ys := by
  rw [List.forall₂_iff_zip, List.forall₂_iff_zip]
  constructor
  · rintro ⟨hl, hr⟩
    refine ⟨hl, fun hz => ?_⟩
    obtain ⟨hx, hy⟩ := List.of_mem_zip hz
    exact (h _ hx _ hy).mp (hr hz)
  · rintro ⟨hl, hs⟩
    refine ⟨hl, fun hz => ?_⟩
    obtain ⟨hx, hy⟩ := List.of_mem_zip hz
    exact (h _ hx _ hy).mpr (hs hz)

theorem map_eq_map_iff_forall₂ {α β : Type} {f : α → β} {xs ys : List α} :
    xs.map f = ys.map f ↔ List.Forall₂ (fun x y => f x = f y) xs ys := by
  rw [← List.forall₂_eq_eq_eq, List.forall₂_map_left_iff, List.forall₂_map_right_iff]

theorem rel_congr_of_mem {α β : Type} {R S : α → β → Prop} {o : Option α} {p : Option β}
    (h : ∀ x ∈ o, ∀ y, R x y ↔ S x y) : Option.Rel R o p ↔ Option.Rel S o p := by
  constructor
  · rintro (hr | _)
    · exact .some ((h _ rfl _).mp hr)
    · exact .none
  · rintro (hs | _)
    · exact .some ((h _ rfl _).mpr hs)
    · exact .none

theorem map_eq_map_iff_rel {α β : Type} {f : α → β} {o p : Option α} :
    o.map f = p.map f ↔ Option.Rel (fun x y => f x = f y) o p := by
  constructor
  · intro h
    cases o with
    | none =>
      cases p with
      | none => exact .none
      | some => cases h
    | some x =>
      cases p with
      | none => cases h
      | some y => exact .some (Option.some.inj h)
  · rintro (h | _)
    · exact congrArg some h
    · rfl

namespace Value

/-- What a name stands for in a record: of a repeated name the last value counts. -/
def field? (fields : List (String × Value)) (k : String) : Option Value := fields.reverse.lookup k

/-- Sameness of values, with records as finite maps. -/
inductive Equivalent : Value → Value → Prop where
  | null : Equivalent .null .null
  | bool (b : Bool) : Equivalent (.bool b) (.bool b)
  | number (n : Number) : Equivalent (.number n) (.number n)
  | string (s : String) : Equivalent (.string s) (.string s)
  | array {xs ys : List Value} : List.Forall₂ Equivalent xs ys → Equivalent (.array xs) (.array ys)
  | object {xs ys : List (String × Value)} :
      (∀ k, Option.Rel Equivalent (field? xs k) (field? ys k)) → Equivalent (.object xs) (.object ys)

section Fields

variable {fields : List (String × Value)} {k l : String} {v : Value}

theorem field?_nil (k : String) : field? [] k = none := rfl

theorem field?_cons : field? ((k, v) :: fields) l =
    (field? fields l).or (if l = k then some v else none) := by
  rw [field?, field?, List.reverse_cons, List.lookup_append, lookup_cons_eq, List.lookup_nil]

theorem mem_of_field? (h : field? fields k = some v) : (k, v) ∈ fields :=
  List.mem_reverse.mp (mem_of_lookup h)

theorem field?_normalizeFields (fields : List (String × Value)) (k : String) :
    field? (normalizeFields fields) k = (field? fields k).map normalize := by
  induction fields with
  | nil => rfl
  | cons p rest ih =>
    rw [normalizeFields, field?_cons, field?_cons, ih]
    cases field? rest k with
    | none => by_cases h : k = p.1 <;> simp [h]
    | some => rfl

def Before (p q : String × Value) : Prop := p.1 < q.1

instance : Std.Irrefl Before := ⟨fun p => String.lt_irrefl p.1⟩

instance : Std.Antisymm Before :=
  ⟨fun p _ h h' => absurd (String.lt_trans h h') (String.lt_irrefl p.1)⟩

theorem mem_insertField {p : String × Value} (h : p ∈ insertField k v fields) :
    p = (k, v) ∨ p ∈ fields := by
  fun_induction insertField k v fields with grind

theorem lookup_eq_none_of_before (h : ∀ p ∈ fields, Before (k, v) p) : fields.lookup k = none := by
  rw [lookup_eq_none_iff]
  intro hk
  obtain ⟨p, hp, rfl⟩ := List.mem_map.mp hk
  exact String.lt_irrefl p.1 (h p hp)

theorem before_of_lt {w : Value} (h : ((l, w) :: fields).Pairwise Before) (hlt : k < l) :
    ∀ p ∈ (l, w) :: fields, Before (k, v) p := by
  intro p hp
  rcases List.mem_cons.mp hp with rfl | hp
  · exact hlt
  · exact String.lt_trans hlt ((List.pairwise_cons.mp h).1 p hp)

theorem lt_of_not {k l : String} (hne : k ≠ l) (hlt : ¬ k < l) : l < k := by
  rcases Std.Trichotomous.rel_or_eq_or_rel_swap (r := fun a b : String => a < b) (a := k) (b := l)
    with h | h | h
  · exact absurd h hlt
  · exact absurd h hne
  · exact h

theorem pairwise_insertField (h : fields.Pairwise Before) :
    (insertField k v fields).Pairwise Before := by
  fun_induction insertField k v fields with
  | case1 => exact List.pairwise_singleton _ _
  | case2 => exact h
  | case3 l w rest _ hlt =>
    exact List.pairwise_cons.mpr ⟨before_of_lt h hlt, h⟩
  | case4 l w rest hne hnlt ih =>
    obtain ⟨hl, hrest⟩ := List.pairwise_cons.mp h
    refine List.pairwise_cons.mpr ⟨?_, ih hrest⟩
    intro p hp
    rcases mem_insertField hp with rfl | hp
    · exact lt_of_not hne hnlt
    · exact hl p hp

theorem lookup_insertField (h : fields.Pairwise Before) : (insertField k v fields).lookup l =
    (fields.lookup l).or (if l = k then some v else none) := by
  fun_induction insertField k v fields with
  | case1 => exact lookup_cons_eq
  | case2 w rest =>
    rw [lookup_cons_eq]
    split
    · rfl
    · rw [Option.or_none]
  | case3 m w rest _ hlt =>
    have hnone := lookup_eq_none_of_before (before_of_lt (v := v) h hlt)
    rw [lookup_cons_eq]
    split
    · rename_i he
      rw [he, hnone, Option.none_or]
    · rw [Option.or_none]
  | case4 m w rest hne hnlt ih =>
    rw [lookup_cons_eq, lookup_cons_eq, ih (List.pairwise_cons.mp h).2]
    split
    · rfl
    · rfl

theorem pairwise_record (fields : List (String × Value)) : (record fields).Pairwise Before := by
  induction fields with
  | nil => exact .nil
  | cons p rest ih => exact pairwise_insertField ih

theorem lookup_record (fields : List (String × Value)) (k : String) :
    (record fields).lookup k = field? fields k := by
  induction fields with
  | nil => rfl
  | cons p rest ih => rw [record, lookup_insertField (pairwise_record rest), ih, field?_cons]

theorem mem_iff_lookup (h : fields.Pairwise Before) :
    (k, v) ∈ fields ↔ fields.lookup k = some v := by
  induction fields with
  | nil => exact iff_of_false List.not_mem_nil nofun
  | cons p rest ih =>
    obtain ⟨hp, hrest⟩ := List.pairwise_cons.mp h
    rw [lookup_cons_eq, List.mem_cons, ih hrest]
    split
    · rename_i he
      subst he
      rw [lookup_eq_none_of_before hp]
      simp [Prod.ext_iff, eq_comm]
    · rename_i hne
      refine or_iff_right fun he => hne ?_
      rw [← he]

/-- A record is told by what its names stand for. -/
theorem record_eq_record_iff {xs ys : List (String × Value)} :
    record xs = record ys ↔ ∀ k, field? xs k = field? ys k := by
  constructor
  · intro h k
    rw [← lookup_record, h, lookup_record]
  · intro h
    refine (pairwise_record xs).eq_of_mem_iff (pairwise_record ys) ?_
    rintro ⟨k, v⟩
    rw [mem_iff_lookup (pairwise_record xs), mem_iff_lookup (pairwise_record ys), lookup_record,
      lookup_record, h k]

end Fields

theorem equivalent_array_iff {xs ys : List Value} :
    (array xs).Equivalent (array ys) ↔ List.Forall₂ Equivalent xs ys := by
  constructor
  · rintro ⟨⟩
    assumption
  · exact .array

theorem equivalent_object_iff {xs ys : List (String × Value)} :
    (object xs).Equivalent (object ys) ↔
      ∀ k, Option.Rel Equivalent (field? xs k) (field? ys k) := by
  constructor
  · rintro ⟨⟩
    assumption
  · exact .object

theorem equivalent_string_iff {s t : String} :
    (Value.string s).Equivalent (.string t) ↔ s = t := by
  constructor
  · rintro ⟨⟩
    rfl
  · rintro rfl
    exact .string s

theorem equivalent_strings_iff {xs ys : List String} :
    (strings xs).Equivalent (strings ys) ↔ xs = ys := by
  rw [strings, strings, equivalent_array_iff, List.forall₂_map_left_iff,
    List.forall₂_map_right_iff, forall₂_congr_of_mem fun _ _ _ _ => equivalent_string_iff,
    List.forall₂_eq_eq_eq]

theorem normalize_eq_iff {v w : Value} : v.normalize = w.normalize ↔ v.Equivalent w := by
  induction v using memberInduction generalizing w with
  | null =>
    cases w with
    | null => exact iff_of_true rfl .null
    | _ => exact iff_of_false nofun nofun
  | bool b =>
    cases w with
    | bool b' =>
      constructor
      · rintro ⟨⟩
        exact .bool b
      · rintro ⟨⟩
        rfl
    | _ => exact iff_of_false nofun nofun
  | number n =>
    cases w with
    | number m =>
      constructor
      · rintro ⟨⟩
        exact .number n
      · rintro ⟨⟩
        rfl
    | _ => exact iff_of_false nofun nofun
  | string s =>
    cases w with
    | string t =>
      rw [equivalent_string_iff]
      exact string.injEq s t ▸ Iff.rfl
    | _ => exact iff_of_false nofun nofun
  | array items ih =>
    cases w with
    | array items' =>
      rw [normalize, normalize, normalizeItems_eq_map, normalizeItems_eq_map, array.injEq,
        map_eq_map_iff_forall₂, equivalent_array_iff]
      exact forall₂_congr_of_mem fun v hv _ _ => ih v hv
    | _ => exact iff_of_false nofun nofun
  | object fields ih =>
    cases w with
    | object fields' =>
      rw [normalize, normalize, object.injEq, record_eq_record_iff, equivalent_object_iff]
      refine forall_congr' fun k => ?_
      rw [field?_normalizeFields, field?_normalizeFields, map_eq_map_iff_rel]
      exact rel_congr_of_mem fun v hv _ => ih (k, v) (mem_of_field? hv)
    | _ => exact iff_of_false nofun nofun

/-- Values have the same canonical text exactly if they are equivalent. -/
theorem canonical_eq_canonical_iff (v w : Value) : v.canonical = w.canonical ↔ v.Equivalent w :=
  text_injective.eq_iff.trans normalize_eq_iff

end Value

end StoryEngine
