import StoryEngine.Proofs.Double.Notation
import StoryEngine.Proofs.Text.Literal
import StoryEngine.Value.Basic

/-! # Where the text of a value ends

Texts, lists and records end with the sign that closes them, and a number ends where no character
of numbers follows. So the compact text of a value can be told from what follows it, and different
values have different texts.
-/

namespace StoryEngine

open Double (isNumeric)

def Stops (rest : List Char) : Prop := ∀ c ∈ rest.head?, isNumeric c = false

theorem stops_nil : Stops [] := nofun

theorem stops_cons {c : Char} {rest : List Char} : Stops (c :: rest) ↔ isNumeric c = false := by
  simp [Stops]

theorem append_inj_of_stops {xs ys r r' : List Char} (hx : ∀ c ∈ xs, isNumeric c)
    (hy : ∀ c ∈ ys, isNumeric c) (hr : Stops r) (hr' : Stops r') (h : xs ++ r = ys ++ r') :
    xs = ys ∧ r = r' := by
  have ht := congrArg (List.takeWhile isNumeric) h
  rw [List.takeWhile_append_of_pos hx, List.takeWhile_append_of_pos hy,
    Double.takeWhile_of_head? hr, Double.takeWhile_of_head? hr', List.append_nil,
    List.append_nil] at ht
  subst ht
  exact ⟨rfl, List.append_cancel_left h⟩

/-- The first occurrence of a sign is where the text in front of it ends. -/
theorem append_cons_inj_of_not_mem {c : Char} : ∀ {xs ys r r' : List Char}, c ∉ xs → c ∉ ys →
    xs ++ c :: r = ys ++ c :: r' → xs = ys ∧ r = r'
  | [], [], _, _, _, _, h => ⟨rfl, (List.cons.inj h).2⟩
  | [], y :: ys, _, _, _, hy, h => absurd (List.mem_cons.mpr (.inl (List.cons.inj h).1)) hy
  | x :: xs, [], _, _, hx, _, h => absurd (List.mem_cons.mpr (.inl (List.cons.inj h).1.symm)) hx
  | x :: xs, y :: ys, _, _, hx, hy, h => by
    obtain ⟨rfl, ht⟩ := List.cons.inj h
    obtain ⟨rfl, hr⟩ := append_cons_inj_of_not_mem (fun hc => hx (List.mem_cons_of_mem _ hc))
      (fun hc => hy (List.mem_cons_of_mem _ hc)) ht
    exact ⟨rfl, hr⟩

theorem intercalate_cons_eq {α : Type} (sep first : List α) (rest : List (List α)) :
    sep.intercalate (first :: rest) = first ++ rest.flatMap (sep ++ ·) := by
  induction rest generalizing first with
  | nil => simp
  | cons next rest ih =>
    rw [List.intercalate_cons_cons, ih, List.flatMap_cons, List.append_assoc, List.append_assoc]

namespace Number

theorem toList_text_int (n : Int) :
    (int n).text.toList = Double.signed (n < 0) (Nat.toDigits 10 n.natAbs) := by
  have hd (m : Nat) : (Nat.repr m).toList = Nat.toDigits 10 m := by
    rw [Nat.repr_eq_ofList_toDigits, String.toList_ofList]
  cases n with
  | ofNat m => exact hd m
  | negSucc m =>
    have hs : (int (Int.negSucc m)).text.toList = '-' :: (Nat.repr (m + 1)).toList :=
      String.toList_append
    rw [hs, hd, decide_eq_true (Int.negSucc_lt_zero m)]
    rfl

theorem isDigit_toDigits {n : Nat} : ∀ c ∈ Nat.toDigits 10 n, c.isDigit := fun _ hc =>
  Nat.isDigit_of_mem_toDigits (by decide) (by decide) hc

theorem head?_toDigits_ne (n : Nat) : (Nat.toDigits 10 n).head? ≠ some '-' := by
  intro h
  exact absurd (isDigit_toDigits _ (List.mem_of_head? h)) (by decide)

theorem isNumeric_text (n : Number) : ∀ c ∈ n.text.toList, isNumeric c := by
  cases n with
  | int n =>
    rw [toList_text_int]
    have hd : ∀ c ∈ Nat.toDigits 10 n.natAbs, isNumeric c := fun c hc =>
      Double.isNumeric_of_isDigit (isDigit_toDigits c hc)
    exact Double.isNumeric_signed hd _
  | float x =>
    rw [text, Double.toList_text]
    exact Double.isNumeric_signed x.marked_body.isNumeric _

theorem toList_text_ne_nil (n : Number) : n.text.toList ≠ [] := by
  cases n with
  | int n =>
    obtain ⟨c, ds, hc⟩ := List.exists_cons_of_ne_nil (Nat.toDigits_ne_nil (n := n.natAbs) (b := 10))
    rw [toList_text_int]
    exact List.ne_nil_of_mem (Double.subset_signed _ _ (hc ▸ List.mem_cons_self))
  | float x =>
    obtain ⟨c, hc, -⟩ := x.marked_body.exists_mark
    rw [text, Double.toList_text]
    exact List.ne_nil_of_mem (Double.subset_signed _ _ hc)

theorem text_int_ne_text_float (n : Int) (x : Double) : (int n).text ≠ (float x).text := by
  intro h
  have hl := congrArg String.toList h
  rw [toList_text_int, text, Double.toList_text] at hl
  obtain ⟨-, hb⟩ := Double.signed_inj (head?_toDigits_ne _) x.marked_body.head?_ne hl
  obtain ⟨c, hc, hm⟩ := x.marked_body.exists_mark
  have hd := isDigit_toDigits c (hb ▸ hc)
  rcases hm with rfl | rfl
  · exact absurd hd (by decide)
  · exact absurd hd (by decide)

theorem text_int_injective {m n : Int} (h : (int m).text = (int n).text) : m = n := by
  have hl := congrArg String.toList h
  rw [toList_text_int, toList_text_int] at hl
  obtain ⟨hs, hd⟩ := Double.signed_inj (head?_toDigits_ne _) (head?_toDigits_ne _) hl
  have hn := congrArg (Nat.ofDigitChars 10 · 0) hd
  simp only [Nat.ofDigitChars_ten_toDigits] at hn
  rw [decide_eq_decide] at hs
  omega

theorem text_injective : Function.Injective text := by
  intro m n h
  cases m with
  | int m =>
    cases n with
    | int n => rw [text_int_injective h]
    | float y => exact absurd h (text_int_ne_text_float m y)
  | float x =>
    cases n with
    | int n => exact absurd h.symm (text_int_ne_text_float n x)
    | float y => rw [Double.text_injective h]

end Number

section Joined

variable {α : Type} {print : α → String}

/-- The text of `x` can be told from what follows it. -/
def Delimits (print : α → String) (x : α) : Prop := ∀ (y : α) {r r' : List Char},
  Stops r → Stops r' → (print x).toList ++ r = (print y).toList ++ r' → x = y ∧ r = r'

def trailing (print : α → String) (xs : List α) : List Char :=
  xs.flatMap fun x => ',' :: (print x).toList

theorem toList_intercalate_cons (x : α) (xs : List α) :
    (",".intercalate ((x :: xs).map print)).toList = (print x).toList ++ trailing print xs := by
  rw [String.toList_intercalate, List.map_cons, List.map_cons, intercalate_cons_eq, List.map_map,
    List.flatMap_map]
  rfl

variable {close : Char}

theorem stops_trailing (hc : isNumeric close = false) (xs : List α) (r : List Char) :
    Stops (trailing print xs ++ close :: r) := by
  cases xs with
  | nil => exact stops_cons.mpr hc
  | cons => exact stops_cons.mpr (by decide)

theorem trailing_append_inj (hc : isNumeric close = false) (hcomma : close ≠ ',') :
    ∀ {xs ys : List α} {r r' : List Char}, (∀ x ∈ xs, Delimits print x) →
      trailing print xs ++ close :: r = trailing print ys ++ close :: r' → xs = ys ∧ r = r'
  | [], [], _, _, _, h => ⟨rfl, (List.cons.inj h).2⟩
  | [], _ :: _, _, _, _, h => absurd (List.cons.inj h).1 hcomma
  | _ :: _, [], _, _, _, h => absurd (List.cons.inj h).1.symm hcomma
  | x :: xs, y :: ys, r, r', hx, h => by
    simp only [trailing, List.flatMap_cons, List.cons_append, List.append_assoc] at h
    obtain ⟨rfl, hrest⟩ := hx x List.mem_cons_self y (stops_trailing hc xs r)
      (stops_trailing hc ys r') (List.cons.inj h).2
    obtain ⟨rfl, rfl⟩ := trailing_append_inj hc hcomma
      (fun z hz => hx z (List.mem_cons_of_mem _ hz)) hrest
    exact ⟨rfl, rfl⟩

/-- Items between commas, up to a sign that none of them starts with, are told apart if each of
them is. -/
theorem intercalate_append_inj (hc : isNumeric close = false) (hcomma : close ≠ ',')
    (hlead : ∀ (x : α) (u v : List Char), (print x).toList ++ u ≠ close :: v)
    {xs ys : List α} {r r' : List Char} (hx : ∀ x ∈ xs, Delimits print x)
    (h : (",".intercalate (xs.map print)).toList ++ close :: r =
      (",".intercalate (ys.map print)).toList ++ close :: r') : xs = ys ∧ r = r' := by
  cases xs with
  | nil =>
    cases ys with
    | nil => exact ⟨rfl, (List.cons.inj h).2⟩
    | cons y ys =>
      rw [toList_intercalate_cons, List.append_assoc] at h
      exact absurd h.symm (hlead y _ _)
  | cons x xs =>
    rw [toList_intercalate_cons, List.append_assoc] at h
    cases ys with
    | nil => exact absurd h (hlead x _ _)
    | cons y ys =>
      rw [toList_intercalate_cons, List.append_assoc] at h
      obtain ⟨rfl, hrest⟩ := hx x List.mem_cons_self y (stops_trailing hc xs r)
        (stops_trailing hc ys r') h
      obtain ⟨rfl, rfl⟩ := trailing_append_inj hc hcomma
        (fun z hz => hx z (List.mem_cons_of_mem _ hz)) hrest
      exact ⟨rfl, rfl⟩

end Joined

namespace Value

/-- Induction over values, with lists and records by their members. -/
@[elab_as_elim]
theorem memberInduction {motive : Value → Prop} (null : motive .null)
    (bool : ∀ b, motive (.bool b)) (number : ∀ n, motive (.number n))
    (string : ∀ s, motive (.string s))
    (array : ∀ items, (∀ v ∈ items, motive v) → motive (.array items))
    (object : ∀ fields : List (String × Value), (∀ p ∈ fields, motive p.2) →
      motive (.object fields)) : ∀ v, motive v
  | .null => null
  | .bool b => bool b
  | .number n => number n
  | .string s => string s
  | .array items => array items fun v _ => memberInduction null bool number string array object v
  | .object fields =>
    object fields fun p _ => memberInduction null bool number string array object p.2
termination_by v => sizeOf v
decreasing_by
  · have := List.sizeOf_lt_of_mem ‹v ∈ items›
    simp only [Value.array.sizeOf_spec]
    omega
  · have := List.sizeOf_lt_of_mem ‹p ∈ fields›
    obtain ⟨k, v⟩ := p
    simp only [Value.object.sizeOf_spec, Prod.mk.sizeOf_spec] at this ⊢
    omega

def fieldText (field : String × Value) : String := Text.literal field.1 ++ ":" ++ field.2.text

theorem itemTexts_eq_map (items : List Value) : itemTexts items = items.map text := by
  induction items with
  | nil => rfl
  | cons v rest ih => rw [itemTexts, ih, List.map_cons]

theorem fieldTexts_eq_map (fields : List (String × Value)) :
    fieldTexts fields = fields.map fieldText := by
  induction fields with
  | nil => rfl
  | cons p rest ih => rw [fieldTexts, ih, List.map_cons, fieldText]

theorem toList_text_array (items : List Value) (r : List Char) :
    (array items).text.toList ++ r =
      '[' :: ((",".intercalate (items.map text)).toList ++ ']' :: r) := by
  rw [text, itemTexts_eq_map, String.toList_append, String.toList_append]
  simp

theorem toList_text_object (fields : List (String × Value)) (r : List Char) :
    (object fields).text.toList ++ r =
      '\x7b' :: ((",".intercalate (fields.map fieldText)).toList ++ '\x7d' :: r) := by
  rw [text, fieldTexts_eq_map, String.toList_append, String.toList_append]
  simp

theorem toList_fieldText (p : String × Value) (r : List Char) :
    (fieldText p).toList ++ r = (Text.literal p.1).toList ++ ':' :: (p.2.text.toList ++ r) := by
  rw [fieldText, String.toList_append, String.toList_append]
  simp

inductive Kind where
  | null
  | bool
  | number
  | string
  | array
  | object

def kind : Value → Kind
  | .null => .null
  | .bool _ => .bool
  | .number _ => .number
  | .string _ => .string
  | .array _ => .array
  | .object _ => .object

def Kind.ofLead? (c : Char) : Option Kind :=
  if isNumeric c then some .number
  else match c with
    | 'n' => some .null
    | 't' | 'f' => some .bool
    | '"' => some .string
    | '[' => some .array
    | '\x7b' => some .object
    | _ => none

theorem lead_text (v : Value) (r : List Char) :
    ∃ c rest, v.text.toList ++ r = c :: rest ∧ Kind.ofLead? c = some v.kind := by
  cases v with
  | null => exact ⟨'n', _, rfl, rfl⟩
  | bool b =>
    cases b with
    | false => exact ⟨'f', _, rfl, rfl⟩
    | true => exact ⟨'t', _, rfl, rfl⟩
  | number n =>
    obtain ⟨c, rest, hc⟩ := List.exists_cons_of_ne_nil n.toList_text_ne_nil
    refine ⟨c, rest ++ r, by rw [text, hc, List.cons_append], ?_⟩
    unfold Kind.ofLead?
    rw [if_pos (n.isNumeric_text c (hc ▸ List.mem_cons_self))]
    rfl
  | string s =>
    rw [text, Text.toList_literal]
    exact ⟨_, _, rfl, rfl⟩
  | array items =>
    rw [toList_text_array]
    exact ⟨_, _, rfl, rfl⟩
  | object fields =>
    rw [toList_text_object]
    exact ⟨_, _, rfl, rfl⟩

theorem kind_eq_of_append {v w : Value} {r r' : List Char}
    (h : v.text.toList ++ r = w.text.toList ++ r') : v.kind = w.kind := by
  obtain ⟨c, rest, hv, hk⟩ := v.lead_text r
  obtain ⟨c', rest', hw, hk'⟩ := w.lead_text r'
  rw [hv, hw] at h
  obtain ⟨rfl, -⟩ := List.cons.inj h
  exact Option.some.inj (hk.symm.trans hk')

/-- A sign that closes or parts is no sign that a value starts with. -/
theorem text_append_ne {c : Char} (hc : Kind.ofLead? c = none) (v : Value) (r u : List Char) :
    v.text.toList ++ r ≠ c :: u := by
  intro h
  obtain ⟨c', rest, hv, hk⟩ := v.lead_text r
  rw [hv] at h
  obtain ⟨rfl, -⟩ := List.cons.inj h
  rw [hc] at hk
  cases hk

theorem fieldText_append_ne {c : Char} (hc : c ≠ '"') (p : String × Value) (r u : List Char) :
    (fieldText p).toList ++ r ≠ c :: u := by
  rw [toList_fieldText, Text.toList_literal]
  exact fun h => hc (List.cons.inj h).1.symm

theorem delimits_fieldText {p : String × Value} (hp : Delimits text p.2) :
    Delimits fieldText p := by
  intro q r r' hr hr' h
  rw [toList_fieldText, toList_fieldText, Text.literal_append_inj] at h
  obtain ⟨hk, h⟩ := h
  obtain ⟨hv, hrest⟩ := hp q.2 hr hr' (List.cons.inj h).2
  exact ⟨Prod.ext hk hv, hrest⟩

theorem delimits_text (v : Value) : Delimits text v := by
  induction v using memberInduction with
  | null =>
    intro w r r' _ _ h
    cases w with
    | null => exact ⟨rfl, List.append_cancel_left h⟩
    | _ => cases kind_eq_of_append h
  | bool b =>
    intro w r r' _ _ h
    cases w with
    | bool b' =>
      cases b <;> cases b'
      case false.false | true.true => exact ⟨rfl, List.append_cancel_left h⟩
      case false.true | true.false => cases (List.cons.inj h).1
    | _ => cases kind_eq_of_append h
  | number n =>
    intro w r r' hr hr' h
    cases w with
    | number m =>
      obtain ⟨ht, hrest⟩ := append_inj_of_stops n.isNumeric_text m.isNumeric_text hr hr' h
      rw [Number.text_injective (String.toList_injective ht)]
      exact ⟨rfl, hrest⟩
    | _ => cases kind_eq_of_append h
  | string s =>
    intro w r r' _ _ h
    cases w with
    | string t =>
      obtain ⟨rfl, hrest⟩ := Text.literal_append_inj.mp h
      exact ⟨rfl, hrest⟩
    | _ => cases kind_eq_of_append h
  | array items ih =>
    intro w r r' _ _ h
    cases w with
    | array items' =>
      rw [toList_text_array, toList_text_array] at h
      obtain ⟨rfl, hrest⟩ := intercalate_append_inj (by decide) (by decide)
        (fun x u v => text_append_ne rfl x u v) ih (List.cons.inj h).2
      exact ⟨rfl, hrest⟩
    | _ => cases kind_eq_of_append h
  | object fields ih =>
    intro w r r' _ _ h
    cases w with
    | object fields' =>
      rw [toList_text_object, toList_text_object] at h
      obtain ⟨rfl, hrest⟩ := intercalate_append_inj (by decide) (by decide)
        (fun p u v => fieldText_append_ne (by decide) p u v)
        (fun p hp => delimits_fieldText (ih p hp)) (List.cons.inj h).2
      exact ⟨rfl, hrest⟩
    | _ => cases kind_eq_of_append h

/-- Different values have different texts. -/
theorem text_injective : Function.Injective text := by
  intro v w h
  exact (v.delimits_text w stops_nil stops_nil (by rw [h])).1

end Value

end StoryEngine
