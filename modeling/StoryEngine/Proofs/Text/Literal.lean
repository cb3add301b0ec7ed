import StoryEngine.Text.Literal

/-! # Where a literal ends

The written forms of characters inside a literal are a prefix code, and none of its words starts
with a quote. So a literal shows by itself where it ends and which text it stands for.
-/

namespace StoryEngine.Text

def hexValue (c : Char) : Nat :=
  if c.isDigit then c.toNat - '0'.toNat else c.toNat - 'a'.toNat + 10

/-- The first character that the inside of a literal stands for, with what is left after it. -/
def unescape? : List Char → Option (Char × List Char)
  | [] => none
  | '"' :: _ => none
  | '\\' :: '"' :: rest => some ('"', rest)
  | '\\' :: '\\' :: rest => some ('\\', rest)
  | '\\' :: 'b' :: rest => some ('\x08', rest)
  | '\\' :: 't' :: rest => some ('\t', rest)
  | '\\' :: 'n' :: rest => some ('\n', rest)
  | '\\' :: 'f' :: rest => some ('\x0c', rest)
  | '\\' :: 'r' :: rest => some ('\r', rest)
  | '\\' :: 'u' :: '0' :: '0' :: a :: b :: rest =>
    some (.ofNat (16 * hexValue a + hexValue b), rest)
  | c :: rest => some (c, rest)

theorem unescape?_of_ne {c : Char} (hq : c ≠ '"') (hb : c ≠ '\\') (rest : List Char) :
    unescape? (c :: rest) = some (c, rest) := by
  unfold unescape?
  split <;> simp_all

theorem hexDigits_eq {n : Nat} (h : n < 16) :
    ∃ c, hexDigits n = [c] ∧ hexValue c = n := by
  refine ⟨n.digitChar, Nat.toDigits_of_lt_base h, ?_⟩
  revert n
  decide

theorem unescape?_control {n : Nat} (h : n < 32) (rest : List Char) :
    unescape? ('\\' :: 'u' :: '0' :: '0' :: (hexDigits (n / 16) ++ hexDigits (n % 16)) ++ rest) =
      some (.ofNat n, rest) := by
  obtain ⟨a, ha, hva⟩ := hexDigits_eq (show n / 16 < 16 by omega)
  obtain ⟨b, hb, hvb⟩ := hexDigits_eq (show n % 16 < 16 by omega)
  have hn : 16 * (n / 16) + n % 16 = n := Nat.div_add_mod n 16
  rw [ha, hb]
  simp only [List.cons_append, List.nil_append, unescape?, hva, hvb, hn]

theorem unescape?_literalChar (c : Char) (rest : List Char) :
    unescape? (literalChar c ++ rest) = some (c, rest) := by
  unfold literalChar
  split
  case h_1 | h_2 | h_3 | h_4 | h_5 | h_6 | h_7 => rfl
  case h_8 hq hb _ _ _ _ _ =>
    split
    case isTrue h =>
      rw [unescape?_control h, Char.ofNat_toNat]
    case isFalse => exact unescape?_of_ne (fun h => hq h) (fun h => hb h) rest

theorem literalChar_append_ne_quote (c : Char) (u r : List Char) :
    literalChar c ++ u ≠ '"' :: r := by
  intro h
  have hu := congrArg unescape? h
  rw [unescape?_literalChar] at hu
  cases hu

theorem literalChar_append_inj {c d : Char} {u v : List Char} :
    literalChar c ++ u = literalChar d ++ v ↔ c = d ∧ u = v := by
  constructor
  · intro h
    have hu := congrArg unescape? h
    rw [unescape?_literalChar, unescape?_literalChar] at hu
    exact Prod.mk.inj (Option.some.inj hu)
  · rintro ⟨rfl, rfl⟩
    rfl

theorem flatMap_literalChar_append_inj : ∀ {cs ds r r' : List Char},
    cs.flatMap literalChar ++ '"' :: r = ds.flatMap literalChar ++ '"' :: r' ↔ cs = ds ∧ r = r'
  | [], [], r, r' => by simp
  | [], d :: ds, r, r' => by
    rw [List.flatMap_cons, List.append_assoc]
    exact iff_of_false (literalChar_append_ne_quote d _ _).symm (fun h => nomatch h.1)
  | c :: cs, [], r, r' => by
    rw [List.flatMap_cons, List.append_assoc]
    exact iff_of_false (literalChar_append_ne_quote c _ _) (fun h => nomatch h.1)
  | c :: cs, d :: ds, r, r' => by
    rw [List.flatMap_cons, List.flatMap_cons, List.append_assoc, List.append_assoc,
      literalChar_append_inj, flatMap_literalChar_append_inj, List.cons.injEq, and_assoc]

theorem toList_literal (s : String) :
    (literal s).toList = '"' :: (s.toList.flatMap literalChar ++ ['"']) := String.toList_ofList

/-- A literal and what follows it can be told apart. -/
theorem literal_append_inj {s t : String} {r r' : List Char} :
    (literal s).toList ++ r = (literal t).toList ++ r' ↔ s = t ∧ r = r' := by
  have happ (cs r : List Char) : ('"' :: (cs ++ ['"'])) ++ r = '"' :: (cs ++ '"' :: r) := by simp
  rw [toList_literal, toList_literal, happ, happ, List.cons_inj_right,
    flatMap_literalChar_append_inj, String.toList_inj]

end StoryEngine.Text
