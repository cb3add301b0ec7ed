import StoryEngine.Proofs.Value.Text

/-! # Values on one line

A literal writes every control character as an escape, and no other part of a value's text has
one. So the text of a value, however it is nested, is one line.
-/

namespace StoryEngine

namespace Text

/-- Not one of the control characters, to which the line feed belongs. -/
def isVisible (c : Char) : Bool := 32 ≤ c.toNat

theorem all_hexDigits {n : Nat} (h : n < 16) : (hexDigits n).all isVisible := by
  rw [hexDigits, Nat.toDigits_of_lt_base h]
  revert n
  decide

theorem all_literalChar (c : Char) : (literalChar c).all isVisible := by
  unfold literalChar
  split
  case h_1 | h_2 | h_3 | h_4 | h_5 | h_6 | h_7 => decide
  case h_8 =>
    split
    case isTrue hc =>
      have hhigh := all_hexDigits (show c.toNat / 16 < 16 by omega)
      have hlow := all_hexDigits (show c.toNat % 16 < 16 by omega)
      simp only [List.all_cons, List.all_append, hhigh, hlow]
      decide
    case isFalse hc => simpa [isVisible] using hc

theorem all_literal (s : String) : (literal s).toList.all isVisible := by
  have hs : (s.toList.flatMap literalChar).all isVisible := by
    rw [List.all_flatMap, List.all_eq_true]
    exact fun c _ => all_literalChar c
  rw [toList_literal, List.all_cons, List.all_append, hs]
  decide

end Text

open Text (isVisible)

theorem isVisible_of_isNumeric {c : Char} (h : Double.isNumeric c) : isVisible c := by
  rw [Double.isNumeric, Bool.or_eq_true] at h
  rcases h with h | h
  · have hz : 32 ≤ '0'.toNat := by decide
    exact decide_eq_true (hz.trans (Char.isDigit_iff_toNat.mp h).1)
  · simp only [List.contains_iff_mem, List.mem_cons, List.not_mem_nil, or_false] at h
    rcases h with rfl | rfl | rfl | rfl
    all_goals decide

theorem all_intercalate {α : Type} {print : α → String} {xs : List α}
    (h : ∀ x ∈ xs, (print x).toList.all isVisible) :
    (",".intercalate (xs.map print)).toList.all isVisible := by
  cases xs with
  | nil => rfl
  | cons x xs =>
    rw [List.forall_mem_cons] at h
    rw [toList_intercalate_cons, trailing, List.all_append, h.1, Bool.true_and, List.all_flatMap,
      List.all_eq_true]
    intro y hy
    rw [List.all_cons, h.2 y hy]
    decide

namespace Value

/-- However it is nested, the text of a value has no control characters. -/
theorem all_text (v : Value) : v.text.toList.all isVisible := by
  induction v using memberInduction with
  | null => decide
  | bool b => cases b <;> decide
  | number n =>
    exact List.all_eq_true.mpr fun c hc => isVisible_of_isNumeric (n.isNumeric_text c hc)
  | string s => exact Text.all_literal s
  | array items ih =>
    rw [← List.append_nil (text _).toList, toList_text_array, List.all_cons, List.all_append,
      all_intercalate ih]
    decide
  | object fields ih =>
    have hf : ∀ p ∈ fields, (fieldText p).toList.all isVisible := by
      intro p hp
      rw [← List.append_nil (fieldText p).toList, toList_fieldText, List.all_append,
        Text.all_literal, List.all_cons, List.append_nil, ih p hp]
      decide
    rw [← List.append_nil (text _).toList, toList_text_object, List.all_cons, List.all_append,
      all_intercalate hf]
    decide

theorem newline_not_mem_text (v : Value) : '\n' ∉ v.text.toList := fun h =>
  absurd (List.all_eq_true.mp v.all_text _ h) (by decide)

end Value

end StoryEngine
