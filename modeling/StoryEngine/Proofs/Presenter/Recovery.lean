import StoryEngine.Proofs.Presenter.Layout

/-! # Reading a context block back

What stands behind the colon of a row shows whether the value is there, and where the value ends;
behind it come spaces, and the comment is the rest of the line. So a block shows which variables a
context has, in which order, with which values and from where, at every width and indentation, and
no value is spread over several lines.
-/

namespace StoryEngine

def Variable.shown (v : Variable) : String × Value × String := (v.name, v.value, v.provenance.text)

namespace Presenter

open List (replicate)

variable {config : Config} {v w : Variable} {fill fill' : Nat} {r r' : List Char}

theorem replicate_append_inj {c d : Char} (hc : c ≠ ' ') (hd : d ≠ ' ') :
    ∀ {m n : Nat} {r r' : List Char}, replicate m ' ' ++ c :: r = replicate n ' ' ++ d :: r' →
      m = n ∧ c :: r = d :: r'
  | 0, 0, _, _, h => ⟨rfl, h⟩
  | 0, _ + 1, _, _, h => absurd (List.cons.inj h).1 hc
  | _ + 1, 0, _, _, h => absurd (List.cons.inj h).1.symm hd
  | m + 1, n + 1, _, _, h => by
    obtain ⟨rfl, hr⟩ := replicate_append_inj hc hd (List.cons.inj h).2
    exact ⟨rfl, hr⟩

def ending (v : Variable) (fill : Nat) : List Char :=
  replicate (fill + 2) ' ' ++ '#' :: ' ' :: v.provenance.text.toList

theorem ending_append (v : Variable) (fill : Nat) (r : List Char) : ending v fill ++ r =
    replicate (fill + 2) ' ' ++ '#' :: (' ' :: (v.provenance.text.toList ++ r)) :=
  List.append_assoc ..

theorem stops_ending : Stops (ending v fill ++ r) := stops_cons.mpr (by decide)

theorem ending_append_inj (h : ending v fill ++ r = ending w fill' ++ r') :
    fill = fill' ∧ v.provenance.text.toList ++ r = w.provenance.text.toList ++ r' := by
  rw [ending_append, ending_append] at h
  obtain ⟨hf, hr⟩ := replicate_append_inj (by decide) (by decide) h
  exact ⟨Nat.add_right_cancel hf, (List.cons.inj (List.cons.inj hr).2).2⟩

/-- A value starts neither with a space nor with the sign of a comment. -/
theorem value_ne_ending : ' ' :: (v.value.text.toList ++ r) ≠ ending w fill ++ r' := by
  obtain ⟨c, rest, hc, hk⟩ := v.value.lead_text r
  intro h
  have hs : c ≠ ' ' := by
    rintro rfl
    cases hk
  rw [hc, ending_append] at h
  have hn := (replicate_append_inj (m := 1) hs (by decide) h).1
  omega

namespace Place

variable {place place' : Place}

def tail (v : Variable) (fill : Nat) : Place → List Char
  | .beside => ' ' :: (v.value.text.toList ++ ending v fill)
  | .below => ending v fill

theorem toList_row (place : Place) (v : Variable) (fill : Nat) :
    (place.front config v fill ++ "  # " ++ v.provenance.text).toList =
      replicate config.indent ' ' ++ (v.name.toList ++ ':' :: place.tail v fill) := by
  have hs (cs : List Char) :
      replicate fill ' ' ++ ' ' :: ' ' :: cs = replicate (fill + 2) ' ' ++ cs := by
    rw [List.replicate_add, List.append_assoc]
    rfl
  cases place with
  | beside => simp [front, head, tail, ending, hs]
  | below => simp [front, head, tail, ending, hs]

/-- What follows the colon tells the place of the value, how far the row is filled, the value if it
stands there, and what the comment is followed by. -/
theorem tail_append_inj (h : place.tail v fill ++ r = place'.tail w fill' ++ r') :
    place = place' ∧ fill = fill' ∧ (place = .beside → v.value = w.value) ∧
      v.provenance.text.toList ++ r = w.provenance.text.toList ++ r' := by
  cases place <;> cases place' <;>
    simp only [tail, List.cons_append, List.append_assoc] at h
  case beside.beside =>
    obtain ⟨hv, he⟩ := v.value.delimits_text w.value stops_ending stops_ending
      (List.cons.inj h).2
    obtain ⟨hf, hc⟩ := ending_append_inj he
    exact ⟨rfl, hf, fun _ => hv, hc⟩
  case below.below =>
    obtain ⟨hf, hc⟩ := ending_append_inj h
    exact ⟨rfl, hf, nofun, hc⟩
  case beside.below => exact absurd h value_ne_ending
  case below.beside => exact absurd h.symm value_ne_ending

end Place

section Lines

variable {column column' : Nat} {place place' : Place} {lines lines' rest rest' : List String}

theorem Shows.ne_nil (h : Shows config column v place lines) : lines ≠ [] := by
  obtain ⟨fill, -, rfl⟩ := h
  exact List.cons_ne_nil _ _

/-- The lines of a variable tell where they end and what they show, if its name has no colon. -/
theorem Shows.append_inj (h : Shows config column v place lines)
    (h' : Shows config column' w place' lines') (hv : ':' ∉ v.name.toList)
    (hw : ':' ∉ w.name.toList) (he : lines ++ rest = lines' ++ rest') :
    v.shown = w.shown ∧ rest = rest' := by
  obtain ⟨fill, -, rfl⟩ := h
  obtain ⟨fill', -, rfl⟩ := h'
  obtain ⟨hrow, hunder⟩ := List.cons.inj he
  have hl := congrArg String.toList hrow
  rw [Place.toList_row, Place.toList_row] at hl
  obtain ⟨hn, ht⟩ := append_cons_inj_of_not_mem hv hw (List.append_cancel_left hl)
  rw [← List.append_nil (place.tail v fill), ← List.append_nil (place'.tail w fill')] at ht
  obtain ⟨rfl, -, hbeside, hc⟩ := Place.tail_append_inj ht
  rw [List.append_nil, List.append_nil, String.toList_inj] at hc
  rw [String.toList_inj] at hn
  cases place with
  | beside => exact ⟨by rw [Variable.shown, hn, hbeside rfl, hc]; rfl, hunder⟩
  | below =>
    obtain ⟨hvalue, hrest⟩ := List.cons.inj hunder
    have hvl := congrArg String.toList hvalue
    rw [String.toList_append, String.toList_append] at hvl
    have hval := Value.text_injective (String.toList_inj.mp (List.append_cancel_left hvl))
    exact ⟨by rw [Variable.shown, hn, hval, hc]; rfl, hrest⟩

variable {vs ws : List Variable} {groups groups' : List (List String)}

theorem map_shown_of_flatten
    (h : List.Forall₂ (fun v lines => ∃ place, Shows config column v place lines) vs groups)
    (h' : List.Forall₂ (fun v lines => ∃ place, Shows config column' v place lines) ws groups')
    (hv : ∀ v ∈ vs, ':' ∉ v.name.toList) (hw : ∀ w ∈ ws, ':' ∉ w.name.toList)
    (he : groups.flatten = groups'.flatten) :
    vs.map Variable.shown = ws.map Variable.shown := by
  induction h generalizing ws groups' with
  | nil =>
    cases h' with
    | nil => rfl
    | cons hs =>
      obtain ⟨place, hs⟩ := hs
      exact absurd (List.append_eq_nil_iff.mp he.symm).1 hs.ne_nil
  | cons hs _ ih =>
    obtain ⟨place, hs⟩ := hs
    cases h' with
    | nil => exact absurd (List.append_eq_nil_iff.mp he).1 hs.ne_nil
    | cons hs' h' =>
      obtain ⟨place', hs'⟩ := hs'
      rw [List.forall_mem_cons] at hv hw
      obtain ⟨hshown, hrest⟩ := hs.append_inj hs' hv.1 hw.1 he
      rw [List.map_cons, List.map_cons, hshown, ih h' hv.2 hw.2 hrest]

theorem length_flatten {place : Variable → Place}
    (h : List.Forall₂ (fun v lines => Shows config column v (place v) lines) vs groups) :
    groups.flatten.length = vs.length + (vs.filter fun v => place v = .below).length := by
  induction h with
  | nil => rfl
  | @cons v lines vs groups hs _ ih =>
    obtain ⟨fill, -, rfl⟩ := hs
    rw [List.flatten_cons, List.length_append, List.length_cons, ih, List.length_cons,
      List.filter_cons]
    cases hp : place v with
    | beside =>
      simp [Place.under]
      omega
    | below =>
      simp [Place.under]
      omega

theorem Shows.newline_not_mem (h : Shows config column v place lines)
    (hn : '\n' ∉ v.name.toList) (hc : '\n' ∉ v.provenance.text.toList) :
    ∀ line ∈ lines, '\n' ∉ line.toList := by
  obtain ⟨fill, -, rfl⟩ := h
  rw [List.forall_mem_cons]
  refine ⟨?_, place.newline_not_mem_under⟩
  have hf := place.newline_not_mem_front config hn fill
  have hs : '\n' ∉ "  # ".toList := by decide
  simp only [String.toList_append, List.mem_append, not_or]
  exact ⟨⟨hf, hs⟩, hc⟩

theorem newline_not_mem_flatten {place : Variable → Place}
    (h : List.Forall₂ (fun v lines => Shows config column v (place v) lines) vs groups)
    (hv : ∀ v ∈ vs, '\n' ∉ v.name.toList ∧ '\n' ∉ v.provenance.text.toList) :
    ∀ line ∈ groups.flatten, '\n' ∉ line.toList := by
  induction h with
  | nil => exact fun _ h => absurd h List.not_mem_nil
  | cons hs _ ih =>
    rw [List.forall_mem_cons] at hv
    intro line hl
    rcases List.mem_append.mp hl with hl | hl
    · exact hs.newline_not_mem hv.1.1 hv.1.2 line hl
    · exact ih hv.2 line hl

end Lines

/-- The lines of a text, which end at its line feeds. -/
def textLines (text : String) : List String := (text.toList.splitOn '\n').map String.ofList

theorem textLines_intercalate {lines : List String} (hne : lines ≠ [])
    (h : ∀ line ∈ lines, '\n' ∉ line.toList) : textLines ("\n".intercalate lines) = lines := by
  have hs : "\n".toList = ['\n'] := rfl
  rw [textLines, String.toList_intercalate, hs, List.splitOn_intercalate]
  · simp
  · simpa using h
  · simpa using hne

end Presenter

namespace Context

/-- No name of a variable has a colon or a line feed, and no step that set one is named with a line
feed. -/
structure Legible (context : Context) : Prop where
  name : ∀ v ∈ context.entries, ':' ∉ v.name.toList ∧ '\n' ∉ v.name.toList
  origin : ∀ v ∈ context.entries, ∀ identity, v.provenance = .setBy identity →
    '\n' ∉ identity.host.toList ∧ '\n' ∉ identity.step.toList

theorem Legible.comment {context : Context} (h : context.Legible) {v : Variable}
    (hv : v ∈ context.entries) : '\n' ∉ v.provenance.text.toList := by
  have hi := h.origin v hv
  cases hp : v.provenance with
  | argument => decide
  | setBy identity =>
    obtain ⟨hhost, hstep⟩ := hi identity hp
    simp [Provenance.text, StepIdentity.text, hhost, hstep]

end Context

namespace Presenter

variable {config : Config} {context : Context}

def title (context : Context) : String := if context.isEmpty then "Context()" else "Context:"

/-- The block of a context loses nothing. -/
structure Lossless (config : Config) (context : Context) : Prop where
  /-- Another block with this text shows the same. -/
  determined : ∀ other : Context, other.Legible →
    renderContext config other = renderContext config context →
      other.entries.map Variable.shown = context.entries.map Variable.shown
  /-- The title is followed by the lines of the variables, on which their values are unbroken. -/
  lines : ∃ column groups,
    textLines (renderContext config context) = title context :: groups.flatten ∧
      List.Forall₂ (fun v lines => Shows config column v (Place.fit config v String.utf8ByteSize)
        lines) context.entries groups
  count : (textLines (renderContext config context)).length =
    1 + context.entries.length + (context.entries.filter fun v =>
      Place.fit config v String.utf8ByteSize = .below).length

theorem exists_lines (config : Config) (h : context.Legible) : ∃ column groups,
    textLines (renderContext config context) = title context :: groups.flatten ∧
      List.Forall₂ (fun v lines => Shows config column v (Place.fit config v String.utf8ByteSize)
        lines) context.entries groups := by
  by_cases he : context.entries = []
  · refine ⟨0, [], ?_, he ▸ .nil⟩
    have hc : context.isEmpty := List.isEmpty_iff.mpr he
    rw [renderContext, title, if_pos hc, if_pos hc]
    rfl
  · have hc : ¬ context.isEmpty := fun hc => he (List.isEmpty_iff.mp hc)
    obtain ⟨groups, ht, hg⟩ := laidOut_renderContext config he
    refine ⟨_, groups, ?_, hg⟩
    rw [ht, textLines_intercalate (List.cons_ne_nil _ _), title, if_neg hc]
    rw [List.forall_mem_cons]
    exact ⟨by decide, newline_not_mem_flatten hg fun v hv => ⟨(h.name v hv).2, h.comment hv⟩⟩

/-- A block can be read back, whatever its values are and wherever they stand. -/
theorem lossless_of_legible (config : Config) (h : context.Legible) : Lossless config context := by
  obtain ⟨column, groups, hl, hg⟩ := exists_lines config h
  have hplace {column : Nat} {v : Variable} {lines : List String}
      (hs : Shows config column v (Place.fit config v String.utf8ByteSize) lines) :
      ∃ place, Shows config column v place lines := ⟨_, hs⟩
  constructor
  case determined =>
    intro other ho ht
    obtain ⟨column', groups', hl', hg'⟩ := exists_lines config ho
    rw [ht, hl] at hl'
    exact map_shown_of_flatten (hg'.imp fun _ _ => hplace) (hg.imp fun _ _ => hplace)
      (fun v hv => (ho.name v hv).1) (fun v hv => (h.name v hv).1) (List.cons.inj hl').2.symm
  case lines => exact ⟨column, groups, hl, hg⟩
  case count =>
    rw [hl, List.length_cons, length_flatten hg]
    omega

end Presenter

namespace Demo

/-- Variables that look like comments and like other variables. -/
def disguised : Context where
  entries := [
    ⟨" note", .string "1  # Story argument\n", .argument⟩,
    ⟨"größe#", .object [("a: b", .array [.int 1, .null])], .setBy ⟨"Läden", "preis"⟩⟩]

theorem legible_disguised : disguised.Legible where
  name := by decide
  origin := by
    simp only [disguised, List.forall_mem_cons]
    refine ⟨nofun, ?_, nofun⟩
    rintro identity ⟨⟩
    decide

theorem lossless_disguised : disguised.Legible ∧ Presenter.Lossless ⟨28, 0⟩ disguised :=
  ⟨legible_disguised, Presenter.lossless_of_legible _ legible_disguised⟩

example : Presenter.renderContext ⟨28, 0⟩ disguised = "\n".intercalate [
    "Context:",
    " note:                       # Story argument",
    "\"1  # Story argument\\n\"",
    "größe#: \x7b\"a: b\":[1,null]\x7d    # Set by Läden.preis"] := by rfl

end Demo

end StoryEngine
