import Mathlib.Algebra.BigOperators.Group.List.Basic
import Mathlib.Data.List.Fold
import Mathlib.Data.List.MinMax
import StoryEngine.Presenter.Render
import StoryEngine.Proofs.Value.Line

/-! # Layout of a context block

Every variable has a row, which starts with its head and ends with the comment on its origin, and a
value that has no room in it stands on a line below. The width of the heads is taken in bytes, but
they are filled up in characters; no text has more characters than bytes, so that every head is
shown in full and all comments start at one column.
-/

namespace StoryEngine.Presenter

/-- Where the value of a variable is shown: beside its name, or below it on a line of its own. -/
inductive Place where
  | beside
  | below
  deriving DecidableEq

namespace Place

def head (v : Variable) : Place → String
  | .beside => v.name ++ ": " ++ v.value.text
  | .below => v.name ++ ":"

variable (config : Config) (v : Variable)

def fit (measure : String → Nat) : Place :=
  if config.indent + measure (head v .beside) ≤ config.maxLineWidth then .beside else .below

/-- The row up to its comment: the head in full, and nothing but spaces around it. -/
def front (place : Place) (fill : Nat) : String :=
  spaces config.indent ++ place.head v ++ spaces fill

def under : Place → List String
  | .beside => []
  | .below => [spaces (2 * config.indent) ++ v.value.text]

end Place

/-- The lines of a variable: a row with its comment at a column, and a moved value below. -/
def Shows (config : Config) (column : Nat) (v : Variable) (place : Place)
    (lines : List String) : Prop :=
  ∃ fill, (place.front config v fill).length = column ∧
    lines = (place.front config v fill ++ "  # " ++ v.provenance.text) :: place.under config v

def widest (config : Config) (measure : String → Nat) (context : Context) : Nat :=
  (context.entries.map fun v => measure ((Place.fit config v measure).head v)).foldl max 0

/-- The text is a block in which widths are taken by `measure`: below the title the lines of each
variable, with its value where it fits, and all comments next to the widest head. -/
def LaidOut (config : Config) (measure : String → Nat) (context : Context) (text : String) :
    Prop :=
  ∃ groups, text = "\n".intercalate ("Context:" :: groups.flatten) ∧
    List.Forall₂ (fun v lines => Shows config (config.indent + widest config measure context) v
      (Place.fit config v measure) lines) context.entries groups

section Bytes

theorem utf8ByteSize_eq_sum (s : String) : s.utf8ByteSize = (s.toList.map Char.utf8Size).sum := by
  obtain ⟨cs, rfl⟩ := s.exists_eq_ofList
  rw [String.toList_ofList]
  induction cs with
  | nil => rfl
  | cons c cs ih =>
    rw [← List.singleton_append, String.ofList_append, String.utf8ByteSize_append, ih,
      ← String.singleton_eq_ofList, String.utf8ByteSize_singleton]
    simp

theorem length_le_utf8ByteSize (s : String) : s.length ≤ s.utf8ByteSize := by
  rw [utf8ByteSize_eq_sum, ← String.length_toList, ← List.length_map Char.utf8Size]
  refine List.length_le_sum_of_one_le _ fun n hn => ?_
  obtain ⟨c, -, rfl⟩ := List.mem_map.mp hn
  exact c.utf8Size_pos

@[simp] theorem toList_spaces (n : Nat) : (spaces n).toList = List.replicate n ' ' :=
  String.toList_ofList

@[simp] theorem length_spaces (n : Nat) : (spaces n).length = n := by
  rw [← String.length_toList, toList_spaces, List.length_replicate]

@[simp] theorem utf8ByteSize_spaces (n : Nat) : (spaces n).utf8ByteSize = n := by
  rw [utf8ByteSize_eq_sum, toList_spaces, List.map_replicate, List.sum_replicate_nat]
  exact Nat.mul_one n

end Bytes

variable {config : Config} {context : Context} {v : Variable}

theorem utf8ByteSize_pad (depth : Nat) : (pad config depth).utf8ByteSize = depth * config.indent :=
  utf8ByteSize_spaces _

theorem row_eq (v : Variable) :
    row config v = match Place.fit config v String.utf8ByteSize with
      | .beside => ⟨Place.beside.head v, none, v.provenance.text⟩
      | .below => ⟨Place.below.head v, some v.value.text, v.provenance.text⟩ := by
  unfold row Place.fit
  rw [utf8ByteSize_pad, Nat.one_mul]
  by_cases h : config.indent + (Place.beside.head v).utf8ByteSize ≤ config.maxLineWidth
  · rw [if_pos h]
    exact if_neg (Nat.not_lt.mpr h)
  · rw [if_neg h]
    exact if_pos (Nat.not_le.mp h)

theorem head_row (v : Variable) :
    (row config v).head = (Place.fit config v String.utf8ByteSize).head v := by
  rw [row_eq]
  cases Place.fit config v String.utf8ByteSize <;> rfl

theorem headWidth_rows (context : Context) :
    headWidth (context.entries.map (row config)) =
      widest config String.utf8ByteSize context := by
  simp only [headWidth, widest, List.map_map, Function.comp_def, head_row]

/-- A head that takes no more bytes than the width is filled up to the width in characters. -/
theorem shows_lines {width : Nat} (h : (row config v).head.utf8ByteSize ≤ width) :
    Shows config (config.indent + width) v (Place.fit config v String.utf8ByteSize)
      ((row config v).lines config width) := by
  have hl := (length_le_utf8ByteSize _).trans h
  refine ⟨width - (row config v).head.length, ?_, ?_⟩
  · simp only [Place.front, ← head_row, String.length_append, length_spaces]
    omega
  · unfold Row.lines Place.front
    rw [row_eq]
    cases Place.fit config v String.utf8ByteSize
    · simp [pad, Place.under, String.append_assoc]
    · simp [pad, Place.under, String.append_assoc]

theorem le_headWidth {rows : List Row} {row : Row} (h : row ∈ rows) :
    row.head.utf8ByteSize ≤ headWidth rows := by
  rw [headWidth, List.foldl_eq_foldr]
  exact List.le_max_of_le' 0 (List.mem_map_of_mem h) le_rfl

namespace Place

theorem newline_not_mem_front (config : Config) (hn : '\n' ∉ v.name.toList) (place : Place)
    (fill : Nat) : '\n' ∉ (place.front config v fill).toList := by
  have hv := v.value.newline_not_mem_text
  cases place with
  | beside => simp [front, head, hn, hv, List.mem_replicate]
  | below => simp [front, head, hn, List.mem_replicate]

theorem newline_not_mem_under (place : Place) :
    ∀ line ∈ place.under config v, '\n' ∉ line.toList := by
  have hv := v.value.newline_not_mem_text
  cases place with
  | beside => exact fun _ h => absurd h List.not_mem_nil
  | below => simp [under, hv, List.mem_replicate]

end Place

theorem laidOut_renderContext (config : Config) (h : context.entries ≠ []) :
    LaidOut config String.utf8ByteSize context (renderContext config context) := by
  refine ⟨context.entries.map fun v => (row config v).lines config
    (headWidth (context.entries.map (row config))), ?_, ?_⟩
  · unfold renderContext
    rw [if_neg (by simpa [Context.isEmpty] using h)]
    dsimp only
    rw [List.flatMap_map, List.flatMap_def]
  · rw [List.forall₂_map_right_iff, List.forall₂_same, ← headWidth_rows]
    exact fun v hv => shows_lines (le_headWidth (List.mem_map_of_mem hv))

/-- The rows of a block, one for each variable in order, have their comments at one column. -/
structure Aligned (config : Config) (context : Context) : Prop where
  rows : ∃ column groups,
    renderContext config context = "\n".intercalate ("Context:" :: groups.flatten) ∧
      List.Forall₂ (fun v lines => ∃ place, Shows config column v place lines)
        context.entries groups
  /-- What stands in front of a comment is of one line, so that the column is counted on it. -/
  unbroken : ∀ v ∈ context.entries, ∀ place fill,
    '\n' ∉ (Place.front config v place fill).toList

/-- The comments are aligned, whatever the alphabet of the names and the values is. -/
theorem aligned_renderContext (config : Config) (hne : context.entries ≠ [])
    (hn : ∀ v ∈ context.entries, '\n' ∉ v.name.toList) : Aligned config context := by
  obtain ⟨groups, ht, hg⟩ := laidOut_renderContext config hne
  constructor
  case rows => exact ⟨_, groups, ht, hg.imp fun v lines hs => ⟨_, hs⟩⟩
  case unbroken => exact fun v hv => Place.newline_not_mem_front config (hn v hv)

end StoryEngine.Presenter

namespace StoryEngine.Demo

/-- Names and values whose characters are of one, two and three bytes. -/
def multilingual : Context where
  entries := [
    ⟨"größe", .int 3, .argument⟩,
    ⟨"日本", .string "ééé", .setBy ⟨"Läden\n", "preis"⟩⟩]

theorem aligned_multilingual : multilingual.entries ≠ [] ∧
    (∀ v ∈ multilingual.entries, '\n' ∉ v.name.toList) ∧
      Presenter.Aligned ⟨12, 1⟩ multilingual :=
  have hne := List.cons_ne_nil _ _
  ⟨hne, by decide, Presenter.aligned_renderContext _ hne (by decide)⟩

example : Presenter.renderContext ⟨12, 1⟩ multilingual = "\n".intercalate [
    "Context:",
    " größe: 3    # Story argument",
    " 日本:         # Set by Läden\n.preis",
    "  \"ééé\""] := by rfl

end StoryEngine.Demo
