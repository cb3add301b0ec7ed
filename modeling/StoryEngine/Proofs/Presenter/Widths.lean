import StoryEngine.Proofs.Presenter.Recovery
import StoryEngine.Proofs.Value.Canonical

/-! # Widths in bytes and in characters

A block of variables shows how its widths were taken: by bytes. It is the block that one gets by
characters just where no value is moved that has room by characters, and where the widest head has
no more bytes than characters, as in blocks that are written in ASCII.
-/

namespace StoryEngine.Presenter

variable {config : Config} {context : Context} {v : Variable}

section Text

variable {column column' : Nat} {place place' : Place} {lines lines' : List String}
  {r r' : List Char}

def paragraph (lines : List String) : List Char := lines.flatMap fun line => '\n' :: line.toList

theorem toList_intercalate_newline (first : String) (lines : List String) :
    ("\n".intercalate (first :: lines)).toList = first.toList ++ paragraph lines := by
  rw [String.toList_intercalate, List.map_cons, intercalate_cons_eq, List.flatMap_map]
  rfl

/-- The lines of one and the same variable tell where its value and its comment stand. -/
theorem Shows.place_eq (h : Shows config column v place lines)
    (h' : Shows config column' v place' lines')
    (he : paragraph lines ++ r = paragraph lines' ++ r') :
    place = place' ∧ column = column' ∧ r = r' := by
  obtain ⟨fill, rfl, rfl⟩ := h
  obtain ⟨fill', rfl, rfl⟩ := h'
  simp only [paragraph, List.flatMap_cons, Place.toList_row, List.cons_append,
    List.append_assoc] at he
  have ht := List.append_cancel_left (List.append_cancel_left (List.cons.inj he).2)
  obtain ⟨rfl, rfl, -, hr⟩ := Place.tail_append_inj (List.cons.inj ht).2
  exact ⟨rfl, rfl, List.append_cancel_left (List.append_cancel_left hr)⟩

theorem paragraph_append (front back : List String) :
    paragraph (front ++ back) = paragraph front ++ paragraph back := List.flatMap_append

theorem layout_unique {vs : List Variable} {groups groups' : List (List String)}
    {places places' : Variable → Place}
    (h : List.Forall₂ (fun v lines => Shows config column v (places v) lines) vs groups)
    (h' : List.Forall₂ (fun v lines => Shows config column' v (places' v) lines) vs groups')
    (he : paragraph groups.flatten = paragraph groups'.flatten) :
    ∀ v ∈ vs, places v = places' v ∧ column = column' := by
  induction h generalizing groups' with
  | nil => exact fun _ h => absurd h List.not_mem_nil
  | cons hs _ ih =>
    cases h' with
    | cons hs' h' =>
      rw [List.flatten_cons, List.flatten_cons, paragraph_append, paragraph_append] at he
      obtain ⟨hp, hc, hr⟩ := hs.place_eq hs' he
      rw [List.forall_mem_cons]
      exact ⟨⟨hp, hc⟩, ih h' hr⟩

end Text

section Measures

variable {measure measure' : String → Nat} {text : String}

theorem LaidOut.unique (h : LaidOut config measure context text)
    (h' : LaidOut config measure' context text) : ∀ v ∈ context.entries,
      Place.fit config v measure = Place.fit config v measure' ∧
        widest config measure context = widest config measure' context := by
  obtain ⟨groups, rfl, hg⟩ := h
  obtain ⟨groups', ht, hg'⟩ := h'
  have hl := congrArg String.toList ht
  rw [toList_intercalate_newline, toList_intercalate_newline] at hl
  intro v hv
  obtain ⟨hp, hc⟩ := layout_unique hg hg' (List.append_cancel_left hl) v hv
  exact ⟨hp, Nat.add_left_cancel hc⟩

theorem LaidOut.congr (h : LaidOut config measure context text)
    (hp : ∀ v ∈ context.entries, Place.fit config v measure = Place.fit config v measure')
    (hw : widest config measure context = widest config measure' context) :
    LaidOut config measure' context text := by
  obtain ⟨groups, ht, hg⟩ := h
  refine ⟨groups, ht, (forall₂_congr_of_mem fun v hv lines _ => ?_).mp hg⟩
  rw [hp v hv, hw]

theorem fit_eq_iff (hm : ∀ s, measure s ≤ measure' s) :
    Place.fit config v measure = Place.fit config v measure' ↔
      (config.indent + measure (Place.beside.head v) ≤ config.maxLineWidth →
        config.indent + measure' (Place.beside.head v) ≤ config.maxLineWidth) := by
  have hle := hm (Place.beside.head v)
  unfold Place.fit
  split <;> split <;> simp <;> omega

end Measures

/-- The block of a context, if it has variables, has its widths taken by `measure`. -/
def MeasuredBy (config : Config) (measure : String → Nat) (context : Context) : Prop :=
  context.entries ≠ [] → LaidOut config measure context (renderContext config context)

/-- How wide the texts of a block are taken to be. -/
structure Measured (config : Config) (context : Context) : Prop where
  bytes : MeasuredBy config String.utf8ByteSize context
  /-- No value is broken into lines, so that its width is that of its text. -/
  unbroken : ∀ v ∈ context.entries, '\n' ∉ v.value.text.toList
  /-- Characters are as good as bytes if no value fits by characters only, and some widest head has
  no more bytes than characters. -/
  characters : MeasuredBy config String.length context ↔
    (∀ v ∈ context.entries,
      config.indent + (Place.beside.head v).length ≤ config.maxLineWidth →
        config.indent + (Place.beside.head v).utf8ByteSize ≤ config.maxLineWidth) ∧
    widest config String.length context = widest config String.utf8ByteSize context

/-- Widths are taken in bytes, and now and then these are the widths in characters. -/
theorem measured_renderContext (config : Config) (context : Context) : Measured config context := by
  constructor
  case bytes => exact laidOut_renderContext config
  case unbroken => exact fun v _ => v.value.newline_not_mem_text
  case characters =>
    simp only [← fit_eq_iff length_le_utf8ByteSize]
    constructor
    · intro h
      by_cases he : context.entries = []
      · simp [he, widest]
      · have hu := (h he).unique (laidOut_renderContext config he)
        obtain ⟨v, hv⟩ := List.exists_mem_of_ne_nil _ he
        exact ⟨fun v hv => (hu v hv).1, (hu v hv).2⟩
    · rintro ⟨hp, hw⟩ he
      exact (laidOut_renderContext config he).congr (fun v hv => (hp v hv).symm) hw.symm

section Ascii

def IsAscii (s : String) : Prop := ∀ c ∈ s.toList, c.toNat < 128

theorem utf8ByteSize_of_isAscii {s : String} (h : IsAscii s) : s.utf8ByteSize = s.length := by
  have hone : ∀ c ∈ s.toList, c.utf8Size = 1 := fun c hc =>
    if_pos (Nat.le_of_lt_succ (h c hc))
  rw [utf8ByteSize_eq_sum, List.map_congr_left hone, List.map_const', List.sum_replicate_nat,
    Nat.mul_one, String.length_toList]

/-- Characters are as good as bytes for names and values in ASCII. -/
theorem measuredBy_length_of_isAscii
    (h : ∀ v ∈ context.entries, ∀ place, IsAscii (Place.head v place)) :
    MeasuredBy config String.length context := by
  intro he
  have hp : ∀ v ∈ context.entries,
      Place.fit config v String.utf8ByteSize = Place.fit config v String.length := by
    intro v hv
    rw [Place.fit, Place.fit, utf8ByteSize_of_isAscii (h v hv .beside)]
  have hw : widest config String.utf8ByteSize context = widest config String.length context := by
    unfold widest
    refine congrArg (List.foldl max 0) (List.map_congr_left fun v hv => ?_)
    rw [hp v hv, utf8ByteSize_of_isAscii (h v hv _)]
  exact (laidOut_renderContext config he).congr hp hw

end Ascii

end StoryEngine.Presenter

namespace StoryEngine.Demo

/-- A variable whose row has ten characters with its indentation, and fourteen bytes. -/
def accented : Context := .ofArguments [("é", .string "ééé")]

/-- The value is moved from a line on which it has room, and its comment is too far to the right. -/
theorem not_measuredBy_accented : ¬ Presenter.MeasuredBy ⟨11, 2⟩ String.length accented := by
  intro h
  have he : accented.entries ≠ [] := List.cons_ne_nil _ _
  have hu := (h he).unique (Presenter.laidOut_renderContext _ he) _ List.mem_cons_self
  exact absurd hu.1 (by decide)

example : Presenter.renderContext ⟨11, 2⟩ accented =
    "\n".intercalate ["Context:", "  é:   # Story argument", "    \"ééé\""] := by rfl

end StoryEngine.Demo
