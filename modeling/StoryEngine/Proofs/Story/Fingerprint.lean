import StoryEngine.Proofs.Demo.Shop
import StoryEngine.Proofs.Value.Canonical

/-! # What a fingerprint tells

A label joins the name of a host and the name of a step or of a story with a point, and marks an
entry or an exit in front. If the names of the hosts have neither points nor colons, a label can be
read back, whatever the other names are, and so can the text under a fingerprint.
-/

namespace StoryEngine

def PlainName (host : String) : Prop := '.' ∉ host.toList ∧ ':' ∉ host.toList

instance (host : String) : Decidable (PlainName host) :=
  inferInstanceAs (Decidable (_ ∧ _))

inductive Mark where
  | step
  | enter
  | exit
  deriving DecidableEq

def Mark.text : Mark → String
  | .step => ""
  | .enter => "enter:"
  | .exit => "exit:"

/-- What the label of an instruction names. -/
structure Sign where
  mark : Mark
  host : String
  name : String
  deriving DecidableEq

def Sign.label (sign : Sign) : String := sign.mark.text ++ sign.host ++ "." ++ sign.name

def Origin.sign (story : Origin) (mark : Mark) : Sign := ⟨mark, story.host, story.declaration.name⟩

def Instruction.sign (i : Instruction) : Sign :=
  match i.action with
  | .step name _ => ⟨.step, i.owner.host, name⟩
  | .enter story _ _ => story.sign .enter
  | .exit story => story.sign .exit

theorem Origin.label_eq (story : Origin) : story.label = (story.sign .step).label := by
  simp [label, sign, Sign.label, Mark.text]

theorem Instruction.label_eq (i : Instruction) : i.label = i.sign.label := by
  obtain ⟨owner, action, origin⟩ := i
  cases action with
  | step name run => simp [label, sign, Sign.label, Mark.text]
  | enter story title injected =>
    simp [label, sign, Sign.label, Mark.text, Origin.sign, Origin.label, String.append_assoc]
  | exit story =>
    simp [label, sign, Sign.label, Mark.text, Origin.sign, Origin.label, String.append_assoc]

theorem Mark.not_mem_text (mark : Mark) : '.' ∉ mark.text.toList := by
  cases mark <;> decide

theorem Mark.append_inj {m m' : Mark} {h h' : List Char} (hh : ':' ∉ h) (hh' : ':' ∉ h')
    (he : m.text.toList ++ h = m'.text.toList ++ h') : m = m' ∧ h = h' := by
  cases m <;> cases m'
  case step.step | enter.enter | exit.exit => exact ⟨rfl, List.append_cancel_left he⟩
  case step.enter | step.exit =>
    refine absurd ?_ hh
    rw [← h.nil_append]
    exact he ▸ List.mem_append_left _ (by decide)
  case enter.step | exit.step =>
    refine absurd ?_ hh'
    rw [← h'.nil_append]
    exact he ▸ List.mem_append_left _ (by decide)
  case enter.exit | exit.enter => simp [text] at he

namespace Sign

variable {s t : Sign}

theorem toList_label (s : Sign) :
    s.label.toList = (s.mark.text.toList ++ s.host.toList) ++ '.' :: s.name.toList := by
  simp [label]

theorem label_inj (hs : PlainName s.host) (ht : PlainName t.host) :
    s.label = t.label ↔ s = t := by
  refine ⟨fun h => ?_, congrArg label⟩
  have hp (s : Sign) (hs : PlainName s.host) : '.' ∉ s.mark.text.toList ++ s.host.toList := by
    rw [List.mem_append]
    exact not_or.mpr ⟨s.mark.not_mem_text, hs.1⟩
  have hl := congrArg String.toList h
  rw [toList_label, toList_label] at hl
  obtain ⟨hfront, hname⟩ := append_cons_inj_of_not_mem (hp s hs) (hp t ht) hl
  obtain ⟨hmark, hhost⟩ := Mark.append_inj hs.2 ht.2 hfront
  rw [String.toList_inj] at hhost hname
  cases s
  cases t
  subst hmark hhost hname
  rfl

end Sign

namespace Trace

def signs (trace : Trace) : List Sign := trace.instructions.map Instruction.sign

def hosts (trace : Trace) : List String := trace.root.host :: trace.signs.map Sign.host

variable {t u : Trace}

theorem labels_eq_map (trace : Trace) : trace.labels = trace.signs.map Sign.label := by
  rw [labels, signs, List.map_map]
  exact List.map_congr_left fun i _ => i.label_eq

theorem labels_inj (ht : ∀ h ∈ t.hosts, PlainName h) (hu : ∀ h ∈ u.hosts, PlainName h) :
    t.labels = u.labels ↔ t.signs = u.signs := by
  have hp {trace : Trace} (hh : ∀ h ∈ trace.hosts, PlainName h) :
      ∀ s ∈ trace.signs, PlainName s.host :=
    fun s hs => hh _ (List.mem_cons_of_mem _ (List.mem_map_of_mem hs))
  rw [labels_eq_map, labels_eq_map, map_eq_map_iff_forall₂,
    forall₂_congr_of_mem fun s hs s' hs' => Sign.label_inj (hp ht s hs) (hp hu s' hs'),
    List.forall₂_eq_eq_eq]

theorem root_label_inj (ht : ∀ h ∈ t.hosts, PlainName h) (hu : ∀ h ∈ u.hosts, PlainName h) :
    t.root.label = u.root.label ↔ t.root.host = u.root.host ∧
      t.root.declaration.name = u.root.declaration.name := by
  have hp := Sign.label_inj (s := t.root.sign .step) (t := u.root.sign .step)
    (ht _ List.mem_cons_self) (hu _ List.mem_cons_self)
  rw [Origin.label_eq, Origin.label_eq, hp]
  simp [Origin.sign]

theorem equivalent_shape_iff : t.shape.Equivalent u.shape ↔ t.root.label = u.root.label ∧
    t.root.declaration.arguments = u.root.declaration.arguments ∧ t.labels = u.labels := by
  constructor
  · intro h
    rw [shape, shape, Value.equivalent_object_iff] at h
    have hl : t.root.label = u.root.label := by
      simpa [Value.field?_nil, Value.field?_cons, Value.equivalent_string_iff] using h "story"
    have ha : t.root.declaration.arguments = u.root.declaration.arguments := by
      simpa [Value.field?_nil, Value.field?_cons, Value.equivalent_strings_iff] using h "arguments"
    have hs : t.labels = u.labels := by
      simpa [Value.field?_nil, Value.field?_cons, Value.equivalent_strings_iff]
        using h "instructions"
    exact ⟨hl, ha, hs⟩
  · rintro ⟨hl, ha, hs⟩
    rw [← Value.normalize_eq_iff, shape, shape, hl, ha, hs]

/-- For names of hosts without points and colons the text under a fingerprint tells the root story,
its parameters and what each instruction does to which step or story. -/
theorem canonical_shape_eq_iff (ht : ∀ h ∈ t.hosts, PlainName h)
    (hu : ∀ h ∈ u.hosts, PlainName h) :
    t.shape.canonical = u.shape.canonical ↔
      (t.root.host = u.root.host ∧ t.root.declaration.name = u.root.declaration.name) ∧
        t.root.declaration.arguments = u.root.declaration.arguments ∧ t.signs = u.signs := by
  rw [Value.canonical, Value.canonical, Value.text_injective.eq_iff, Value.normalize_eq_iff,
    equivalent_shape_iff, root_label_inj ht hu, labels_inj ht hu]

end Trace

/-- Shops with other prices and other stocks have one text, the inventory has another one. -/
theorem Demo.canonical_shape_of_shops :
    (∀ h ∈ (purchased 5 (reserved 20)).trace.hosts, PlainName h) ∧
      (∀ h ∈ (purchased 7 (reserved 1)).trace.hosts, PlainName h) ∧
      (∀ h ∈ (reserved 20).trace.hosts, PlainName h) ∧
      (purchased 5 (reserved 20)).trace.shape.canonical =
        (purchased 7 (reserved 1)).trace.shape.canonical ∧
      (purchased 5 (reserved 20)).trace.shape.canonical ≠ (reserved 20).trace.shape.canonical := by
  have hp : ∀ h ∈ (purchased 5 (reserved 20)).trace.hosts, PlainName h := by decide
  have hq : ∀ h ∈ (purchased 7 (reserved 1)).trace.hosts, PlainName h := by decide
  have hr : ∀ h ∈ (reserved 20).trace.hosts, PlainName h := by decide
  refine ⟨hp, hq, hr, ?_, fun h => ?_⟩
  · exact (Trace.canonical_shape_eq_iff hp hq).mpr (by decide)
  · obtain ⟨⟨-, hn⟩, -⟩ := (Trace.canonical_shape_eq_iff hp hr).mp h
    exact absurd hn (by decide)

end StoryEngine
