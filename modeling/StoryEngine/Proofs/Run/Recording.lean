import StoryEngine.Proofs.Event.Reading
import StoryEngine.Proofs.Run.Turns

/-! # Records of runs

A walk and the reader of its record go side by side. Outside of a skip region the reader sees the
stack of active stories; inside of one only what is below the story whose step skipped.
-/

namespace StoryEngine

open Record

namespace Walker

/-- The place in the record at which a walk stands. -/
inductive Stands : Walker → Place → Prop where
  | running {active : List Origin} {context : Context} {last : EventKind} : last.Continues →
      Stands ⟨active, none, context⟩ ⟨some last, active.map Origin.label⟩
  | skipping {active outer : List Origin} {context : Context} {last : EventKind} : last.Skips →
      outer <:+ active → outer.length < active.length →
      Stands ⟨active, some (outer.length + 1), context⟩ ⟨some last, outer.map Origin.label⟩

variable {walker next : Walker} {place : Place} {i : Instruction} {events : List EventKind}

theorem depth_running (active : List Origin) (context : Context) :
    (active.map Origin.label).length = (⟨active, none, context⟩ : Walker).depth :=
  List.length_map _

theorem reads_answered {active : List Origin} {last event : EventKind}
    (name host : String) (hl : last.Continues) (ha : active ≠ [])
    (he : event.Answers name active.length) :
    Reads ⟨some last, active.map Origin.label⟩ [.stepStarted name host active.length, event]
      ⟨some event, event.nest (active.map Origin.label)⟩ := by
  have hd : (active.map Origin.label).length = active.length := List.length_map _
  have hne : active.map Origin.label ≠ [] := fun hn => ha (List.map_eq_nil_iff.mp hn)
  exact .cons (.stepStarted rfl hl hne hd) (.single (.answer rfl hne hd he))

/-- Outside of a skip region a visit that goes on takes the reader along. -/
theorem reads_running {active : List Origin} {context : Context} {last : EventKind}
    (hl : last.Continues) (hf : i.Fits active)
    (hc : Course ⟨active, none, context⟩ i events (.on next)) :
    ∃ q, Reads ⟨some last, active.map Origin.label⟩ events q ∧ next.Stands q := by
  have hd := depth_running active context
  obtain ⟨owner, action, origin⟩ := i
  cases hc with
  | bypassed hs | left hs => cases hs
  | exited _ ha =>
    obtain rfl := ha
    obtain ⟨outer, rfl⟩ := hf
    exact ⟨_, .single (.substoryExited rfl hl rfl nofun (List.length_map _)), .running trivial⟩
  | entered _ ha =>
    obtain rfl := ha
    obtain ⟨outer, rfl⟩ := hf
    exact ⟨_, .single (.substoryEntered rfl hl nofun hd), .running trivial⟩
  | @answered name _ _ _ _ ha hans =>
    obtain rfl := ha
    obtain ⟨outer, rfl⟩ := hf
    cases hans with
    | passes _ hp =>
      cases hp with
      | nothing | success =>
        exact ⟨_, reads_answered _ _ hl nofun ⟨rfl, rfl⟩, .running trivial⟩
      | skip =>
        have hs : Stands ⟨origin :: outer, some (outer.length + 1), context⟩
            ⟨some (.stepSkipped name (outer.length + 1)), outer.map Origin.label⟩ :=
          .skipping trivial (List.suffix_cons _ _) (Nat.lt_succ_self _)
        exact ⟨_, reads_answered _ _ hl nofun ⟨rfl, rfl⟩, hs⟩

/-- In a skip region the reader stays below the story whose step skipped. -/
theorem reads_skipping {active outer : List Origin} {context : Context} {last : EventKind}
    (hl : last.Skips) (ho : outer <:+ active) (hlt : outer.length < active.length)
    (hc : Course ⟨active, some (outer.length + 1), context⟩ i events (.on next)) :
    ∃ q, Reads ⟨some last, outer.map Origin.label⟩ events q ∧ next.Stands q := by
  obtain ⟨owner, action, origin⟩ := i
  cases hc with
  | exited hn | entered hn | answered hn => cases hn
  | bypassed _ hx =>
    refine ⟨_, .single (.bypassed rfl hl ?_), ?_⟩
    · rw [List.length_map]
      exact hlt
    · cases action with
      | step => exact .skipping trivial ho hlt
      | enter => exact .skipping trivial (ho.trans (List.suffix_cons _ _)) (Nat.lt_succ_of_lt hlt)
      | exit => cases hx
  | left hs ha =>
    cases hs
    obtain rfl := ha
    refine ⟨_, .nil _, ?_⟩
    -- an exit takes the stack down towards what the reader sees, and the last one all the way
    have hle : outer.length ≤ active.tail.length := by rw [List.length_tail]; omega
    have ht := List.suffix_of_suffix_length_le ho (List.tail_suffix active) hle
    split
    case isTrue hd =>
      obtain rfl := ht.eq_of_length (List.length_tail.trans (Nat.sub_eq_of_eq_add hd)).symm
      exact .running hl.continues
    case isFalse hd =>
      have hd : active.length ≠ outer.length + 1 := hd
      have hlt : outer.length < active.tail.length := by rw [List.length_tail]; omega
      exact .skipping hl ht hlt

theorem Stands.course (hs : walker.Stands place) (hf : i.Fits walker.active)
    (hc : walker.Course i events (.on next)) : ∃ q, Reads place events q ∧ next.Stands q := by
  cases hs with
  | running hl => exact reads_running hl hf hc
  | skipping hl ho hlt => exact reads_skipping hl ho hlt hc

theorem Stands.course_halt {verdict : Verdict} (hs : walker.Stands place)
    (hf : i.Fits walker.active) (hc : walker.Course i events (.halt verdict)) :
    ∃ q, Reads place events q ∧ q.Allows (.storyFinished verdict.status) := by
  cases hs with
  | skipping =>
    cases hc with
    | refused hn | answered hn => cases hn
  | @running active context last hl =>
    have hd := depth_running active context
    obtain ⟨owner, action, origin⟩ := i
    cases hc with
    | refused _ ha =>
      obtain rfl := ha
      obtain ⟨outer, rfl⟩ := hf
      exact ⟨_, .cons (.substoryEntered rfl hl nofun hd) (.single (.refused rfl)),
        .storyFinished rfl (Or.inr trivial) nofun⟩
    | @answered name _ _ _ _ ha hans =>
      obtain rfl := ha
      obtain ⟨outer, rfl⟩ := hf
      cases hans with
      | failed | returned =>
        exact ⟨_, reads_answered _ _ hl nofun ⟨rfl, rfl⟩, .storyFinished rfl (Or.inr trivial) nofun⟩
      | broken =>
        exact ⟨_, reads_answered name _ hl nofun rfl,
          .storyFinished rfl (Or.inr trivial) nofun⟩

/-- At the end of a trace at most the root is open. -/
theorem Stands.allows_completed {root : Origin} (hs : walker.Stands place)
    (ha : walker.active = [root]) : place.Allows (.storyFinished .completed) := by
  cases hs with
  | @running active _ _ hl =>
    obtain rfl : active = [root] := ha
    exact .storyFinished rfl (Or.inl hl) fun _ => Nat.le_refl 1
  | @skipping active outer _ _ hl _ hlt =>
    obtain rfl : active = [root] := ha
    refine .storyFinished rfl (Or.inl hl.continues) fun _ => ?_
    rw [List.length_map]
    exact Nat.le_of_lt hlt

theorem Stands.walk {root : Origin} {is : List Instruction} (hs : walker.Stands place)
    (hn : Nests walker.active is [root]) : ∃ q, Reads place (walk walker is).events q ∧
      q.Allows (.storyFinished (walk walker is).verdict.status) := by
  induction walker, is using walk_induction generalizing place with
  | nil walker =>
    generalize ha : walker.active = active at hn
    cases hn
    exact ⟨place, .nil place, hs.allows_completed ha⟩
  | on walker i events next rest hv ih =>
    cases hn with
    | cons hf hn =>
      obtain ⟨middle, hr, hs'⟩ := hs.course hf (course_of_visit hv)
      obtain ⟨q, hr', hq⟩ := ih hs' (active_of_visit (congrArg Prod.snd hv) ▸ hn)
      rw [walk_cons_of_on hv]
      exact ⟨q, hr.append hr', hq⟩
  | halt walker i events verdict rest hv =>
    cases hn with
    | cons hf hn =>
      rw [walk_cons_of_halt hv]
      exact hs.course_halt hf (course_of_visit hv)

end Walker

theorem Occasion.map_seq_stamp (occasion : Occasion) (kinds : List EventKind) :
    (occasion.stamp kinds).map Event.seq = List.range (occasion.stamp kinds).length := by
  refine List.ext_getElem (by simp) fun k hk hk' => ?_
  simp [stamp]

theorem Record.Readable.of_reads {root : String} {record : List EventKind} {status : RunStatus}
    {q : Place} (hr : Reads ⟨none, [root]⟩ record q) (hq : q.Allows (.storyFinished status)) :
    Readable root (record ++ [.storyFinished status]) status where
  allows := (hr.append (.single hq)).allows
  last := List.getLast?_concat

/-- The events of a call are numbered from zero, and one follows the other as in any record. -/
structure Execution.Regular (execution : Execution) : Prop where
  numbered : execution.events.map Event.seq = List.range execution.events.length
  grammatical : Record.Grammatical execution.kinds execution.verdict.status

namespace Story

variable (story : Story) (arguments : Arguments)

theorem readable_perform : Readable story.label (story.perform arguments).events
    (story.perform arguments).verdict.status := by
  have hstart : Place.Allows ⟨none, [story.label]⟩
      (.storyStarted story.label story.fingerprint) := .storyStarted rfl
  cases ho : story.root.opening arguments with
  | error error =>
    rw [perform_of_refused ho]
    exact .of_reads (.cons hstart (.single (.rejected rfl)))
      (.storyFinished rfl (Or.inr trivial) nofun)
  | ok context =>
    have hs : (Walker.start story.root context).Stands
        ⟨some (.storyStarted story.label story.fingerprint), [story.label]⟩ := .running trivial
    obtain ⟨q, hr, hq⟩ := hs.walk story.nested_trace
    rw [perform_of_opening ho]
    exact .of_reads (.cons hstart hr) hq

/-- Every call leaves a regular record. -/
theorem regular_execute (occasion : Occasion) : (story.execute occasion arguments).Regular where
  numbered := occasion.map_seq_stamp _
  grammatical := by
    rw [kinds_execute]
    exact (story.readable_perform arguments).grammatical

end Story

end StoryEngine
