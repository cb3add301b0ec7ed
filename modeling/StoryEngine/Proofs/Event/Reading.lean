import Mathlib.Data.Nat.Find
import StoryEngine.Proofs.Event.Grammar

/-! # Reading a record

The grammar of a whole record follows from what is allowed at each of its places. The reader starts
inside the root story, and the stories that are open at a place give its depth.
-/

namespace StoryEngine

namespace Record

variable {record : List EventKind} {status : RunStatus}

section At

variable {root : String} {k : Nat} {event : EventKind}

def placeAt (root : String) (record : List EventKind) (k : Nat) : Place :=
  (record.take k).foldl Place.after ⟨none, [root]⟩

theorem foldl_take_succ {α : Type} (f : α → EventKind → α) (a : α)
    (he : record[k]? = some event) :
    (record.take (k + 1)).foldl f a = f ((record.take k).foldl f a) event := by
  rw [List.take_add_one, he, List.foldl_append]
  rfl

theorem placeAt_succ (root : String) (he : record[k]? = some event) :
    placeAt root record (k + 1) = (placeAt root record k).after event :=
  foldl_take_succ _ _ he

theorem depthAt_succ (he : record[k]? = some event) :
    depthAt record (k + 1) = event.depthAfter (depthAt record k) :=
  foldl_take_succ _ _ he

theorem length_stories (root : String) (record : List EventKind) (k : Nat) :
    (placeAt root record k).stories.length = depthAt record k := by
  induction k with
  | zero => rfl
  | succ k ih =>
    cases he : record[k]? with
    | none =>
      have ht : record.take (k + 1) = record.take k := by
        rw [List.take_add_one, he, Option.toList_none, List.append_nil]
      rw [placeAt, depthAt, ht]
      exact ih
    | some event =>
      rw [placeAt_succ root he, depthAt_succ he, Place.after, EventKind.length_nest, ih]

theorem getElem?_of_last {last : EventKind} (he : record[k]? = some event)
    (hl : (placeAt root record k).last = some last) : ∃ j, k = j + 1 ∧ record[j]? = some last := by
  cases k with
  | zero => cases hl
  | succ j =>
    obtain ⟨hj, -⟩ := List.getElem?_eq_some_iff.mp he
    have hj' := List.getElem?_eq_getElem (Nat.lt_of_succ_lt hj)
    rw [placeAt_succ root hj'] at hl
    exact ⟨j, rfl, hj'.trans hl⟩

end At

/-- A reader gets through the record, which ends with the status. -/
structure Readable (root : String) (record : List EventKind) (status : RunStatus) : Prop where
  allows : ∀ {k : Nat} {event : EventKind}, record[k]? = some event →
    (placeAt root record k).Allows event
  last : record.getLast? = some (.storyFinished status)

theorem exists_first {p : Nat → Prop} {k n : Nat} (hkn : k < n) (hn : p n) :
    ∃ m, k < m ∧ m ≤ n ∧ p m ∧ ∀ j, k < j → j < m → ¬ p j := by
  classical
  have hex : ∃ m, k < m ∧ p m := ⟨n, hkn, hn⟩
  obtain ⟨hk, hp⟩ := Nat.find_spec hex
  exact ⟨Nat.find hex, hk, Nat.find_min' hex ⟨hkn, hn⟩, hp,
    fun j hj hj' hpj => Nat.find_min hex hj' ⟨hj, hpj⟩⟩

namespace Readable

variable {root : String} (h : Readable root record status)

include h

variable {k : Nat} {event : EventKind}

theorem allows_next (he : record[k]? = some event) {next : EventKind}
    (hn : record[k + 1]? = some next) : ((placeAt root record k).after event).Allows next :=
  placeAt_succ root he ▸ h.allows hn

theorem length_pos : 0 < record.length := by
  refine List.length_pos_iff.mpr fun hn => ?_
  have hl := h.last
  rw [hn] at hl
  cases hl

theorem getElem?_last : record[record.length - 1]? = some (.storyFinished status) := by
  rw [← List.getLast?_eq_getElem?]
  exact h.last

theorem exists_next (he : record[k]? = some event) (hf : ∀ s, event ≠ .storyFinished s) :
    ∃ next, record[k + 1]? = some next := by
  obtain ⟨hk, -⟩ := List.getElem?_eq_some_iff.mp he
  refine ⟨_, List.getElem?_eq_getElem (Nat.lt_of_le_of_ne hk fun hl => ?_)⟩
  have hk' : k = record.length - 1 := by omega
  rw [hk', h.getElem?_last] at he
  exact hf status (Option.some.inj he).symm

theorem finished_iff (s : RunStatus) :
    record[k]? = some (.storyFinished s) ↔ k + 1 = record.length ∧ s = status := by
  have hp := h.length_pos
  constructor
  · intro he
    obtain ⟨hk, -⟩ := List.getElem?_eq_some_iff.mp he
    have hl : k + 1 = record.length := by
      refine Nat.le_antisymm hk (Nat.not_lt.mp fun hlt => ?_)
      exact Place.not_allows_of_finished rfl
        (h.allows_next he (List.getElem?_eq_getElem hlt))
    have hk' : k = record.length - 1 := by omega
    rw [hk', h.getElem?_last] at he
    exact ⟨hl, (EventKind.storyFinished.inj (Option.some.inj he)).symm⟩
  · rintro ⟨hl, rfl⟩
    have hk' : k = record.length - 1 := by omega
    rw [hk', h.getElem?_last]

theorem ends (he : record[k]? = some event) (hend : event.Ends) :
    record[k + 1]? = some (.storyFinished status) := by
  obtain ⟨next, hn⟩ := h.exists_next he (by rintro s rfl; exact hend)
  obtain ⟨s, rfl⟩ := (h.allows_next he hn).eq_finished_of_ends rfl hend
  rw [hn, ((h.finished_iff s).mp hn).2]

theorem answered {step host : String} {depth : Nat}
    (he : record[k]? = some (.stepStarted step host depth)) :
    ∃ event, record[k + 1]? = some event ∧ event.Answers step depth := by
  obtain ⟨next, hn⟩ := h.exists_next he nofun
  exact ⟨next, hn, (h.allows_next he hn).answers_of_started rfl⟩

theorem opened : (∃ story fingerprint, record[0]? = some (.storyStarted story fingerprint)) ∧
    ∀ k story fingerprint, record[k]? = some (.storyStarted story fingerprint) → k = 0 := by
  constructor
  · obtain ⟨first, h0⟩ : ∃ first, record[0]? = some first :=
      ⟨_, List.getElem?_eq_getElem h.length_pos⟩
    cases h.allows h0 with
    | storyStarted => exact ⟨_, _, h0⟩
    | _ hl => cases hl
  · intro k story fingerprint he
    cases k with
    | zero => rfl
    | succ k =>
      cases h.allows he with
      | storyStarted hl =>
        obtain ⟨hk, -⟩ := List.getElem?_eq_some_iff.mp he
        rw [placeAt_succ root (List.getElem?_eq_getElem (Nat.lt_of_succ_lt hk))] at hl
        cases hl
      | answer _ _ _ ha => exact ha.elim

theorem answers {step : String} {depth : Nat} (he : record[k]? = some event)
    (ha : event.Answers step depth) : ∃ j, k = j + 1 ∧
      ((∃ step host depth, record[j]? = some (.stepStarted step host depth) ∧
          event.Answers step depth) ∨
        ∃ kind message depth, event = .errored kind message depth ∧
          ((∃ name story injected,
              record[j]? = some (.substoryEntered name story injected depth)) ∨
            (∃ story fingerprint, record[j]? = some (.storyStarted story fingerprint)) ∧
              depth = 0)) := by
  cases h.allows he with
  | answer hl _ _ ha =>
    obtain ⟨j, rfl, hj⟩ := getElem?_of_last he hl
    exact ⟨j, rfl, Or.inl ⟨_, _, _, hj, ha⟩⟩
  | refused hl =>
    obtain ⟨j, rfl, hj⟩ := getElem?_of_last he hl
    exact ⟨j, rfl, Or.inr ⟨_, _, _, rfl, Or.inl ⟨_, _, _, hj⟩⟩⟩
  | rejected hl =>
    obtain ⟨j, rfl, hj⟩ := getElem?_of_last he hl
    exact ⟨j, rfl, Or.inr ⟨_, _, _, rfl, Or.inr ⟨⟨_, _, hj⟩, rfl⟩⟩⟩
  | _ => exact ha.elim

theorem started {step host : String} {depth : Nat}
    (he : record[k]? = some (.stepStarted step host depth)) :
    depthAt record k = depth ∧ depthAt record (k + 1) = depth := by
  rw [depthAt_succ he, ← length_stories root]
  cases h.allows he with
  | stepStarted _ _ _ hd => exact ⟨hd, hd⟩
  | answer _ _ _ ha => exact ha.elim

theorem entered {name story : String} {injected : Bool} {depth : Nat}
    (he : record[k]? = some (.substoryEntered name story injected depth)) :
    1 ≤ depth ∧ depthAt record k = depth ∧ depthAt record (k + 1) = depth + 1 := by
  rw [depthAt_succ he, ← length_stories root]
  cases h.allows he with
  | substoryEntered _ _ hs hd =>
    exact ⟨hd ▸ List.length_pos_iff.mpr hs, hd, congrArg Nat.succ hd⟩
  | answer _ _ _ ha => exact ha.elim

theorem exited {story : String} {depth : Nat}
    (he : record[k]? = some (.substoryExited story depth)) :
    1 ≤ depth ∧ depthAt record k = depth + 1 ∧ depthAt record (k + 1) = depth := by
  rw [depthAt_succ he, ← length_stories root]
  cases h.allows he with
  | substoryExited _ _ hs ho hd =>
    subst hd
    rw [hs]
    exact ⟨List.length_pos_iff.mpr ho, rfl, rfl⟩
  | answer _ _ _ ha => exact ha.elim

theorem bypassed {label : String} {depth : Nat}
    (he : record[k]? = some (.instructionBypassed label depth)) :
    ∃ j event, k = j + 1 ∧ record[j]? = some event ∧ event.Skips := by
  cases h.allows he with
  | bypassed hl hs =>
    obtain ⟨j, rfl, hj⟩ := getElem?_of_last he hl
    exact ⟨j, _, rfl, hj, hs⟩
  | answer _ _ _ ha => exact ha.elim

section Skipped

variable {step : String} {depth : Nat} (he : record[k]? = some (.stepSkipped step depth))

include he

theorem skipped_depths : 1 ≤ depth ∧ depthAt record k = depth ∧
    (placeAt root record (k + 1)).stories.length = depth - 1 := by
  rw [length_stories, depthAt_succ he, ← length_stories root]
  cases h.allows he with
  | answer _ hs hd ha =>
    obtain ⟨-, rfl⟩ := ha
    subst hd
    exact ⟨List.length_pos_iff.mpr hs, rfl, rfl⟩

/-- As long as events stand for what was skipped, the depth is that of the skip. -/
theorem bypassed_of_skipped {m : Nat} (hkm : k < m)
    (hs : ∀ j, k < j → j < m → ∀ event, record[j]? = some event → event.Skips)
    (hm : m ≤ record.length) :
    (∃ last, (placeAt root record m).last = some last ∧ last.Skips) ∧
      (placeAt root record m).stories.length = depth - 1 ∧
      ∀ j, k < j → j < m →
        ∃ label d, record[j]? = some (.instructionBypassed label d) ∧ depth ≤ d := by
  obtain ⟨hd, -, hl⟩ := h.skipped_depths he
  induction m, hkm using Nat.le_induction with
  | base =>
    refine ⟨⟨.stepSkipped step depth, by rw [placeAt_succ root he]; rfl, trivial⟩, hl,
      fun j hj hj' => ?_⟩
    omega
  | succ m hkm ih =>
    obtain ⟨⟨last, hlast, hls⟩, hlen, hb⟩ :=
      ih (fun j hj hj' => hs j hj (Nat.lt_succ_of_lt hj')) (Nat.le_of_succ_le hm)
    have hev := List.getElem?_eq_getElem hm
    have hsk := hs m hkm (Nat.lt_succ_self m) _ hev
    generalize record[m] = event at hev hsk
    cases h.allows hev with
    | bypassed _ _ hlt =>
      rw [placeAt_succ root hev]
      refine ⟨⟨_, rfl, hsk⟩, hlen, fun j hj hj' => ?_⟩
      rcases Nat.lt_succ_iff_lt_or_eq.mp hj' with hj' | rfl
      · exact hb j hj hj'
      · exact ⟨_, _, hev, by omega⟩
    | answer hp =>
      obtain rfl := Option.some.inj (hp.symm.trans hlast)
      exact hls.elim
    | _ => exact hsk.elim

theorem skipped : 1 ≤ depth ∧ depthAt record k = depth ∧ ∃ n event, k < n ∧
    record[n]? = some event ∧ ¬ event.Skips ∧ depthAt record n = depth - 1 ∧
      (depth = 1 → event = .storyFinished status) ∧
      ∀ m, k < m → m < n →
        ∃ label d, record[m]? = some (.instructionBypassed label d) ∧ depth ≤ d := by
  obtain ⟨hd, hk, -⟩ := h.skipped_depths he
  obtain ⟨next, hnext⟩ := h.exists_next he nofun
  obtain ⟨hlt, -⟩ := List.getElem?_eq_some_iff.mp hnext
  -- the closing event stands for no part of what was skipped, so there is a first such event
  obtain ⟨n, hkn, hle, ⟨event, hn, hns⟩, hmin⟩ :=
    exists_first (p := fun n => ∃ event, record[n]? = some event ∧ ¬ event.Skips)
      (Nat.lt_sub_of_add_lt hlt) ⟨_, h.getElem?_last, id⟩
  obtain ⟨⟨last, hlast, hls⟩, hlen, hb⟩ := h.bypassed_of_skipped he hkn
    (fun j hj hj' event he => not_not.mp fun hns => hmin j hj hj' ⟨event, he, hns⟩) (by omega)
  refine ⟨hd, hk, n, event, hkn, hn, hns, length_stories root _ n ▸ hlen, ?_, hb⟩
  rintro rfl
  have hnil := List.eq_nil_of_length_eq_zero hlen
  cases h.allows hn with
  | storyFinished => rw [((h.finished_iff _).mp hn).2]
  | storyStarted hl => cases hl.symm.trans hlast
  | stepStarted _ _ hne | substoryEntered _ _ hne | answer _ hne => exact absurd hnil hne
  | substoryExited _ _ hc => cases hnil.symm.trans hc
  | refused hl | rejected hl =>
    obtain rfl := Option.some.inj (hl.symm.trans hlast)
    exact hls.elim
  | bypassed => exact absurd trivial hns

end Skipped

section Completed

variable {name story : String} {injected : Bool} {depth : Nat}
  (he : record[k]? = some (.substoryEntered name story injected depth))

include he

theorem open_of_entered {m : Nat} (hkm : k < m)
    (hd : ∀ j, k < j → j ≤ m → depth < depthAt record j) (hm : m ≤ record.length) :
    story :: (placeAt root record k).stories <:+ (placeAt root record m).stories := by
  have hk : (placeAt root record k).stories.length = depth :=
    (length_stories root _ k).trans (h.entered he).2.1
  induction m, hkm using Nat.le_induction with
  | base =>
    rw [placeAt_succ root he]
    exact List.suffix_rfl
  | succ m hkm ih =>
    have hev := List.getElem?_eq_getElem hm
    have ih := ih (fun j hj hj' => hd j hj (Nat.le_succ_of_le hj')) (Nat.le_of_succ_le hm)
    rw [placeAt_succ root hev]
    refine EventKind.suffix_nest ih ?_
    have hlt := hd (m + 1) (Nat.lt_succ_of_lt hkm) (Nat.le_refl _)
    rw [← length_stories root, placeAt_succ root hev] at hlt
    rw [List.length_cons, hk]
    exact hlt

/-- Where the depth comes down again, the story is left or one of its own steps skips. -/
theorem closes_of_entered {j : Nat} (hkj : k < j) (hj : j < record.length)
    (hd : ∀ m, k < m → m ≤ j → depth < depthAt record m)
    (hle : depthAt record (j + 1) ≤ depth) :
    depthAt record (j + 1) = depth ∧ (record[j]? = some (.substoryExited story depth) ∨
      ∃ step, record[j]? = some (.stepSkipped step (depth + 1))) := by
  have hk : (placeAt root record k).stories.length = depth :=
    (length_stories root _ k).trans (h.entered he).2.1
  have hev := List.getElem?_eq_getElem hj
  have hopen := h.open_of_entered he hkj hd (Nat.le_of_lt hj)
  have hlt := hd j hkj (Nat.le_refl j)
  rw [depthAt_succ hev, ← length_stories root] at hle ⊢
  rw [← length_stories root] at hlt
  generalize record[j] = event at hev hle
  cases h.allows hev with
  | substoryExited _ _ hs _ hd =>
    simp only [EventKind.depthAfter] at hle ⊢
    have heq := hopen.eq_of_length (by rw [List.length_cons]; omega)
    rw [hs] at heq
    obtain ⟨rfl, rfl⟩ := List.cons.inj heq
    exact ⟨by omega, Or.inl (by rw [hev, ← hd, hk])⟩
  | @answer _ _ _ event _ _ _ ha =>
    cases event with
    | stepSkipped step d =>
      simp only [EventKind.depthAfter] at hle ⊢
      obtain ⟨rfl, hlen⟩ := ha
      exact ⟨by omega, Or.inr ⟨step, by rw [hev]; congr 2; omega⟩⟩
    | stepFinished | stepFailed | stepReturned | errored => exact absurd hlt (Nat.not_lt.mpr hle)
    | _ => exact ha.elim
  | substoryEntered => exact absurd hlt (Nat.not_lt.mpr (Nat.le_of_succ_le hle))
  | _ => exact absurd hlt (Nat.not_lt.mpr hle)

theorem completed (hs : status = .completed) : ∃ j, Closes record k j ∧
    (record[j]? = some (.substoryExited story depth) ∨
      ∃ step, record[j]? = some (.stepSkipped step (depth + 1))) ∧
    ∀ j', Closes record k j' → j' = j := by
  obtain ⟨hpos, hk, hk'⟩ := h.entered he
  obtain ⟨next, hnext⟩ := h.exists_next he nofun
  obtain ⟨hlt, -⟩ := List.getElem?_eq_some_iff.mp hnext
  have hend : depthAt record (record.length - 1) ≤ depth := by
    rw [← length_stories root]
    cases h.allows h.getElem?_last with
    | storyFinished _ _ hc => exact Nat.le_trans (hc hs) hpos
    | answer _ _ _ ha => exact ha.elim
  -- the record comes to its end at the depth of the root, so it is down again somewhere
  obtain ⟨n, hkn, hle, hn, hmin⟩ :=
    exists_first (p := fun n => depthAt record n ≤ depth) (Nat.lt_sub_of_add_lt hlt) hend
  have hd : ∀ m, k < m → m < n → depth < depthAt record m :=
    fun m hm hm' => Nat.not_le.mp (hmin m hm hm')
  obtain ⟨j, rfl⟩ := Nat.exists_eq_add_one_of_ne_zero (Nat.ne_zero_of_lt hkn)
  have hkj : k < j := by
    refine Nat.lt_of_le_of_ne (Nat.le_of_lt_succ hkn) fun hkj => ?_
    rw [← hkj, hk'] at hn
    omega
  obtain ⟨hj, hclose⟩ := h.closes_of_entered he hkj (by omega)
    (fun m hm hm' => hd m hm (Nat.lt_succ_of_le hm')) hn
  have hc : Closes record k j :=
    ⟨hkj, hj.trans hk.symm, fun m hm hm' => hk ▸ hd m hm (Nat.lt_succ_of_le hm')⟩
  exact ⟨j, hc, hclose, fun j' hj' => hj'.unique hc⟩

end Completed

/-- What is allowed at each place gives the grammar of the whole record. -/
theorem grammatical : Grammatical record status where
  opened := h.opened
  closed := fun _ => h.finished_iff
  answered := fun _ _ _ _ => h.answered
  answers := fun _ _ he ⟨_, _, ha⟩ => h.answers he ha
  ends := fun _ _ => h.ends
  started := fun _ _ _ _ => h.started
  entered := fun _ _ _ _ _ => h.entered
  exited := fun _ _ _ => h.exited
  skipped := fun _ _ _ => h.skipped
  bypassed := fun _ _ _ => h.bypassed
  completed := fun hs _ _ _ _ _ he => h.completed he hs

end Readable

end Record

end StoryEngine
