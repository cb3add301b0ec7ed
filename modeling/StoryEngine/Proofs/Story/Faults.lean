import StoryEngine.Proofs.Story.Compilation

/-! # Faults of a story

The names in the body of a story, and in the bodies of the declared stories that they stand for,
are references. Each has a place, and places are come to depth first and from the left. Compiling
a story ends at the first reference that is unknown or leads back to a story on the way to it, and
the error tells the end of this way or the whole of it.
-/

namespace StoryEngine

namespace Host

/-- A reference in a body or in the body of a declared story that it leads to: its place, the
stories on the way to it, and the name. The place lists positions from the outermost body inwards,
so the lexicographic order of places is depth first and from the left. -/
inductive Reads (host : Host) : List String → List Nat → List String → String → Prop where
  | here {n : String} {rest : List String} : Reads host (n :: rest) [0] [] n
  | inner {m n : String} {rest way : List String} {declaration : Declaration} {place : List Nat} :
      host.resolve m = some (.story declaration) → Reads host declaration.body place way n →
      Reads host (m :: rest) (0 :: place) (declaration.name :: way) n
  | later {m n : String} {rest way : List String} {k : Nat} {place : List Nat} :
      Reads host rest (k :: place) way n → Reads host (m :: rest) ((k + 1) :: place) way n

/-- The name is unknown, or it leads back to a story that is active. -/
def Offends (host : Host) (active : List String) (n : String) : Prop :=
  host.resolve n = none ∨ ∃ declaration, host.resolve n = some (.story declaration) ∧
    declaration.name ∈ active

inductive Blames (host : Host) (active : List String) (n : String) : CompileError → Prop where
  | unknown {story : String} : host.resolve n = none → active.getLast? = some story →
      Blames host active n (.unknownCapability host.name (host.label story) n)
  | recursive {story : String} {declaration : Declaration} :
      host.resolve n = some (.story declaration) → declaration.name ∈ active →
      active.getLast? = some story → Blames host active n
        (.recursive (host.label story) ((active ++ [declaration.name]).map host.label))

/-- The first reference of a body that offends while the stories are active. -/
structure FirstFault (host : Host) (active body : List String) (place : List Nat)
    (way : List String) (n : String) : Prop where
  reads : host.Reads body place way n
  offends : host.Offends (active ++ way) n
  first : ∀ place' way' n', host.Reads body place' way' n' → place' < place →
    ¬ host.Offends (active ++ way') n'

/-- What is reported of a body while the stories are active: its first fault, if it has one. -/
inductive Finds (host : Host) (active body : List String) : Option CompileError → Prop where
  | nothing : (∀ place way n, host.Reads body place way n → ¬ host.Offends (active ++ way) n) →
      Finds host active body none
  | fault {place : List Nat} {way : List String} {n : String} {error : CompileError} :
      host.FirstFault active body place way n → host.Blames (active ++ way) n error →
      Finds host active body (some error)

section Search

variable {host : Host} {active body rest way : List String} {place : List Nat} {k : Nat}
  {name n : String} {error : CompileError} {declaration : Declaration}

theorem Blames.offends (h : host.Blames active n error) : host.Offends active n := by
  cases h with
  | unknown hr => exact .inl hr
  | recursive hr ha => exact .inr ⟨_, hr, ha⟩

theorem not_reads_nil : ¬ host.Reads [] place way n := by
  intro h
  cases h

theorem Reads.exists_cons (h : host.Reads body place way n) : ∃ k place', place = k :: place' := by
  cases h <;> exact ⟨_, _, rfl⟩

theorem later_lt_later_iff {k k' : Nat} {place place' : List Nat} :
    (k + 1) :: place < (k' + 1) :: place' ↔ k :: place < k' :: place' := by
  simp only [List.cons_lt_cons_iff, Nat.add_lt_add_iff_right, Nat.add_right_cancel_iff]

theorem Finds.later {found : Option CompileError} (hr : host.Finds active rest found)
    (hq : ∀ place way n, host.Reads (name :: rest) (0 :: place) way n →
      ¬ host.Offends (active ++ way) n) : host.Finds active (name :: rest) found := by
  cases hr with
  | nothing hr =>
    refine .nothing fun place way n h => ?_
    obtain ⟨k, place, rfl⟩ := h.exists_cons
    cases k with
    | zero => exact hq _ _ _ h
    | succ k =>
      cases h with
      | later h => exact hr _ _ _ h
  | @fault place way n error hf hb =>
    obtain ⟨k, place, rfl⟩ := hf.reads.exists_cons
    refine .fault ⟨.later hf.reads, hf.offends, fun place' way' n' h hlt => ?_⟩ hb
    obtain ⟨k', place', rfl⟩ := h.exists_cons
    cases k' with
    | zero => exact hq _ _ _ h
    | succ k' =>
      cases h with
      | later h => exact hf.first _ _ _ h (later_lt_later_iff.mp hlt)

theorem finds_of_blames (h : host.Blames active name error) :
    host.Finds active (name :: rest) (some error) := by
  rw [← List.append_nil active] at h
  refine .fault ⟨.here, h.offends, fun place way n hr hlt => ?_⟩ h
  obtain ⟨k, place, rfl⟩ := hr.exists_cons
  simp [List.cons_lt_cons_iff] at hlt

theorem not_offends_of_leaf {c : Capability} (hr : host.resolve name = some c)
    (hc : ∀ d, c ≠ .story d) (h : host.Reads (name :: rest) (0 :: place) way n) :
    ¬ host.Offends (active ++ way) n := by
  cases h with
  | here =>
    rintro (hu | ⟨d, hd, -⟩)
    · cases hu.symm.trans hr
    · exact hc d (Option.some.inj (hr.symm.trans hd))
  | inner hd => exact absurd (Option.some.inj (hr.symm.trans hd)) (hc _)

section Declared

variable (hr : host.resolve name = some (.story declaration)) (hf : declaration.name ∉ active)

include hr hf

/-- A reference at a declared story that is not active does not offend unless it does in the body
of this story while the story is active. -/
theorem not_offends_of_declared (h : host.Reads (name :: rest) (0 :: place) way n)
    (hb : ∀ way', host.Reads declaration.body place way' n →
      ¬ host.Offends (active ++ [declaration.name] ++ way') n) :
    ¬ host.Offends (active ++ way) n := by
  cases h with
  | here =>
    rintro (hu | ⟨d, hd, ha⟩)
    · cases hu.symm.trans hr
    · cases hd.symm.trans hr
      exact hf (by simpa using ha)
  | @inner _ _ _ way _ _ hd h =>
    cases hr.symm.trans hd
    rw [List.append_cons]
    exact hb way h

theorem finds_of_inner (h : host.Finds (active ++ [declaration.name]) declaration.body
    (some error)) : host.Finds active (name :: rest) (some error) := by
  obtain - | ⟨hi, hb⟩ := h
  rw [← List.append_cons] at hb
  refine .fault ⟨.inner hr hi.reads, hb.offends, fun place' way' n' h hlt => ?_⟩ hb
  obtain ⟨k, place', rfl⟩ := h.exists_cons
  obtain rfl : k = 0 := by
    rcases List.cons_lt_cons_iff.mp hlt with hk | ⟨hk, -⟩
    · exact absurd hk (Nat.not_lt_zero k)
    · exact hk
  refine not_offends_of_declared hr hf h fun way' h' => hi.first _ _ _ h' ?_
  simpa [List.cons_lt_cons_iff] using hlt

theorem finds_of_fresh {found : Option CompileError}
    (h : host.Finds (active ++ [declaration.name]) declaration.body none)
    (hrest : host.Finds active rest found) : host.Finds active (name :: rest) found := by
  obtain ⟨hb⟩ := h
  exact hrest.later fun place way n h =>
    not_offends_of_declared hr hf h fun way' h' => hb _ _ _ h'

end Declared

/-- A survey reports the first fault of its body. The last active story is the one whose body is
surveyed. -/
theorem finds_survey (active : List String) (origin : String) (body : List String)
    (ha : active.getLast? = some origin) :
    host.Finds active body (host.survey active origin body).error := by
  fun_induction Host.survey host active origin body with
  | case1 => exact .nothing fun _ _ _ h => absurd h not_reads_nil
  | case2 active origin name rest found => exact finds_of_blames (.unknown found ha)
  | case3 active origin name rest title run found after ih =>
    exact (ih ha).later fun _ _ _ => not_offends_of_leaf found (by simp)
  | case4 active origin name rest title story found after ih =>
    exact (ih ha).later fun _ _ _ => not_offends_of_leaf found (by simp)
  | case5 active origin name rest declaration found hm =>
    exact finds_of_blames (.recursive found hm ha)
  | case6 active origin name rest declaration found hf inner scene error he ih =>
    have hi := ih List.getLast?_concat
    rw [he] at hi
    exact finds_of_inner found hf hi
  | case7 active origin name rest declaration found hf inner scene he after ih ih' =>
    have hi := ih List.getLast?_concat
    rw [he] at hi
    exact finds_of_fresh found hf hi (ih' ha)

theorem Reads.unique {way' : List String} {n' : String} (h : host.Reads body place way n)
    (h' : host.Reads body place way' n') : way' = way ∧ n' = n := by
  induction h generalizing way' with
  | here =>
    cases h' with
    | here => exact ⟨rfl, rfl⟩
    | inner _ h' => obtain ⟨_, _, hp⟩ := h'.exists_cons; cases hp
  | inner hm h ih =>
    cases h' with
    | here => obtain ⟨_, _, hp⟩ := h.exists_cons; cases hp
    | inner hm' h' =>
      cases hm.symm.trans hm'
      obtain ⟨rfl, rfl⟩ := ih h'
      exact ⟨rfl, rfl⟩
  | later h ih =>
    cases h' with
    | later h' => exact ih h'

theorem Finds.blames {found : Option CompileError} (h : host.Finds active body found)
    (hf : host.FirstFault active body place way n) :
    ∃ error, found = some error ∧ host.Blames (active ++ way) n error := by
  cases h with
  | nothing hn => exact absurd hf.offends (hn _ _ _ hf.reads)
  | @fault place' way' n' error hf' hb =>
    obtain rfl : place' = place := by
      refine List.le_antisymm ?_ ?_
      · exact fun hlt => hf'.first _ _ _ hf.reads hlt hf.offends
      · exact fun hlt => hf.first _ _ _ hf'.reads hlt hf'.offends
    obtain ⟨rfl, rfl⟩ := hf.reads.unique hf'.reads
    exact ⟨error, rfl, hb⟩

theorem FirstFault.nodup (h : host.FirstFault active body place way n) (hd : active.Nodup) :
    (active ++ way).Nodup := by
  obtain ⟨hr, -, hf⟩ := h
  induction hr generalizing active with
  | here => simpa using hd
  | @inner m n rest way declaration place hm hr ih =>
    have hfresh : declaration.name ∉ active := by
      intro ha
      obtain ⟨k, place', rfl⟩ := hr.exists_cons
      exact hf [0] [] m .here (by simp) (.inr ⟨declaration, hm, by simpa using ha⟩)
    rw [List.append_cons]
    refine ih ?_ fun place' way' n' h' hlt => ?_
    · rw [List.nodup_append_comm]
      exact List.nodup_cons.mpr ⟨hfresh, hd⟩
    · rw [← List.append_cons]
      exact hf (0 :: place') (declaration.name :: way') n' (.inner hm h') (by simpa using hlt)
  | later hr ih =>
    refine ih hd fun place' way' n' h' hlt => ?_
    obtain ⟨k, place', rfl⟩ := h'.exists_cons
    exact hf ((k + 1) :: place') way' n' (.later h') (later_lt_later_iff.mpr hlt)

end Search

def Names (host : Host) (label label' : String) : Prop :=
  ∃ a b, Capability.story a ∈ host.capabilities ∧ host.References a b ∧
    label = host.label a.name ∧ label' = host.label b.name

section Way

variable {host : Host} {body way : List String} {place : List Nat} {n : String} {a d : Declaration}

theorem label_injective (host : Host) : Function.Injective host.label :=
  fun _ _ h => (String.append_right_inj _).mp h

/-- The way to a reference, and on to the declared story that is found there, is a chain. -/
theorem Reads.isChain (h : host.Reads body place way n) (hs : body ⊆ a.body)
    (ha : Capability.story a ∈ host.capabilities) (hd : host.resolve n = some (.story d)) :
    ((a.name :: way ++ [d.name]).map host.label).IsChain host.Names := by
  induction h generalizing a with
  | here =>
    have hr := references_of_resolve (hs List.mem_cons_self) hd
    exact List.isChain_cons_cons.mpr ⟨⟨a, d, ha, hr, rfl, rfl⟩, .singleton _⟩
  | inner hm _ ih =>
    have hr := references_of_resolve (hs List.mem_cons_self) hm
    exact List.isChain_cons_cons.mpr
      ⟨⟨a, _, ha, hr, rfl, rfl⟩, ih (List.Subset.refl _) hr.1 hd⟩
  | later _ ih => exact ih (fun _ hm => hs (List.mem_cons_of_mem _ hm)) ha hd

theorem Reads.exists_reached (h : host.Reads body place way n) (hs : body ⊆ a.body) :
    ∃ b, Relation.ReflTransGen host.References a b ∧ (a.name :: way).getLast? = some b.name ∧
      n ∈ b.body := by
  induction h generalizing a with
  | here => exact ⟨a, .refl, rfl, hs List.mem_cons_self⟩
  | inner hm _ ih =>
    obtain ⟨b, hab, hl, hn⟩ := ih (List.Subset.refl _)
    refine ⟨b, .head (references_of_resolve (hs List.mem_cons_self) hm) hab, ?_, hn⟩
    rw [List.getLast?_cons_cons, hl]
  | later _ ih => exact ih fun _ hm => hs (List.mem_cons_of_mem _ hm)

end Way

def FaultAt (host : Host) (name : String) (place : List Nat) (way : List String) (n : String) :
    Prop :=
  ∃ root, Capability.story root ∈ host.capabilities ∧ root.name = name ∧
    host.FirstFault [name] root.body place way n

/-- A path of labels from the story of a name back to a story on it, which the story labelled
`story` names. -/
structure Closes (host : Host) (name story : String) (path : List String) : Prop where
  starts : path.head? = some (host.label name)
  isChain : path.IsChain host.Names
  nodup : path.dropLast.Nodup
  returns : ∃ label ∈ path.dropLast, path.getLast? = some label
  story : path.dropLast.getLast? = some story

/-- The errors of compiling a story are true, and they are those of its first fault, which is
reported if there is one. -/
structure Explains (host : Host) (name : String) : Prop where
  recursive : ∀ story path, host.bind name = .error (.recursive story path) →
    host.Closes name story path ∧ ∃ place way n declaration, host.FaultAt name place way n ∧
      host.resolve n = some (.story declaration) ∧
      path = (name :: way ++ [declaration.name]).map host.label
  unknown : ∀ label story n, host.bind name = .error (.unknownCapability label story n) →
    label = host.name ∧
    (∃ d, host.Reaches name d ∧ story = host.label d.name ∧ n ∈ d.body) ∧
    (∀ c ∈ host.capabilities, c.name ≠ n) ∧ ∃ place way, host.FaultAt name place way n ∧
      ((name :: way).map host.label).getLast? = some story
  reported : host.duplicates = [] → ∀ place way n, host.FaultAt name place way n →
    ∃ error, host.bind name = .error error ∧ host.Blames (name :: way) n error

section Explanation

variable {host : Host} {name : String}

theorem exists_faultAt {error : CompileError} (h : host.bind name = .error error) :
    (∃ n, error = .duplicate host.name n) ∨ error = .unknownStory host.name name ∨
      ∃ place way n, host.FaultAt name place way n ∧ host.Blames (name :: way) n error := by
  cases hu : host.duplicates with
  | cons n more =>
    simp only [bind, hu] at h
    exact .inl ⟨n, (Except.error.inj h).symm⟩
  | nil =>
    simp only [bind, hu, compile] at h
    cases hd : host.declaration? name with
    | none =>
      rw [hd] at h
      exact .inr (.inl (Except.error.inj h).symm)
    | some root =>
      obtain ⟨hm, rfl⟩ := (declaration?_eq_some_iff (duplicates_eq_nil_iff.mp hu)).mp hd
      have hf := host.finds_survey [root.name] root.name root.body rfl
      rw [hd] at h
      cases he : (host.surveyStory root).error with
      | none => simp [he] at h
      | some found =>
        simp only [he, Except.error.injEq] at h
        subst h
        rw [surveyStory] at he
        rw [he] at hf
        obtain - | ⟨hf, hb⟩ := hf
        exact .inr (.inr ⟨_, _, _, ⟨root, hm, rfl, hf⟩, hb⟩)

variable {place : List Nat} {way : List String} {n story : String} {declaration : Declaration}

theorem FaultAt.exists_bind (h : host.FaultAt name place way n) (hu : host.duplicates = []) :
    ∃ error, host.bind name = .error error ∧ host.Blames (name :: way) n error := by
  obtain ⟨root, hm, rfl, hf⟩ := h
  have hd := (declaration?_eq_some_iff (duplicates_eq_nil_iff.mp hu)).mpr ⟨hm, rfl⟩
  obtain ⟨error, he, hb⟩ := (host.finds_survey [root.name] root.name root.body rfl).blames hf
  refine ⟨error, ?_, hb⟩
  simp only [bind, hu, compile, hd, surveyStory, he]

theorem FaultAt.closes (h : host.FaultAt name place way n)
    (hr : host.resolve n = some (.story declaration)) (ha : declaration.name ∈ name :: way)
    (hl : (name :: way).getLast? = some story) :
    host.Closes name (host.label story) ((name :: way ++ [declaration.name]).map host.label) := by
  obtain ⟨root, hm, rfl, hf⟩ := h
  have hdrop : ((root.name :: way ++ [declaration.name]).map host.label).dropLast =
      (root.name :: way).map host.label := by
    rw [List.map_append]
    exact List.dropLast_concat
  refine ⟨rfl, hf.reads.isChain (List.Subset.refl _) hm hr, ?_, ?_, ?_⟩
  · rw [hdrop]
    exact (hf.nodup (List.nodup_singleton _)).map host.label_injective
  · refine ⟨host.label declaration.name, ?_, ?_⟩
    · rw [hdrop]
      exact List.mem_map_of_mem ha
    · rw [List.map_append]
      exact List.getLast?_concat
  · rw [hdrop, List.getLast?_map, hl]
    rfl

theorem explains_bind (host : Host) (name : String) : host.Explains name := by
  constructor
  case recursive =>
    intro story path h
    obtain ⟨_, hu⟩ | hu | ⟨place, way, n, hf, hb⟩ := exists_faultAt h
    · cases hu
    · cases hu
    · cases hb with
      | recursive hr ha hl => exact ⟨hf.closes hr ha hl, place, way, n, _, hf, hr, rfl⟩
  case unknown =>
    intro label story n h
    obtain ⟨_, hu⟩ | hu | ⟨place, way, n', hf, hb⟩ := exists_faultAt h
    · cases hu
    · cases hu
    · cases hb with
      | unknown hr hl =>
        refine ⟨rfl, ?_, fun c hc hn => ?_, place, way, hf, ?_⟩
        · obtain ⟨root, hm, hroot, hf⟩ := hf
          obtain ⟨b, hab, hb, hn⟩ := hf.reads.exists_reached (List.Subset.refl _)
          rw [hroot, hl] at hb
          exact ⟨b, ⟨root, hm, hroot, hab⟩, congrArg host.label (Option.some.inj hb), hn⟩
        · exact resolve_ne_none hc (hn ▸ hr)
        · rw [List.getLast?_map, hl]
          rfl
  case reported => exact fun hu _ _ _ hf => hf.exists_bind hu

end Explanation

end Host

namespace Demo

/-- A host in which a walk leads to a square on two ways and then to a lane that ends in itself,
and a ride to a street that is not registered. -/
def village : Host where
  name := "Village"
  number := 5
  capabilities :=
    [.step "step" { run := fun _ => .ok none },
     .story { name := "square", body := ["step"] },
     .story { name := "east", body := ["square"] },
     .story { name := "lane", body := ["square", "lane", "street"] },
     .story { name := "walk", body := ["east", "square", "lane", "street"] },
     .story { name := "ride", body := ["east", "street", "walk"] }]

example : village.bind "walk" = .error (.recursive "Village.lane"
    ["Village.walk", "Village.lane", "Village.lane"]) := by cbv

example : village.bind "ride" =
    .error (.unknownCapability "Village" "Village.ride" "street") := by cbv

end Demo

end StoryEngine
