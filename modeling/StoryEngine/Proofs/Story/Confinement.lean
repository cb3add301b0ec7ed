import StoryEngine.Proofs.Story.Compilation
import StoryEngine.Proofs.Story.Layout

/-! # What compiling depends on

A story is compiled from what its registry gives under its own name and under the names that its
bodies lead to. Two hosts of one name that agree on these names compile it alike, in whatever order
they registered their capabilities and whatever else they offer. They agree only if no name is
registered twice, and a host with such a name compiles nothing.
-/

namespace StoryEngine

/-- What an instruction is, whichever instance of its host owns it. -/
def Instruction.content (instruction : Instruction) : String × Action × Origin :=
  (instruction.owner.host, instruction.action, instruction.origin)

theorem map_label_of_map_content {is is' : List Instruction}
    (h : is'.map Instruction.content = is.map Instruction.content) :
    is'.map Instruction.label = is.map Instruction.label := by
  have hl (xs : List Instruction) : xs.map Instruction.label =
      (xs.map Instruction.content).map fun s => Instruction.label ⟨⟨s.1, 0⟩, s.2.1, s.2.2⟩ := by
    rw [List.map_map]
    exact List.map_congr_left fun i _ => rfl
  rw [hl is', h, ← hl is]

mutual

def Scene.renumber (number : Nat) : Scene → Scene
  | .step name run => .step name run
  | .story title true owner declaration scenes => .story title true owner declaration scenes
  | .story title false owner declaration scenes =>
    .story title false ⟨owner.host, number⟩ declaration (Scene.renumberAll number scenes)

def Scene.renumberAll (number : Nat) : List Scene → List Scene
  | [] => []
  | scene :: rest => scene.renumber number :: renumberAll number rest

end

mutual

theorem Scene.contents_renumber (owner : Owner) (number : Nat) (origin : Origin) (place : Nat) :
    ∀ scene : Scene, ((scene.renumber number).instructions ⟨owner.host, number⟩ origin place).map
      Instruction.content = (scene.instructions owner origin place).map Instruction.content
  | .step _ _ => rfl
  | .story title true inner declaration scenes => by
    simp [Scene.renumber, Scene.instructions, Instruction.content]
  | .story title false inner declaration scenes => by
    have hb := Scene.contents_renumberAll inner number
      ⟨inner.host, declaration, origin.site ++ [place]⟩ 0 scenes
    simp [Scene.renumber, Scene.instructions, Instruction.content, hb]

theorem Scene.contents_renumberAll (owner : Owner) (number : Nat) (origin : Origin) (place : Nat) :
    ∀ scenes : List Scene,
      (Scene.flatten ⟨owner.host, number⟩ origin place (Scene.renumberAll number scenes)).map
        Instruction.content = (Scene.flatten owner origin place scenes).map Instruction.content
  | [] => rfl
  | scene :: rest => by
    rw [Scene.renumberAll, Scene.flatten, Scene.flatten, List.map_append, List.map_append,
      Scene.contents_renumber owner number origin place scene,
      Scene.contents_renumberAll owner number origin (place + 1) rest]

end

structure Story.Twin (story story' : Story) : Prop where
  root : story'.trace.root = story.trace.root
  labels : story'.trace.labels = story.trace.labels
  fingerprint : story'.fingerprint = story.fingerprint
  instructions : story'.trace.instructions.map Instruction.content =
    story.trace.instructions.map Instruction.content

/-- The same error, or the same story of two instances of a host. -/
inductive Twins : Except CompileError Story → Except CompileError Story → Prop where
  | error (error : CompileError) : Twins (.error error) (.error error)
  | ok {story story' : Story} : story.Twin story' → Twins (.ok story) (.ok story')

namespace Story

def renumber (number : Nat) (story : Story) : Story :=
  ⟨⟨story.owner.host, number⟩, story.declaration, Scene.renumberAll number story.scenes⟩

theorem twin_renumber (story : Story) (number : Nat) : story.Twin (story.renumber number) := by
  have hs := Scene.contents_renumberAll story.owner number story.root 0 story.scenes
  have hl := map_label_of_map_content hs
  exact {
    root := rfl
    labels := hl
    fingerprint := Trace.fingerprint_congr rfl rfl hl
    instructions := hs }

end Story

theorem twins_map_renumber (answer : Except CompileError Story) (number : Nat) :
    Twins answer (answer.map (Story.renumber number)) := by
  cases answer with
  | error error => exact .error error
  | ok story => exact .ok (story.twin_renumber number)

def Survey.renumber (number : Nat) (survey : Survey) : Survey :=
  ⟨Scene.renumberAll number survey.scenes, survey.error⟩

namespace Host

/-- The names that a name leads to: itself, and those in the body of a declared story that it leads
to. -/
inductive Mentions (host : Host) (name : String) : String → Prop where
  | self : Mentions host name name
  | body {n m : String} {declaration : Declaration} : Mentions host name n →
      host.resolve n = some (.story declaration) → m ∈ declaration.body → Mentions host name m

/-- Two hosts of one name in which no name is registered twice, with the same capability under each
name that a name leads to. -/
structure Agrees (host other : Host) (name : String) : Prop where
  name_eq : other.name = host.name
  distinct : (host.capabilities.map Capability.name).Nodup
  distinct' : (other.capabilities.map Capability.name).Nodup
  same : ∀ n, host.Mentions name n → other.resolve n = host.resolve n

section Agreement

variable {host other : Host} {name : String}

theorem declaration?_eq_some_iff_resolve (distinct : (host.capabilities.map Capability.name).Nodup)
    {declaration : Declaration} : host.declaration? name = some declaration ↔
      host.resolve name = some (.story declaration) :=
  (declaration?_eq_some_iff distinct).trans (resolve_eq_some_iff distinct).symm

namespace Agrees

variable (h : host.Agrees other name)

include h

theorem label_eq (story : String) : other.label story = host.label story := by
  rw [label, label, h.name_eq]

theorem owner_eq : other.owner = ⟨host.owner.host, other.number⟩ := by
  rw [owner, h.name_eq, owner]

theorem survey_eq (active : List String) (origin : String) (body : List String)
    (hb : ∀ n ∈ body, host.Mentions name n) : other.survey active origin body =
      (host.survey active origin body).renumber other.number := by
  -- along the search of the one host, the other one's is unfolded by what its registry gives
  fun_induction Host.survey host active origin body with
  | case1 => exact survey_nil
  | case2 active origin n rest found =>
    have hr := (h.same n (hb n List.mem_cons_self)).trans found
    rw [survey_cons_of_unknown hr, h.name_eq, h.label_eq]
    rfl
  | case3 active origin n rest title run found after ih =>
    obtain ⟨hn, hrest⟩ := List.forall_mem_cons.mp hb
    rw [survey_cons_of_step ((h.same n hn).trans found), ih hrest]
    rfl
  | case4 active origin n rest title story found after ih =>
    obtain ⟨hn, hrest⟩ := List.forall_mem_cons.mp hb
    rw [survey_cons_of_injected ((h.same n hn).trans found), ih hrest]
    rfl
  | case5 active origin n rest declaration found ha =>
    have hr := (h.same n (hb n List.mem_cons_self)).trans found
    rw [survey_cons_of_active hr ha, h.label_eq, funext h.label_eq]
    rfl
  | case6 active origin n rest declaration found hf inner scene error he ih =>
    have hn := hb n List.mem_cons_self
    have hi := ih fun m hm => .body hn found hm
    rw [Survey.renumber, he] at hi
    rw [survey_cons_of_error ((h.same n hn).trans found) hf hi, h.owner_eq]
    rfl
  | case7 active origin n rest declaration found hf inner scene he after ih ih' =>
    obtain ⟨hn, hrest⟩ := List.forall_mem_cons.mp hb
    have hi := ih fun m hm => .body hn found hm
    rw [Survey.renumber, he] at hi
    rw [survey_cons_of_story ((h.same n hn).trans found) hf hi, ih' hrest, h.owner_eq]
    rfl

theorem declaration?_eq : other.declaration? name = host.declaration? name := by
  refine Option.ext fun declaration => ?_
  rw [declaration?_eq_some_iff_resolve h.distinct, declaration?_eq_some_iff_resolve h.distinct',
    h.same name .self]

theorem bind_eq : other.bind name = (host.bind name).map (Story.renumber other.number) := by
  simp only [bind, duplicates_eq_nil_iff.mpr h.distinct, duplicates_eq_nil_iff.mpr h.distinct',
    compile, h.declaration?_eq]
  cases hd : host.declaration? name with
  | none =>
    rw [h.name_eq]
    rfl
  | some declaration =>
    have hr := (declaration?_eq_some_iff_resolve h.distinct).mp hd
    have hs : other.surveyStory declaration =
        (host.surveyStory declaration).renumber other.number :=
      h.survey_eq _ _ _ fun n hn => .body .self hr hn
    dsimp only
    rw [hs]
    cases he : (host.surveyStory declaration).error <;>
      simp [Survey.renumber, he, Except.map, Story.renumber, h.owner_eq]

theorem twins : Twins (host.bind name) (other.bind name) := by
  rw [h.bind_eq]
  exact twins_map_renumber _ _

end Agrees

section Registration

variable (hname : other.name = host.name) (distinct : (host.capabilities.map Capability.name).Nodup)
  (distinct' : (other.capabilities.map Capability.name).Nodup)

include hname distinct distinct'

theorem agrees_of_mem_iff (hm : ∀ c : Capability, host.Mentions name c.name →
    (c ∈ other.capabilities ↔ c ∈ host.capabilities)) : host.Agrees other name where
  name_eq := hname
  distinct := distinct
  distinct' := distinct'
  same := fun n hn => by
    refine Option.ext fun c => ?_
    rw [resolve_eq_some_iff distinct, resolve_eq_some_iff distinct']
    constructor
    · rintro ⟨hc, rfl⟩
      exact ⟨(hm c hn).mp hc, rfl⟩
    · rintro ⟨hc, rfl⟩
      exact ⟨(hm c hn).mpr hc, rfl⟩

end Registration

section Extra

variable {extra : List Capability} (hname : other.name = host.name)
  (hx : ∀ c ∈ extra, ¬ host.Mentions name c.name)

include hname hx

theorem agrees_of_added (distinct' : (other.capabilities.map Capability.name).Nodup)
    (hp : other.capabilities.Perm (host.capabilities ++ extra)) : host.Agrees other name := by
  have distinct := (hp.map Capability.name).nodup_iff.mp distinct'
  rw [List.map_append] at distinct
  refine agrees_of_mem_iff hname distinct.of_append_left distinct' fun c hc => ?_
  rw [hp.mem_iff, List.mem_append]
  exact or_iff_left fun he => hx c he hc

theorem agrees_of_removed (distinct : (host.capabilities.map Capability.name).Nodup)
    (hp : host.capabilities.Perm (other.capabilities ++ extra)) : host.Agrees other name := by
  have distinct' := (hp.map Capability.name).nodup_iff.mp distinct
  rw [List.map_append] at distinct'
  refine agrees_of_mem_iff hname distinct distinct'.of_append_left fun c hc => ?_
  rw [hp.mem_iff, List.mem_append]
  exact (or_iff_left fun he => hx c he hc).symm

end Extra

end Agreement

end Host

section Repeated

theorem head?_repeats_go {seen names : List String} {n : String} :
    (repeats.go seen names).head? = some n ↔ ∃ front back, names = front ++ n :: back ∧
      (front.Nodup ∧ ∀ m ∈ front, m ∉ seen) ∧ (n ∈ front ∨ n ∈ seen) := by
  induction names generalizing seen with
  | nil => simp [repeats.go]
  | cons m rest ih =>
    rw [repeats.go]
    split
    case isTrue hm =>
      rw [List.head?_cons, Option.some_inj]
      constructor
      · rintro rfl
        exact ⟨[], rest, rfl, ⟨.nil, fun _ hk => absurd hk List.not_mem_nil⟩, .inr hm⟩
      · rintro ⟨front, back, he, ⟨-, hs⟩, -⟩
        cases front with
        | nil => exact (List.cons.inj he).1
        | cons k front =>
          obtain rfl := (List.cons.inj he).1
          exact absurd hm (hs m List.mem_cons_self)
    case isFalse hm =>
      rw [ih]
      constructor
      · rintro ⟨front, back, rfl, ⟨hd, hs⟩, hn⟩
        refine ⟨m :: front, back, rfl, ⟨List.nodup_cons.mpr ⟨?_, hd⟩, ?_⟩, ?_⟩
        · exact fun hf => hs m hf List.mem_cons_self
        · rintro k hk
          rcases List.mem_cons.mp hk with rfl | hk
          · exact hm
          · exact fun hks => hs k hk (List.mem_cons_of_mem m hks)
        · grind
      · rintro ⟨front, back, he, ⟨hd, hs⟩, hn⟩
        cases front with
        | nil =>
          obtain rfl := (List.cons.inj he).1
          exact absurd (hn.resolve_left List.not_mem_nil) hm
        | cons k front =>
          obtain ⟨rfl, rfl⟩ := List.cons.inj he
          obtain ⟨hk, hd⟩ := List.nodup_cons.mp hd
          refine ⟨front, back, rfl, ⟨hd, fun l hl => ?_⟩, by grind⟩
          rw [List.mem_cons, not_or]
          exact ⟨fun he => hk (he ▸ hl), hs l (List.mem_cons_of_mem m hl)⟩

theorem head?_repeats {names : List String} {n : String} : (repeats names).head? = some n ↔
    ∃ front back, names = front ++ n :: back ∧ front.Nodup ∧ n ∈ front := by
  rw [repeats, head?_repeats_go]
  simp

end Repeated

namespace Host

section Order

variable {host : Host} {name : String}

/-- The three ways to ask for a name. -/
def tables (host : Host) : List (String → Option Capability) :=
  [fun name => (lastOf name host.steps).map (.step name),
    fun name => (host.declaration? name).map .story,
    fun name => (lastOf name host.injections).map (.injected name)]

theorem resolve_eq_findSome? (host : Host) (name : String) :
    host.resolve name = host.tables.findSome? (· name) := by
  rw [resolve, tables]
  cases hs : lastOf name host.steps <;> cases hd : host.declaration? name <;>
    simp [List.findSome?, hs, hd]
  cases lastOf name host.injections <;> rfl

theorem registered_of_mem_tables {table : String → Option Capability} (ht : table ∈ host.tables)
    {c : Capability} (hc : table name = some c) : c ∈ host.capabilities ∧ c.name = name := by
  simp only [tables, List.mem_cons, List.not_mem_nil, or_false] at ht
  rcases ht with rfl | rfl | rfl
  all_goals
    obtain ⟨x, hx, rfl⟩ := Option.map_eq_some_iff.mp hc
  · exact ⟨mem_steps.mp (mem_of_lastOf hx), rfl⟩
  · exact mem_stories.mp (mem_of_lastOf hx)
  · exact ⟨mem_injections.mp (mem_of_lastOf hx), rfl⟩

/-- Of names that are registered once, each is found in one table only. -/
theorem findSome?_eq_resolve (distinct : (host.capabilities.map Capability.name).Nodup)
    {order : List (String → Option Capability)} (ho : order.Perm host.tables) :
    order.findSome? (· name) = host.resolve name := by
  cases hf : order.findSome? (· name) with
  | none =>
    rw [resolve_eq_findSome?, eq_comm, List.findSome?_eq_none_iff]
    exact fun table ht => List.findSome?_eq_none_iff.mp hf table (ho.mem_iff.mpr ht)
  | some c =>
    obtain ⟨table, ht, hc⟩ := List.exists_of_findSome?_eq_some hf
    exact ((resolve_eq_some_iff distinct).mpr
      (registered_of_mem_tables (ho.mem_iff.mp ht) hc)).symm

end Order

section Rejection

variable {host : Host} {name : String}

theorem survey_error_ne_duplicate (label other : String) (active : List String) (origin : String)
    (body : List String) :
    (host.survey active origin body).error ≠ some (.duplicate label other) := by
  fun_induction Host.survey host active origin body with
  | case1 => simp
  | case2 => simp
  | case3 active origin n rest title run found after ih => exact ih
  | case4 active origin n rest title story found after ih => exact ih
  | case5 => simp
  | case6 active origin n rest declaration found hf inner scene error he ih =>
    exact fun h => ih (he.trans h)
  | case7 active origin n rest declaration found hf inner scene he after ih ih' => exact ih'

theorem bind_eq_duplicate_iff {n : String} :
    host.bind name = .error (.duplicate host.name n) ↔ host.duplicates.head? = some n := by
  cases hu : host.duplicates with
  | cons m more => simp [bind, hu]
  | nil =>
    simp only [bind, hu, compile, List.head?_nil, reduceCtorEq, iff_false]
    cases host.declaration? name with
    | none => simp
    | some declaration =>
      cases he : (host.surveyStory declaration).error with
      | none => simp [he]
      | some error =>
        simp only [he, Except.error.injEq]
        rintro rfl
        exact survey_error_ne_duplicate _ _ _ _ _ he

theorem bind_eq_duplicate_iff_exists {n : String} :
    host.bind name = .error (.duplicate host.name n) ↔
      ∃ front c back, host.capabilities = front ++ c :: back ∧ c.name = n ∧
        (front.map Capability.name).Nodup ∧ n ∈ front.map Capability.name := by
  rw [bind_eq_duplicate_iff, duplicates, head?_repeats]
  constructor
  · rintro ⟨names, rest, he, hd, hn⟩
    obtain ⟨front, more, hc, rfl, hm⟩ := List.map_eq_append_iff.mp he
    obtain ⟨c, back, rfl, rfl, -⟩ := List.map_eq_cons_iff.mp hm
    exact ⟨front, c, back, hc, rfl, hd, hn⟩
  · rintro ⟨front, c, back, he, rfl, hd, hn⟩
    exact ⟨_, back.map Capability.name, by rw [he, List.map_append, List.map_cons], hd, hn⟩

theorem exists_bind_eq_duplicate (h : ¬ (host.capabilities.map Capability.name).Nodup) :
    ∃ n, host.bind name = .error (.duplicate host.name n) := by
  rw [← duplicates_eq_nil_iff] at h
  obtain ⟨n, more, hu⟩ := List.exists_cons_of_ne_nil h
  exact ⟨n, bind_eq_duplicate_iff.mpr (by rw [hu, List.head?_cons])⟩

end Rejection

/-- Nothing that a name does not lead to plays a part in compiling its story. -/
structure Confined (host : Host) (name : String) : Prop where
  /-- A host with the same capabilities where they matter compiles the same. -/
  agreeing : ∀ other, host.Agrees other name → Twins (host.bind name) (other.bind name)
  identical : ∀ other, host.Agrees other name → other.number = host.number →
    other.bind name = host.bind name
  permuted : ∀ other : Host, other.name = host.name →
    (host.capabilities.map Capability.name).Nodup → other.capabilities.Perm host.capabilities →
    Twins (host.bind name) (other.bind name)
  added : ∀ (other : Host) extra, other.name = host.name →
    (other.capabilities.map Capability.name).Nodup →
    other.capabilities.Perm (host.capabilities ++ extra) →
    (∀ c ∈ extra, ¬ host.Mentions name c.name) → Twins (host.bind name) (other.bind name)
  removed : ∀ (other : Host) extra, other.name = host.name →
    (host.capabilities.map Capability.name).Nodup →
    host.capabilities.Perm (other.capabilities ++ extra) →
    (∀ c ∈ extra, ¬ host.Mentions name c.name) → Twins (host.bind name) (other.bind name)
  /-- The tables may be asked in any order if no name is registered twice. -/
  order : (host.capabilities.map Capability.name).Nodup →
    ∀ order : List (String → Option Capability), order.Perm host.tables →
      ∀ n, order.findSome? (· n) = host.resolve n
  /-- A name that is registered twice is rejected before anything else. -/
  rejected : ¬ (host.capabilities.map Capability.name).Nodup →
    ∃ n, host.bind name = .error (.duplicate host.name n)
  earliest : ∀ n, host.bind name = .error (.duplicate host.name n) ↔
    ∃ front c back, host.capabilities = front ++ c :: back ∧ c.name = n ∧
      (front.map Capability.name).Nodup ∧ n ∈ front.map Capability.name

theorem confined_bind (host : Host) (name : String) : host.Confined name where
  agreeing := fun _ h => h.twins
  identical := fun other h hn => by
    -- the host agrees with itself, so what it compiles has its number already
    have hself : host.Agrees host name := ⟨rfl, h.distinct, h.distinct, fun _ _ => rfl⟩
    rw [h.bind_eq, hn, ← hself.bind_eq]
  permuted := fun other hname distinct hp => by
    have distinct' := (hp.map Capability.name).nodup_iff.mpr distinct
    exact (agrees_of_mem_iff hname distinct distinct' fun _ _ => hp.mem_iff).twins
  added := fun _ _ hname distinct' hp hx => (agrees_of_added hname hx distinct' hp).twins
  removed := fun _ _ hname distinct hp hx => (agrees_of_removed hname hx distinct hp).twins
  order := fun distinct _ ho _ => findSome?_eq_resolve distinct ho
  rejected := exists_bind_eq_duplicate
  earliest := fun _ => bind_eq_duplicate_iff_exists

end Host

end StoryEngine
