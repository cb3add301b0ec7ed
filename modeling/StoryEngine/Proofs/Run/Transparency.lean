import StoryEngine.Proofs.Run.Evaluation
import StoryEngine.Proofs.Story.Injection
import StoryEngine.Proofs.Story.Layout

/-! # Transparency of injection

A host that is given the compiled form of a story where another host declares it runs all its
stories alike. The records are told apart by the flag in the events of entering the one story; for
this each event is kept with the instruction that caused it.
-/

namespace StoryEngine

def Walker.chronicle (walker : Walker) : List Instruction → List (Instruction × EventKind)
  | [] => []
  | instruction :: rest =>
    match walker.visit instruction with
    | (events, .on next) => events.map (instruction, ·) ++ next.chronicle rest
    | (events, .halt _) => events.map (instruction, ·)

theorem Walker.map_snd_chronicle (walker : Walker) (is : List Instruction) :
    (walker.chronicle is).map Prod.snd = (walk walker is).events := by
  induction is generalizing walker with
  | nil => rfl
  | cons i is ih =>
    rw [chronicle, walk]
    cases walker.visit i with
    | mk events move =>
      cases move with
      | on next => simp [ih, Run.after, Function.comp_def]
      | halt verdict => simp [Function.comp_def]

namespace Story

/-- The events of a call, each with the instruction that caused it, if one did. -/
def chronicle (story : Story) (arguments : Arguments) : List (Option Instruction × EventKind) :=
  let passed : List (Option Instruction × EventKind) :=
    match story.root.opening arguments with
    | .ok context =>
      ((Walker.start story.root context).chronicle story.trace.instructions).map
        fun (instruction, event) => (some instruction, event)
    | .error error => (Run.rejected error).events.map (none, ·)
  (none, .storyStarted story.label story.fingerprint) :: passed ++
    [(none, .storyFinished (story.perform arguments).verdict.status)]

theorem map_snd_chronicle (story : Story) (arguments : Arguments) :
    (story.chronicle arguments).map Prod.snd = (story.perform arguments).events := by
  have hr : story.trace.root = story.root := rfl
  unfold chronicle perform Trace.perform
  rw [hr]
  cases story.root.opening arguments with
  | error error => rfl
  | ok context =>
    simp only [Run.framed, List.map_append, List.map_cons, List.map_map, List.map_nil,
      ← Walker.map_snd_chronicle]
    rfl

end Story

def EventKind.asInjected : EventKind → EventKind
  | .substoryEntered name story _ depth => .substoryEntered name story true depth
  | event => event

/-- An event, said to be of an injected story if a marked instruction caused it. -/
def recastEvent (mark : Instruction → Bool) (entry : Option Instruction × EventKind) : EventKind :=
  if entry.1.any mark then entry.2.asInjected else entry.2

section Recast

variable {mark : Instruction → Bool} {i i' : Instruction}

theorem Walker.perform_congr {owner owner' : Owner} (h : owner'.host = owner.host)
    (walker : Walker) (origin : Origin) (name : String) (step : Step) :
    walker.perform owner' origin name step = walker.perform owner origin name step := by
  have hs : walker.settle owner' origin name = walker.settle owner origin name := by
    funext outcome
    match outcome with
    | none => rfl
    | some .skip => rfl
    | some (.result value) => rfl
    | some (.failure reason) => simp only [settle, h]
    | some (.success outputs) => simp only [settle, h]
  simp only [perform, h, hs]

theorem map_recastEvent_of_eq_false (h : mark i = false) (events : List EventKind) :
    (events.map fun event => recastEvent mark (some i, event)) = events := by
  simp [recastEvent, h]

variable (hmark : ∀ i : Instruction, i.entered? = none → mark i = false)

include hmark

theorem Walker.visit_recast (h : i.Recast mark i') (walker : Walker) :
    walker.visit i' = ((walker.visit i).1.map fun event => recastEvent mark (some i, event),
      (walker.visit i).2) := by
  obtain ⟨active, skipping, context⟩ := walker
  obtain ⟨owner, action, origin⟩ := i
  obtain ⟨owner', action', origin'⟩ := i'
  obtain ⟨ho, hor, ha⟩ := h
  obtain rfl : origin' = origin := hor
  have ho' : owner'.host = owner.host := ho
  cases action with
  | step name step =>
    have hm : mark ⟨owner, .step name step, origin'⟩ = false := hmark _ rfl
    obtain rfl : action' = .step name step := by simpa [hm] using ha
    rw [map_recastEvent_of_eq_false hm]
    cases skipping with
    | none => exact Walker.perform_congr ho' _ _ _ _
    | some level => simp only [visit_bypassed_step, ho']
  | enter story title injected =>
    cases hm : mark ⟨owner, .enter story title injected, origin'⟩ with
    | false =>
      obtain rfl : action' = .enter story title injected := by simpa [hm] using ha
      rw [map_recastEvent_of_eq_false hm]
      cases skipping <;> rfl
    | true =>
      obtain rfl : action' = .enter story title true := by
        simpa [hm, Action.asInjected] using ha
      simp only [recastEvent, Option.any_some, hm, if_true]
      cases skipping with
      | none =>
        rw [visit_enter, visit_enter, enter, enter]
        cases Walker.checkEntry ⟨active, none, context⟩ story <;> rfl
      | some level => rfl
  | exit story =>
    have hm : mark ⟨owner, .exit story, origin'⟩ = false := hmark _ rfl
    obtain rfl : action' = .exit story := by simpa [hm] using ha
    rw [map_recastEvent_of_eq_false hm]
    rfl

theorem walk_recast {is is' : List Instruction} (h : List.Forall₂ (Instruction.Recast mark) is is')
    (walker : Walker) :
    walk walker is' = { walk walker is with
      events := (walker.chronicle is).map fun (i, event) => recastEvent mark (some i, event) } := by
  induction h generalizing walker with
  | nil => rfl
  | @cons i i' is is' hi _ ih =>
    have hv := walker.visit_recast hmark hi
    rw [Walker.chronicle, walk, walk, hv]
    cases walker.visit i with
    | mk events move =>
      cases move with
      | on next => simp [ih, Run.after, Function.comp_def]
      | halt verdict => simp [Function.comp_def]

theorem Story.perform_recast {story story' : Story} (hroot : story'.root = story.root)
    (hfp : story'.fingerprint = story.fingerprint)
    (h : List.Forall₂ (Instruction.Recast mark) story.trace.instructions
      story'.trace.instructions) (arguments : Arguments) :
    story'.perform arguments = { story.perform arguments with
      events := (story.chronicle arguments).map (recastEvent mark) } := by
  have hr : story.trace.root = story.root := rfl
  have hr' : story'.trace.root = story.root := hroot
  have hl : story.root.label = story.label := rfl
  have hf : story.trace.fingerprint = story.fingerprint := rfl
  have hf' : story'.trace.fingerprint = story.fingerprint := hfp
  unfold chronicle perform Trace.perform
  rw [hr, hr', hf, hf', hl]
  cases story.root.opening arguments with
  | error error => rfl
  | ok context =>
    simp only [walk_recast hmark h]
    simp [Run.framed, recastEvent, Function.comp_def]

end Recast

/-- The second story has the trace of the first and runs like it, but it is said to be given the
story of a name that the first one's host declares. -/
structure Host.Transparent (host : Host) (name : String) (story story' : Story) : Prop where
  labels_eq : story'.trace.labels = story.trace.labels
  fingerprint_eq : story'.fingerprint = story.fingerprint
  verdict_eq : ∀ occasion arguments,
    (story'.execute occasion arguments).verdict = (story.execute occasion arguments).verdict
  context_eq : ∀ occasion arguments,
    (story'.execute occasion arguments).context = (story.execute occasion arguments).context
  kinds_eq : ∀ occasion arguments,
    (story.execute occasion arguments).kinds = (story.chronicle arguments).map Prod.snd ∧
    (story'.execute occasion arguments).kinds =
      (story.chronicle arguments).map (recastEvent (host.enters story.declaration name))

/-- A story of a host that declares the one `declaration` of its stories, and the same story of a
host that is given what this one is compiled to, are alike in every run. -/
theorem Host.transparent_of_injects {a : Host} {p : String} {story : Story}
    {declaration : Declaration} (hp : a.bind p = .ok story) (hr : a.Reaches p declaration)
    (hne : declaration.name ≠ p) :
    ∃ sub, a.bind declaration.name = .ok sub ∧ ∀ b, a.Injects b declaration.name sub →
      ∃ story', b.bind p = .ok story' ∧ a.Transparent declaration.name story story' := by
  obtain ⟨sub, hs⟩ := exists_bind_of_reaches hp hr
  refine ⟨sub, hs, fun b hb => ⟨_, hb.bind hp hs hne, ?_⟩⟩
  have hi := hb.recast hp hr
  have hroot := hb.root_inject hp
  have hlabels : (story.inject declaration.name b.owner).trace.labels = story.trace.labels :=
    map_label_of_forall₂ (fun _ _ hr => hr.label_eq) hi
  have htrace : (story.inject declaration.name b.owner).trace.root = story.trace.root := hroot
  have hfp : (story.inject declaration.name b.owner).fingerprint = story.fingerprint :=
    Trace.fingerprint_congr (by rw [htrace]) (by rw [htrace]) hlabels
  have hrun := Story.perform_recast (fun _ hn => by rw [enters, hn, Option.any_none]) hroot hfp hi
  refine ⟨hlabels, hfp, ?_, ?_, ?_⟩
  · intro occasion arguments
    simp only [Story.execute, hrun]
  · intro occasion arguments
    simp only [Story.execute, hrun]
  · intro occasion arguments
    rw [Story.map_snd_chronicle]
    refine ⟨occasion.map_kind_stamp _, ?_⟩
    rw [Execution.kinds, Story.execute, hrun]
    exact occasion.map_kind_stamp _

namespace Demo

/-- A shop that is given its discount, with its capabilities registered the other way round. -/
def Shop.discounting (discount : Story) : Host where
  name := "Shop"
  number := 2
  capabilities :=
    ((Shop.host 5 (reserved 20)).capabilities.map (Capability.inject "discount" discount)).reverse

def entries (kinds : List EventKind) : List (String × Bool) := kinds.filterMap fun
  | .substoryEntered name _ injected _ => some (name, injected)
  | _ => none

theorem transparent_discount :
    ∃ discount, (Shop.host 5 (reserved 20)).bind "discount" = .ok discount ∧
      ∃ story, (Shop.discounting discount).bind "purchase" = .ok story ∧
        story.fingerprint = smallShop.fingerprint ∧
        (story.execute occasion order).verdict = (smallShop.execute occasion order).verdict ∧
        entries (smallShop.execute occasion order).kinds =
          [("reserve", true), ("discount", false)] ∧
        entries (story.execute occasion order).kinds = [("reserve", true), ("discount", true)] := by
  have hb : (Shop.host 5 (reserved 20)).bind "purchase" = .ok smallShop := bind_purchase 5 _
  have hd : Capability.story Shop.discount ∈ (Shop.host 5 (reserved 20)).capabilities := by
    simp [Shop.host]
  have hp : Capability.story Shop.purchase ∈ (Shop.host 5 (reserved 20)).capabilities := by
    simp [Shop.host]
  have hr : (Shop.host 5 (reserved 20)).Reaches "purchase" Shop.discount :=
    ⟨Shop.purchase, hp, rfl, .single ⟨hd, by decide⟩⟩
  obtain ⟨discount, hs, h⟩ := Host.transparent_of_injects hb hr (by decide)
  obtain ⟨story, hb', ht⟩ := h (Shop.discounting discount) ⟨rfl, List.reverse_perm _⟩
  obtain ⟨hk, hk'⟩ := ht.kinds_eq occasion order
  exact ⟨discount, hs, story, hb', ht.fingerprint_eq, ht.verdict_eq occasion order,
    (congrArg entries hk).trans rfl, (congrArg entries hk').trans rfl⟩

end Demo

end StoryEngine
