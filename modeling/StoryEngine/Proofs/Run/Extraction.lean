import StoryEngine.Proofs.Run.Endings
import StoryEngine.Proofs.Run.Places
import StoryEngine.Proofs.Run.Surroundings

/-! # Running an extracted part

A story of which a part was extracted runs as the whole one did, unless a step of the part itself
skips: it would leave out the rest of the part instead of the rest of the story. Besides, a failure
in the part has one story more in its chain.
-/

namespace StoryEngine

theorem Fate.Alike.verdict {below below' : List String} {fate fate' : Fate}
    (h : fate.Alike below below' fate') :
    Verdict.Alike below below' fate.verdict fate'.verdict := by
  cases h with
  | finished | skipped => exact .completed
  | halted hv => exact hv

theorem Fate.Alike.finished_iff {below below' : List String} {fate fate' : Fate}
    (h : fate.Alike below below' fate') : fate = .finished ↔ fate' = .finished := by
  cases h <;> simp

theorem Fate.Alike.skipped_iff {below below' : List String} {fate fate' : Fate}
    (h : fate.Alike below below' fate') : fate = .skipped ↔ fate' = .skipped := by
  cases h <;> simp

def Passage.EndsAs (passage other : Passage) : Prop :=
  passage.context = other.context ∧ passage.fate = other.fate

theorem Passage.Alike.congr {below below' : List String} {p p' q q' : Passage}
    (h : q.Alike below below' q') (hp : p.EndsAs q) (hp' : p'.EndsAs q') :
    p.Alike below below' p' where
  context := by rw [hp.1, hp'.1, h.context]
  fate := by rw [hp.2, hp'.2]; exact h.fate

theorem Passage.leave_endsAs {body : Passage} (h : body.fate ≠ .skipped) (story : Origin)
    (depth : Nat) : (body.leave story depth).EndsAs body := by
  unfold leave
  cases hf : body.fate with
  | finished => exact ⟨rfl, hf.symm⟩
  | skipped => exact absurd hf h
  | halted verdict => exact ⟨rfl, rfl⟩

/-- Two runs that end in the same way; `inside` says whether the first one ends within the part,
whose label a failure has besides in the second one. -/
inductive Verdict.Agrees (part root : String) (inside : Prop) : Verdict → Verdict → Prop where
  | completed : Agrees part root inside (.ok .completed) (.ok .completed)
  | returned (value : Value) :
      Agrees part root inside (.ok (.returned value)) (.ok (.returned value))
  | failed_inside (step : String) (reason : Option String) (inner : List String) : inside →
      Agrees part root inside (.ok (.failed ⟨step, reason, inner ++ [root]⟩))
        (.ok (.failed ⟨step, reason, inner ++ [part, root]⟩))
  | failed_outside (step : String) (reason : Option String) (inner : List String) : ¬ inside →
      Agrees part root inside (.ok (.failed ⟨step, reason, inner ++ [root]⟩))
        (.ok (.failed ⟨step, reason, inner ++ [root]⟩))
  | errored {error error' : StoryError} : error'.kind = error.kind →
      Agrees part root inside (.error error) (.error error')

section Agrees

variable {part root : String} {inside : Prop} {verdict verdict' : Verdict}

theorem Verdict.Alike.agrees_inside (h : verdict.Alike [root] [part, root] verdict')
    (hi : verdict ≠ .ok .completed → inside) : verdict.Agrees part root inside verdict' := by
  cases h with
  | completed => exact .completed
  | returned value => exact .returned value
  | failed step reason inner => exact .failed_inside step reason inner (hi nofun)
  | errored hk => exact .errored hk

theorem Verdict.Alike.agrees_outside (h : verdict.Alike [root] [root] verdict')
    (ho : verdict ≠ .ok .completed → ¬ inside) : verdict.Agrees part root inside verdict' := by
  cases h with
  | completed => exact .completed
  | returned value => exact .returned value
  | failed step reason inner => exact .failed_outside step reason inner (ho nofun)
  | errored hk => exact .errored hk

end Agrees

theorem Fate.exists_halted {fate : Fate} (h : fate.verdict ≠ .ok .completed) :
    ∃ verdict, fate = .halted verdict := by
  cases fate with
  | finished | skipped => exact absurd rfl h
  | halted verdict => exact ⟨verdict, rfl⟩

namespace Story

theorem pass_singleton (story : Story) (place : Nat) (context : Context) (scene : Scene) :
    (story.pass place context [scene]).EndsAs
      (scene.evaluate story.owner story.root [] place context) := by
  rw [pass, Scene.evaluateAll]
  cases hf : (scene.evaluate story.owner story.root [] place context).fate with
  | finished | skipped => exact ⟨rfl, hf.symm⟩
  | halted verdict => exact ⟨rfl, rfl⟩

section Three

variable {story : Story} {context next : Context} {us vs ws : List Scene}

theorem pass_endsAs_first (h : (story.pass 0 context us).fate ≠ .finished) :
    (story.pass 0 context (us ++ vs ++ ws)).EndsAs (story.pass 0 context us) := by
  rw [List.append_assoc]
  exact (evaluateAll_append_of_ne_finished _ _ _ h _).symm

variable (h : (story.pass 0 context us).fate = .finished)
  (hc : (story.pass 0 context us).context = next)

include h hc

theorem pass_endsAs_second (hv : (story.pass us.length next vs).fate ≠ .finished) :
    (story.pass 0 context (us ++ vs ++ ws)).EndsAs (story.pass us.length next vs) := by
  subst hc
  rw [List.append_assoc, pass_append_of_finished h, Nat.zero_add]
  exact (evaluateAll_append_of_ne_finished _ _ _ hv _).symm

theorem pass_endsAs_third {last : Context} (hv : (story.pass us.length next vs).fate = .finished)
    (hl : (story.pass us.length next vs).context = last) :
    (story.pass 0 context (us ++ vs ++ ws)).EndsAs
      (story.pass (us.length + vs.length) last ws) := by
  subst hc hl
  rw [List.append_assoc, pass_append_of_finished h, Nat.zero_add, pass_append_of_finished hv]
  exact ⟨rfl, rfl⟩

end Three

theorem perform_of_pass {story : Story} {arguments : Arguments} {context : Context}
    (ho : story.root.opening arguments = .ok context) :
    (story.perform arguments).context = (story.pass 0 context story.scenes).context ∧
      (story.perform arguments).verdict = (story.pass 0 context story.scenes).fate.verdict := by
  have hp : (story.perform arguments) =
      (story.pass 0 context story.scenes).run.framed story.label story.fingerprint := by
    rw [perform_eq_evaluate, evaluate, ho]
    rfl
  rw [hp, ← Passage.verdict_run, ← Passage.context_run]
  exact ⟨rfl, rfl⟩

section Ends

variable {story : Story} {arguments : Arguments} {context : Context} {xs ys zs : List Scene}
  (hs : story.scenes = xs ++ ys ++ zs) (ho : story.root.opening arguments = .ok context)
  (hv : (story.perform arguments).verdict ≠ .ok .completed)

include hs ho hv

theorem not_endsBetween_of_before (hx : (story.pass 0 context xs).fate ≠ .finished) :
    ¬ story.EndsBetween arguments xs.length (xs.length + ys.length) := by
  have hp : (story.pass 0 context story.scenes).EndsAs (story.pass 0 context xs) :=
    hs ▸ pass_endsAs_first hx
  rw [(perform_of_pass ho).2, hp.2] at hv
  obtain ⟨verdict, hf⟩ := Fate.exists_halted hv
  have hle := length_turns_le_offset (hs.trans (List.append_assoc xs ys zs)) ho hf
  rintro ⟨k, hk, hb, -⟩
  omega

variable {next : Context} (hx : (story.pass 0 context xs).fate = .finished)
  (hc : (story.pass 0 context xs).context = next)

include hx hc

theorem endsBetween_of_within (hy : (story.pass xs.length next ys).fate ≠ .finished) :
    story.EndsBetween arguments xs.length (xs.length + ys.length) := by
  have hlt := offset_lt_length_turns (hs.trans (List.append_assoc xs ys zs)) ho hx hv
  have hp : (story.pass 0 context story.scenes).EndsAs (story.pass xs.length next ys) :=
    hs ▸ pass_endsAs_second hx hc hy
  rw [(perform_of_pass ho).2, hp.2] at hv
  obtain ⟨verdict, hf⟩ := Fate.exists_halted hv
  have hxy : (story.pass 0 context (xs ++ ys)).fate = .halted verdict := by
    rw [pass_append_of_finished hx, hc, Nat.zero_add]
    exact hf
  have hle := length_turns_le_offset hs ho hxy
  rw [List.length_append] at hle
  exact ⟨(story.turns arguments).length - 1, by omega, by omega, by omega⟩

theorem not_endsBetween_of_after (hy : (story.pass xs.length next ys).fate = .finished) :
    ¬ story.EndsBetween arguments xs.length (xs.length + ys.length) := by
  have hxy : (story.pass 0 context (xs ++ ys)).fate = .finished := by
    rw [pass_append_of_finished hx, hc, Nat.zero_add]
    exact hy
  have hlt := offset_lt_length_turns hs ho hxy hv
  rw [List.length_append] at hlt
  rintro ⟨k, hk, -, hb⟩
  omega

end Ends

namespace Extracts

variable {story story' : Story} {name : String} {middle : List String} {xs ys zs : List Scene}
  (h : story.Extracts story' name middle xs ys zs)

include h

theorem root_eq : ∃ body, story'.root =
    ⟨story.owner.host, story.declaration.withBody body, []⟩ := by
  obtain ⟨body, hb⟩ := h.declaration_eq
  exact ⟨body, by rw [root, h.host_eq, hb]⟩

theorem label_eq : story'.label = story.label := by
  obtain ⟨body, hr⟩ := h.root_eq
  rw [label, hr]
  rfl

theorem opening_eq (arguments : Arguments) :
    story'.root.opening arguments = story.root.opening arguments := by
  obtain ⟨body, hr⟩ := h.root_eq
  rw [hr]
  rfl

theorem failures_eq :
    story'.root.declaration.failures = story.root.declaration.failures := by
  obtain ⟨body, hr⟩ := h.root_eq
  rw [hr]
  rfl

theorem stacksAlike_root : StacksAlike [story.label] [story.label] [story.root] [story'.root] := by
  obtain ⟨body, hr⟩ := h.root_eq
  refine ⟨?_, [], rfl, congrArg ([·]) h.label_eq⟩
  rw [judges_cons, judges_cons, hr]
  rfl

theorem stacksAlike_part (site : List Nat) : StacksAlike [story.label]
    [Origin.label ⟨story'.owner.host, story.declaration.part name middle, site⟩, story.label]
    [story.root] [⟨story'.owner.host, story.declaration.part name middle, site⟩, story'.root] := by
  refine ⟨?_, [], rfl, ?_⟩
  · rw [judges_cons, ← h.stacksAlike_root.judges]
    rfl
  · rw [← h.label_eq]
    rfl

theorem alike_pass {us us' : List Scene} (hu : Scene.RenumberedAll us us') (place place' : Nat)
    (context : Context) : (story.pass place context us).Alike [story.label] [story.label]
      (story'.pass place' context us') :=
  Scene.evaluateAll_alike h.host_eq h.stacksAlike_root h.failures_eq place place' context hu

/-- The part goes as its scenes do in the whole story, unless they are left by a skip. -/
theorem alike_part {us us' : List Scene} (hu : Scene.RenumberedAll us us') (place place' : Nat)
    (context : Context) (hs : (story.pass place context us).fate ≠ .skipped) :
    (story.pass place context us).Alike [story.label]
      [story.owner.host ++ "." ++ name, story.label]
      (story'.pass place' context
        [.story name false story'.owner (story.declaration.part name middle) us']) := by
  let part : Origin := ⟨story'.owner.host, story.declaration.part name middle, [place']⟩
  have hl : part.label = story.owner.host ++ "." ++ name := by
    rw [← h.host_eq]
    rfl
  have hb := Scene.evaluateAll_alike h.host_eq (h.stacksAlike_part [place']) rfl place 0 context hu
  rw [hl] at hb
  have hs' : (Scene.evaluateAll story'.owner part [story'.root] 0 context us').fate ≠ .skipped :=
    fun he => hs (hb.fate.skipped_iff.mpr he)
  have hscene := story'.pass_singleton place' context
    (.story name false story'.owner (story.declaration.part name middle) us')
  have hleave := Passage.leave_endsAs hs' part 1
  exact hb.congr ⟨rfl, rfl⟩ ⟨hscene.1.trans hleave.1, hscene.2.trans hleave.2⟩

section Passes

variable (context : Context)

theorem alike_before (hx : (story.pass 0 context xs).fate ≠ .finished) :
    (story.pass 0 context story.scenes).Alike [story.label] [story.label]
      (story'.pass 0 context story'.scenes) := by
  obtain ⟨xs', ys', zs', hxn, -, -, hs'⟩ := h.parted
  have ha := h.alike_pass hxn 0 0 context
  have hx' := mt ha.fate.finished_iff.mpr hx
  rw [h.scenes_eq, hs', List.append_cons]
  exact ha.congr (pass_endsAs_first hx) (pass_endsAs_first hx')

variable {next : Context} (hx : (story.pass 0 context xs).fate = .finished)
  (hc : (story.pass 0 context xs).context = next)
  (hn : (story.pass xs.length next ys).fate ≠ .skipped)

include hx hc hn

theorem alike_within (hy : (story.pass xs.length next ys).fate ≠ .finished) :
    (story.pass 0 context story.scenes).Alike [story.label]
      [story.owner.host ++ "." ++ name, story.label] (story'.pass 0 context story'.scenes) := by
  obtain ⟨xs', ys', zs', hxn, hyn, -, hs'⟩ := h.parted
  have ha := h.alike_pass hxn 0 0 context
  have hp := h.alike_part hyn xs.length xs'.length next hn
  have hx' := ha.fate.finished_iff.mp hx
  have hy' := mt hp.fate.finished_iff.mpr hy
  rw [h.scenes_eq, hs', List.append_cons]
  exact hp.congr (pass_endsAs_second hx hc hy) (pass_endsAs_second hx' (ha.context.trans hc) hy')

theorem alike_after (hy : (story.pass xs.length next ys).fate = .finished) :
    (story.pass 0 context story.scenes).Alike [story.label] [story.label]
      (story'.pass 0 context story'.scenes) := by
  obtain ⟨xs', ys', zs', hxn, hyn, hzn, hs'⟩ := h.parted
  have ha := h.alike_pass hxn 0 0 context
  have hp := h.alike_part hyn xs.length xs'.length next hn
  have hx' := ha.fate.finished_iff.mp hx
  have hy' := hp.fate.finished_iff.mp hy
  rw [h.scenes_eq, hs', List.append_cons]
  exact (h.alike_pass hzn _ _ _).congr (pass_endsAs_third hx hc hy rfl)
    (pass_endsAs_third hx' (ha.context.trans hc) hy' hp.context)

end Passes

/-- The two stories come to the same, unless a step of the part itself skips in the whole one. -/
theorem agrees_perform (arguments : Arguments)
    (hskip : story.NeverSkips arguments xs.length (xs.length + ys.length)) :
    (story'.perform arguments).context = (story.perform arguments).context ∧
      Verdict.Agrees (story.owner.host ++ "." ++ name) story.label
        (story.EndsBetween arguments xs.length (xs.length + ys.length))
        (story.perform arguments).verdict (story'.perform arguments).verdict := by
  cases ho : story.root.opening arguments with
  | error error =>
    rw [perform_of_refused ho, perform_of_refused ((h.opening_eq arguments).trans ho)]
    dsimp only [Run.framed, Run.rejected]
    exact ⟨rfl, .errored rfl⟩
  | ok context =>
    obtain ⟨hpc, hpv⟩ := perform_of_pass ho
    obtain ⟨hpc', hpv'⟩ := perform_of_pass ((h.opening_eq arguments).trans ho)
    have hs := h.scenes_eq
    rw [hpc, hpc', hpv, hpv']
    by_cases hx : (story.pass 0 context xs).fate = .finished
    case neg =>
      have ha := h.alike_before context hx
      refine ⟨ha.context, ha.fate.verdict.agrees_outside fun hv => ?_⟩
      exact not_endsBetween_of_before hs ho (hpv ▸ hv) hx
    case pos =>
      have hn : (story.pass xs.length (story.pass 0 context xs).context ys).fate ≠ .skipped := by
        intro hk
        obtain ⟨k, walker, i, hr, hi, hb, hroot, hk⟩ := exists_skips hs ho hx hk
        exact hskip k walker i hr hi hb hroot hk
      by_cases hy : (story.pass xs.length (story.pass 0 context xs).context ys).fate = .finished
      case pos =>
        have ha := h.alike_after context hx rfl hn hy
        refine ⟨ha.context, ha.fate.verdict.agrees_outside fun hv => ?_⟩
        exact not_endsBetween_of_after hs ho (hpv ▸ hv) hx rfl hy
      case neg =>
        have ha := h.alike_within context hx rfl hn hy
        refine ⟨ha.context, ha.fate.verdict.agrees_inside fun hv => ?_⟩
        exact endsBetween_of_within hs ho (hpv ▸ hv) hx rfl hy

end Extracts

end Story

/-- The extraction of a part of a body keeps what a call of the story comes to. -/
theorem Host.agrees_of_extracts {a b : Host} {whole : Declaration}
    {before middle after : List String} {name : String} {story : Story}
    (h : a.Extracts b whole before middle after name) (hp : a.bind whole.name = .ok story) :
    ∃ story', b.bind whole.name = .ok story' ∧ ∀ occasion occasion' arguments,
      story.NeverSkips arguments before.length (before.length + middle.length) →
        (story'.execute occasion' arguments).context =
          (story.execute occasion arguments).context ∧
        Verdict.Agrees (a.label name) (a.label whole.name)
          (story.EndsBetween arguments before.length (before.length + middle.length))
          (story.execute occasion arguments).verdict
          (story'.execute occasion' arguments).verdict := by
  obtain ⟨xs, ys, zs, story', hb, hx, hy, he⟩ := h.exists_bind hp
  obtain ⟨distinct, hd, ho, -⟩ := bind_eq_ok_iff_resolves.mp hp
  have hn := ((declaration?_eq_some_iff distinct).mp hd).2
  have hl : story.label = a.label whole.name := by
    rw [Story.label, Origin.label, Story.root, hn, ho]
    rfl
  have hpart : story.owner.host ++ "." ++ name = a.label name := by
    rw [ho]
    rfl
  refine ⟨story', hb, fun occasion occasion' arguments hskip => ?_⟩
  rw [← hx, ← hy] at hskip ⊢
  rw [← hl, ← hpart]
  exact he.agrees_perform arguments hskip

namespace Demo

/-- A shop where the goods of a purchase are priced and reserved in a story of their own. -/
def partedShop (unitPrice : Int) (reserve : Story) : Host :=
  { Shop.host unitPrice reserve with
    capabilities := .story (Shop.purchase.part "prepare" ["price", "reserve"]) ::
      (Shop.host unitPrice reserve).capabilities.map
        (Capability.withBody "purchase" ["prepare", "discount", "receipt"]) }

theorem extracts_partedShop (unitPrice : Int) (reserve : Story) :
    (Shop.host unitPrice reserve).Extracts (partedShop unitPrice reserve) Shop.purchase []
      ["price", "reserve"] ["discount", "receipt"] "prepare" where
  declared := by simp [Shop.host]
  body_eq := rfl
  fresh := by simp [Shop.host, Capability.name, Shop.discount, Shop.purchase]
  name_eq := rfl
  capabilities_perm := .refl _

def scantyShop : Story := purchased 5 (reserved 2)

theorem neverSkips_scantyShop : scantyShop.NeverSkips order 0 2 := by
  rintro k walker i ⟨context, ho, hw⟩ hi ⟨-, hk⟩ hroot ⟨-, name, step, ha, hs⟩
  have hk : k < 5 := hk
  match k, hk with
  | 0, _ =>
    obtain rfl : ordered = context := Except.ok.inj ho
    obtain rfl := Option.some.inj hw
    obtain rfl := Option.some.inj hi
    cases ha
    have hr : (Shop.price 5).run ordered = .ok (setting "total" 15) := rfl
    cases hr.symm.trans hs
  | 1, _ | 4, _ =>
    obtain rfl := Option.some.inj hi
    cases ha
  | 2, _ | 3, _ =>
    obtain rfl := Option.some.inj hi
    cases congrArg Origin.site hroot

/-- Where too few pieces are left, the failure has one more story in its chain. -/
theorem agrees_partedShop : ∃ story', (partedShop 5 (reserved 2)).bind "purchase" = .ok story' ∧
    (story'.execute occasion order).context = (scantyShop.execute occasion order).context ∧
    Verdict.Agrees "Shop.prepare" "Shop.purchase" (scantyShop.EndsBetween order 0 2)
      (.ok (.failed ⟨"check_stock", some outOfStock, ["Inventory.reserve", "Shop.purchase"]⟩))
      (story'.execute occasion order).verdict := by
  obtain ⟨story', hb, ha⟩ := Host.agrees_of_extracts (extracts_partedShop 5 (reserved 2))
    (bind_purchase 5 (reserved 2))
  exact ⟨story', hb, ha occasion occasion order neverSkips_scantyShop⟩

end Demo

end StoryEngine
