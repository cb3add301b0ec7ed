import StoryEngine.Proofs.Context.Binding
import StoryEngine.Proofs.Run.Turns

/-! # Accepted and refused calls

A run depends on a call through the pairs that it is bound to. So pairs in any order and, where the
declared names are distinct, values in their places make the same run; and a call that is refused
makes none.
-/

namespace StoryEngine

namespace Story

variable {story : Story} {a b : Arguments}

/-- Executions that differ in nothing but their number and their times. -/
def Alike (story : Story) (a b : Arguments) : Prop :=
  ∀ o o' : Occasion, (story.execute o a).kinds = (story.execute o' b).kinds ∧
    (story.execute o a).context = (story.execute o' b).context ∧
    (story.execute o a).verdict = (story.execute o' b).verdict

theorem perform_congr
    (h : a.bind story.label story.arguments = b.bind story.label story.arguments) :
    story.perform a = story.perform b := by
  have ho : story.root.opening a = story.root.opening b := by
    unfold Origin.opening
    exact congrArg (· >>= _) h
  rw [perform, perform, Trace.perform, Trace.perform]
  exact ho ▸ rfl

theorem alike_of_bind
    (h : a.bind story.label story.arguments = b.bind story.label story.arguments) :
    story.Alike a b := by
  intro o o'
  rw [kinds_execute, kinds_execute, execute, execute, perform_congr h]
  exact ⟨rfl, rfl, rfl⟩

def Refuses (story : Story) (a : Arguments) (error : ContractError) : Prop :=
  a.bind story.label story.arguments = .error error ∨
    ∃ bound, a.bind story.label story.arguments = .ok bound ∧
      story.declaration.checkVariables story.label bound = .error error

theorem opening_of_refuses {error : ContractError} (h : story.Refuses a error) :
    story.root.opening a = .error error := by
  have hl : story.root.label = story.label := rfl
  have hd : story.root.declaration = story.declaration := rfl
  have ha : story.declaration.arguments = story.arguments := rfl
  rw [Origin.opening, hl, hd, ha]
  rcases h with hb | ⟨bound, hb, hc⟩
  · rw [hb]
    rfl
  · rw [hb]
    exact congrArg (· >>= fun _ => _) hc

end Story

/-- The law of a call: which answer it gets from which declaration, and what an execution takes
over from it. -/
structure Call.Lawful (call : Call) : Prop where
  answers : ∀ story declared answer, call.arguments.bind story declared = answer ↔
    Answers story declared call.placed call.named answer
  reordered : ∀ (story : Story) (bound : List (String × Value)) (other : Call),
    call.placed = [] → other.placed = [] → call.named.Perm other.named →
    call.arguments.bind story.label story.arguments = .ok bound →
    other.arguments.bind story.label story.arguments = .ok bound ∧
      story.Alike call.arguments other.arguments
  placed : ∀ (story : Story) (bound : List (String × Value)) (other : Call),
    story.arguments.Nodup → other.placed = bound.map Prod.snd → other.named = [] →
    call.arguments.bind story.label story.arguments = .ok bound →
    other.arguments.bind story.label story.arguments = .ok bound ∧
      story.Alike call.arguments other.arguments
  refused : ∀ (story : Story) (error : ContractError) (occasion : Occasion),
    story.Refuses call.arguments error →
    (story.execute occasion call.arguments).kinds =
        [.storyStarted story.label story.fingerprint,
          .errored (StoryError.contract error).kind (StoryError.contract error).message 0,
          .storyFinished .errored] ∧
      (story.execute occasion call.arguments).context = .empty ∧
      (story.execute occasion call.arguments).verdict = .error (.contract error) ∧
      story.turns call.arguments = []

/-- A call is taken for its values and its pairs. -/
theorem call_lawful (call : Call) : call.Lawful where
  answers story declared answer := call.bind_eq_iff story declared
  reordered story bound other hc ho hp hb := by
    have ha := (call.bind_eq_iff story.label story.arguments).mp hb
    rw [hc] at ha
    have hb' := (other.bind_eq_iff story.label story.arguments).mpr (ho ▸ ha.perm hp)
    exact ⟨hb', Story.alike_of_bind (hb.trans hb'.symm)⟩
  placed story bound other hd hp hk hb := by
    have ha := (call.bind_eq_iff story.label story.arguments).mp hb
    have hb' := (other.bind_eq_iff story.label story.arguments).mpr
      (hp ▸ hk ▸ Answers.of_placed (ha.map_fst_of_nodup hd))
    exact ⟨hb', Story.alike_of_bind (hb.trans hb'.symm)⟩
  refused story error occasion hr := by
    have ho := Story.opening_of_refuses hr
    rw [Story.kinds_execute, Story.execute, Story.perform_of_refused ho]
    exact ⟨rfl, rfl, rfl, Story.turns_of_refused ho⟩

end StoryEngine
