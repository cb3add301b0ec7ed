import StoryEngine.Story.Host

/-! # The journal of a compilation

The lines written while a story is compiled: one for each scene in the order of discovery, also
for those found before an error.
-/

namespace StoryEngine

mutual

def Scene.journal (host : Host) (origin : String) : Scene → List Line
  | .step name _ => [⟨.trace, s!"collect:step {host.label name}"⟩]
  | .story title true owner declaration _ =>
    let label := owner.host ++ "." ++ declaration.name
    [⟨.trace, s!"collect:injected {label} as {title} in {host.label origin}"⟩]
  | .story _ false _ declaration scenes =>
    ⟨.trace, s!"collect:substory {host.label declaration.name} in {host.label origin}"⟩ ::
      Scene.journalAll host declaration.name scenes

def Scene.journalAll (host : Host) (origin : String) : List Scene → List Line
  | [] => []
  | scene :: rest => scene.journal host origin ++ journalAll host origin rest

end

/-- The lines of `Host.compile`; an unknown story leaves none. -/
def Host.compileJournal (host : Host) (name : String) : List Line :=
  match host.declaration? name with
  | none => []
  | some declaration =>
    let survey := host.surveyStory declaration
    let label := host.label declaration.name
    let finish : List Line :=
      match survey.error with
      | some _ => []
      | none =>
        let trace := (Story.mk host.owner declaration survey.scenes).trace
        [⟨.debug, s!"collect:finish story={label} instructions={trace.size} " ++
          s!"fingerprint={trace.fingerprint}"⟩]
    ⟨.debug, s!"collect:start story={label}"⟩ ::
      (Scene.journalAll host declaration.name survey.scenes ++ finish)

/-- The lines of `Host.bind`; a name registered twice is refused before anything is written. -/
def Host.bindJournal (host : Host) (name : String) : List Line :=
  if host.duplicates.isEmpty then host.compileJournal name else []

end StoryEngine
