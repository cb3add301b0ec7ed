import StoryEngine.Demo.Report

/-! # The demonstration program

Prints the report of three purchases with the settings found in the environment.
-/

open StoryEngine

def main : IO UInt32 := do
  let width ← IO.getEnv Presenter.Config.widthKey
  let indent ← IO.getEnv Presenter.Config.indentKey
  let occasion : Occasion := ⟨⟨0⟩, fun _ => ⟨0, 0⟩⟩
  let (text, error) := Demo.report (.ofTexts width indent) occasion
  IO.print text
  match error with
  | none => return 0
  | some error =>
    IO.eprintln error.message
    return 1
