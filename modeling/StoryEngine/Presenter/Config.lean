import StoryEngine.Log
import StoryEngine.Text.Blank
import StoryEngine.Text.Integer
import StoryEngine.Text.Quoted

/-! # Presenter settings

The width from which a value moves to a line of its own, and the indentation of each level. A
setting that is absent or not a number of 64 bits leaves the default in force.
-/

namespace StoryEngine.Presenter

structure Config where
  maxLineWidth : Nat := 79
  indent : Nat := 2
  deriving DecidableEq

namespace Config

def widthKey : String := "STORYLINE_MAX_LINE_WIDTH"
def indentKey : String := "STORYLINE_INDENT"

def parse (raw : String) : Except Text.IntegerFault Nat :=
  (Text.readInteger 0 (Int.pow 2 64 - 1) (Text.trim raw)).map Int.toNat

def setting (raw : Option String) (standard : Nat) : Nat :=
  match raw.map parse with
  | some (.ok n) => n
  | _ => standard

/-- The settings for the texts found under the two keys. -/
def ofTexts (width indent : Option String) : Config where
  maxLineWidth := setting width 79
  indent := setting indent 2

/-- The line written about a text that is not a number. -/
def complaint (key : String) (raw : Option String) : List Line :=
  match raw with
  | none => []
  | some raw =>
    match parse raw with
    | .ok _ => []
    | .error _ =>
      [⟨.warn, s!"config:{key} invalid value " ++ Text.quoted raw ++ ", using default"⟩]

def complaints (width indent : Option String) : List Line :=
  complaint widthKey width ++ complaint indentKey indent

end Config

end StoryEngine.Presenter
