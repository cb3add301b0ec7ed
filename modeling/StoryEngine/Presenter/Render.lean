import StoryEngine.Presenter.Config
import StoryEngine.Run.Execution

/-! # Presenting executions

An execution is shown as an indented list of the steps and sub-stories that were carried out, with
a note on the line where something happened, and a block of its variables with their origins.
-/

namespace StoryEngine.Presenter

variable (config : Config)

def spaces (n : Nat) : String := String.ofList (List.replicate n ' ')

def pad (depth : Nat) : String := spaces (depth * config.indent)

/-- The line that an event opens, if it opens one. -/
def opened : EventKind → Option String
  | .substoryEntered name story injected depth =>
    some (pad config depth ++ name ++ if injected then " (" ++ story ++ ")" else "")
  | .stepStarted step _ depth => some (pad config depth ++ step)
  | _ => none

/-- The note that an event leaves on the line before it. -/
def note : EventKind → Option String
  | .stepFailed _ (some reason) _ => some (" (failed: " ++ Text.quoted reason ++ ")")
  | .stepFailed _ none _ => some " (failed)"
  | .stepSkipped _ _ => some " (skipped)"
  | .stepReturned _ value _ => some (" (returned: " ++ value.text ++ ")")
  | .errored kind _ _ => some (" (errored: " ++ kind ++ ")")
  | _ => none

/-- Carries an event over to the lines so far, the last one first. -/
def addEvent (lines : List String) (kind : EventKind) : List String :=
  match opened config kind with
  | some line => line :: lines
  | none =>
    match note kind, lines with
    | some note, last :: above => (last ++ note) :: above
    | _, lines => lines

def lines (story : String) (kinds : List EventKind) : List String :=
  (kinds.foldl (addEvent config) [story]).reverse

/-- A variable's row: what stands before the comment, a value moved below, and the comment. -/
structure Row where
  head : String
  moved : Option String
  comment : String

/-- The row of a variable. A value that is too long for it is moved below. A value with a line break
would be moved as well, but the text of a value has none (`Value.newline_not_mem_text`). -/
def row (v : Variable) : Row :=
  let inline := v.name ++ ": " ++ v.value.text
  if config.maxLineWidth < (pad config 1).utf8ByteSize + inline.utf8ByteSize then
    ⟨v.name ++ ":", some v.value.text, v.provenance.text⟩
  else ⟨inline, none, v.provenance.text⟩

/-- The width to which heads are filled with spaces. -/
def headWidth (rows : List Row) : Nat :=
  (rows.map fun row => row.head.utf8ByteSize).foldl max 0

/-- A row and, if its value is moved, the one line of the value. The head is filled up to any width:
there is no largest one, such as 65535, above which a formatter would give up. -/
def Row.lines (width : Nat) (row : Row) : List String :=
  let filled := row.head ++ spaces (width - row.head.length)
  (pad config 1 ++ filled ++ "  # " ++ row.comment) ::
    (row.moved.map fun value => pad config 2 ++ value).toList

/-- The block of variables with their origins. -/
def renderContext (context : Context) : String :=
  if context.isEmpty then "Context()"
  else
    let rows := context.entries.map (row config)
    "\n".intercalate ("Context:" :: rows.flatMap (Row.lines config (headWidth rows)))

def render (execution : Execution) : String :=
  "\n".intercalate (lines config execution.story execution.kinds) ++ "\n\n" ++
    renderContext config execution.context

def remarks (execution : Execution) : List Line :=
  let count := (lines config execution.story execution.kinds).length
  [⟨.debug, s!"present:render story={execution.story} lines={count}"⟩]

end StoryEngine.Presenter
