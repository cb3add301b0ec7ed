/-! # Log lines

Lines are data: they say what happened and never take part in it.
-/

namespace StoryEngine

inductive Level where
  | error
  | warn
  | info
  | debug
  | trace
  deriving DecidableEq

def Level.text : Level → String
  | .error => "ERROR"
  | .warn => "WARN"
  | .info => "INFO"
  | .debug => "DEBUG"
  | .trace => "TRACE"

structure Line where
  level : Level
  message : String

def Line.text (line : Line) : String := line.level.text ++ " " ++ line.message

end StoryEngine
