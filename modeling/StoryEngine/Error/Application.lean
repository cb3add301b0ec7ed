import StoryEngine.Error.Basic

/-! # Application errors

The errors that reach the user of a program built on stories.
-/

namespace StoryEngine

inductive AppError where
  | compile (error : CompileError)
  | story (error : StoryError)
  | io (text : String)

def AppError.message : AppError → String
  | .compile error => "Error al compilar la historia: " ++ error.message
  | .story error => "Error al ejecutar la historia: " ++ error.message
  | .io text => "Error en IO: " ++ text

end StoryEngine
