/-! # Type names

The short name of a type: its full name without the type arguments and without the path before
the last double colon.
-/

namespace StoryEngine.Text

/-- The characters of a reversed name up to the first double colon. -/
def lastSegment : List Char → List Char
  | [] => []
  | [c] => [c]
  | c :: d :: rest => if c = ':' ∧ d = ':' then [] else c :: lastSegment (d :: rest)

def shortTypeName (full : String) : String :=
  let base := full.toList.takeWhile (· != '<')
  String.ofList (lastSegment base.reverse).reverse

end StoryEngine.Text
