import StoryEngine.Text.Hidden
import StoryEngine.Text.Literal

/-! # Quoted text

The form in which messages show a text: quotes, backslashes, tabs, line ends and the null
character have short escapes, hidden characters are written by their number.
-/

namespace StoryEngine.Text

def quotedChar (c : Char) : List Char :=
  match c with
  | '"' => ['\\', '"']
  | '\\' => ['\\', '\\']
  | '\t' => ['\\', 't']
  | '\n' => ['\\', 'n']
  | '\r' => ['\\', 'r']
  | '\x00' => ['\\', '0']
  | c => if isHidden c then '\\' :: 'u' :: '\x7b' :: (hexDigits c.toNat ++ ['\x7d']) else [c]

def quoted (s : String) : String :=
  String.ofList ('"' :: (s.toList.flatMap quotedChar ++ ['"']))

/-- Items between square brackets. -/
def bracketed (items : List String) : String :=
  "[" ++ ", ".intercalate items ++ "]"

def quotedList (items : List String) : String := bracketed (items.map quoted)

end StoryEngine.Text
