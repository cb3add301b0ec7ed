/-! # String literals

A text between double quotes with the short escapes of JSON; other control characters are
written as four hexadecimal digits and everything else stands for itself.
-/

namespace StoryEngine.Text

def hexDigits (n : Nat) : List Char := Nat.toDigits 16 n

def literalChar (c : Char) : List Char :=
  match c with
  | '"' => ['\\', '"']
  | '\\' => ['\\', '\\']
  | '\x08' => ['\\', 'b']
  | '\t' => ['\\', 't']
  | '\n' => ['\\', 'n']
  | '\x0c' => ['\\', 'f']
  | '\r' => ['\\', 'r']
  | c =>
    if c.toNat < 0x20 then
      '\\' :: 'u' :: '0' :: '0' :: (hexDigits (c.toNat / 16) ++ hexDigits (c.toNat % 16))
    else [c]

def literal (s : String) : String :=
  String.ofList ('"' :: (s.toList.flatMap literalChar ++ ['"']))

end StoryEngine.Text
