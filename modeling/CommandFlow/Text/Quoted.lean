/-
Text between double quotes, as error messages show it.

Quotes and backslashes are escaped, the usual line characters have their short forms, and a
hidden character is shown by its code point in lower-case hexadecimal.
-/
import CommandFlow.Text.Hidden

namespace CommandFlow.Text

/-- One character as it stands inside quoted text. -/
def quotedChar (c : Char) : List Char :=
  match c with
  | '"' => ['\\', '"']
  | '\\' => ['\\', '\\']
  | '\n' => ['\\', 'n']
  | '\r' => ['\\', 'r']
  | '\t' => ['\\', 't']
  | '\x00' => ['\\', '0']
  | c =>
    if isHidden c then
      ['\\', 'u', '\x7b'] ++ Nat.toDigits 16 c.toNat ++ ['\x7d']
    else [c]

/-- A text between double quotes with its special characters escaped. -/
def quoted (s : String) : String :=
  String.ofList ('"' :: (s.toList.flatMap quotedChar ++ ['"']))

end CommandFlow.Text
