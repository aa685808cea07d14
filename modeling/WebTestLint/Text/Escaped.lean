import WebTestLint.Text.Hidden

/-!
Texts quoted for a message. Quotes, backslashes and the common controls are escaped by a backslash, and
any other character that does not show by its code point in braces.
-/

namespace WebTestLint

def escape (c : Char) : List Char :=
  if c = '\x00' then ['\\', '0']
  else if c = '\t' then ['\\', 't']
  else if c = '\n' then ['\\', 'n']
  else if c = '\r' then ['\\', 'r']
  else if c = '"' then ['\\', '"']
  else if c = '\\' then ['\\', '\\']
  else if isHidden c then ['\\', 'u', '{'] ++ Nat.toDigits 16 c.toNat ++ ['}']
  else [c]

def escaped (text : String) : String :=
  String.ofList ('"' :: text.toList.flatMap escape ++ ['"'])

end WebTestLint
