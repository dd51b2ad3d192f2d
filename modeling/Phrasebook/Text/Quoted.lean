import Phrasebook.Text.Property

/-!
Strings in quotes, as in the text of a structure. Quotes, backslashes, controls and whatever would
not show as a character of its own are escaped.
-/

namespace Phrasebook.Text

def quotedChar (c : Char) : Text :=
  if c = '\x00' then "\\0".toList
  else if c = '\t' then "\\t".toList
  else if c = '\n' then "\\n".toList
  else if c = '\r' then "\\r".toList
  else if c = '"' then "\\\"".toList
  else if c = '\\' then "\\\\".toList
  else if isPrintable c then [c]
  else "\\u".toList ++ '{' :: Nat.toDigits 16 c.toNat ++ ['}']

def quoted (t : Text) : Text := '"' :: t.flatMap quotedChar ++ ['"']

end Phrasebook.Text
