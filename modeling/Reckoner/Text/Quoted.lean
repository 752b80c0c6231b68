/-
Texts quoted in messages.

A quoted text shows on one line what it holds: quotes, backslashes and hidden characters are
escaped.
-/
import Reckoner.Numeral
import Reckoner.Text.Visible

namespace Reckoner.Text

/-- A character by its number, in braces. -/
def escapeNumber (c : Char) : List Char :=
  '\\' :: 'u' :: '\x7b' :: (Numeral.write 16 c.toNat).map Char.toLower ++ ['\x7d']

/-- A character inside a quoted text. -/
def escapeChar (c : Char) : List Char :=
  if c = '"' then ['\\', '"']
  else if c = '\\' then ['\\', '\\']
  else if c = '\n' then ['\\', 'n']
  else if c = '\r' then ['\\', 'r']
  else if c = '\t' then ['\\', 't']
  else if c.toNat = 0 then ['\\', '0']
  else if isVisible c then [c]
  else escapeNumber c

/-- A quoted text. -/
def quoted (s : String) : String := String.ofList ('"' :: s.toList.flatMap escapeChar ++ ['"'])

end Reckoner.Text
