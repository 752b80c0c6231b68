/-
Comparing texts without regard to letter case.

Keywords are compared by folding the ASCII letters alone.  Unit labels are compared by a key, for
which the ASCII letters and the kelvin sign are folded.  The key is not the lower case of a text:
all other characters stay as they are.  But labels are made of ASCII characters and of characters
without case, and no other character has an ASCII letter as its whole lower case, so a text has the
key of a label exactly if it has its lower case.
-/

namespace Reckoner.Text

/-- A text with its ASCII letters in lower case. -/
def lowerAscii (cs : List Char) : List Char := cs.map Char.toLower

/-- Whether two texts agree when ASCII letters in either case count as equal. -/
def equalIgnoringCase (s t : String) : Bool := lowerAscii s.toList == lowerAscii t.toList

/-- A character in the key of a text. -/
def keyChar (c : Char) : Char := if c = '\u212A' then 'k' else c.toLower

/-- The key by which a text is compared with unit labels. -/
def labelKey (s : String) : List Char := s.toList.map keyChar

end Reckoner.Text
