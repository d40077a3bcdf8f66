import DocSite.Text.Case
import DocSite.Text.WordTable

/-!
# Characters of a name

The name of a variable is written in letters and digits of any script, and
underscores.
-/

namespace DocSite

/-- Whether a character is a letter, a digit or an underscore. -/
def isWordChar (c : Char) : Bool :=
  c == '_' || (if c.toNat < 128 then c.isAlphanum
    else Case.inRanges Word.alphanumericRanges c.toNat)

end DocSite
