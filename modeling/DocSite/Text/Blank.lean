/-!
# Blank text

A setting that must not be empty must not be blank either, and blank means
white space of any kind: the ASCII ones, the spaces of the various widths, and
the line and paragraph separators.  Zero-width characters are not among them, so
a name that consists of one of those is not blank.
-/

namespace DocSite

/-- Whether a character is white space. -/
def isBlankChar (c : Char) : Bool :=
  let n := c.toNat
  (9 ≤ n && n ≤ 13) || n == 32 || n == 133 || n == 160 || n == 5760
    || (8192 ≤ n && n ≤ 8202) || n == 8232 || n == 8233 || n == 8239 || n == 8287
    || n == 12288

/-- Whether a text holds nothing but white space. -/
def isBlank (text : String) : Bool :=
  text.toList.all isBlankChar

end DocSite
