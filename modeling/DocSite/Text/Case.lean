import DocSite.Text.CaseTable

/-!
# Letter case in any script

Names of directories and files come in all scripts, and a site compares them
without regard to case or capitalises them, so both directions follow the
character standard and not ASCII.  They are not inverse to one another, and
neither maps characters one to one: the capital of `ß` is `SS`, and the small
form of a capital dotted `İ` is an `i` with a dot of its own.

All of this is said by tables (`CaseTable`), with one exception.  A capital
sigma becomes `ς` at the end of a word and `σ` elsewhere, so lowering a text
looks at both sides of a sigma; `lowerChars` carries the characters that were
read, nearest first, for that one question.
-/

namespace DocSite
namespace Case

/-- Whether a number lies in one of the ranges, ends included. -/
def inRanges (ranges : List (Nat × Nat)) (n : Nat) : Bool :=
  ranges.any fun (first, last) => first ≤ n && n ≤ last

/-- The image of a number in a list of runs. -/
def inRuns? (runs : List Run) (n : Nat) : Option Nat :=
  (runs.find? fun r => r.first ≤ n && n ≤ r.last && (n - r.first) % r.step == 0).map
    fun r => r.target + (n - r.first)

/-- The small form of a character, regardless of what stands around it. -/
def lowerChar (c : Char) : List Char :=
  if c.val < 128 then [c.toLower]
  else if c.toNat = 304 then ['i', Char.ofNat 775]
  else [((inRuns? lowerRuns c.toNat).map Char.ofNat).getD c]

/-- The capital form of a character. -/
def upperChar (c : Char) : List Char :=
  if c.val < 128 then [c.toUpper]
  else
    match upperSpecial.lookup c.toNat with
    | some image => image.map Char.ofNat
    | none => [((inRuns? upperRuns c.toNat).map Char.ofNat).getD c]

/-- Whether a character has case. -/
def isCased (c : Char) : Bool :=
  inRanges casedRanges c.toNat

/-- Whether a character is looked through when the letters around a sigma are
asked for. -/
def isCaseIgnorable (c : Char) : Bool :=
  inRanges caseIgnorableRanges c.toNat

/-- Whether the first character that counts has case. -/
def leadsCased (text : List Char) : Bool :=
  ((text.dropWhile isCaseIgnorable).head?.map isCased).getD false

/-- The small form of a text behind what was read before it, nearest first. -/
def lowerChars (before : List Char) : List Char → List Char
  | [] => []
  | c :: after =>
    (if c = 'Σ' then
      (if leadsCased before && !leadsCased after then ['ς'] else ['σ'])
    else lowerChar c) ++ lowerChars (c :: before) after

/-- A text in small letters. -/
def lower (text : String) : String :=
  String.ofList (lowerChars [] text.toList)

/-- A text in capital letters. -/
def upper (text : String) : String :=
  String.ofList (text.toList.flatMap upperChar)

/-- A text with its first character in capital form. -/
def capitalized (text : String) : String :=
  match text.toList with
  | [] => ""
  | c :: rest => String.ofList (upperChar c ++ rest)

end Case
end DocSite
