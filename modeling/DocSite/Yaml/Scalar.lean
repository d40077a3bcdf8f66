import DocSite.Text.Case

/-!
# Texts in a YAML document

A text in a YAML document may stand there bare, unless a reader would take it
for something else.  What is taken for something else is decided in two steps.

First by meaning: a bare `true`, `~` or `1e3` is a truth value, nothing, or a
number, so a text that spells one of these is quoted (`readsAsOther`).  Numbers
are read generously, in four bases, but not without bound: an integer counts
when it fits into 128 bits, and a decimal when it is finite.  Digits behind a
leading zero are quoted as well, since some readers take them for octal.

Then by form: a text that begins with an indicator, holds `: ` or ` #`, or
starts or ends with a blank is quoted, in single quotes if it may be and in
double quotes if it holds a character that must be escaped.  A text of several
lines is written as a block, each line on its own, except where a line is all
there is room for (a short key), and there it is quoted and its line breaks are
escaped.

Lines are never folded, so a text has one form at each depth of indentation.
-/

namespace DocSite
namespace Yaml

/-! ## Texts that read as something else -/

/-- The value of a digit in bases up to sixteen. -/
def digitValue? (c : Char) : Option Nat :=
  if c.isDigit then some (c.toNat - 48)
  else if 'a' ≤ c ∧ c ≤ 'f' then some (c.toNat - 87)
  else if 'A' ≤ c ∧ c ≤ 'F' then some (c.toNat - 55)
  else none

/-- The number that digits of a base spell; there must be one. -/
def natOfDigits? (base : Nat) (digits : List Char) : Option Nat :=
  if digits.isEmpty then none
  else digits.foldlM (fun n c => do
    let d ← digitValue? c
    if d < base then some (n * base + d) else none) 0

/-- The digits of an integer behind its sign, with their base. -/
def basedDigits : List Char → Nat × List Char
  | '0' :: 'x' :: rest => (16, rest)
  | '0' :: 'o' :: rest => (8, rest)
  | '0' :: 'b' :: rest => (2, rest)
  | digits => (10, digits)

/-- A sign and what follows it; without a sign the number is positive. -/
def splitSign : List Char → Bool × List Char
  | '+' :: rest => (true, rest)
  | '-' :: rest => (false, rest)
  | rest => (true, rest)

/-- Whether a text spells an integer of at most 128 bits. -/
def isInteger (text : List Char) : Bool :=
  let (positive, rest) := splitSign text
  let (base, digits) := basedDigits rest
  match natOfDigits? base digits with
  | none => false
  | some n => if positive then n < Nat.pow 2 128 else n ≤ Nat.pow 2 127

/-- The number from which on a decimal is rounded to infinity. -/
def infinityBound : Nat :=
  Nat.pow 2 1024 - Nat.pow 2 970

/-- Whether a number in decimal scientific form is below the bound from which on
it would be rounded to infinity. -/
def isFinite (digits : Nat) (point : Int) (length : Nat) : Bool :=
  digits == 0 || point + length ≤ 308 ||
    (point + length ≤ 309 &&
      (if 0 ≤ point then digits * Nat.pow 10 point.toNat < infinityBound
        else digits < infinityBound * Nat.pow 10 (-point).toNat))

/-- Whether a text spells a finite decimal number: digits with at most one
point among or beside them, and an exponent. -/
def isDecimal (text : List Char) : Bool :=
  let (_, rest) := splitSign text
  let whole := rest.takeWhile Char.isDigit
  let rest := rest.dropWhile Char.isDigit
  let (fraction, rest) :=
    match rest with
    | '.' :: rest => (rest.takeWhile Char.isDigit, rest.dropWhile Char.isDigit)
    | rest => ([], rest)
  let digits := whole ++ fraction
  let significant := digits.dropWhile (· = '0')
  let value (exponent : Int) : Bool :=
    isFinite ((natOfDigits? 10 digits).getD 0) (exponent - fraction.length) significant.length
  if digits.isEmpty then false
  else
    match rest with
    | [] => value 0
    | e :: rest =>
      if e = 'e' ∨ e = 'E' then
        let (positive, exponent) := splitSign rest
        match natOfDigits? 10 exponent with
        | none => false
        | some n => value (if positive then n else -(n : Int))
      else false

/-- Whether a text spells an infinity or the value that is no number. -/
def isNonFinite (text : String) : Bool :=
  [".inf", ".Inf", ".INF", "+.inf", "+.Inf", "+.INF", "-.inf", "-.Inf", "-.INF",
    ".nan", ".NaN", ".NAN"].contains text

/-- Whether a text is digits behind a leading zero. -/
def isZeroPadded (text : List Char) : Bool :=
  match (splitSign text).2 with
  | '0' :: c :: rest => (c :: rest).all Char.isDigit
  | _ => false

/-- Whether a reader would take a bare text for something else than a text. -/
def readsAsOther (text : String) : Bool :=
  text = "" || ["null", "Null", "NULL", "~", "true", "True", "TRUE", "false", "False",
    "FALSE"].contains text
    || isInteger text.toList || isDecimal text.toList || isNonFinite text
    || isZeroPadded text.toList

/-! ## Forms that a text may take -/

/-- Whether a character ends a line. -/
def isBreak (c : Char) : Bool :=
  c.toNat == 10 || c.toNat == 13 || c.toNat == 133 || c.toNat == 8232 || c.toNat == 8233

/-- Whether a blank, a line's end, or the end of the text comes next. -/
def blankNext : List Char → Bool
  | [] => true
  | c :: _ => c == ' ' || c == '\t' || c.toNat == 0 || isBreak c

/-- Whether a character may stand in a document without being escaped. -/
def isPrintable (c : Char) : Bool :=
  let n := c.toNat
  n == 10 || (32 ≤ n && n ≤ 126) || (160 ≤ n && n ≤ 65533 && n != 65279) || 65536 ≤ n

/-- Whether a bare text that begins so would be taken for markup. -/
def beginsAsMarkup : List Char → Bool
  | '-' :: '-' :: '-' :: _ | '.' :: '.' :: '.' :: _ => true
  | c :: rest =>
    [',', '#', '[', ']', '{', '}', '&', '*', '!', '|', '>', '\'', '"', '%', '@', '`'].contains c
      || ((c == '?' || c == ':' || c == '-') && blankNext rest)
  | [] => false

/-- Whether a text holds a colon before a blank, or a number sign behind one;
`behindBlank` tells of the character before. -/
def holdsMarkup (behindBlank : Bool) : List Char → Bool
  | [] => false
  | c :: rest =>
    (c == ':' && blankNext rest) || (c == '#' && behindBlank)
      || holdsMarkup (blankNext [c]) rest

/-- Whether somewhere a character of the first kind stands before one of the
second. -/
def adjacent (first second : Char → Bool) (text : List Char) : Bool :=
  (text.zip text.tail).any fun (a, b) => first a && second b

/-- The ways of writing a text. -/
inductive Style where
  | plain
  | single
  | double
  | block
  deriving DecidableEq, Inhabited, Repr

/-- Whether a text may stand bare. -/
def plainAllowed (text : List Char) : Bool :=
  !text.isEmpty && !beginsAsMarkup text && !holdsMarkup false text
    && text.all (fun c => isPrintable c && !isBreak c)
    && text.head? != some ' ' && text.getLast? != some ' '

/-- Whether a text may stand in single quotes. -/
def singleAllowed (text : List Char) : Bool :=
  text.all isPrintable && !adjacent isBreak (· == ' ') text && !adjacent (· == ' ') isBreak text

/-- Whether a text may be written as a block. -/
def blockAllowed (text : List Char) : Bool :=
  text.all isPrintable && !adjacent (· == ' ') isBreak text && text.getLast? != some ' '

/-- The way in which a text is written; `key` tells that it has to fit into one
line. -/
def style (key : Bool) (text : String) : Style :=
  let chars := text.toList
  let quoted := if singleAllowed chars then .single else .double
  if chars.contains '\n' then
    if blockAllowed chars && !key then .block else .double
  else if key && chars.any isBreak then .double
  else if readsAsOther text then quoted
  else if plainAllowed chars then .plain
  else quoted

/-! ## Writing a text -/

/-- The hexadecimal digits of a number, as capitals, in a given width. -/
def hexDigits : Nat → Nat → List Char
  | 0, _ => []
  | width + 1, n =>
    let d := n % 16
    hexDigits width (n / 16) ++ [Char.ofNat (if d < 10 then 48 + d else 55 + d)]

/-- One character in double quotes. -/
def escapeChar (c : Char) : List Char :=
  if isPrintable c && !isBreak c && c != '"' && c != '\\' then [c]
  else
    '\\' :: match c.toNat with
    | 0 => ['0']
    | 7 => ['a']
    | 8 => ['b']
    | 9 => ['t']
    | 10 => ['n']
    | 11 => ['v']
    | 12 => ['f']
    | 13 => ['r']
    | 27 => ['e']
    | 34 => ['"']
    | 92 => ['\\']
    | 133 => ['N']
    | 8232 => ['L']
    | 8233 => ['P']
    | n =>
      if n ≤ 255 then 'x' :: hexDigits 2 n
      else 'u' :: hexDigits 4 n

/-- The characters of a text, where every line but the first is indented;
`broken` tells that a line has just ended. -/
def indented (indent : Nat) (write : Char → List Char) (broken : Bool) : List Char → List Char
  | [] => []
  | c :: rest =>
    if isBreak c then c :: indented indent write true rest
    else
      (if broken then List.replicate indent ' ' else []) ++ write c
        ++ indented indent write false rest

/-- What a block says about its first and its last lines: that the first begins
with a blank, and whether the last line is ended by no break, by one, or by
more. -/
def blockHeader (text : List Char) : List Char :=
  (if text.head? == some ' ' || (text.head?.map isBreak).getD false then ['2'] else []) ++
    match text.reverse with
    | [] => ['-']
    | [c] => if isBreak c then ['+'] else ['-']
    | c :: d :: _ => if !isBreak c then ['-'] else if isBreak d then ['+'] else []

/-- A text as it is written at a depth of indentation. -/
def scalar (indent : Nat) (key : Bool) (text : String) : List Char :=
  let chars := text.toList
  match style key text with
  | .plain => chars
  | .single =>
    '\'' :: indented indent (fun c => if c = '\'' then ['\'', '\''] else [c]) false chars ++
      (if (chars.getLast?.map isBreak).getD false then List.replicate indent ' ' else []) ++ ['\'']
  | .double => '"' :: chars.flatMap escapeChar ++ ['"']
  | .block => '|' :: blockHeader chars ++ '\n' :: indented indent (fun c => [c]) true chars

end Yaml
end DocSite
