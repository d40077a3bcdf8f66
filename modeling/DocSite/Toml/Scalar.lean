import DocSite.Toml.Text
import DocSite.Toml.Value

/-!
# Numbers, truth values and dates in a configuration

What is not a text or a collection is a run of characters up to the next blank
or mark of punctuation, and what the run spells is decided when it is complete.

Its beginning says what it is taken for: digits and a dash or a colon begin a
date, digits with a point or an exponent somewhere behind them a number that is
no integer, and all other digits an integer.  Digits may be grouped by
underscores, one between two digits; one right behind a sign is passed over.
Decimal numbers have a sign or none and no leading zeros; the other bases have no
sign and say which they are.  There are two infinities and a value that is no
number.

Behind the first underscore of a decimal integer anything may stand, as long as
the underscores themselves are in order, and behind the name of a base nothing
need stand.  What is taken for an integer so and spells none is no fault of the
document; it is one of the place where the integer is asked for.

A date is a day, a time, or both, the latter with a distance from the standard
time or none; seconds may be left out.  Days and times that do not exist are
refused.  A date is kept as it would be written again.
-/

namespace DocSite
namespace Toml

/-- The number that digits spell in a base up to sixteen. -/
def natOf (base : Nat) (digits : List Char) : Nat :=
  digits.foldl (fun n c => n * base + (hexValue? c).getD 0) 0

/-- The number that a text of digits spells, if it is one of a base. -/
def natOf? (base : Nat) (digits : List Char) : Option Nat :=
  if digits.isEmpty then none
  else if digits.all fun c => (hexValue? c).any (· < base) then some (natOf base digits)
  else none

/-- Whether a character is a sign. -/
def isSign (c : Char) : Bool :=
  c == '+' || c == '-'

/-- A sign, if there is one, and what follows it; the sign tells whether the
number is negative. -/
def signed : List Char → Bool × List Char
  | '+' :: rest => (false, rest)
  | '-' :: rest => (true, rest)
  | rest => (false, rest)

/-- A number without the underscores in it, given whether one may come first.
Each has to stand between two digits, or behind the sign and before a digit. -/
def ungrouped? (isDigit : Char → Bool) (allowed : Bool) : List Char → Option (List Char)
  | [] => some []
  | '_' :: rest =>
    if allowed && (rest.head?.map isDigit).getD false then ungrouped? isDigit false rest else none
  | c :: rest => (ungrouped? isDigit (isDigit c) rest).map (c :: ·)

/-- A decimal number, with its sign if it has one, without the underscores in
it. -/
def ungroupedDecimal? (isDigit : Char → Bool) : List Char → Option (List Char)
  | c :: rest => (ungrouped? isDigit (isSign c || isDigit c) rest).bind fun text =>
    if c = '_' then none else some (c :: text)
  | [] => none

/-- Whether a character can be a digit in some base. -/
def isAnyDigit (c : Char) : Bool :=
  (hexValue? c).isSome

/-- What a decimal integer spells; behind an underscore anything may stand. -/
def decimalInteger? (run : List Char) : Option Value := do
  let (negative, digits) := signed (← ungroupedDecimal? isAnyDigit run)
  match natOf? 10 digits with
  | some n => return .integer (if negative then -(n : Int) else n)
  | none => return .misspelt

/-- What the digits behind the name of a base spell. -/
def basedInteger? (base : Nat) (digits : List Char) : Option Value := do
  if digits.all fun c => c = '_' || (hexValue? c).any (· < base) then
    let digits ← ungrouped? isAnyDigit false digits
    return ((natOf? base digits).map fun n => Value.integer n).getD .misspelt
  else none

/-- Digits, possibly grouped, and what follows them; there must be one. -/
def groupedDigits? (text : List Char) : Option (List Char × List Char) :=
  let digits := text.takeWhile fun c => c.isDigit || c == '_'
  if digits.any Char.isDigit then
    some (digits.filter Char.isDigit, text.dropWhile fun c => c.isDigit || c == '_')
  else none

/-- The number with a point or an exponent that a run spells. -/
def real? (run : List Char) : Option Real := do
  let (negative, text) := signed run
  let (whole, rest) ← groupedDigits? text
  if text.head? = some '0' ∧ 1 < whole.length then none
  let (fraction, rest) ←
    match rest with
    | '.' :: rest => groupedDigits? rest
    | rest => pure ([], rest)
  let exponent : Int ←
    match rest with
    | [] => pure 0
    | mark :: rest => do
      if mark ≠ 'e' ∧ mark ≠ 'E' then none
      let (negative, text) := signed rest
      let (digits, rest) ← groupedDigits? text
      if !rest.isEmpty then none
      pure (if negative then -(natOf 10 digits : Int) else natOf 10 digits)
  if (ungroupedDecimal? Char.isDigit run).isNone then none
  return .finite ⟨negative, natOf 10 (whole ++ fraction), exponent - fraction.length⟩

/-! ## Dates -/

/-- A number of exactly so many digits, and what follows it. -/
def fixedDigits? (count : Nat) (run : List Char) : Option (Nat × List Char) :=
  let digits := run.take count
  if digits.length = count ∧ digits.all Char.isDigit then
    some (natOf 10 digits, run.drop count)
  else none

/-- What follows a character that must come first. -/
def after? (c : Char) : List Char → Option (List Char)
  | d :: rest => if c = d then some rest else none
  | [] => none

/-- A number of two digits at least. -/
def twoDigits (n : Nat) : List Char :=
  if n < 10 then '0' :: Nat.toDigits 10 n else Nat.toDigits 10 n

/-- The number of days of a month. -/
def daysOfMonth (year month : Nat) : Nat :=
  if month = 2 then
    if year % 4 = 0 ∧ (year % 100 ≠ 0 ∨ year % 400 = 0) then 29 else 28
  else if month = 4 ∨ month = 6 ∨ month = 9 ∨ month = 11 then 30
  else 31

/-- A day that exists, as it is written, and what follows it. -/
def day? (run : List Char) : Option (List Char × List Char) := do
  let (year, rest) ← fixedDigits? 4 run
  let (month, rest) ← fixedDigits? 2 (← after? '-' rest)
  let (day, rest) ← fixedDigits? 2 (← after? '-' rest)
  if 1 ≤ month ∧ month ≤ 12 ∧ 1 ≤ day ∧ day ≤ daysOfMonth year month then
    return (run.take 10, rest)
  else none

/-- A fraction of a second in at most nine digits, without zeros at the end but
with one digit at least. -/
def fractionText (digits : List Char) : List Char :=
  match ((digits.take 9).reverse.dropWhile (· = '0')).reverse with
  | [] => ['0']
  | text => text

/-- A time that exists, as it is written, and what follows it. -/
def time? (run : List Char) : Option (List Char × List Char) := do
  let (hour, rest) ← fixedDigits? 2 run
  let (minute, rest) ← fixedDigits? 2 (← after? ':' rest)
  if 23 < hour ∨ 59 < minute then none
  let start := twoDigits hour ++ ':' :: twoDigits minute
  match rest with
  | ':' :: rest =>
    let (second, rest) ← fixedDigits? 2 rest
    if 60 < second then none
    let start := start ++ ':' :: twoDigits second
    match rest with
    | '.' :: rest =>
      let digits := rest.takeWhile Char.isDigit
      if digits.isEmpty then none
      return (start ++ '.' :: fractionText digits, rest.dropWhile Char.isDigit)
    | rest => return (start, rest)
  | rest => return (start, rest)

/-- A distance from the standard time, as it is written; nothing may follow. -/
def offset? (run : List Char) : Option (List Char) := do
  match run with
  | [] => return []
  | ['Z'] | ['z'] => return ['Z']
  | sign :: rest =>
    if sign ≠ '+' ∧ sign ≠ '-' then none
    let (hour, rest) ← fixedDigits? 2 rest
    let (minute, rest) ← fixedDigits? 2 (← after? ':' rest)
    if 23 < hour ∨ 59 < minute ∨ !rest.isEmpty then none
    let sign := if hour = 0 ∧ minute = 0 then '+' else sign
    return sign :: (twoDigits hour ++ ':' :: twoDigits minute)

/-- The day, the time or both that a run spells, as it would be written. -/
def date? (run : List Char) : Option (List Char) :=
  match day? run with
  | some (day, []) => some day
  | some (day, mark :: rest) => do
    if mark ≠ 'T' ∧ mark ≠ 't' ∧ mark ≠ ' ' then none
    let (time, rest) ← time? rest
    return day ++ 'T' :: (time ++ (← offset? rest))
  | none =>
    match time? run with
    | some (time, []) => some time
    | _ => none

/-! ## Runs -/

/-- The characters that a run is made of: all but blanks, line breaks, and the
marks that set off values. -/
def isRunChar (c : Char) : Bool :=
  !"=,[]{} \t#\r\n".toList.contains c

/-- The run at the start of some characters, and what follows it.  A time may be
set off from its day by a blank. -/
def run (chars : List Char) : List Char × List Char :=
  let first := chars.takeWhile isRunChar
  let rest := chars.dropWhile isRunChar
  match (day? first).map Prod.snd, rest with
  | some [], ' ' :: c :: rest =>
    if c.isDigit then
      (first ++ ' ' :: (c :: rest).takeWhile isRunChar, (c :: rest).dropWhile isRunChar)
    else (first, ' ' :: c :: rest)
  | _, rest => (first, rest)

/-- What a run that begins with a digit spells, or with an underscore behind a
sign; `text` is the run without its sign. -/
def numberOf? (run text : List Char) : Option Value :=
  match text.dropWhile Char.isDigit with
  | '-' :: _ | ':' :: _ => (date? run).map fun d => .date (String.ofList d)
  | rest =>
    if rest.any fun c => c == '.' || c == 'e' || c == 'E' then (real? run).map .real
    else if text.head? = some '0' ∧ text ≠ ['0'] then none
    else if rest.isEmpty || rest.head? = some '_' then decimalInteger? run
    else none

/-- The value that a run spells. -/
def scalarOf? (run : List Char) : Option Value :=
  let (negative, text) := signed run
  if run = "true".toList then some (.boolean true)
  else if run = "false".toList then some (.boolean false)
  else if text = "inf".toList then some (.real (.infinity negative))
  else if text = "nan".toList then some (.real .notANumber)
  else
    match run with
    | '0' :: 'x' :: digits => basedInteger? 16 digits
    | '0' :: 'o' :: digits => basedInteger? 8 digits
    | '0' :: 'b' :: digits => basedInteger? 2 digits
    | _ =>
      if (text.head?.map fun c => c.isDigit || c == '_').getD false then numberOf? run text
      else none

end Toml
end DocSite
