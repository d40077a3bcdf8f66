import DocSite.CommandLine.Parameter
import DocSite.Event
import DocSite.Settings.Reference
import DocSite.Text.Blank

/-!
# Which reports are shown

Reports are shown from a level on that the command line or the environment sets.
The setting in the environment is a list of directives between commas.  A
directive names the level that it sets, and may say in front of it for which
reports: for those whose origin starts in a certain way, for those made in a span
of work, for those that have a certain field.  Without a level it shows
everything.

Of the directives that hold for a report the one counts that says most about its
origin, then one that asks for a field, and of two that ask for the same the
last.  A report has one field, its message, and none is made in a span, so a
directive that asks for a span or for the value of a field holds for none.  A
directive that cannot be read is passed over, which is reported.

Without any directive, warnings and errors are shown.  Where directives are
given but none holds for a report, it is not shown.

What is shown does not matter for anything else: a strict run counts warnings
whether or not they are shown.
-/

namespace DocSite
namespace CommandLine

/-- For which reports a directive holds, and down to which rank it shows them. -/
structure Directive where
  /-- The start of the origins that it holds for; for all of them if there is
  none. -/
  origin : Option String
  /-- The field that a report must have. -/
  field : Option String
  /-- Whether it holds only in a span, or for a value of the field. -/
  narrowed : Bool
  rank : Nat
  deriving DecidableEq, Inhabited, Repr

/-- Which reports are shown. -/
structure LogFilter where
  directives : List Directive
  /-- What is said about directives that cannot be read. -/
  remarks : List String
  deriving DecidableEq, Inhabited, Repr

namespace LogFilter

/-- The rank below which no report is left out. -/
def everything : Nat := 5

/-- The number that digits spell, with a plus sign in front allowed. -/
def number? (text : List Char) : Option Nat :=
  let digits := match text with
    | '+' :: digits => digits
    | digits => digits
  if !digits.isEmpty && digits.all Char.isDigit then
    some (digits.foldl (fun n c => 10 * n + (c.toNat - '0'.toNat)) 0)
  else none

/-- The rank that a text names: that of a level, by its name in letters of either
case or by its number. -/
def rank? (text : String) : Option Nat :=
  match number? text.toList with
  | some n => if n ≤ everything then some n else none
  | none =>
    [("off", 0), ("error", 1), ("warn", 2), ("info", 3), ("debug", 4), ("trace", 5)].lookup
      (String.ofList (text.toList.map Char.toLower))

/-- What is wrong with a directive of another form. -/
def malformed : String :=
  "invalid filter directive"

/-- The rank behind an equals sign; nothing there stands for everything. -/
def rankBehind (level : List Char) : Except String Nat :=
  match if level.isEmpty then some everything else rank? (String.ofList level) with
  | some rank => .ok rank
  | none => .error ("error parsing level filter: expected one of \"off\", \"error\", \"warn\", " ++
      "\"info\", \"debug\", \"trace\", or a number 0-5")

/-- The directive that a text without a bracket spells from an equals sign on, or
up to the end without one.  The sign is looked for in `seen`, which is the text
without the blanks around it, but its position is taken in the text itself. -/
def plainDirective (text seen : List Char) : Except String Directive := do
  let length := (seen.takeWhile (· ≠ '=')).length
  if length < seen.length then
    return ⟨some (String.ofList (text.take length)), none, false,
      ← rankBehind (text.drop (length + 1))⟩
  else
    match rank? (String.ofList text) with
    | some rank => return ⟨none, none, false, rank⟩
    | none => return ⟨some (String.ofList text), none, false, everything⟩

/-- The rank behind a closing bracket at a position. -/
def rankBehindBracket (text seen : List Char) (position : Nat) : Except String Nat :=
  match seen.drop (position + 1) with
  | [] => .ok everything
  | '=' :: _ => rankBehind (text.drop (position + 2))
  | _ => .error malformed

/-- The directive that a text spells in which a bracket opens at a position. -/
def bracketDirective (text seen : List Char) (opened : Nat) : Except String Directive := do
  let origin := if opened = 0 then none else some (String.ofList (text.take opened))
  let inside := seen.drop (opened + 1)
  let name := inside.takeWhile fun c => c ≠ ']' ∧ c ≠ '\x7b'
  let ended := opened + 1 + name.length
  match inside.drop name.length with
  | ']' :: _ => return ⟨origin, none, true, ← rankBehindBracket text seen ended⟩
  | '\x7b' :: rest =>
    let length := (rest.takeWhile (· ≠ '\x7d')).length
    let field := (text.drop (ended + 1)).take length
    match rest.drop length with
    | '\x7d' :: ']' :: _ =>
      if length = 0 then throw malformed
      return ⟨origin, some (String.ofList (field.takeWhile (· ≠ '='))),
        !name.isEmpty || field.contains '=', ← rankBehindBracket text seen (ended + length + 2)⟩
    | _ => throw malformed
  | _ => throw malformed

/-- The directive that a text spells, or what is wrong with it. -/
def directive (text : String) : Except String Directive :=
  let text := text.toList
  let seen := ((text.dropWhile isBlankChar).reverse.dropWhile isBlankChar).reverse
  let opened := (seen.takeWhile fun c => c ≠ '=' ∧ c ≠ '[').length
  if !(seen.head?.map fun c => isWordChar c || c = '-' || c = ':' || c = '[').getD false then
    .error malformed
  else if (seen.drop opened).head? = some '[' then bracketDirective text seen opened
  else plainDirective text seen

/-- The filter that shows reports down to a level. -/
def downTo (level : Level) : LogFilter :=
  ⟨[⟨none, none, false, level.rank⟩], []⟩

/-- The filter that a text of directives spells. -/
def ofText (text : String) : LogFilter :=
  let parts := ((text.splitOn ",").filter (· ≠ "")).map fun part => (part, directive part)
  let directives := parts.filterMap fun part => part.2.toOption
  let remarks := parts.filterMap fun (part, read) =>
    match read with
    | .ok _ => none
    | .error fault => some (s!"ignoring `{part}`: {fault}")
  ⟨if directives.isEmpty then (downTo .warn).directives else directives, remarks⟩

/-- The filter that the environment sets, unless more is asked for. -/
def ofEnvironment (env : Environment) (verbose : Bool) : LogFilter :=
  if verbose then downTo .info
  else
    match env.get? "RUST_LOG" with
    | some (.text text) => ofText text
    | some .undecodable | none => downTo .warn

/-- How much a directive says about a report, if it holds for it: first the
length of the origin that it names, then whether it asks for a field. -/
def weight? (d : Directive) (e : Event) : Option Nat :=
  let holds := !d.narrowed && (d.field.getD "message" = "message") &&
    ((d.origin.getD "").toList.isPrefixOf e.origin.toList)
  if holds then
    some (2 * (d.origin.map fun origin => 1 + origin.length).getD 0 + d.field.toList.length)
  else none

/-- The rank down to which a report is shown. -/
def threshold (filter : LogFilter) (e : Event) : Nat :=
  (filter.directives.foldl (fun (best : Nat × Nat) d =>
    match weight? d e with
    | some weight => if best.1 ≤ weight then (weight, d.rank) else best
    | none => best) (0, 0)).2

/-- Whether a report is shown. -/
def shows (filter : LogFilter) (e : Event) : Bool :=
  e.level.rank ≤ filter.threshold e

end LogFilter
end CommandLine
end DocSite
