/-!
# Name patterns

A pattern describes names.  `?` stands for any character, `*` for any number of
them, a bracket for one of the characters in it or, after `!`, for one that is
not in it, and every other character for itself.  `**` stands for any number of
whole directories, so it must be a piece of its own: a slash or the end has to
stand on either side.  There is no escape; a bracket with one character in it
serves as one, and a closing bracket that comes first in a bracket is a member
of it.

Nothing is special about slashes and leading dots on the other side: `*` and `?`
match them as they match any character.  Which names a pattern is tried on is
for the caller to choose.

## How a pattern is matched

A pattern is matched from left to right.  At a `*` every length is tried, the
shortest first, and what is tried tells one of three things: it matched, it
differed somewhere, or the name was too short for it.  The third is final.
Trying a greater length leaves less of the name to the rest of the pattern, so
nothing can come of it, and neither can anything come of an earlier `*`.  Hence
of several stars only the last one is ever tried again, and a pattern such as
`*a*a*a*b` is refused in time that does not explode.
-/

namespace DocSite

/-- Why a pattern is refused. -/
inductive GlobFault where
  /-- More than two stars in a row. -/
  | wildcards
  /-- Two stars that are not a piece of their own. -/
  | recursiveWildcards
  /-- A bracket without its end, or with nothing in it. -/
  | invalidRange
  deriving DecidableEq, Inhabited, Repr

/-- The wording of a fault. -/
def GlobFault.message : GlobFault → String
  | wildcards => "wildcards are either regular `*` or recursive `**`"
  | recursiveWildcards => "recursive wildcards must form a single path component"
  | invalidRange => "invalid range pattern"

/-- A fault and the number of characters before it. -/
structure GlobError where
  position : Nat
  fault : GlobFault
  deriving DecidableEq, Inhabited, Repr

/-- The wording of a refusal. -/
def GlobError.message (e : GlobError) : String :=
  s!"Pattern syntax error near position {e.position}: {e.fault.message}"

namespace Glob

/-- One part of a pattern. -/
inductive Token where
  | char (c : Char)
  | anyChar
  | anySequence
  | anyDirectories
  | oneOf (ranges : List (Char × Char))
  | noneOf (ranges : List (Char × Char))
  deriving DecidableEq, Inhabited, Repr

/-- The members of a bracket: ranges, and characters as ranges of one. -/
def ranges : List Char → List (Char × Char)
  | first :: '-' :: last :: rest => (first, last) :: ranges rest
  | c :: rest => (c, c) :: ranges rest
  | [] => []

/-- What is in a bracket up to its end, and what follows; the first character is
in it whatever it is. -/
def bracket? : List Char → Option (List Char × List Char)
  | [] => none
  | c :: rest =>
    match rest.dropWhile (· ≠ ']') with
    | [] => none
    | _ :: after => some (c :: rest.takeWhile (· ≠ ']'), after)

theorem length_dropWhile_le {α : Type} (p : α → Bool) (l : List α) :
    (l.dropWhile p).length ≤ l.length :=
  (List.dropWhile_sublist p).length_le

theorem length_lt_of_bracket? {text members after : List Char}
    (h : bracket? text = some (members, after)) : after.length < text.length := by
  cases text with
  | nil => simp [bracket?] at h
  | cons c rest =>
    have hle := length_dropWhile_le (fun x : Char => decide (x ≠ ']')) rest
    simp only [bracket?] at h
    split at h
    · simp at h
    · rename_i d tail hdrop
      rw [hdrop] at hle
      simp only [Option.some.injEq, Prod.mk.injEq] at h
      rw [← h.2]
      simp only [List.length_cons] at hle ⊢
      omega

/-- The parts of a pattern from a position on, given the character before it. -/
def tokensFrom (position : Nat) (before : Option Char) (text : List Char) :
    Except GlobError (List Token) :=
  match text with
  | [] => .ok []
  | '?' :: rest => do return .anyChar :: (← tokensFrom (position + 1) (some '?') rest)
  | '*' :: '*' :: '*' :: _ => .error ⟨position + 2, .wildcards⟩
  | '*' :: '*' :: rest =>
    if before = none ∨ before = some '/' then
      match rest with
      | [] => .ok [.anyDirectories]
      | '/' :: rest =>
        do return .anyDirectories :: (← tokensFrom (position + 3) (some '/') rest)
      | _ => .error ⟨position + 2, .recursiveWildcards⟩
    else .error ⟨position - 1, .recursiveWildcards⟩
  | '*' :: rest => do return .anySequence :: (← tokensFrom (position + 1) (some '*') rest)
  | '[' :: '!' :: rest =>
    match h : bracket? rest with
    | none => .error ⟨position, .invalidRange⟩
    | some (members, after) =>
      have : after.length < rest.length := length_lt_of_bracket? h
      do return .noneOf (ranges members) ::
        (← tokensFrom (position + members.length + 3) (some ']') after)
  | '[' :: rest =>
    match h : bracket? rest with
    | none => .error ⟨position, .invalidRange⟩
    | some (members, after) =>
      have : after.length < rest.length := length_lt_of_bracket? h
      do return .oneOf (ranges members) ::
        (← tokensFrom (position + members.length + 2) (some ']') after)
  | c :: rest => do return .char c :: (← tokensFrom (position + 1) (some c) rest)
termination_by text.length

/-- Whether a character is in one of the ranges. -/
def inRanges (ranges : List (Char × Char)) (c : Char) : Bool :=
  ranges.any fun (first, last) => first ≤ c && c ≤ last

/-- Whether a part that stands for one character stands for a given one. -/
def Token.accepts (c : Char) : Token → Bool
  | .char d => c == d
  | .anyChar => true
  | .oneOf ranges => inRanges ranges c
  | .noneOf ranges => !inRanges ranges c
  | .anySequence | .anyDirectories => false

/-- What comes of trying a pattern on a text. -/
inductive Outcome where
  | matched
  /-- Something else stands in the text. -/
  | differs
  /-- The text ends too early, and trying less of it is of no use. -/
  | tooShort
  deriving DecidableEq, Inhabited, Repr

/-- The first outcome unless it differs, and the second then. -/
def Outcome.orElse (first : Outcome) (second : Unit → Outcome) : Outcome :=
  match first with
  | differs => second ()
  | other => other

/-- The outcome of trying what follows a `*` behind ever more characters. -/
def sweep (next : List Char → Outcome) : List Char → Outcome
  | [] => next []
  | c :: rest => (next (c :: rest)).orElse fun _ => sweep next rest

/-- The outcome of trying what follows a `**` behind ever more slashes, and at
last at the end. -/
def sweepDirectories (next : List Char → Outcome) : List Char → Outcome
  | [] => next []
  | '/' :: rest => (next rest).orElse fun _ => sweepDirectories next rest
  | _ :: rest => sweepDirectories next rest

/-- What comes of trying the parts of a pattern on a text. -/
def attempt : List Token → List Char → Outcome
  | [], [] => .matched
  | [], _ :: _ => .differs
  | .anySequence :: tokens, text => sweep (attempt tokens) text
  | .anyDirectories :: tokens, text =>
    (attempt tokens text).orElse fun _ => sweepDirectories (attempt tokens) text
  | _ :: _, [] => .tooShort
  | token :: tokens, c :: rest => if token.accepts c then attempt tokens rest else .differs

end Glob

/-- A pattern that has been read. -/
structure Glob where
  tokens : List Glob.Token
  deriving DecidableEq, Inhabited, Repr

namespace Glob

/-- The pattern that a text spells, or the first fault in it. -/
def ofText (text : String) : Except GlobError Glob :=
  (tokensFrom 0 none text.toList).map Glob.mk

/-- Whether a pattern describes a whole text. -/
def isMatch (g : Glob) (text : String) : Bool :=
  attempt g.tokens text.toList = .matched

end Glob
end DocSite
