/-!
# Texts in a configuration

A text is written between quotation marks, in which a backslash begins an escape,
or between apostrophes, in which nothing does.  Three marks on either side let it
run over several lines; a line break right behind the first three is not part of
it, and up to two marks of the same kind may stand right before the last three.
In quotation marks a backslash at the end of a line takes the line break away,
and all blanks and line breaks behind it.

Control characters other than the tabulator must be escaped.
-/

namespace DocSite
namespace Toml

/-- A character that may stand in a text or a comment on one line. -/
def isPlainChar (c : Char) : Bool :=
  c == '\t' || (32 ≤ c.toNat && c.toNat != 127)

/-- The value of a digit in base sixteen. -/
def hexValue? (c : Char) : Option Nat :=
  if c.isDigit then some (c.toNat - 48)
  else if 'a' ≤ c ∧ c ≤ 'f' then some (c.toNat - 87)
  else if 'A' ≤ c ∧ c ≤ 'F' then some (c.toNat - 55)
  else none

/-- The character whose number is written in digits of base sixteen. -/
def charOfHex? (digits : List Char) : Option Char := do
  let n ← digits.foldlM (fun n c => return n * 16 + (← hexValue? c)) 0
  if n.isValidChar then some (Char.ofNat n) else none

/-- The character that an escape of one letter stands for. -/
def escaped? : Char → Option Char
  | 'b' => some (Char.ofNat 8)
  | 't' => some '\t'
  | 'n' => some '\n'
  | 'f' => some (Char.ofNat 12)
  | 'r' => some '\r'
  | 'e' => some (Char.ofNat 27)
  | '"' => some '"'
  | '\\' => some '\\'
  | _ => none

/-- A character put in front of a text that was read. -/
def consRead (c : Char) (read : Option (List Char × List Char)) :
    Option (List Char × List Char) :=
  read.map fun (text, rest) => (c :: text, rest)

/-- The rest of a text in quotation marks on one line, and what follows it. -/
def quoted? : List Char → Option (List Char × List Char)
  | [] => none
  | '"' :: rest => some ([], rest)
  | '\\' :: 'x' :: a :: b :: rest => do consRead (← charOfHex? [a, b]) (quoted? rest)
  | '\\' :: 'u' :: a :: b :: c :: d :: rest => do
    consRead (← charOfHex? [a, b, c, d]) (quoted? rest)
  | '\\' :: 'U' :: a :: b :: c :: d :: e :: f :: g :: h :: rest => do
    consRead (← charOfHex? [a, b, c, d, e, f, g, h]) (quoted? rest)
  | '\\' :: c :: rest => do consRead (← escaped? c) (quoted? rest)
  | ['\\'] => none
  | c :: rest => if isPlainChar c then consRead c (quoted? rest) else none

/-- The rest of a text in apostrophes on one line, and what follows it. -/
def literal? : List Char → Option (List Char × List Char)
  | [] => none
  | '\'' :: rest => some ([], rest)
  | c :: rest => if isPlainChar c then consRead c (literal? rest) else none

/-- What is being skipped in a text of several lines. -/
inductive Skipping where
  | nothing
  /-- The end of the line behind a backslash. -/
  | lineEnd
  /-- Blanks and line breaks behind that. -/
  | blanks
  deriving DecidableEq, Repr

/-- The marks at the end of a text of several lines: at least three, of which
the last three end it, so up to two belong to it. -/
def closing? (mark : Char) (text : List Char) : Option (List Char × List Char) :=
  let marks := text.takeWhile (· = mark)
  if 3 ≤ marks.length then
    let extra := min (marks.length - 3) 2
    some (List.replicate extra mark, text.drop (extra + 3))
  else none

/-- The rest of a text in quotation marks over several lines, and what follows
it. -/
def quotedLines? (skipping : Skipping) (text : List Char) : Option (List Char × List Char) :=
  match skipping, text with
  | _, [] => none
  | .lineEnd, '\n' :: rest => quotedLines? .blanks rest
  | .lineEnd, '\r' :: '\n' :: rest => quotedLines? .blanks rest
  | .lineEnd, c :: rest =>
    if c = ' ' ∨ c = '\t' then quotedLines? .lineEnd rest else none
  | .blanks, '\r' :: '\n' :: rest => quotedLines? .blanks rest
  | skipping, c :: rest =>
    if skipping = .blanks ∧ (c = ' ' ∨ c = '\t' ∨ c = '\n') then quotedLines? .blanks rest
    else if c = '"' then
      match closing? '"' (c :: rest) with
      | some found => some found
      | none => consRead c (quotedLines? .nothing rest)
    else if c = '\\' then
      match rest with
      | 'x' :: a :: b :: rest => do consRead (← charOfHex? [a, b]) (quotedLines? .nothing rest)
      | 'u' :: a :: b :: c :: d :: rest => do
        consRead (← charOfHex? [a, b, c, d]) (quotedLines? .nothing rest)
      | 'U' :: a :: b :: c :: d :: e :: f :: g :: h :: rest => do
        consRead (← charOfHex? [a, b, c, d, e, f, g, h]) (quotedLines? .nothing rest)
      | d :: rest =>
        match escaped? d with
        | some e => consRead e (quotedLines? .nothing rest)
        | none =>
          if d = ' ' ∨ d = '\t' ∨ d = '\n' ∨ d = '\r' then quotedLines? .lineEnd (d :: rest)
          else none
      | [] => none
    else if c = '\r' then
      match rest with
      | '\n' :: rest => consRead '\r' (consRead '\n' (quotedLines? .nothing rest))
      | _ => none
    else if c = '\n' ∨ isPlainChar c then consRead c (quotedLines? .nothing rest)
    else none
termination_by text.length

/-- The rest of a text in apostrophes over several lines, and what follows it. -/
def literalLines? : List Char → Option (List Char × List Char)
  | [] => none
  | '\r' :: '\n' :: rest => consRead '\r' (consRead '\n' (literalLines? rest))
  | c :: rest =>
    if c = '\'' then
      match closing? '\'' (c :: rest) with
      | some found => some found
      | none => consRead c (literalLines? rest)
    else if c = '\n' ∨ isPlainChar c then consRead c (literalLines? rest)
    else none

/-- A text without a line break at its start. -/
def dropFirstBreak : List Char → List Char
  | '\n' :: rest => rest
  | '\r' :: '\n' :: rest => rest
  | text => text

/-- A text at the start of some characters, and what follows it; texts of
several lines only where they may stand. -/
def text? (severalLines : Bool) (chars : List Char) : Option (String × List Char) :=
  let read :=
    match chars with
    | '"' :: '"' :: '"' :: rest =>
      if severalLines then quotedLines? .nothing (dropFirstBreak rest) else none
    | '\'' :: '\'' :: '\'' :: rest =>
      if severalLines then literalLines? (dropFirstBreak rest) else none
    | '"' :: rest => quoted? rest
    | '\'' :: rest => literal? rest
    | _ => none
  read.map fun (text, rest) => (String.ofList text, rest)

end Toml
end DocSite
