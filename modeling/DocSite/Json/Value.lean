/-!
# JSON texts

What the program shows to other programs is written as JSON: truth values,
texts, lists, and objects whose fields keep the order in which they are given.
There are no numbers, because nothing that is shown has one.

There are two forms of one value.  The compact form has no blanks at all; the
pretty form puts every member on a line of its own, indented by two blanks per
level, and writes an empty list or object without a line break.  A text is
written the same way in both: quotation mark and backslash are escaped, so are
the characters below the space, and everything else stands for itself.
-/

namespace DocSite

/-- A value that can be written as JSON. -/
inductive JsonValue where
  | bool (value : Bool)
  | text (value : String)
  | list (items : List JsonValue)
  | object (fields : List (String × JsonValue))
  deriving Inhabited, Repr

namespace JsonValue

/-- The hexadecimal digit of a number below sixteen, as a small letter. -/
def hexDigit (n : Nat) : Char :=
  if n < 10 then Char.ofNat (48 + n) else Char.ofNat (87 + n)

/-- One character between quotation marks. -/
def escapeChar (c : Char) : List Char :=
  if c = '"' then ['\\', '"']
  else if c = '\\' then ['\\', '\\']
  else if c.toNat < 32 then
    match c.toNat with
    | 8 => ['\\', 'b']
    | 9 => ['\\', 't']
    | 10 => ['\\', 'n']
    | 12 => ['\\', 'f']
    | 13 => ['\\', 'r']
    | n => ['\\', 'u', '0', '0', hexDigit (n / 16), hexDigit (n % 16)]
  else [c]

/-- A text between quotation marks. -/
def quoted (text : String) : List Char :=
  '"' :: text.toList.flatMap escapeChar ++ ['"']

mutual
/-- A value without blanks. -/
def compactChars : JsonValue → List Char
  | bool value => (if value then "true" else "false").toList
  | text value => quoted value
  | list items => '[' :: compactItems items ++ [']']
  | object fields => '{' :: compactFields fields ++ ['}']

/-- The members of a list with commas between them. -/
def compactItems : List JsonValue → List Char
  | [] => []
  | [item] => compactChars item
  | item :: rest => compactChars item ++ ',' :: compactItems rest

/-- The fields of an object with commas between them. -/
def compactFields : List (String × JsonValue) → List Char
  | [] => []
  | [(key, value)] => quoted key ++ ':' :: compactChars value
  | (key, value) :: rest => quoted key ++ ':' :: (compactChars value ++ ',' :: compactFields rest)
end

/-- A value without blanks, as a text. -/
def compact (v : JsonValue) : String :=
  String.ofList v.compactChars

/-- A new line that starts at a level. -/
def newLine (level : Nat) : List Char :=
  '\n' :: List.replicate (2 * level) ' '

mutual
/-- A value over several lines, the first of which has begun at a level. -/
def prettyChars (level : Nat) : JsonValue → List Char
  | bool value => (if value then "true" else "false").toList
  | text value => quoted value
  | list [] => ['[', ']']
  | list items => '[' :: prettyItems (level + 1) items ++ newLine level ++ [']']
  | object [] => ['{', '}']
  | object fields => '{' :: prettyFields (level + 1) fields ++ newLine level ++ ['}']

/-- The members of a list, each on a new line of a level. -/
def prettyItems (level : Nat) : List JsonValue → List Char
  | [] => []
  | [item] => newLine level ++ prettyChars level item
  | item :: rest => newLine level ++ prettyChars level item ++ ',' :: prettyItems level rest

/-- The fields of an object, each on a new line of a level. -/
def prettyFields (level : Nat) : List (String × JsonValue) → List Char
  | [] => []
  | [(key, value)] => newLine level ++ quoted key ++ ':' :: ' ' :: prettyChars level value
  | (key, value) :: rest =>
    newLine level ++ quoted key ++ ':' :: ' ' :: (prettyChars level value
      ++ ',' :: prettyFields level rest)
end

/-- A value over several lines. -/
def pretty (v : JsonValue) : String :=
  String.ofList (v.prettyChars 0)

end JsonValue
end DocSite
