import DocSite.Text.Word

/-!
# References to the environment

Some settings may refer to variables of the environment.  A reference is written
with braces, and may then say what to take when the variable is not set, or
without, and then ends with the first character that cannot be in a name.  A
doubled dollar sign stands for one.

A setting without a brace behind a dollar sign is left alone entirely, so that
`$HOME/docs` and `a$$b` mean what they say where no reference is meant.  What is put in for a
reference is not looked at again.
-/

namespace DocSite

/-- What the environment has under a name. -/
inductive Variable where
  | text (value : String)
  /-- Bytes that are no text. -/
  | undecodable
  deriving DecidableEq, Inhabited, Repr

/-- The variables of the environment; of two under one name the first counts. -/
abbrev Environment := List (String × Variable)

/-- What the environment has under a name.  No variable has an equals sign in its
name.  A name with one stands for the variable before the sign, if its value goes
on as the name does up to one more equals sign, and then for the rest of that
value: the environment is a list of settings, each a name, the sign and a value
in one text. -/
def Environment.get? (env : Environment) (name : String) : Option Variable :=
  let plain := name.toList.takeWhile (· ≠ '=')
  match env.lookup (String.ofList plain), name.toList.drop plain.length with
  | found, [] => found
  | some (.text value), _ :: more =>
    if (more ++ ['=']).isPrefixOf value.toList then
      some (.text (String.ofList (value.toList.drop (more.length + 1))))
    else none
  | _, _ => none

/-- A reference that cannot be resolved. -/
inductive ReferenceError where
  | missing (name : String)
  | undecodable (name : String)
  deriving DecidableEq, Inhabited, Repr

/-- The wording of a reference that cannot be resolved. -/
def ReferenceError.message : ReferenceError → String
  | missing name => "$\x7b" ++ name ++ "\x7d not set"
  | undecodable name => "$\x7b" ++ name ++ "\x7d is not valid unicode"

namespace Reference

/-- The text of a variable. -/
def lookup (env : Environment) (name : String) : Except ReferenceError String :=
  match env.get? name with
  | some (.text value) => .ok value
  | some .undecodable => .error (.undecodable name)
  | none => .error (.missing name)

/-- Characters cut at the first colon with a dash behind it. -/
def cutDefault? : List Char → Option (List Char × List Char)
  | ':' :: '-' :: rest => some ([], rest)
  | c :: rest => (cutDefault? rest).map fun (before, after) => (c :: before, after)
  | [] => none

/-- What stands between the braces of a reference: a name, and what to take when
it is not set.  A reference that begins with the mark of a default has no name
before it, and is all name. -/
def nameAndDefault (inside : List Char) : String × Option String :=
  match cutDefault? inside with
  | some (c :: name, value) => (String.ofList (c :: name), some (String.ofList value))
  | _ => (String.ofList inside, none)

/-- What is put in for a reference in braces. -/
def braced (env : Environment) (inside : List Char) : Except ReferenceError String :=
  let (name, value) := nameAndDefault inside
  match lookup env name, value with
  | .ok text, _ => .ok text
  | .error _, some value => .ok value
  | .error e, none => .error e

/-- Characters with every reference in them resolved. -/
def expandChars (env : Environment) (text : List Char) : Except ReferenceError (List Char) :=
  match text with
  | [] => .ok []
  | '$' :: '\x7b' :: rest =>
    let inside := rest.takeWhile (· ≠ '\x7d')
    let after := rest.drop (inside.length + 1)
    -- Without a closing brace there is no reference.
    if inside.length < rest.length then do
      return (← braced env inside).toList ++ (← expandChars env after)
    else do return '$' :: '\x7b' :: (← expandChars env rest)
  | '$' :: '$' :: rest => do return '$' :: (← expandChars env rest)
  | '$' :: c :: rest =>
    if isWordChar c then do
      let name := c :: rest.takeWhile isWordChar
      return (← lookup env (String.ofList name)).toList ++
        (← expandChars env (rest.drop (name.length - 1)))
    else do return '$' :: (← expandChars env (c :: rest))
  | c :: rest => do return c :: (← expandChars env rest)
termination_by text.length
decreasing_by
  all_goals
    simp only [List.length_drop, List.length_cons]
    omega

/-- Whether a dollar sign with a brace behind it stands in a text. -/
def hasBrace : List Char → Bool
  | '$' :: '\x7b' :: _ => true
  | _ :: rest => hasBrace rest
  | [] => false

/-- A setting with its references resolved, if it has any in braces. -/
def expand (env : Environment) (text : String) : Except ReferenceError String :=
  if hasBrace text.toList then (expandChars env text.toList).map String.ofList else .ok text

end Reference
end DocSite
