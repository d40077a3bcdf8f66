import DocSite.Nav.Spec
import DocSite.Yaml.Scalar

/-!
# Navigation specifications as YAML documents

A specification is written so that it can be put into a configuration: lists as
lines with dashes, mappings as lines with keys, one level of depth per two
blanks.  A collection that stands behind a dash starts on the same line.  A list
that stands behind a key starts on the next line at the depth of the key, since
its dashes set it off already, and a mapping there is one level deeper.  An empty
collection is written in brackets.

A key must fit into one line and 128 bytes.  One that does not is set off by a
question mark, and its value by a colon on the next line.
-/

namespace DocSite
namespace Yaml

/-- A new line at a depth, unless a line has just begun. -/
def freshLine (indent : Nat) (before : List Char) : List Char :=
  (if (before.getLast?.map isBreak).getD false then [] else ['\n']) ++ List.replicate indent ' '

/-- Whether a title can stand before a colon. -/
def isShortKey (title : String) : Bool :=
  !title.toList.any isBreak && title.utf8ByteSize ≤ 128

mutual
/-- A value that starts on a line that has reached a depth. -/
def node (indent : Nat) : Nav.Spec → List Char
  | .leaf target => scalar indent false target
  | .list [] => ['[', ']']
  | .list items => listLines indent items
  | .mapping [] => ['{', '}']
  | .mapping entries => mappingLines indent entries

/-- The members of a list, each behind a dash. -/
def listLines (indent : Nat) : List Nav.Spec → List Char
  | [] => []
  | [item] => '-' :: ' ' :: node (indent + 2) item
  | item :: rest =>
    let first := '-' :: ' ' :: node (indent + 2) item
    first ++ freshLine indent first ++ listLines indent rest

/-- The entries of a mapping, each behind its key. -/
def mappingLines (indent : Nat) : List (String × Nav.Spec) → List Char
  | [] => []
  | [(title, value)] => entryLines indent title value
  | (title, value) :: rest =>
    let first := entryLines indent title value
    first ++ freshLine indent first ++ mappingLines indent rest

/-- One entry of a mapping. -/
def entryLines (indent : Nat) (title : String) (value : Nav.Spec) : List Char :=
  if isShortKey title then
    scalar (indent + 2) true title ++ ':' ::
      match value with
      | .list (item :: rest) => '\n' :: List.replicate indent ' ' ++ listLines indent (item :: rest)
      | .mapping (entry :: rest) =>
        '\n' :: List.replicate (indent + 2) ' ' ++ mappingLines (indent + 2) (entry :: rest)
      | .leaf target => ' ' :: scalar (indent + 2) false target
      | .list [] => [' ', '[', ']']
      | .mapping [] => [' ', '{', '}']
  else
    let key := '?' :: ' ' :: scalar (indent + 2) false title
    key ++ freshLine indent key ++ ':' :: ' ' :: node (indent + 2) value
end

/-- A specification as a document of its own. -/
def document (spec : Nav.Spec) : String :=
  let lines :=
    match spec with
    | .leaf target => scalar 2 false target
    | spec => node 0 spec
  String.ofList (lines ++ freshLine 0 lines)

end Yaml
end DocSite
