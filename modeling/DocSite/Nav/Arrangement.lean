import DocSite.Nav.Spec

/-!
# What a specification stands for

A specification has three shapes, and what a shape stands for depends on where
it stands.  Once that is decided, what is left is an arrangement: a row of
entries, each a leaf, which may have a title, or a titled group of entries.

Two shapes are refused, both inside lists: a mapping that has not exactly one
title, because it would stand for no or several entries at once, and a list
without a title.  The refusal names the place by the indices and titles that
lead to it, and it is the refusal of the first such place.
-/

namespace DocSite
namespace Nav

/-- A step into a specification. -/
inductive Step where
  | index (n : Nat)
  | title (text : String)
  deriving DecidableEq, Inhabited, Repr

/-- Why a specification is refused. -/
inductive SpecError where
  /-- A list item is a mapping with no title or with several. -/
  | ambiguousEntry (location : List Step) (keys : List String)
  /-- A list item is itself a list. -/
  | nestedList (location : List Step)
  deriving DecidableEq, Inhabited, Repr

/-- A step as it is written in a message. -/
def Step.label : Step → String
  | index n => s!"[{n}]"
  | title text => text

/-- A place in a specification as it is written in a message. -/
def locationText (location : List Step) : String :=
  String.intercalate " > " ("nav" :: location.map Step.label)

/-- The wording of a refusal. -/
def SpecError.message : SpecError → String
  | ambiguousEntry location keys =>
    let found :=
      if keys.isEmpty then "an empty mapping" else "keys " ++ String.intercalate ", " keys
    s!"Ambiguous nav entry at {locationText location}: " ++
      s!"a list item must map exactly one title, found {found}"
  | nestedList location =>
    s!"Invalid nav entry at {locationText location}: " ++
      "a list cannot directly contain another list; give it a title to make a section"

/-- An entry of an arrangement. -/
inductive Entry where
  /-- A document or an address, perhaps with a title. -/
  | leaf (title : Option String) (target : String)
  | group (title : String) (entries : List Entry)
  deriving Inhabited, Repr

mutual
/-- The entries that a value stands for. -/
def arrange (location : List Step) : Spec → Except SpecError (List Entry)
  | .leaf target => return [.leaf none target]
  | .mapping entries => arrangeEntries location entries
  | .list items => arrangeItems location 0 items

/-- The entries that the entries of a mapping stand for, in order. -/
def arrangeEntries (location : List Step) :
    List (String × Spec) → Except SpecError (List Entry)
  | [] => return []
  | (title, value) :: rest => do
    let first ← arrangeEntry location title value
    return first :: (← arrangeEntries location rest)

/-- A titled value: a leaf with a title, or a group. -/
def arrangeEntry (location : List Step) (title : String) : Spec → Except SpecError Entry
  | .leaf target => return .leaf (some title) target
  | .mapping entries => return .group title (← arrangeEntries (location ++ [.title title]) entries)
  | .list items => return .group title (← arrangeItems (location ++ [.title title]) 0 items)

/-- The entries that the items of a list stand for, the first of which has a
given index. -/
def arrangeItems (location : List Step) (n : Nat) : List Spec → Except SpecError (List Entry)
  | [] => return []
  | .leaf target :: rest => return .leaf none target :: (← arrangeItems location (n + 1) rest)
  | .mapping [(title, value)] :: rest => do
    let first ← arrangeEntry (location ++ [.index n]) title value
    return first :: (← arrangeItems location (n + 1) rest)
  | .mapping entries :: _ =>
    throw (.ambiguousEntry (location ++ [.index n]) (entries.map Prod.fst))
  | .list _ :: _ => throw (.nestedList (location ++ [.index n]))
end

end Nav
end DocSite
