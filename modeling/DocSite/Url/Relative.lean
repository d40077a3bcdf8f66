import DocSite.Text.Pieces

/-!
# Addresses relative to one another

Inside a site an address is a list of names counted from the root.  `steps`
reads it off a text: empty pieces and `.` say nothing, `..` takes the last name
back, and at the root there is nothing to take back, so no address leaves the
site.

A page is looked at from the directory in which it lies.  Whether a text names a
page or a directory is decided by its last piece alone: one with a dot in it is
a page, so `guide/install` is a directory although nothing stands behind it, and
`v1.2` is a page although it may have been meant as a directory
(`directoryOf`).

The way from one directory to an address goes up to the last directory that
both have in common and down from there (`relative`).  If nothing is left to
write it is `.`, and a slash at the end of the address is kept, because it says
that a directory is meant.
-/

namespace DocSite
namespace Url

/-- A name read after the names before it, which are given last one first. -/
def pushName (stack : List String) (piece : String) : List String :=
  if piece = "" ∨ piece = "." then stack
  else if piece = ".." then stack.tail
  else piece :: stack

/-- The names from the root to an address. -/
def steps (url : String) : List String :=
  ((pieces url).foldl pushName []).reverse

/-- The directory from which a text is looked at: the text itself, less its last
piece when that has a dot. -/
def directoryOf (other : String) : String :=
  if '.' ∈ (cutLast other).2.toList then (cutLast other).1 else other

/-- What is left of two lists behind the names that both start with. -/
def splitCommon : List String → List String → List String × List String
  | a :: as, b :: bs => if a = b then splitCommon as bs else (a :: as, b :: bs)
  | as, bs => (as, bs)

/-- The names that lead from one list of names to another: up for every name
that is left of the first, then down the rest of the second. -/
def detour (start goal : List String) : List String :=
  let (up, down) := splitCommon start goal
  List.replicate up.length ".." ++ down

/-- `url` as it is written on `other`. -/
def relative (url other : String) : String :=
  let way := joined (detour (steps (directoryOf other)) (steps url))
  (if way = "" then "." else way) ++ (if url.toList.getLast? = some '/' then "/" else "")

/-- `child` behind `parent`, with a slash between them unless `parent` is empty
or ends in one. -/
def under (parent child : String) : String :=
  if parent = "" then child
  else if parent.toList.getLast? = some '/' then parent ++ child
  else parent ++ "/" ++ child

end Url
end DocSite
