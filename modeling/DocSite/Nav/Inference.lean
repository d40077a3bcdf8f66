import DocSite.Nav.Spec
import DocSite.Path.Basic
import DocSite.Text.Case

/-!
# The navigation that the directories suggest

A site that says nothing about the arrangement of its pages gets the one of its
directories: one section per directory, titled after the directory's name, and
the pages in between as they come.

Sections are found by their titles, not by the names of the directories.  Two
directories whose names make one title, such as `user-guide` and `user_guide`,
share a section, because a reader could not tell two of one title apart.

The arrangement is grown path by path (`Folder.insert`).  A path goes down the
sections of its directories, opening at the end those that are missing, and is put
at the end of the last one, so everything stands where it was first met.
-/

namespace DocSite
namespace Nav

/-- The title of a directory: dashes and underscores become spaces, and a name
without capitals gets one at the start. -/
def titleOfName (name : String) : String :=
  let title := String.ofList (name.toList.map fun c => if c = '-' ∨ c = '_' then ' ' else c)
  if Case.lower title = title then Case.capitalized title else title

/-- The titles of the directories that lead to a path, outermost first. -/
def directoryTitles (path : String) : List String :=
  (Path.mk path).components.dropLast.map fun step =>
    titleOfName (if step = .root then "/" else step.piece)

/-- What comes next in a folder: a page, or one of the folders in it. -/
inductive Slot where
  | page (path : String)
  | folder
  deriving DecidableEq, Inhabited, Repr

/-- A folder of pages and titled folders.  The folders in it are kept apart, and a slot only
marks where the next of them comes. -/
inductive Folder where
  | mk (slots : List Slot) (folders : List (String × Folder))

namespace Folder

/-- A folder with nothing in it. -/
def empty : Folder :=
  ⟨[], []⟩

instance : Inhabited Folder := ⟨empty⟩

/-- A page put at the end of the folder that the titles lead to. -/
def insert (path : String) : List String → Folder → Folder
  | [], ⟨slots, folders⟩ => ⟨slots ++ [.page path], folders⟩
  | title :: titles, ⟨slots, folders⟩ =>
    match folders.findIdx? fun f => f.1 = title with
    | some n => ⟨slots, folders.modify n fun f => (f.1, insert path titles f.2)⟩
    | none => ⟨slots ++ [.folder], folders ++ [(title, insert path titles empty)]⟩

/-- The folder that paths are put into, one after the other. -/
def grown (paths : List String) : Folder :=
  paths.foldl (fun folder path => insert path (directoryTitles path) folder) empty

/-- What fills the slots: pages as they are, and the folders in their order.  A mark for
which no folder is left is passed over. -/
def fill {α : Type} (page : String → α) : List Slot → List α → List α
  | [], _ => []
  | .page path :: slots, folders => page path :: fill page slots folders
  | .folder :: slots, f :: folders => f :: fill page slots folders
  | .folder :: slots, [] => fill page slots []

mutual
/-- A folder as a list. -/
def toSpec : Folder → Spec
  | ⟨slots, folders⟩ => .list (fill .leaf slots (toEntries folders))

/-- Folders as titled lists, in order. -/
def toEntries : List (String × Folder) → List Spec
  | [] => []
  | f :: rest => toEntry f :: toEntries rest

/-- A folder as a titled list. -/
def toEntry : String × Folder → Spec
  | (title, folder) => .entry title folder.toSpec
end

end Folder

/-- The arrangement of paths by their directories. -/
def infer (paths : List String) : Spec :=
  (Folder.grown paths).toSpec

end Nav
end DocSite
