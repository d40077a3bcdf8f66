import DocSite.Catalog
import DocSite.FileError
import DocSite.FileSystem.Operations
import DocSite.Text.Case

/-!
# Files that themes bring along

A theme is a directory of style sheets, scripts, pictures and templates.  What
the templates are rendered into is not for this library to say; the rest is
published along with the documentation.  A documentation file is never replaced
by one of a theme, and when several themes bring the same file the first in the
search order wins.

What is not published is said by patterns: hidden files, programs, templates and
documents, the theme's own description, and the templates that are configured to
be rendered as pages of their own.  The patterns are tried on the path in small
letters, so the case of a file's name does not matter; the patterns themselves
are taken as they are written.
-/

namespace DocSite

/-- Patterns of theme files that are never published.  A hidden file is named
twice, because a star in front also stands for the directories above it. -/
def themePatterns : List String :=
  [".*", "*/.*", "*.py", "*.pyc", "*.html", "*readme*", "tome_theme.toml", "locales/*"]
    ++ markdownExtensions.map ("*" ++ ·)

/-- Which theme files are published. -/
structure ThemeFilter where
  refused : List Glob
  deriving DecidableEq, Inhabited, Repr

namespace ThemeFilter

/-- The filter that also keeps back some templates. -/
def ofTemplates (templates : List String) : Except FileError ThemeFilter := do
  return ⟨← (themePatterns ++ templates).mapM fun text => readPattern text text⟩

/-- Whether a file, by its path from the top of a theme, is published. -/
def accepts (filter : ThemeFilter) (path : String) : Bool :=
  !filter.refused.any fun glob => glob.isMatch (Case.lower path)

end ThemeFilter

/-- The files below a directory as paths from there.  A link to a file counts as
a file; a link to a directory is not followed. -/
def filesBelow (fs : FileSystem) (dir : Path) (place : Location) : List String :=
  fs.entries.filterMap fun e =>
    let path := joined (e.1.drop place.length)
    if place.isPrefixOf e.1 && e.2 ≠ .directory && fs.isFile (dir.join ⟨path⟩) then some path
    else none

/-- Every file of some themes once, by name.  A theme that is not there is
reported and passed over. -/
def listThemeFiles (fs : FileSystem) (dirs : List Path) : Journal (List String) := do
  let found ← dirs.mapM fun dir => do
    match fs.locate dir with
    | .ok (place, .directory) => return filesBelow fs dir place
    | _ =>
      Journal.report (.themeDirMissing dir)
      return []
  return found.flatten.eraseDups.mergeSort (· ≤ ·)

/-- Themes and where their files are published. -/
structure ThemeSearch where
  /-- The themes, the first one searched first. -/
  dirs : List Path
  site : Path
  directoryUrls : Bool
  /-- Templates that are kept back. -/
  templates : List String
  deriving DecidableEq, Inhabited, Repr

namespace ThemeSearch

/-- The first theme that has a file. -/
def locate? (search : ThemeSearch) (fs : FileSystem) (path : String) : Option Path :=
  search.dirs.find? fun dir => fs.isFile (dir.join ⟨path⟩)

/-- A path with slashes only. -/
def slashed (path : String) : String :=
  String.ofList (path.toList.map fun c => if c = '\\' then '/' else c)

end ThemeSearch

namespace Catalog

/-- A candidate added to a catalog, if it is published, new, and found; the
number of files added is counted on. -/
def addCandidate (fs : FileSystem) (search : ThemeSearch) (filter : ThemeFilter)
    (made : Nat × Catalog) (candidate : String) : Journal (Nat × Catalog) :=
  let path := ThemeSearch.slashed candidate
  if !filter.accepts path then return made
  else
    let (known, c) := made.2.contains path
    if known then return (made.1, c)
    else
      match search.locate? fs path with
      | none => return (made.1, c)
      | some dir => do
        let (added, larger) ← c.append (.ofPath ⟨path⟩ dir search.site search.directoryUrls)
        return (if added then made.1 + 1 else made.1, larger)

/-- A catalog with the candidates that themes have to offer, and how many files
that are. -/
def addThemeFiles (fs : FileSystem) (search : ThemeSearch) (candidates : List String)
    (c : Catalog) : Except FileError (Journal (Nat × Catalog)) := do
  let filter ← ThemeFilter.ofTemplates search.templates
  return candidates.foldlM (addCandidate fs search filter) (0, c)

end Catalog
end DocSite
