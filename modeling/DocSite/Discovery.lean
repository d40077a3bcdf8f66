import DocSite.Catalog
import DocSite.FileError

/-!
# Finding the files of a directory

A directory of documents is walked from the top.  In every directory the files
come first, the index page before the others and these by name; then each
directory in it, by name.  So the order does not depend on the order in which
the operating system lists a directory, and in a navigation that is made from it
a page comes before the pages below it.

Symbolic links are followed, to files as well as to directories, and a link that
leads nowhere is a failure: it was meant to lead somewhere.  A directory may be
reached by several ways, and is then found under each of them; but a directory
that is being walked is not entered again.  That is decided by its place, which
no link can disguise, so the walk ends whatever the links do: each step down
takes a directory from those that are not open yet (`scan` ends by their
number).

A name is a text here, as it is in a file system.  What becomes of one that is not is
told apart from this, in `Catalog.discoverAmong`.

## Exclude rules

A rule is a name pattern with slashes around it that say what it is tried on.
One at the end restricts it to directories, one at the start has it tried on the
path from the top instead of the name alone.  An excluded directory is not
walked.

A `README.md` is the index page of a directory that has no `index.md`.  Where
both stand side by side they would be published at one place, so the first is
left out, with a warning.
-/

namespace DocSite

/-- A rule that says which files and directories are left out. -/
structure ExcludeRule where
  glob : Glob
  directoriesOnly : Bool
  fromTop : Bool
  deriving DecidableEq, Inhabited, Repr

/-- A text without the slashes at its ends. -/
def stripSlashes (text : String) : String :=
  let front := text.toList.dropWhile (· = '/')
  String.ofList (front.reverse.dropWhile (· = '/')).reverse

namespace ExcludeRule

/-- The rule that a text spells. -/
def ofText (text : String) : Except FileError ExcludeRule := do
  let glob ← readPattern text (stripSlashes text)
  return ⟨glob, text.toList.getLast? = some '/', text.toList.head? = some '/'⟩

/-- Whether a rule leaves out what has a name and a path from the top. -/
def excludes (rule : ExcludeRule) (name path : String) (isDirectory : Bool) : Bool :=
  (isDirectory || !rule.directoriesOnly) && rule.glob.isMatch (if rule.fromTop then path else name)

end ExcludeRule

/-- Whether one of some rules leaves something out. -/
def isExcluded (rules : List ExcludeRule) (name path : String) (isDirectory : Bool) : Bool :=
  rules.any fun rule => rule.excludes name path isDirectory

/-- Whether a file counts as the index of its directory in the order of a
walk. -/
def isIndexName (name : String) : Bool :=
  ["index", "README"].contains (stemOfName name)

/-- The order of the files of a directory: index files first, then by name. -/
def fileOrder (a b : String) : Bool :=
  if isIndexName a = isIndexName b then a ≤ b else isIndexName a

/-- Finding files: it may fail, and it reports. -/
abbrev Finding := ExceptT FileError Journal

namespace Finding

/-- A report made while finding. -/
def report (e : Event) : Finding Unit :=
  ExceptT.lift (Journal.report e)

end Finding

/-- A name of a directory and whether a directory is what it leads to. -/
def look (fs : FileSystem) (dir : Path) (name : String) : Except FileError (String × Bool) := do
  let path := dir.join ⟨name⟩
  let (_, entry) ← atPath path (fs.locate path)
  return (name, decide (entry = .directory))

/-- The names of a directory sorted into files and directories, each looked at
through links. -/
def classify (fs : FileSystem) (dir : Path) (names : List String) :
    Except FileError (List String × List String) := do
  let kinds ← names.mapM (look fs dir)
  return ((kinds.filter fun k => !k.2).map Prod.fst, (kinds.filter fun k => k.2).map Prod.fst)

/-- The files of one directory that are kept, as paths from the top. -/
def keptFiles (rules : List ExcludeRule) (dir : Path) (fromTop : String) (files : List String) :
    Finding (List String) := do
  let kept ← (files.mergeSort fileOrder).filterMapM fun name => do
    let path := Url.under fromTop name
    if isExcluded rules name path false then return none
    else if name = "README.md" ∧ "index.md" ∈ files then do
      Finding.report (.readmeSkipped dir)
      return none
    else return some path
  return kept

/-- The directories of one directory that are walked, by name. -/
def keptDirectories (rules : List ExcludeRule) (fromTop : String) (dirs : List String) :
    List String :=
  (dirs.filter fun name => !isExcluded rules name (Url.under fromTop name) true).mergeSort
    (· ≤ ·)

/-- The directories that are not among some others. -/
def unopened (fs : FileSystem) (opened : List Location) : List Location :=
  fs.directories.filter fun place => place ∉ opened

theorem length_unopened_cons_lt {fs : FileSystem} {opened : List Location} {place : Location}
    (hdir : place ∈ fs.directories) (hnew : place ∉ opened) :
    (unopened fs (place :: opened)).length < (unopened fs opened).length := by
  have hsub : unopened fs (place :: opened) =
      (unopened fs opened).filter fun other => other ≠ place := by
    simp only [unopened, List.filter_filter]
    apply List.filter_congr
    intro other _
    by_cases h : other = place <;> simp [h]
  rw [hsub]
  apply List.length_filter_lt_length_iff_exists.2
  exact ⟨place, List.mem_filter.2 ⟨hdir, by simpa using hnew⟩, by simp⟩

/-- The files below a directory as paths from the top, given the directories
that are being walked already. -/
def scan (fs : FileSystem) (rules : List ExcludeRule) (opened : List Location) (dir : Path)
    (fromTop : String) : Finding (List String) := do
  let (place, _) ← liftExcept (atPath dir (fs.locate dir))
  if hopen : place ∈ opened then
    Finding.report (.directoryLoop dir (FileSystem.canonicalPath place))
    return []
  else
    match hnames : fs.namesIn? place with
    | none => throw (.io dir .notADirectory)
    | some names =>
      have := length_unopened_cons_lt
        (FileSystem.mem_directories_of_get? (FileSystem.get?_of_namesIn? hnames)) hopen
      let (files, dirs) ← liftExcept (classify fs dir names)
      let found ← keptFiles rules dir fromTop files
      let below ← (keptDirectories rules fromTop dirs).mapM fun name =>
        scan fs rules (place :: opened) (dir.join ⟨name⟩) (Url.under fromTop name)
      return found ++ below.flatten
termination_by (unopened fs opened).length

namespace Catalog

/-- The catalog of the files below a directory that no rule leaves out. -/
def discover (fs : FileSystem) (docs site : Path) (directoryUrls : Bool)
    (exclude : List String) : Finding Catalog := do
  let rules ← liftExcept (exclude.mapM ExcludeRule.ofText)
  let srcUris ← scan fs rules [] docs ""
  Finding.report (.discovered srcUris.length docs)
  ExceptT.lift (ofFiles (srcUris.map fun srcUri => .ofPath ⟨srcUri⟩ docs site directoryUrls))

end Catalog
end DocSite
