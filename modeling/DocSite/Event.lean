import DocSite.Path.Basic

/-!
# What is reported on the way

Finding files, copying them and building a navigation report what they meet:
mostly for somebody who watches, but warnings also count, since a strict run
fails on them.  So reports are part of what a computation answers, and they are
kept as causes; level and wording are functions of the cause.

A `Journal` is an answer together with the reports made before it was reached.
A computation that may fail is a journal of an `Except`, so that what was
reported before the failure is not lost.
-/

namespace DocSite

/-- How much a report matters, most first. -/
inductive Level where
  | error
  | warn
  | info
  | debug
  deriving DecidableEq, Inhabited, Repr

namespace Level

/-- The rank of a level: the lower, the more it matters. -/
def rank : Level → Nat
  | error => 1
  | warn => 2
  | info => 3
  | debug => 4

/-- The name under which a level is shown. -/
def label : Level → String
  | error => "ERROR"
  | warn => "WARN"
  | info => "INFO"
  | debug => "DEBUG"

end Level

/-- Something met on the way. -/
inductive Event where
  /-- A second file of one name was offered to a catalog. -/
  | duplicateFile (srcUri : String)
  /-- A file was not copied because its copy is up to date. -/
  | copyUpToDate (srcUri : String)
  /-- A file is being copied. -/
  | copying (srcUri : String)
  /-- A directory is reached that is being walked already. -/
  | directoryLoop (dir : Path) (canonical : Path)
  /-- A directory has two index files, and one of them is left out. -/
  | readmeSkipped (dir : Path)
  /-- A directory was walked. -/
  | discovered (count : Nat) (dir : Path)
  /-- A theme directory is not there. -/
  | themeDirMissing (dir : Path)
  /-- The files of the themes were added. -/
  | themeFilesAdded (count : Nat)
  /-- A file is named again in a navigation. -/
  | repeatedPage (srcUri : String)
  /-- Pages that the navigation does not name. -/
  | orphanPages (srcUris : List String)
  /-- A navigation entry leads out of the site. -/
  | externalLink (url : String)
  /-- A navigation entry starts at the root of the site. -/
  | rootLink (url : String)
  /-- A navigation entry names a file that is not there. -/
  | brokenLink (url : String)
  deriving DecidableEq, Inhabited, Repr

namespace Event

/-- How much a report matters. -/
def level : Event → Level
  | duplicateFile _ | copyUpToDate _ | copying _ | discovered .. | themeDirMissing _
  | repeatedPage _ | externalLink _ | rootLink _ => .debug
  | themeFilesAdded _ | orphanPages _ => .info
  | directoryLoop .. | readmeSkipped _ | brokenLink _ => .warn

/-- The part of the program that reports, by the name under which a log filter
knows it. -/
def origin : Event → String
  | duplicateFile _ => "tome_files::catalog"
  | copyUpToDate _ | copying _ => "tome_files::file"
  | directoryLoop .. | readmeSkipped _ | discovered .. => "tome_files::scanner"
  | themeDirMissing _ => "tome_files::theme"
  | themeFilesAdded _ => "tome::commands"
  | repeatedPage _ | orphanPages _ | externalLink _ | rootLink _ | brokenLink _ =>
    "tome_nav::builder"

/-- The wording of a report. -/
def message : Event → String
  | duplicateFile srcUri => s!"Ignoring duplicate file: '{srcUri}'"
  | copyUpToDate srcUri => s!"Skip copying unmodified file: '{srcUri}'"
  | copying srcUri => s!"Copying media file: '{srcUri}'"
  | directoryLoop dir canonical => s!"Skipping '{dir}': symlink loop back to '{canonical}'"
  | readmeSkipped dir =>
    s!"Both index.md and README.md found. Skipping README.md from '{dir}'"
  | discovered count dir => s!"Discovered {count} files in '{dir}'"
  | themeDirMissing dir => s!"Theme directory not found: '{dir}'"
  | themeFilesAdded count => s!"Added {count} files from theme directories"
  | repeatedPage srcUri =>
    s!"'{srcUri}' appears more than once in the nav; keeping the first page"
  | orphanPages srcUris =>
    "The following pages exist in the docs directory, but are not included in the \"nav\" " ++
      "configuration:" ++ String.join (srcUris.map fun srcUri => "\n  - " ++ srcUri)
  | externalLink url => s!"An external link to '{url}' is included in the nav."
  | rootLink url =>
    s!"An absolute path to '{url}' is included in the nav, " ++
      "which presumably points to an external resource."
  | brokenLink url =>
    s!"A relative path to '{url}' is included in the nav, " ++
      "which is not found in the documentation files."

/-- Whether a report counts against a strict run. -/
def isWarning (e : Event) : Bool :=
  e.level.rank ≤ Level.warn.rank

end Event

/-- An answer, and what was reported before it was reached. -/
structure Journal (α : Type) where
  events : List Event
  value : α
  deriving Inhabited

namespace Journal

instance : Monad Journal where
  pure value := ⟨[], value⟩
  bind first next :=
    ⟨first.events ++ (next first.value).events, (next first.value).value⟩

/-- A report and no other answer. -/
def report (e : Event) : Journal Unit :=
  ⟨[e], ()⟩

@[simp] theorem events_pure {α : Type} (value : α) :
    (pure value : Journal α).events = [] := rfl

@[simp] theorem value_pure {α : Type} (value : α) :
    (pure value : Journal α).value = value := rfl

@[simp] theorem events_bind {α β : Type} (first : Journal α) (next : α → Journal β) :
    (first >>= next).events = first.events ++ (next first.value).events := rfl

@[simp] theorem value_bind {α β : Type} (first : Journal α) (next : α → Journal β) :
    (first >>= next).value = (next first.value).value := rfl

@[simp] theorem value_map {α β : Type} (f : α → β) (x : Journal α) :
    (f <$> x).value = f x.value := rfl

@[simp] theorem events_map {α β : Type} (f : α → β) (x : Journal α) :
    (f <$> x).events = x.events := List.append_nil _

@[ext] theorem ext {α : Type} {x y : Journal α} (hevents : x.events = y.events)
    (hvalue : x.value = y.value) : x = y := by
  cases x; cases y; simp_all

instance : LawfulMonad Journal :=
  LawfulMonad.mk' Journal
    (fun x => by ext1 <;> simp [Functor.map])
    (fun x f => by ext1 <;> simp)
    (fun x f g => by ext1 <;> simp)

end Journal
end DocSite
