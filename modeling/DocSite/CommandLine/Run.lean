import DocSite.CommandLine.Help
import DocSite.CommandLine.LogFilter
import DocSite.CommandLine.Tone
import DocSite.Nav.Build
import DocSite.Nav.Outline
import DocSite.Publishing
import DocSite.Theme
import DocSite.Yaml.Document

/-!
# Running a command

A run loads the settings of a site, finds its files, and then prints or copies.
What it prints is its result; what it tells and reports on the way goes
elsewhere, in the order in which it comes up, so both are kept apart from the
start (`Progress`).  A run that fails has printed, told and written what it had
until then.

A strict run ends in a failure if a warning was reported, whether or not the
warning is shown, but only after it has done its work: the result is there, and
the failure says that it should not be trusted.
-/

namespace DocSite
namespace CommandLine

/-- What is shown beside the result. -/
inductive Notice where
  | logged (e : Event)
  | told (text : String)
  deriving DecidableEq, Inhabited, Repr

/-- Whether a notice is a warning. -/
def Notice.isWarning : Notice → Bool
  | logged e => e.isWarning
  | told _ => false

/-- Why a run fails. -/
inductive Failure where
  | settings (cause : SettingsError)
  | files (cause : FileError)
  | nav (cause : Nav.SpecError)
  /-- Warnings were reported in a strict run. -/
  | warnings (count : Nat)
  deriving DecidableEq, Inhabited, Repr

/-- The wording of a failure. -/
def Failure.message : Failure → String
  | settings cause => cause.message
  | files cause => cause.message
  | nav cause => cause.message
  | warnings count => s!"Aborted with {count} warning(s) in strict mode"

/-- What a run has done so far. -/
structure Progress where
  fs : FileSystem
  printed : String
  notices : List Notice
  deriving Inhabited

/-- The number of warnings so far. -/
def Progress.warningCount (p : Progress) : Nat :=
  p.notices.countP Notice.isWarning

/-- A run: it may fail, and it makes progress. -/
abbrev Running := ExceptT Failure (StateM Progress)

namespace Running

/-- A line of the result. -/
def print (text : String) : Running Unit :=
  modify fun p => { p with printed := p.printed ++ text }

/-- Lines of the result. -/
def printLines (lines : List String) : Running Unit :=
  print (String.join (lines.map (· ++ "\n")))

/-- Something told beside the result. -/
def tell (text : String) : Running Unit :=
  modify fun p => { p with notices := p.notices ++ [.told text] }

/-- An answer whose reports are part of the run. -/
def note {α : Type} (answer : Journal α) : Running α := do
  modify fun p => { p with notices := p.notices ++ answer.events.map .logged }
  return answer.value

/-- Refuse if something else does. -/
def allow {α ε : Type} (cause : ε → Failure) (result : Except ε α) : Running α :=
  liftExcept (result.mapError cause)

/-- Finding files as part of a run. -/
def finding {α : Type} (found : Finding α) : Running α := do
  allow .files (← note found.run)

/-- Copying files as part of a run. -/
def copying {α : Type} (act : Copying α) : Running α := do
  let (result, fs) ← note (act.run.run (← get).fs)
  modify fun p => { p with fs }
  allow .files result

end Running

open Running

/-- A site as a run sees it. -/
structure Site where
  settings : Settings
  catalog : Catalog

/-- The files of the themes added to a catalog, if there are themes. -/
def addThemes (s : Settings) (c : Catalog) : Running Catalog := do
  if s.themeDirs.isEmpty then return c
  let fs := (← get).fs
  let candidates ← note (listThemeFiles fs s.themeDirs)
  let search : ThemeSearch := ⟨s.themeDirs, s.siteDir, s.directoryUrls, s.templates⟩
  let (added, larger) ← note (← allow .files (c.addThemeFiles fs search candidates))
  note (Journal.report (.themeFilesAdded added))
  return larger

/-- The site that a command line is about. -/
def loadSite (env : Environment) (i : Invocation) : Running Site := do
  let fs := (← get).fs
  let s ← allow .settings (Settings.load fs env i.config (some i.overrides))
  let c ← finding (Catalog.discover fs s.docsDir s.siteDir s.directoryUrls s.exclude)
  return ⟨s, ← addThemes s c⟩

/-! ## What is printed -/

/-- A file in one line. -/
def fileLine (colours : Bool) (f : SourceFile) : String :=
  let aside := Tone.aside.apply colours
  s!"{padRight 10 f.category.label} {f.srcUri} " ++ aside "->" ++ s!" {f.destUri} " ++
    aside s!"({f.url})"

/-- A file as JSON, its fields in the order of their names. -/
def fileJson (f : SourceFile) : JsonValue :=
  .object [("absDestPath", .text f.destPath.text), ("absSrcPath", .text f.srcPath.text),
    ("category", .text f.category.label), ("destUri", .text f.destUri),
    ("srcUri", .text f.srcUri), ("url", .text f.url)]

/-- The address of a page as it is written on another page. -/
def pageLink (nav : Nav.Navigation) (p : Nav.Page) (other : Option PageId) : String :=
  ((other.bind nav.page?).map fun q => Url.relative q.url p.url).getD "-"

/-- The pages in reading order, one line each, with their neighbours. -/
def pageLines (colours : Bool) (nav : Nav.Navigation) : List String :=
  let aside := Tone.aside.apply colours
  nav.readingOrder.filterMap fun id => (nav.page? id).map fun p =>
    padRight 40 p.url ++ " " ++ aside s!"prev: {pageLink nav p p.previous}" ++
      " " ++ aside s!"next: {pageLink nav p p.next}"

/-- The wording of an item of a navigation. -/
def partText (colours : Bool) (nav : Nav.Navigation) : Nav.Item → Option String
  | .ofPage id => (nav.page? id).map fun p =>
    p.displayTitle ++ " " ++ Tone.aside.apply colours s!"({p.url})"
  | .ofSection id => (nav.section? id).map fun s => Tone.heading.apply colours s.title
  | .ofLink id => (nav.link? id).map fun l =>
    l.title.getD l.url ++ " " ++ Tone.aside.apply colours s!"-> {l.url}"

/-- A navigation as lines, indented by the sections around a part. -/
def treeLines (colours : Bool) (nav : Nav.Navigation) : List String :=
  nav.items.flatMap (nav.linesOf (partText colours nav) 2 0)

/-! ## The commands -/

/-- Print the files of a site. -/
def printFiles (colours : Bool) (site : Site) (json : Bool) : Running Unit := do
  let c := site.catalog
  if json then printLines [(JsonValue.list (c.files.map fileJson)).pretty]
  else
    printLines (c.files.map (fileLine colours))
    tell s!"{c.size} files, {c.documentation.length} pages"

/-- Print the navigation of a site. -/
def printNavigation (colours : Bool) (site : Site) (view : NavView) : Running Unit := do
  let build : Running Nav.Navigation := do
    let (result, _) ← note (Nav.build site.settings.nav .ofFile site.catalog)
    allow .nav result
  match view with
  | .spec => print (Yaml.document (Nav.effectiveSpec site.settings.nav site.catalog))
  | .json => printLines [(← build).toJson.pretty]
  | .pages => printLines (pageLines colours (← build))
  | .tree => printLines (treeLines colours (← build))

/-- Copy the files of a site that are no Markdown. -/
def copyFiles (colours : Bool) (site : Site) (onlyModified : Bool) : Running Unit := do
  tell s!"Source: {site.settings.docsDir}"
  tell s!"Output: {site.settings.siteDir}"
  let count ← copying (site.catalog.publishStatic onlyModified)
  tell (Tone.success.apply colours s!"Copied {count} static files to {site.settings.siteDir}")

/-- Fail if warnings count and there are some. -/
def finish (s : Settings) : Running Unit := do
  let count := (← get).warningCount
  if s.strict && count > 0 then throw (.warnings count)

/-- What a command line asks for, done. -/
def perform (env : Environment) (i : Invocation) : Running Unit := do
  let site ← loadSite env i
  let colours := insistsOnColours env
  match i.command with
  | .files json => printFiles colours site json
  | .nav view => printNavigation colours site view
  | .copyStatic onlyModified => copyFiles colours site onlyModified
  finish site.settings

/-! ## The outcome -/

/-- What a run leaves behind. -/
structure Outcome where
  progress : Progress
  failure : Option Failure

/-- A command line run to its end. -/
def execute (fs : FileSystem) (env : Environment) (i : Invocation) : Outcome :=
  let (result, progress) := (perform env i).run.run ⟨fs, "", []⟩
  ⟨progress, match result with
    | .ok () => none
    | .error cause => some cause⟩

/-- The code with which the program ends after a run. -/
def Outcome.exitCode (o : Outcome) : Nat :=
  if o.failure.isSome then 1 else 0

end CommandLine
end DocSite
