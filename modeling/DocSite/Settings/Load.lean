import DocSite.FileSystem.Operations
import DocSite.Glob
import DocSite.Discovery
import DocSite.Settings.Decode
import DocSite.Settings.Reference
import DocSite.Text.Blank
import DocSite.Toml.Document

/-!
# The settings of a site

Settings come from a configuration file, which is either named or looked for in
the current directory and those around it, the nearest first; without one there
are defaults.  Paths in the file are relative to the directory of the file, so
that it does not matter from where a program is started.  What is said when the
program is started counts more than the file, and its paths are relative to
where it is started.

What results is checked as a whole: the site has a name, every exclude rule can
be read, and neither of the two directories lies in the other, since a site that
is written into its own sources would grow with every run.
-/

namespace DocSite

/-- The settings of a site. -/
structure Settings where
  siteName : String
  /-- Whether warnings make a run fail. -/
  strict : Bool
  docsDir : Path
  siteDir : Path
  directoryUrls : Bool
  /-- The exclude rules as they are written. -/
  exclude : List String
  nav : Option Nav.Spec
  /-- The themes, the first one searched first. -/
  themeDirs : List Path
  /-- Templates of themes that are rendered as pages of their own. -/
  templates : List String
  /-- The configuration file. -/
  source : Option Path
  deriving Inhabited, Repr

/-- What is said about a site when a program is started. -/
structure Overrides where
  docsDir : Option Path
  siteDir : Option Path
  directoryUrls : Option Bool
  strict : Option Bool
  /-- Themes that are searched before the others. -/
  themeDirs : List Path
  deriving Inhabited, Repr

/-- What is wrong with settings that could be read. -/
inductive Misfit where
  | emptySiteName
  | emptyExclude
  | badExclude (rule : String) (cause : GlobError)
  | sameDirectory
  | siteInsideDocs (site docs : Path)
  | docsInsideSite (docs site : Path)
  deriving DecidableEq, Inhabited, Repr

/-- The wording of what is wrong. -/
def Misfit.message : Misfit → String
  | emptySiteName => "site_name cannot be empty"
  | emptyExclude => "docs.exclude cannot be empty"
  | badExclude rule cause => s!"docs.exclude pattern '{rule}' is invalid: {cause.message}"
  | sameDirectory => "docs.docs_dir and docs.site_dir cannot be the same directory"
  | siteInsideDocs site docs =>
    s!"docs.site_dir ({site}) cannot be inside docs.docs_dir ({docs})"
  | docsInsideSite docs site =>
    s!"docs.docs_dir ({docs}) cannot be inside docs.site_dir ({site})"

/-- Why a configuration file could not be read as a text. -/
inductive ReadError where
  | os (cause : OsError)
  /-- Its bytes are no text. -/
  | notText
  deriving DecidableEq, Inhabited, Repr

/-- The wording of a failure to read a text. -/
def ReadError.message : ReadError → String
  | os cause => cause.message
  | notText => "stream did not contain valid UTF-8"

/-- Why there are no settings. -/
inductive SettingsError where
  /-- The configuration file that was named is not there. -/
  | notFound (path : Path)
  | io (cause : ReadError)
  /-- The file is no configuration, or, with a cause, one with a value of the wrong
  type. -/
  | parse (cause : Option TypeFault)
  | misfit (cause : Misfit)
  /-- A setting refers to a variable that has no text. -/
  | environment (field : String) (cause : ReferenceError)
  deriving DecidableEq, Inhabited, Repr

/-- The wording of a failure; of a text that is no configuration it does not say
where the fault is. -/
def SettingsError.message : SettingsError → String
  | notFound path => s!"Configuration file not found: {path}"
  | io cause => s!"I/O error: {cause.message}"
  | parse _ => "TOML parse error"
  | misfit cause => s!"Configuration error: {cause.message}"
  | environment field cause => s!"Environment variable error in {field}: {cause.message}"

namespace Settings

/-- The name of a configuration file. -/
def fileName : String := "tome.toml"

/-- The exclude rules that hold when none are given. -/
def defaultExclude : List String := [".*", "/templates"]

/-- The settings of a site that says nothing, relative to a directory. -/
def defaults (base : Path) : Settings where
  siteName := defaultSiteName
  strict := false
  docsDir := base.join ⟨"docs"⟩
  siteDir := base.join ⟨"site"⟩
  directoryUrls := true
  exclude := defaultExclude
  nav := none
  themeDirs := []
  templates := []
  source := none

/-- Written settings with their references resolved. -/
def expandReferences (env : Environment) (w : WrittenSettings) :
    Except SettingsError WrittenSettings := do
  let expand (field : String) (text : String) : Except SettingsError String :=
    (Reference.expand env text).mapError (.environment field)
  let siteName ← expand "site_name" w.siteName
  let docsDir ← w.docs.docsDir.mapM (expand "docs.docs_dir")
  let siteDir ← w.docs.siteDir.mapM (expand "docs.site_dir")
  let dirs ← w.theme.dirs.mapM fun dirs => dirs.mapM (expand "theme.dirs")
  return { w with
    siteName
    docs := { w.docs with docsDir, siteDir }
    theme := { w.theme with dirs } }

/-- Written settings with their paths read from the directory of their file. -/
def ofWritten (source : Path) (w : WrittenSettings) : Settings :=
  let dir := source.parent?.getD ⟨"."⟩
  { siteName := w.siteName
    strict := w.strict
    docsDir := dir.join ⟨w.docs.docsDir.getD "docs"⟩
    siteDir := dir.join ⟨w.docs.siteDir.getD "site"⟩
    directoryUrls := w.docs.directoryUrls.getD true
    exclude := w.docs.exclude.getD defaultExclude
    nav := w.docs.nav
    themeDirs := (w.theme.dirs.getD []).map fun d => dir.join ⟨d⟩
    templates := w.theme.templates.getD []
    source := some source }

/-- The settings that a text spells, as the file of a path. -/
def ofText (env : Environment) (source : Path) (text : String) :
    Except SettingsError Settings := do
  let some entries := Toml.document? text | throw (.parse none)
  let written ← (Decode.settings entries).mapError fun cause => .parse (some cause)
  return ofWritten source (← expandReferences env written)

/-- The text of a file. -/
def readText (fs : FileSystem) (path : Path) : Except ReadError String := do
  let bytes ← (fs.readFile path).mapError .os
  match String.fromUTF8? bytes with
  | some text => return text
  | none => throw .notText

/-- The settings in a file. -/
def ofFile (fs : FileSystem) (env : Environment) (path : Path) :
    Except SettingsError Settings := do
  ofText env path (← (readText fs path).mapError .io)

/-- The nearest configuration file in the current directory and those around
it. -/
def find? (fs : FileSystem) : Option Path :=
  let depth := fs.cwd.length
  let candidates := (List.range (depth + 1)).map fun n =>
    (FileSystem.canonicalPath (fs.cwd.take (depth - n))).join ⟨fileName⟩
  candidates.find? fs.pathExists

/-- Settings with what was said when the program was started. -/
def override (s : Settings) (o : Overrides) : Settings :=
  { s with
    docsDir := o.docsDir.getD s.docsDir
    siteDir := o.siteDir.getD s.siteDir
    directoryUrls := o.directoryUrls.getD s.directoryUrls
    strict := o.strict.getD s.strict
    themeDirs := o.themeDirs ++ s.themeDirs }

/-- An exclude rule checked. -/
def checkExclude (rule : String) : Except Misfit Unit :=
  let bare := stripSlashes rule
  if isBlank bare then .error .emptyExclude
  else
    match Glob.ofText bare with
    | .ok _ => .ok ()
    | .error cause => .error (.badExclude rule cause)

/-- The two directories checked, step by step and as they are spelled. -/
def checkDirectories (docs site : Path) : Except Misfit Unit :=
  if docs.SameAs site then .error .sameDirectory
  else if site.StartsWith docs then .error (.siteInsideDocs site docs)
  else if docs.StartsWith site then .error (.docsInsideSite docs site)
  else .ok ()

/-- Settings checked as a whole. -/
def validate (s : Settings) : Except Misfit Unit := do
  if isBlank s.siteName then throw .emptySiteName
  s.exclude.forM checkExclude
  checkDirectories s.docsDir s.siteDir

/-- The settings of a site: from the file that is named, or the nearest one, or
the defaults; with what was said when the program was started. -/
def load (fs : FileSystem) (env : Environment) (named : Option Path)
    (overrides : Option Overrides) : Except SettingsError Settings := do
  let s ←
    match named with
    | some path =>
      if fs.pathExists path then ofFile fs env path else throw (.notFound path)
    | none =>
      match find? fs with
      | some path => ofFile fs env path
      | none => pure (defaults (FileSystem.canonicalPath fs.cwd))
  let s := (overrides.map s.override).getD s
  s.validate.mapError .misfit
  return s

end Settings
end DocSite
