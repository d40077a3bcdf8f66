/-!
# What can be said on a command line

The program has three commands.  Beside the command a command line has
parameters, written as options: switches, and options with a value.  Three of
them are understood before a command and behind it, because they are about the
program and not about what it is to do; the others belong to a command.

The tables here are all there is to say about a parameter: how it is written,
whether it takes a value, whether it may be repeated, and what it is for.
Reading a command line (`CommandLine.Invocation`) and explaining it
(`CommandLine.Help`) both go by them.
-/

namespace DocSite
namespace CommandLine

/-- The name of the program. -/
def programName : String := "tome"

/-- The version of the program. -/
def programVersion : String := "0.1.0"

/-- The name of a command. -/
inductive CommandName where
  | files
  | nav
  | copyStatic
  deriving DecidableEq, Inhabited, Repr

namespace CommandName

/-- All commands, in the order in which they are explained. -/
def all : List CommandName := [files, nav, copyStatic]

/-- How a command is written. -/
def label : CommandName → String
  | files => "files"
  | nav => "nav"
  | copyStatic => "copy-static"

/-- What a command does. -/
def purpose : CommandName → String
  | files => "List discovered files with their category, destination and URL"
  | nav => "Show site navigation"
  | copyStatic => "Copy static files to the site directory"

/-- The command that is written in a given way. -/
def ofLabel? (text : String) : Option CommandName :=
  all.find? fun c => c.label = text

end CommandName

/-- Something said beside the command. -/
inductive Parameter where
  | config
  | verbose
  | strict
  | docsDir
  | siteDir
  | noDirectoryUrls
  | themeDir
  | json
  | pages
  | spec
  | dirty
  | help
  | version
  deriving DecidableEq, Inhabited, Repr

namespace Parameter

/-- The long name, behind two dashes. -/
def long : Parameter → String
  | config => "config"
  | verbose => "verbose"
  | strict => "strict"
  | docsDir => "docs-dir"
  | siteDir => "site-dir"
  | noDirectoryUrls => "no-directory-urls"
  | themeDir => "theme-dir"
  | json => "json"
  | pages => "pages"
  | spec => "spec"
  | dirty => "dirty"
  | help => "help"
  | version => "version"

/-- The short name, behind one dash, for a parameter that has one. -/
def short? : Parameter → Option Char
  | config => some 'c'
  | verbose => some 'v'
  | docsDir => some 'd'
  | siteDir => some 's'
  | help => some 'h'
  | version => some 'V'
  | strict | noDirectoryUrls | themeDir | json | pages | spec | dirty => none

/-- What the value is called, for a parameter that takes one. -/
def valueName? : Parameter → Option String
  | config => some "CONFIG"
  | docsDir => some "DOCS_DIR"
  | siteDir => some "SITE_DIR"
  | themeDir => some "THEME_DIRS"
  | verbose | strict | noDirectoryUrls | json | pages | spec | dirty | help | version => none

/-- Whether a parameter takes a value. -/
def takesValue (p : Parameter) : Bool :=
  p.valueName?.isSome

/-- Whether a parameter may be given more than once. -/
def isRepeatable (p : Parameter) : Bool :=
  p = themeDir

/-- What a parameter is for, before a command or behind one. -/
def purpose (scope : Option CommandName) : Parameter → String
  | config => "Path to configuration file (default: auto-discover tome.toml)"
  | verbose => "Enable verbose output (info-level logs)"
  | strict => "Treat warnings as errors (overrides config)"
  | docsDir => "Markdown source directory (overrides config)"
  | siteDir => "Output directory for the built site (overrides config)"
  | noDirectoryUrls => "Map `page.md` to `page.html` instead of `page/index.html`"
  | themeDir => "Theme directory searched before configured ones; repeatable"
  | json =>
    if scope = some .nav then "Print the navigation tree as JSON" else "Print the catalog as JSON"
  | pages => "Print pages in reading order with previous/next links"
  | spec => "Print the effective nav specification as YAML"
  | dirty => "Only copy files whose destination is missing or older than the source"
  | help => "Print help"
  | version => "Print version"

/-- The parameters that are understood everywhere. -/
def everywhere : List Parameter := [config, verbose, strict]

/-- The parameters of every command. -/
def ofSite : List Parameter := [docsDir, siteDir, noDirectoryUrls, themeDir]

/-- The parameters that are understood before a command, or behind one. -/
def inScope : Option CommandName → List Parameter
  | none => everywhere ++ [help, version]
  | some .files => ofSite ++ [json] ++ everywhere ++ [help]
  | some .nav => ofSite ++ [json, pages, spec] ++ everywhere ++ [help]
  | some .copyStatic => ofSite ++ [dirty] ++ everywhere ++ [help]

/-- The parameter of a long name. -/
def ofLong? (scope : Option CommandName) (text : String) : Option Parameter :=
  (inScope scope).find? fun p => p.long = text

/-- The parameter of a short name. -/
def ofShort? (scope : Option CommandName) (c : Char) : Option Parameter :=
  (inScope scope).find? fun p => p.short? = some c

end Parameter
end CommandLine
end DocSite
