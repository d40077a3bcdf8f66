import DocSite.Path.Normal
import DocSite.Url.Percent
import DocSite.Url.Relative

/-!
# Source files and where they are published

A source file is known by the path that was given for it, the directory that
the path is relative to, the directory of the site, and the style in which its
address is written.  Everything else about it follows from these four, so
nothing else is stored: there is no published path or address that could be out
of date.

A Markdown file becomes a page.  Written in directory style, `guide/setup.md`
is published at `guide/setup/index.html` and addressed as `guide/setup/`, so
that a page can be moved without its links ending in `.html`; written flat, it
is `guide/setup.html` for both.  An index file is the page of its directory in
either style, and `README` counts as an index name, since that is what
directories in a repository have.  Any other file is published where it lies.

In directory style the name `index.html` disappears from every address, also
from those of files that are copied as they are: what a server sends for a
directory is its `index.html`, so both addresses would show the same file.  The
address of the root itself is `.`, because an empty address means the page on
which it stands.
-/

namespace DocSite

/-- The number of a page among the pages of a navigation. -/
@[ext] structure PageId where
  index : Nat
  deriving DecidableEq, Inhabited, Repr

/-- What a file is to a site, by its extension. -/
inductive Category where
  /-- Markdown, rendered into a page. -/
  | documentation
  /-- A document that is published as it is. -/
  | staticPage
  | script
  | stylesheet
  /-- Everything else. -/
  | media
  deriving DecidableEq, Inhabited, Repr

/-- The name under which a category is listed. -/
def Category.label : Category → String
  | documentation => "page"
  | staticPage => "static"
  | script => "script"
  | stylesheet => "stylesheet"
  | media => "media"

/-- Extensions of Markdown files. -/
def markdownExtensions : List String := [".markdown", ".mdown", ".mkdn", ".mkd", ".md"]

/-- Extensions of documents that are published as they are. -/
def staticPageExtensions : List String := [".html", ".htm", ".xml", ".json"]

/-- Extensions of scripts. -/
def scriptExtensions : List String := [".js", ".javascript"]

/-- Extensions of style sheets. -/
def stylesheetExtensions : List String := [".css"]

/-- Whether a text ends in one of the given extensions, letter for letter. -/
def hasExtension (extensions : List String) (text : String) : Bool :=
  extensions.any fun extension => extension.toList.isSuffixOf text.toList

/-- Whether a text names a Markdown file. -/
def isMarkdown (text : String) : Bool :=
  hasExtension markdownExtensions text

/-- A file of a site. -/
structure SourceFile where
  /-- The path as it was given. -/
  path : Path
  /-- The directory that the path is relative to. -/
  root : Path
  /-- The directory of the site. -/
  site : Path
  /-- Whether addresses are written in directory style. -/
  directoryUrls : Bool
  /-- The page that was made for the file. -/
  page : Option PageId
  deriving DecidableEq, Inhabited, Repr

namespace SourceFile

/-- A file for which no page was made yet. -/
def ofPath (path root site : Path) (directoryUrls : Bool) : SourceFile :=
  ⟨path, root, site, directoryUrls, none⟩

/-- The name of a file within its site: the steps of its path. -/
def srcUri (f : SourceFile) : String :=
  f.path.portable

/-- Where the file is read from. -/
def srcPath (f : SourceFile) : Path :=
  (f.root.join ⟨f.srcUri⟩).normalize

/-- The name without its extension; `README` and `index` are both `index`. -/
def name (f : SourceFile) : String :=
  match (Path.mk (cutLast f.srcUri).2).fileName? with
  | none => ""
  | some text => if stemOfName text = "README" then "index" else stemOfName text

/-- Whether the file becomes a page. -/
def isDocumentation (f : SourceFile) : Bool :=
  isMarkdown f.srcUri

/-- Whether the file is a document that is published as it is. -/
def isStaticPage (f : SourceFile) : Bool :=
  hasExtension staticPageExtensions f.srcUri

/-- Whether the file is no document at all. -/
def isMedia (f : SourceFile) : Bool :=
  !(f.isDocumentation || f.isStaticPage)

/-- Whether the file is a script. -/
def isScript (f : SourceFile) : Bool :=
  hasExtension scriptExtensions f.srcUri

/-- Whether the file is a style sheet. -/
def isStylesheet (f : SourceFile) : Bool :=
  hasExtension stylesheetExtensions f.srcUri

/-- The first category that applies, documents before the rest. -/
def category (f : SourceFile) : Category :=
  if f.isDocumentation then .documentation
  else if f.isStaticPage then .staticPage
  else if f.isScript then .script
  else if f.isStylesheet then .stylesheet
  else .media

/-- Where the file is published, relative to the site. -/
def destUri (f : SourceFile) : String :=
  let parent := (cutLast f.srcUri).1
  if !f.isDocumentation then f.srcUri
  else if !f.directoryUrls || f.name = "index" then Url.under parent (f.name ++ ".html")
  else Url.under (Url.under parent f.name) "index.html"

/-- Where the file is written to. -/
def destPath (f : SourceFile) : Path :=
  (f.site.join ⟨f.destUri⟩).normalize

/-- The address of the file relative to the root of the site, before it is
encoded. -/
def rawUrl (f : SourceFile) : String :=
  let (parent, last) := cutLast f.destUri
  if f.directoryUrls && last = "index.html" then
    if parent = "" then "." else parent ++ "/"
  else f.destUri

/-- The address of the file relative to the root of the site. -/
def url (f : SourceFile) : String :=
  Url.encode f.rawUrl

/-- The address of the file as it is written on another page. -/
def urlOn (f : SourceFile) (other : String) : String :=
  Url.relative f.url other

/-- Two records are of one file when name, place and address agree; the page
made for it does not matter. -/
def SameAs (f g : SourceFile) : Prop :=
  f.srcUri = g.srcUri ∧ f.srcPath = g.srcPath ∧ f.url = g.url

instance (f g : SourceFile) : Decidable (f.SameAs g) :=
  inferInstanceAs (Decidable (_ ∧ _ ∧ _))

/-- The same file, published elsewhere or in the other style. -/
def publishedAt (f : SourceFile) (site : Path) (directoryUrls : Bool) : SourceFile :=
  { f with site, directoryUrls }

/-- The file with a page, unless one was made before: the first one stays. -/
def attach (f : SourceFile) (id : PageId) : SourceFile :=
  { f with page := f.page.or (some id) }

/-- The file without its page. -/
def detach (f : SourceFile) : SourceFile :=
  { f with page := none }

@[simp] theorem srcUri_publishedAt (f : SourceFile) (site : Path) (directoryUrls : Bool) :
    (f.publishedAt site directoryUrls).srcUri = f.srcUri := rfl

@[simp] theorem srcUri_attach (f : SourceFile) (id : PageId) :
    (f.attach id).srcUri = f.srcUri := rfl

@[simp] theorem srcUri_detach (f : SourceFile) : f.detach.srcUri = f.srcUri := rfl

@[simp] theorem detach_attach (f : SourceFile) (id : PageId) :
    (f.attach id).detach = f.detach := rfl

@[simp] theorem page_attach (f : SourceFile) (id : PageId) :
    (f.attach id).page = f.page.or (some id) := rfl

end SourceFile
end DocSite
