import DocSite.Nav.Inference
import DocSite.Nav.Item

/-!
# Pages

A page is what a navigation shows of a file: the title given for it, if one was
given, and what is needed to find a title otherwise.  It is made once, when the
file is met, and keeps the address that the file had then.

A new page stands nowhere.  The section around it and its neighbours in reading
order are filled in when the navigation is complete.

The title that is shown (`Page.displayTitle`) is the given one; else `Home` for
the page that a visitor of the site sees first; else the name of the file, or of
its directory for an index page, made into a title.  A page inside a section is
never the home page.
-/

namespace DocSite
namespace Nav

/-- What a navigation shows of a file. -/
structure Page where
  /-- The title given for the page. -/
  title : Option String
  srcUri : String
  url : String
  /-- The name from which a title is made if none is given. -/
  titleStem : String
  /-- Whether the page is the index of its directory. -/
  isIndex : Bool
  /-- The section directly around the page. -/
  parent : Option SectionId
  /-- The page read before this one. -/
  previous : Option PageId
  /-- The page read after this one. -/
  next : Option PageId
  /-- Whether it is the page that is being shown. -/
  active : Bool
  deriving DecidableEq, Inhabited, Repr

namespace Page

/-- The name from which the title of a file is made: that of its directory for
an index file, if the directory has one, and that of the file otherwise. -/
def stemOfFile (f : SourceFile) : String :=
  match f.srcPath.parent?.bind Path.fileName? with
  | some dir => if f.name = "index" then dir else f.name
  | none => f.name

/-- The plain page of a file. -/
def ofFile (title : Option String) (f : SourceFile) : Page where
  title := title
  srcUri := f.srcUri
  url := f.url
  titleStem := stemOfFile f
  isIndex := f.name = "index"
  parent := none
  previous := none
  next := none
  active := false

/-- Whether a page is the first that a visitor sees. -/
def isHomepage (p : Page) : Bool :=
  p.parent.isNone && p.isIndex && ["." , "./", "index.html"].contains p.url

/-- The title that is shown. -/
def displayTitle (p : Page) : String :=
  match p.title with
  | some title => title
  | none => if p.isHomepage then "Home" else titleOfName p.titleStem

/-- A page in one line. -/
def summary (p : Page) : String :=
  match p.title with
  | some title => s!"Page(title='{title}', url='{p.url}')"
  | none => s!"Page(title=[blank], url='{p.url}')"

end Page

/-- A way of making the page of a file, given the title that the navigation has
for it. -/
abbrev PageFactory := Option String → SourceFile → Page

end Nav
end DocSite
