import DocSite.Json.Value
import DocSite.Nav.Navigation

/-!
# Views of a navigation

A navigation is shown as a tree for other programs (`Navigation.outline`, written
as JSON), or as lines for people, one for each part and indented by its depth:
as a summary for whoever looks into a program (`Navigation.summary`), or in any
other wording (`Navigation.linesOf`).  All of these go down from an item to the items
in it, so each visits every part before what is below it, and the depth at which
a part stands is the number of sections around it.

A part is looked up by its number.  Every number in a forest belongs to a part,
and where one would not, the views leave it out.
-/

namespace DocSite
namespace Nav

/-- A part of a navigation with all that is shown of it. -/
inductive Outline where
  | page (title url srcUri : String) (active : Bool)
  | branch (title : String) (active : Bool) (children : List Outline)
  | link (title : Option String) (url : String)
  deriving Inhabited, Repr

namespace Outline

/-- A field that is written only when it is true. -/
def activeField (active : Bool) : List (String × JsonValue) :=
  if active then [("active", .bool true)] else []

mutual
/-- A part as a JSON object. -/
def toJson : Outline → JsonValue
  | page title url srcUri active =>
    .object ([("type", .text "page"), ("title", .text title), ("url", .text url),
      ("srcUri", .text srcUri)] ++ activeField active)
  | branch title active children =>
    .object ([("type", .text "section"), ("title", .text title)] ++ activeField active ++
      [("children", .list (toJsonAll children))])
  | link title url =>
    .object ([("type", .text "link")] ++ title.toList.map (fun t => ("title", .text t)) ++
      [("url", .text url)])

/-- Parts as JSON objects, in order. -/
def toJsonAll : List Outline → List JsonValue
  | [] => []
  | o :: rest => o.toJson :: toJsonAll rest
end

end Outline

/-- Blanks for a depth, given how many one level takes. -/
def indentation (width depth : Nat) : String :=
  String.ofList (List.replicate (width * depth) ' ')

/-- A link in one line. -/
def Link.summary (l : Link) : String :=
  match l.title with
  | some title => s!"Link(title='{title}', url='{l.url}')"
  | none => s!"Link(title=[blank], url='{l.url}')"

/-- A section in one line. -/
def Section.summary (s : Section) : String :=
  s!"Section(title='{s.title}')"

namespace Navigation

/-- What is shown of an item and everything in it. -/
def outlineOf (nav : Navigation) (item : Item) : List Outline :=
  match item with
  | .ofPage id =>
    ((nav.page? id).map fun p => Outline.page p.displayTitle p.url p.srcUri p.active).toList
  | .ofLink id => ((nav.link? id).map fun l => Outline.link l.title l.url).toList
  | .ofSection id =>
    ((nav.section? id).map fun s => Outline.branch s.title s.active
      ((nav.children (.ofSection id)).attach.flatMap fun child => nav.outlineOf child.1)).toList
termination_by item.rank
decreasing_by exact rank_lt_of_mem_children child.2

/-- What is shown of a navigation. -/
def outline (nav : Navigation) : List Outline :=
  nav.items.flatMap nav.outlineOf

/-- A navigation as a JSON list. -/
def toJson (nav : Navigation) : JsonValue :=
  .list (Outline.toJsonAll nav.outline)

/-- An item that has a depth and everything in it, one line each, by a given
wording. -/
def linesOf (nav : Navigation) (word : Item → Option String) (width depth : Nat) (item : Item) :
    List String :=
  (word item).toList.map (indentation width depth ++ ·) ++
    (nav.children item).attach.flatMap fun child => nav.linesOf word width (depth + 1) child.1
termination_by item.rank
decreasing_by exact rank_lt_of_mem_children child.2

/-- The wording of an item in a summary. -/
def summaryOf (nav : Navigation) : Item → Option String
  | .ofPage id => (nav.page? id).map Page.summary
  | .ofSection id => (nav.section? id).map Section.summary
  | .ofLink id => (nav.link? id).map Link.summary

/-- A navigation as a summary, every line ended. -/
def summary (nav : Navigation) : String :=
  String.join ((nav.items.flatMap (nav.linesOf nav.summaryOf 4 0)).map (· ++ "\n"))

end Navigation
end Nav
end DocSite
