import DocSite.Nav.Reading
import DocSite.Url.Kind

/-!
# Building a navigation

A navigation is built for a catalog in one reading and four passes.  The reading
(`Nav.Reading`) makes pages, sections and links.  Then the pages of the forest
are listed in reading order, every child of every section is told its section,
every documentation file that got no page is given an orphan page, and every
page is told its neighbours in the order.  At the end the links are looked at:
one that names a file that is not there is reported.

A refused specification leaves no page behind, however much of it was read; nor
does it matter which pages a catalog held before, because they are taken away
first.
-/

namespace DocSite
namespace Nav

namespace Navigation

/-- The parts of a draft, with the items outside all sections. -/
def ofDraft (items : List Item) (draft : Draft) (h : Drafting.Sound draft) : Navigation where
  items := items
  readingOrder := []
  pageTable := draft.pages
  sectionTable := draft.sections
  linkTable := draft.links
  descending := h.descending
  ascending := by
    intro n s hs id hid
    rw [h.apart s (List.mem_of_getElem? hs)] at hid
    simp at hid

/-- The pages of the forest put into the reading order as the walk meets them. -/
def listPages (nav : Navigation) : Navigation :=
  { nav with readingOrder := nav.readingOrder ++ nav.walk.filterMap Item.page? }

/-! ## Parents -/

/-- An item told the section around it, which has a greater number. -/
def setParent (nav : Navigation) (parent : SectionId) (child : Item)
    (h : child.rank ≤ parent.index) : Navigation :=
  match child with
  | .ofPage id =>
    { nav with
      pageTable := nav.pageTable.modify id.index fun p => { p with parent := some parent } }
  | .ofLink id =>
    { nav with
      linkTable := nav.linkTable.modify id.index fun l => { l with parent := some parent } }
  | .ofSection id =>
    { nav with
      sectionTable := nav.sectionTable.modify id.index fun s => { s with parent := some parent }
      descending := by
        intro n s hs
        obtain ⟨old, hold, rfl | ⟨_, rfl⟩⟩ := getElem?_modify_section hs
        · exact nav.descending n _ hold
        · exact nav.descending n old hold
      ascending := by
        intro n s hs
        obtain ⟨old, hold, rfl | ⟨hn, rfl⟩⟩ := getElem?_modify_section hs
        · exact nav.ascending n _ hold
        · intro around haround
          obtain rfl : parent = around := by simpa using haround
          exact hn ▸ h }

/-- Everything directly in a section told so. -/
def adopt (nav : Navigation) (parent : SectionId) : Navigation :=
  (nav.children (.ofSection parent)).attach.foldl
    (fun made child => made.setParent parent child.1
      (Nat.le_of_lt_succ (rank_lt_of_mem_children child.2))) nav

/-- Every item in a section told so. -/
def assignParents (nav : Navigation) : Navigation :=
  (List.range nav.sectionTable.length).foldl (fun made n => made.adopt ⟨n⟩) nav

/-! ## Orphans -/

/-- A page at the end of the table and of the reading order. -/
def addOrphan (nav : Navigation) (p : Page) : Navigation :=
  { nav with
    pageTable := nav.pageTable ++ [p]
    readingOrder := nav.readingOrder ++ [⟨nav.pageTable.length⟩] }

/-- A file given an orphan page if it is documentation and has no page; the names
of those that were are remembered. -/
def adoptFile (factory : PageFactory) (made : Navigation × List String) (f : SourceFile) :
    SourceFile × (Navigation × List String) :=
  if !f.isDocumentation || f.page.isSome then (f, made)
  else (f.attach ⟨made.1.pageTable.length⟩,
    (made.1.addOrphan (factory none f), made.2 ++ [f.srcUri]))

theorem srcUri_adoptFile (factory : PageFactory) (made : Navigation × List String)
    (f : SourceFile) : (adoptFile factory made f).1.srcUri = f.srcUri := by
  unfold adoptFile
  split <;> simp

/-- Every documentation file without a page given one. -/
def addOrphans (factory : PageFactory) (catalog : Catalog) (nav : Navigation) :
    Journal (Navigation × Catalog) := do
  let (filled, nav, srcUris) :=
    catalog.visit (adoptFile factory) (srcUri_adoptFile factory) (nav, [])
  unless srcUris.isEmpty do Journal.report (.orphanPages srcUris)
  return (nav, filled)

/-! ## Neighbours -/

/-- A table of pages in which those that an order lists from a position on know
their neighbours in it. -/
def withNeighbours (order : List PageId) : List (PageId × Nat) → List Page → List Page
  | [], pages => pages
  | (id, position) :: rest, pages =>
    withNeighbours order rest (pages.modify id.index fun p =>
      { p with
        previous := if position = 0 then none else order[position - 1]?
        next := order[position + 1]? })

/-- Every page told the pages read before and after it. -/
def assignNeighbours (nav : Navigation) : Navigation :=
  { nav with
    pageTable := withNeighbours nav.readingOrder nav.readingOrder.zipIdx nav.pageTable }

end Navigation

/-- What a link reports: one that names a file that is not there is a mistake,
one that leads elsewhere may be meant. -/
def linkEvent (url : String) : Event :=
  match Url.kind url with
  | .external => .externalLink url
  | .rootAbsolute => .rootLink url
  | .fragment | .relative => .brokenLink url

/-- The links of a navigation reported in the order of the walk. -/
def checkLinks (nav : Navigation) : Journal Unit :=
  (nav.links.filterMap nav.link?).forM fun l => Journal.report (linkEvent l.url)

/-- The navigation of an accepted specification, and the catalog in which every
documentation file has a page. -/
def finish (factory : PageFactory) (items : List Item) (draft : Draft)
    (h : Drafting.Sound draft) : Journal (Navigation × Catalog) := do
  let forest := (Navigation.ofDraft items draft h).listPages.assignParents
  let (nav, filled) ← forest.addOrphans factory draft.catalog
  let linked := nav.assignNeighbours
  checkLinks linked
  return (linked, filled)

/-- The specification that a build follows: the one that is given, or else the
one that the directories suggest. -/
def effectiveSpec (spec : Option Spec) (catalog : Catalog) : Spec :=
  spec.getD (infer (catalog.documentation.map SourceFile.srcUri))

/-- The draft before anything is read. -/
def Draft.start (catalog : Catalog) : Draft :=
  ⟨catalog.detachAll, [], [], []⟩

theorem Draft.sound_start (catalog : Catalog) : Drafting.Sound (Draft.start catalog) where
  descending := by simp [Descending, Draft.start]
  apart := by simp [Draft.start]

theorem sound_of_value_convert {factory : PageFactory} {spec : Spec} {catalog : Catalog}
    {made : Draft} {items : List Item}
    (h : ((Reading.convert factory [] spec).run.run (Draft.start catalog)).value =
      (.ok items, made)) : Drafting.Sound made := by
  obtain ⟨entries, _, hplaced⟩ := Reading.arrange_of_value_convert h
  have hsound := (Drafting.sound_placedAll factory entries (Draft.sound_start catalog)).1
  rwa [hplaced] at hsound

/-- A navigation for a catalog, or the reason why the specification is refused;
and the catalog with the pages that were made, none if it is refused. -/
def build (spec : Option Spec) (factory : PageFactory) (catalog : Catalog) :
    Journal (Except SpecError Navigation × Catalog) :=
  let start := Draft.start catalog
  let reading := (Reading.convert factory [] (effectiveSpec spec start.catalog)).run.run start
  match h : reading.value with
  | (.error refusal, begun) => ⟨reading.events, .error refusal, begun.catalog.detachAll⟩
  | (.ok items, made) =>
    let finished := finish factory items made (sound_of_value_convert h)
    ⟨reading.events ++ finished.events, .ok finished.value.1, finished.value.2⟩

end Nav
end DocSite
