import DocSite.Nav.Page

/-!
# Navigations

A navigation is a forest of pages, links and titled sections.  Its parts stand
in three tables, in the order of their numbers, and speak of one another by
numbers: a section has a list of the items in it, and every part has the section
around it, if there is one.  So a part is found at once, and a page may be
changed (its title, whether it is the current one) without touching the forest.
Some pages are not in the forest at all: a documentation file that no entry
names still gets a page, an orphan, which only the reading order lists.

## What makes it a forest

Tables of numbers can say anything; two things hold of every navigation, and
they are part of the type.  A section holds only sections of smaller numbers
(`Descending`), and the section around a section has a greater number
(`Ascending`).  The first ends every way down: the walk, and the views of
`Nav.Outline`.  The second ends every way up: `ancestors` and the cascade of
`setSectionActive`.  That the two ways belong together, and that no part stands
at two places, is not said by the type but by what `Nav.Build` does.

The walk goes through the forest one step at a time, with the items that are
still to be visited in its hand.
-/

namespace DocSite
namespace Nav

/-- A titled group of items. -/
structure Section where
  title : String
  /-- What is directly in the section, in order. -/
  children : List Item
  /-- The section directly around it. -/
  parent : Option SectionId
  /-- Whether the current page is below it. -/
  active : Bool
  deriving DecidableEq, Inhabited, Repr

/-- An address that is no page of the site, as it was written. -/
structure Link where
  title : Option String
  url : String
  /-- The section directly around it. -/
  parent : Option SectionId
  deriving DecidableEq, Inhabited, Repr

/-- Sections hold only sections of smaller numbers. -/
def Descending (sections : List Section) : Prop :=
  ∀ (n : Nat) (s : Section), sections[n]? = some s → ∀ item ∈ s.children, item.rank ≤ n

/-- The section around a section has a greater number. -/
def Ascending (sections : List Section) : Prop :=
  ∀ (n : Nat) (s : Section), sections[n]? = some s → ∀ id ∈ s.parent, n < id.index

/-- The navigation of a site. -/
structure Navigation where
  /-- The items outside all sections. -/
  items : List Item
  /-- The pages in the order in which they are read. -/
  readingOrder : List PageId
  pageTable : List Page
  sectionTable : List Section
  linkTable : List Link
  descending : Descending sectionTable
  ascending : Ascending sectionTable
  deriving DecidableEq

namespace Navigation

/-- The number of items outside all sections. -/
def size (nav : Navigation) : Nat :=
  nav.items.length

/-- The page of a number. -/
def page? (nav : Navigation) (id : PageId) : Option Page :=
  nav.pageTable[id.index]?

/-- The section of a number. -/
def section? (nav : Navigation) (id : SectionId) : Option Section :=
  nav.sectionTable[id.index]?

/-- The link of a number. -/
def link? (nav : Navigation) (id : LinkId) : Option Link :=
  nav.linkTable[id.index]?

/-- The items directly in an item. -/
def children (nav : Navigation) : Item → List Item
  | .ofSection id => ((nav.section? id).map Section.children).getD []
  | .ofPage _ | .ofLink _ => []

/-- The section directly around an item. -/
def parent? (nav : Navigation) : Item → Option SectionId
  | .ofPage id => (nav.page? id).bind Page.parent
  | .ofSection id => (nav.section? id).bind Section.parent
  | .ofLink id => (nav.link? id).bind Link.parent

theorem rank_lt_of_mem_children {nav : Navigation} {item child : Item}
    (h : child ∈ nav.children item) : child.rank < item.rank := by
  match item with
  | .ofSection id =>
    cases hs : nav.section? id with
    | none => simp [children, hs] at h
    | some s =>
      have hle := nav.descending id.index s hs child (by simpa [children, hs] using h)
      exact Nat.lt_succ_of_le hle
  | .ofPage _ | .ofLink _ => simp [children] at h

/-! ## The way up -/

/-- How many sections could stand around a section and the section itself. -/
def climb (nav : Navigation) : Option SectionId → Nat
  | none => 0
  | some id => 1 + (nav.sectionTable.length - id.index)

theorem climb_parent_lt (nav : Navigation) (id : SectionId) :
    nav.climb (nav.parent? (.ofSection id)) < nav.climb (some id) := by
  have hparent : nav.parent? (.ofSection id) = (nav.section? id).bind Section.parent := rfl
  cases hs : nav.section? id with
  | none =>
    rw [hparent, hs, Option.bind_none, climb, climb]
    omega
  | some s =>
    rw [hparent, hs, Option.bind_some]
    cases hp : s.parent with
    | none =>
      rw [climb, climb]
      omega
    | some around =>
      have hlt : id.index < around.index := nav.ascending id.index s hs around (by simp [hp])
      have hin : id.index < nav.sectionTable.length := (List.getElem?_eq_some_iff.1 hs).1
      rw [climb, climb]
      omega

/-- A section, the section around it, and so on up to the top. -/
def sectionsUp (nav : Navigation) : Option SectionId → List SectionId
  | none => []
  | some id => id :: nav.sectionsUp (nav.parent? (.ofSection id))
termination_by above => nav.climb above
decreasing_by exact nav.climb_parent_lt id

/-- The sections around an item, nearest first. -/
def ancestors (nav : Navigation) (item : Item) : List SectionId :=
  nav.sectionsUp (nav.parent? item)

/-! ## The way down -/

/-- Some numbers together. -/
def total : List Nat → Nat
  | [] => 0
  | n :: rest => n + total rest

theorem total_append (ns ms : List Nat) : total (ns ++ ms) = total ns + total ms := by
  induction ns with
  | nil => rw [List.nil_append, total, Nat.zero_add]
  | cons n rest ih => rw [List.cons_append, total, total, ih, Nat.add_assoc]

/-- The number of items in an item, itself included. -/
def weight (nav : Navigation) (item : Item) : Nat :=
  1 + total ((nav.children item).attach.map fun child => nav.weight child.1)
termination_by item.rank
decreasing_by exact rank_lt_of_mem_children child.2

theorem weight_eq (nav : Navigation) (item : Item) :
    nav.weight item = 1 + total ((nav.children item).map nav.weight) := by
  rw [weight]
  simp

/-- The items of a forest in the order in which they are visited, when the ones
to visit next are held in a list: taking one puts the items in it in front of
the others. -/
def visits (nav : Navigation) : List Item → List Item
  | [] => []
  | item :: rest => item :: nav.visits (nav.children item ++ rest)
termination_by held => total (held.map nav.weight)
decreasing_by
  rw [List.map_append, total_append, List.map_cons, total, weight_eq nav item]
  omega

/-- Every item of the forest, each before what is in it. -/
def walk (nav : Navigation) : List Item :=
  nav.visits nav.items

/-- The sections in the order of the walk. -/
def sections (nav : Navigation) : List SectionId :=
  nav.walk.filterMap Item.section?

/-- The links in the order of the walk. -/
def links (nav : Navigation) : List LinkId :=
  nav.walk.filterMap Item.link?

/-! ## Pages -/

/-- The first page in reading order that a visitor would see first. -/
def homepage? (nav : Navigation) : Option PageId :=
  nav.readingOrder.find? fun id => (nav.page? id).any Page.isHomepage

/-- The first page of a file in reading order. -/
def pageOfFile? (nav : Navigation) (srcUri : String) : Option PageId :=
  nav.readingOrder.find? fun id => (nav.page? id).any fun p => p.srcUri = srcUri

/-- The navigation with one page changed. -/
def modifyPage (nav : Navigation) (id : PageId) (change : Page → Page) : Navigation :=
  { nav with pageTable := nav.pageTable.modify id.index change }

/-- The navigation with a new title for a page. -/
def setTitle (nav : Navigation) (id : PageId) (title : String) : Navigation :=
  nav.modifyPage id fun p => { p with title := some title }

/-! ## What is active -/

theorem getElem?_modify_section {sections : List Section} {change : Section → Section} {m n : Nat}
    {s : Section} (h : (sections.modify m change)[n]? = some s) :
    ∃ old, sections[n]? = some old ∧ (s = old ∨ (m = n ∧ s = change old)) := by
  rw [List.getElem?_modify] at h
  obtain ⟨old, hold, rfl⟩ := Option.map_eq_some_iff.1 h
  refine ⟨old, hold, ?_⟩
  by_cases hmn : m = n
  · exact Or.inr ⟨hmn, if_pos hmn⟩
  · exact Or.inl (if_neg hmn)

/-- The navigation with the flag of one section set. -/
def markSection (nav : Navigation) (id : SectionId) (active : Bool) : Navigation :=
  { nav with
    sectionTable := nav.sectionTable.modify id.index fun s => { s with active }
    descending := by
      intro n s hs
      obtain ⟨old, hold, rfl | ⟨_, rfl⟩⟩ := getElem?_modify_section hs
      · exact nav.descending n _ hold
      · exact nav.descending n old hold
    ascending := by
      intro n s hs
      obtain ⟨old, hold, rfl | ⟨_, rfl⟩⟩ := getElem?_modify_section hs
      · exact nav.ascending n _ hold
      · exact nav.ascending n old hold }

/-- The flag set of a section, the section around it, and so on up to the top. -/
def markUp (nav : Navigation) (active : Bool) : Option SectionId → Navigation
  | none => nav
  | some id => (nav.markSection id active).markUp active (nav.parent? (.ofSection id))
termination_by above => nav.climb above
decreasing_by
  have hlength : (nav.markSection id active).sectionTable.length = nav.sectionTable.length := by
    simp [markSection]
  have hclimb : (nav.markSection id active).climb (nav.parent? (.ofSection id)) =
      nav.climb (nav.parent? (.ofSection id)) := by
    cases nav.parent? (.ofSection id) <;> simp [climb, hlength]
  rw [hclimb]
  exact nav.climb_parent_lt id

/-- A section and all sections around it made active or inactive. -/
def setSectionActive (nav : Navigation) (id : SectionId) (active : Bool) : Navigation :=
  nav.markUp active (some id)

/-- A page made the current one, or no longer the current one, with all sections
around it. -/
def setPageActive (nav : Navigation) (id : PageId) (active : Bool) : Navigation :=
  (nav.modifyPage id fun p => { p with active }).markUp active (nav.parent? (.ofPage id))

/-- The pages that are current, in reading order. -/
def activePages (nav : Navigation) : List PageId :=
  nav.readingOrder.filter fun id => (nav.page? id).any Page.active

/-- The sections that are active, in the order of the walk. -/
def activeSections (nav : Navigation) : List SectionId :=
  nav.sections.filter fun id => (nav.section? id).any Section.active

end Navigation
end Nav
end DocSite
