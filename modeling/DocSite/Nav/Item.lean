import DocSite.SourceFile

/-!
# The parts of a navigation

Pages, sections and links are numbered, each kind for itself, in the order in
which they are made, and spoken of by their numbers.  An item is a number
together with the kind of part that it is the number of.
-/

namespace DocSite
namespace Nav

/-- The number of a section. -/
@[ext] structure SectionId where
  index : Nat
  deriving DecidableEq, Inhabited, Repr

/-- The number of a link. -/
@[ext] structure LinkId where
  index : Nat
  deriving DecidableEq, Inhabited, Repr

/-- A part of a navigation, by its number. -/
inductive Item where
  | ofPage (id : PageId)
  | ofSection (id : SectionId)
  | ofLink (id : LinkId)
  deriving DecidableEq, Inhabited, Repr

namespace Item

/-- How many sections could stand below an item, if sections hold only sections
of smaller numbers. -/
def rank : Item → Nat
  | ofPage _ | ofLink _ => 0
  | ofSection id => id.index + 1

/-- The number of a page. -/
def page? : Item → Option PageId
  | ofPage id => some id
  | ofSection _ | ofLink _ => none

/-- The number of a section. -/
def section? : Item → Option SectionId
  | ofSection id => some id
  | ofPage _ | ofLink _ => none

/-- The number of a link. -/
def link? : Item → Option LinkId
  | ofLink id => some id
  | ofPage _ | ofSection _ => none

theorem page?_eq_some_iff (item : Item) (id : PageId) :
    item.page? = some id ↔ item = ofPage id := by
  cases item <;> simp [page?]

theorem section?_eq_some_iff (item : Item) (id : SectionId) :
    item.section? = some id ↔ item = ofSection id := by
  cases item <;> simp [section?]

theorem link?_eq_some_iff (item : Item) (id : LinkId) :
    item.link? = some id ↔ item = ofLink id := by
  cases item <;> simp [link?]

end Item
end Nav
end DocSite
