import DocSite.Proofs.Nav.Forest
import DocSite.Nav.Build

/-!
# What the passes leave and what they change

A navigation is made of a draft by passes: the pages are listed, parents are
told, orphans are added, neighbours are told.  None of them changes the forest
(`SameForest`): the items outside all sections and the items in each section
stay as they are, and with them everything that is found by going down.  Telling
parents and neighbours does not even add a part (`SameParts`).

Only one pass changes parents.  It goes through the sections in the order of
their numbers and tells each item in a section about it.  After it, an item has
a section as its parent exactly when it is in that section, provided that no item
is in two sections (`parent?_assignParents_eq_some_iff`): otherwise the section
with the greater number would have the last word.
-/

namespace DocSite
namespace Nav

/-- A page without what it knows of its place. -/
def Page.withoutPlace (p : Page) : Page :=
  { p with parent := none, previous := none, next := none }

namespace Navigation

/-- The numbers that have been given out. -/
def Issued (nav : Navigation) : Item → Prop
  | .ofPage id => id.index < nav.pageTable.length
  | .ofSection id => id.index < nav.sectionTable.length
  | .ofLink id => id.index < nav.linkTable.length

instance (nav : Navigation) (item : Item) : Decidable (nav.Issued item) := by
  cases item <;> exact inferInstanceAs (Decidable (_ < _))

/-- Two navigations with the same forest: their parts may know different things
about themselves. -/
structure SameForest (nav other : Navigation) : Prop where
  items : other.items = nav.items
  children : ∀ item, other.children item = nav.children item

/-- Two navigations with the same forest of as many parts, read in the same order,
in which the same pages may know different things about their places. -/
structure SameParts (nav other : Navigation) : Prop extends SameForest nav other where
  readingOrder : other.readingOrder = nav.readingOrder
  contents : other.pageTable.map Page.withoutPlace = nav.pageTable.map Page.withoutPlace
  sections : other.sectionTable.length = nav.sectionTable.length
  links : other.linkTable.length = nav.linkTable.length

variable {nav other third : Navigation}

namespace SameForest

theorem trans (h : SameForest nav other) (h' : SameForest other third) : SameForest nav third :=
  ⟨h'.items.trans h.items, fun item => (h'.children item).trans (h.children item)⟩

theorem below (h : SameForest nav other) (item : Item) : other.below item = nav.below item := by
  induction item using Navigation.below.induct nav with
  | case1 item ih =>
    rw [below_eq other, below_eq nav, h.children]
    exact congrArg (item :: ·) (List.flatMap_congr fun child hchild => ih ⟨child, hchild⟩)

theorem walk (h : SameForest nav other) : other.walk = nav.walk := by
  rw [walk_eq_flatMap_below, walk_eq_flatMap_below, h.items]
  exact List.flatMap_congr fun item _ => h.below item

end SameForest

namespace SameParts

theorem refl (nav : Navigation) : SameParts nav nav :=
  ⟨⟨rfl, fun _ => rfl⟩, rfl, rfl, rfl, rfl⟩

theorem trans (h : SameParts nav other) (h' : SameParts other third) : SameParts nav third :=
  ⟨h.toSameForest.trans h'.toSameForest, h'.readingOrder.trans h.readingOrder,
    h'.contents.trans h.contents, h'.sections.trans h.sections, h'.links.trans h.links⟩

theorem pages (h : SameParts nav other) : other.pageTable.length = nav.pageTable.length := by
  simpa using congrArg List.length h.contents

/-- The pages are those of the same files. -/
theorem srcUris (h : SameParts nav other) :
    other.pageTable.map Page.srcUri = nav.pageTable.map Page.srcUri := by
  simpa [Function.comp_def, Page.withoutPlace] using
    congrArg (List.map Page.srcUri) h.contents

theorem issued_iff (h : SameParts nav other) (item : Item) :
    other.Issued item ↔ nav.Issued item := by
  cases item with
  | ofPage id => rw [Issued, Issued, h.pages]
  | ofSection id => rw [Issued, Issued, h.sections]
  | ofLink id => rw [Issued, Issued, h.links]

end SameParts

/-! ## Telling one item -/

/-- What is read off a table with one entry changed, if the change says what is
read. -/
theorem bind_getElem?_modify {α : Type} (parentOf : α → Option SectionId) (change : α → α)
    {parent : SectionId} (hchange : ∀ a, parentOf (change a) = some parent) (table : List α)
    (m n : Nat) :
    (table.modify m change)[n]?.bind parentOf =
      if n = m ∧ n < table.length then some parent else table[n]?.bind parentOf := by
  rw [List.getElem?_modify]
  by_cases hn : n < table.length
  · by_cases hm : m = n
    · simp [hm, hn, hchange]
    · simp [hm, Ne.symm hm]
  · simp [hn]

theorem parent?_setParent (nav : Navigation) (parent : SectionId) (child : Item)
    (h : child.rank ≤ parent.index) (item : Item) :
    (nav.setParent parent child h).parent? item =
      if item = child ∧ nav.Issued item then some parent else nav.parent? item := by
  match child, item with
  | .ofPage id, .ofPage id' =>
    simpa [setParent, parent?, page?, Issued, PageId.ext_iff] using
      bind_getElem?_modify Page.parent (fun p => { p with parent := some parent })
        (fun _ => rfl) nav.pageTable id.index id'.index
  | .ofSection id, .ofSection id' =>
    simpa [setParent, parent?, section?, Issued, SectionId.ext_iff] using
      bind_getElem?_modify Section.parent (fun s => { s with parent := some parent })
        (fun _ => rfl) nav.sectionTable id.index id'.index
  | .ofLink id, .ofLink id' =>
    simpa [setParent, parent?, link?, Issued, LinkId.ext_iff] using
      bind_getElem?_modify Link.parent (fun l => { l with parent := some parent })
        (fun _ => rfl) nav.linkTable id.index id'.index
  | .ofPage _, .ofSection _ | .ofPage _, .ofLink _ | .ofSection _, .ofPage _
  | .ofSection _, .ofLink _ | .ofLink _, .ofPage _ | .ofLink _, .ofSection _ =>
    simp [setParent, parent?, page?, section?, link?]

theorem sameParts_setParent (nav : Navigation) (parent : SectionId) (child : Item)
    (h : child.rank ≤ parent.index) : SameParts nav (nav.setParent parent child h) := by
  cases child with
  | ofPage id =>
    refine ⟨⟨rfl, fun item => by cases item <;> rfl⟩, rfl, ?_, rfl, rfl⟩
    apply map_modify_eq
    intro p
    rfl
  | ofLink id =>
    exact ⟨⟨rfl, fun item => by cases item <;> rfl⟩, rfl, rfl, rfl, by simp [setParent]⟩
  | ofSection id =>
    refine ⟨⟨rfl, fun item => ?_⟩, rfl, rfl, by simp [setParent], rfl⟩
    cases item with
    | ofPage _ => rfl
    | ofLink _ => rfl
    | ofSection id' =>
      simp only [children, section?, setParent, List.getElem?_modify]
      cases nav.sectionTable[id'.index]? with
      | none => rfl
      | some s =>
        simp only [Option.map_eq_map, Option.map_some]
        split <;> rfl

/-! ## Telling the items of a section, and of all sections -/

/-- Telling some items in turn tells each of them, and only them. -/
theorem foldl_setParent {parent : SectionId} {children : List Item}
    (hchildren : ∀ child ∈ children, child.rank ≤ parent.index)
    (told : List { child // child ∈ children }) (made : Navigation) :
    let done := told.foldl
      (fun made child => made.setParent parent child.1 (hchildren child.1 child.2)) made
    SameParts made done ∧ ∀ item, done.parent? item =
      if item ∈ told.map Subtype.val ∧ made.Issued item then some parent
      else made.parent? item := by
  induction told generalizing made with
  | nil => exact ⟨SameParts.refl made, fun item => by simp⟩
  | cons child rest ih =>
    have hfirst := sameParts_setParent made parent child.1 (hchildren child.1 child.2)
    obtain ⟨hrest, hparent⟩ := ih (made.setParent parent child.1 (hchildren child.1 child.2))
    refine ⟨hfirst.trans hrest, fun item => ?_⟩
    rw [List.foldl_cons, hparent, parent?_setParent]
    simp only [hfirst.issued_iff, List.map_cons, List.mem_cons]
    by_cases hissued : made.Issued item
    · simp only [hissued, and_true, @or_comm (item = child.1), ite_or]
    · simp [hissued]

theorem rank_le_of_mem_children {parent : SectionId} {child : Item}
    (h : child ∈ nav.children (.ofSection parent)) : child.rank ≤ parent.index :=
  Nat.le_of_lt_succ (rank_lt_of_mem_children h)

theorem sameParts_adopt (nav : Navigation) (parent : SectionId) :
    SameParts nav (nav.adopt parent) :=
  (foldl_setParent (fun _ hchild => rank_le_of_mem_children hchild) _ nav).1

theorem parent?_adopt (nav : Navigation) (parent : SectionId) (item : Item) :
    (nav.adopt parent).parent? item =
      if item ∈ nav.children (.ofSection parent) ∧ nav.Issued item then some parent
      else nav.parent? item := by
  have hfold := (foldl_setParent (fun _ hchild => rank_le_of_mem_children hchild)
    (nav.children (.ofSection parent)).attach nav).2 item
  rwa [List.attach_map_subtype_val] at hfold

/-- The first sections, in the order of their numbers, have told the items in
them. -/
def adoptFirst (nav : Navigation) (count : Nat) : Navigation :=
  (List.range count).foldl (fun made n => made.adopt ⟨n⟩) nav

theorem adoptFirst_succ (nav : Navigation) (count : Nat) :
    nav.adoptFirst (count + 1) = (nav.adoptFirst count).adopt ⟨count⟩ := by
  rw [adoptFirst, List.range_succ, List.foldl_append]
  rfl

theorem sameParts_adoptFirst (nav : Navigation) (count : Nat) :
    SameParts nav (nav.adoptFirst count) := by
  induction count with
  | zero => exact SameParts.refl nav
  | succ count ih =>
    rw [adoptFirst_succ]
    exact ih.trans (sameParts_adopt _ _)

/-- Where no item has a parent yet and none is in two sections, an item has been
told a section exactly when it is in it and the section has had its turn. -/
theorem parent?_adoptFirst_eq_some_iff (hnone : ∀ item, nav.parent? item = none)
    (hissued : ∀ item id, item ∈ nav.children (.ofSection id) → nav.Issued item)
    (hunique : ∀ item id id', item ∈ nav.children (.ofSection id) →
      item ∈ nav.children (.ofSection id') → id = id')
    (count : Nat) (item : Item) (id : SectionId) :
    (nav.adoptFirst count).parent? item = some id ↔
      item ∈ nav.children (.ofSection id) ∧ id.index < count := by
  induction count with
  | zero => simp [adoptFirst, hnone]
  | succ count ih =>
    have hsame := sameParts_adoptFirst nav count
    rw [adoptFirst_succ, parent?_adopt]
    simp only [hsame.children, hsame.issued_iff]
    by_cases hmem : item ∈ nav.children (.ofSection ⟨count⟩)
    · rw [if_pos ⟨hmem, hissued _ _ hmem⟩, Option.some.injEq]
      constructor
      · rintro rfl
        exact ⟨hmem, Nat.lt_succ_self _⟩
      · rintro ⟨hchild, -⟩
        exact hunique item _ _ hmem hchild
    · rw [if_neg fun h => hmem h.1, ih]
      constructor
      · rintro ⟨hchild, hid⟩
        exact ⟨hchild, Nat.lt_succ_of_lt hid⟩
      · rintro ⟨hchild, hid⟩
        refine ⟨hchild, Nat.lt_of_le_of_ne (Nat.le_of_lt_succ hid) fun heq => hmem ?_⟩
        rw [← heq]
        exact hchild

theorem sameParts_assignParents (nav : Navigation) : SameParts nav nav.assignParents :=
  sameParts_adoptFirst nav _

theorem index_lt_of_mem_children {item : Item} {id : SectionId}
    (h : item ∈ nav.children (.ofSection id)) : id.index < nav.sectionTable.length := by
  by_contra hid
  have hnone : nav.section? id = none := List.getElem?_eq_none (Nat.le_of_not_lt hid)
  simp [children, hnone] at h

/-- **After telling parents, parents and children agree.** -/
theorem parent?_assignParents_eq_some_iff (hnone : ∀ item, nav.parent? item = none)
    (hissued : ∀ item id, item ∈ nav.children (.ofSection id) → nav.Issued item)
    (hunique : ∀ item id id', item ∈ nav.children (.ofSection id) →
      item ∈ nav.children (.ofSection id') → id = id')
    (item : Item) (id : SectionId) :
    nav.assignParents.parent? item = some id ↔ item ∈ nav.children (.ofSection id) := by
  have hiff := parent?_adoptFirst_eq_some_iff hnone hissued hunique nav.sectionTable.length item id
  exact hiff.trans (and_iff_left_of_imp index_lt_of_mem_children)

/-! ## Orphans and neighbours -/

theorem parent?_addOrphan (nav : Navigation) {p : Page} (hp : p.parent = none) (item : Item) :
    (nav.addOrphan p).parent? item = nav.parent? item := by
  cases item with
  | ofSection _ => rfl
  | ofLink _ => rfl
  | ofPage id =>
    simp only [parent?, page?, addOrphan, List.getElem?_append]
    split
    · rfl
    · rename_i hid
      rw [List.getElem?_eq_none (Nat.le_of_not_lt hid), List.getElem?_singleton]
      split <;> simp [hp]

theorem sameForest_addOrphan (nav : Navigation) (p : Page) : SameForest nav (nav.addOrphan p) :=
  ⟨rfl, fun item => by cases item <;> rfl⟩

theorem contents_withNeighbours (order : List PageId) (listed : List (PageId × Nat))
    (pages : List Page) :
    (withNeighbours order listed pages).map Page.withoutPlace = pages.map Page.withoutPlace := by
  induction listed generalizing pages with
  | nil => rfl
  | cons head rest ih =>
    rw [withNeighbours, ih]
    apply map_modify_eq
    intro p
    rfl

theorem bind_parent_withNeighbours (order : List PageId) (listed : List (PageId × Nat))
    (pages : List Page) (n : Nat) :
    (withNeighbours order listed pages)[n]?.bind Page.parent = pages[n]?.bind Page.parent := by
  induction listed generalizing pages with
  | nil => rfl
  | cons head rest ih =>
    rw [withNeighbours, ih, List.getElem?_modify]
    cases pages[n]? with
    | none => rfl
    | some p =>
      simp only [Option.map_eq_map, Option.map_some, Option.bind_some]
      split <;> rfl

theorem sameParts_assignNeighbours (nav : Navigation) : SameParts nav nav.assignNeighbours :=
  ⟨⟨rfl, fun item => by cases item <;> rfl⟩, rfl, contents_withNeighbours _ _ _, rfl, rfl⟩

theorem parent?_assignNeighbours (nav : Navigation) (item : Item) :
    nav.assignNeighbours.parent? item = nav.parent? item := by
  cases item with
  | ofSection _ => rfl
  | ofLink _ => rfl
  | ofPage id => exact bind_parent_withNeighbours _ _ _ _

end Navigation
end Nav
end DocSite
