import DocSite.Proofs.Nav.Building

/-!
# A built navigation is a forest

The tables of a navigation could say anything about which part is where.  What
an accepted specification gives is a forest (`IsForest`): every number that was
given out has one place, the places agree from above and from below, and the
reading order is the forest from left to right with the orphans behind it.

The invariant behind it is that numbers are given out in the order of the walk
(`Drafting.Numbered`), except those of sections, which are given out when the
section is complete.  A walk that meets every number once leaves an item one
place only, and then telling parents section by section cannot contradict
itself.
-/

namespace DocSite
namespace Nav
namespace Navigation

/-- The pages in the forest, from left to right and each section before what is
behind it. -/
def treePages (nav : Navigation) : List PageId :=
  (nav.items.flatMap nav.below).filterMap Item.page?

/-- The pages of the files of a catalog that are not in the forest, in the order
of the files. -/
def orphans (nav : Navigation) (catalog : Catalog) : List PageId :=
  (catalog.files.filterMap SourceFile.page).filter fun id => .ofPage id ∉ nav.walk

/-- A navigation whose parts each have one place. -/
structure IsForest (nav : Navigation) (catalog : Catalog) : Prop where
  /-- Every section is visited once, and nothing else is visited as a section. -/
  section_once : ∀ id, nav.walk.count (.ofSection id) =
    if id.index < nav.sectionTable.length then 1 else 0
  /-- Every link is visited once, and nothing else is visited as a link. -/
  link_once : ∀ id, nav.walk.count (.ofLink id) =
    if id.index < nav.linkTable.length then 1 else 0
  /-- Every page is read once, and nothing else is read. -/
  page_once : ∀ id, nav.readingOrder.count id =
    if id.index < nav.pageTable.length then 1 else 0
  /-- The forest is read from left to right, and then the orphans. -/
  readingOrder_eq : nav.readingOrder = nav.treePages ++ nav.orphans catalog
  /-- The section directly around an item is the one that the item is in. -/
  parent_iff : ∀ item id, nav.parent? item = some id ↔ item ∈ nav.children (.ofSection id)
  /-- Items outside all sections have no section around them. -/
  parent_item : ∀ item ∈ nav.items, nav.parent? item = none
  /-- Orphans have no section around them. -/
  parent_orphan : ∀ id ∈ nav.orphans catalog, nav.parent? (.ofPage id) = none
  /-- From every item of the forest one way leads up to the top. -/
  leads_iff : ∀ item ∈ nav.walk, ∀ above, nav.Leads item above ↔ above = nav.ancestors item
  /-- No way leads up from an orphan. -/
  ancestors_orphan : ∀ id ∈ nav.orphans catalog, nav.ancestors (.ofPage id) = []

end Navigation

open Drafting Navigation

namespace Finished

variable {catalog filled : Catalog} {made : Draft} {nav : Navigation}

theorem count_ofSection (h : Finished catalog made nav filled) (id : SectionId) :
    nav.walk.count (.ofSection id) = if id.index < nav.sectionTable.length then 1 else 0 := by
  simpa [Draft.start, h.sections] using h.numbered.count_ofSection id

theorem count_ofLink (h : Finished catalog made nav filled) (id : LinkId) :
    nav.walk.count (.ofLink id) = if id.index < nav.linkTable.length then 1 else 0 := by
  simpa [Draft.start, h.links] using h.numbered.count_ofLink id

theorem count_readingOrder (h : Finished catalog made nav filled) (id : PageId) :
    nav.readingOrder.count id = if id.index < nav.pageTable.length then 1 else 0 := by
  rw [h.readingOrder, ← List.Ico.zero_bot, count_map_Ico (fun _ => rfl) (fun _ => rfl)]
  simp

theorem treePages_eq (h : Finished catalog made nav filled) :
    nav.treePages = (List.range made.pages.length).map PageId.mk := by
  rw [treePages, ← walk_eq_flatMap_below, h.numbered.pages, Draft.start, List.length_nil,
    List.Ico.zero_bot]

theorem orphans_eq (h : Finished catalog made nav filled) :
    nav.orphans filled =
      (List.Ico made.pages.length nav.pageTable.length).map PageId.mk := by
  rw [orphans, ← h.attached]
  refine List.filter_congr fun id _ => ?_
  rw [decide_eq_decide, h.mem_walk_ofPage_iff, Nat.not_lt]

theorem readingOrder_eq (h : Finished catalog made nav filled) :
    nav.readingOrder = nav.treePages ++ nav.orphans filled := by
  rw [h.readingOrder, h.treePages_eq, h.orphans_eq, ← List.Ico.zero_bot, ← List.Ico.zero_bot,
    ← List.map_append, List.Ico.append_consecutive (Nat.zero_le _) h.grown]

/-- A section with something in it is visited. -/
theorem ofSection_mem_walk (h : Finished catalog made nav filled) {item : Item} {id : SectionId}
    (hchild : item ∈ nav.children (.ofSection id)) : .ofSection id ∈ nav.walk := by
  rw [← List.count_pos_iff, h.count_ofSection, if_pos (index_lt_of_mem_children hchild)]
  exact Nat.one_pos

theorem parent?_of_mem_items (h : Finished catalog made nav filled) {item : Item}
    (hitem : item ∈ nav.items) : nav.parent? item = none := by
  rw [Option.eq_none_iff_forall_ne_some]
  intro id hid
  have hchild := (h.parents item id).1 hid
  exact notMem_children_of_mem_items h.numbered.nodup hitem (h.ofSection_mem_walk hchild) hchild

/-- What is outside the forest is in no section. -/
theorem parent?_of_notMem_walk (h : Finished catalog made nav filled) {item : Item}
    (hitem : item ∉ nav.walk) : nav.parent? item = none := by
  rw [Option.eq_none_iff_forall_ne_some]
  intro around haround
  have hchild := (h.parents _ around).1 haround
  exact hitem (mem_walk_of_mem_children (h.ofSection_mem_walk hchild) hchild)

theorem parent?_of_mem_orphans (h : Finished catalog made nav filled) {id : PageId}
    (hid : id ∈ nav.orphans filled) : nav.parent? (.ofPage id) = none :=
  h.parent?_of_notMem_walk (by simpa using (List.mem_filter.1 hid).2)

theorem leads_iff (h : Finished catalog made nav filled) {item : Item} (hitem : item ∈ nav.walk)
    (above : List SectionId) : nav.Leads item above ↔ above = nav.ancestors item := by
  have hup : ∀ {way : List SectionId}, nav.Leads item way → nav.ancestors item = way :=
    ancestors_eq_of_leads h.parents fun _ => h.parent?_of_mem_items
  constructor
  · intro hleads
    exact (hup hleads).symm
  · rintro rfl
    obtain ⟨way, hway⟩ := exists_leads hitem
    rwa [hup hway]

theorem isForest (h : Finished catalog made nav filled) : nav.IsForest filled where
  section_once := h.count_ofSection
  link_once := h.count_ofLink
  page_once := h.count_readingOrder
  readingOrder_eq := h.readingOrder_eq
  parent_iff := h.parents
  parent_item _ := h.parent?_of_mem_items
  parent_orphan _ := h.parent?_of_mem_orphans
  leads_iff _ := h.leads_iff
  ancestors_orphan id hid := by
    rw [ancestors, h.parent?_of_mem_orphans hid, sectionsUp_none]

end Finished

/-- **What is built is a forest**, for every catalog, every specification and every
way of making new pages. -/
theorem isForest_of_value_build {spec : Option Spec} {factory : PageFactory}
    {catalog filled : Catalog} {nav : Navigation} (hfactory : MakesNewPages factory)
    (h : (build spec factory catalog).value = (.ok nav, filled)) : nav.IsForest filled := by
  obtain ⟨made, hfinished⟩ := exists_finished_of_value_build hfactory h
  exact hfinished.isForest

theorem exists_isForest_smallSite : ∃ nav filled,
    (build (some smallSpec) Page.ofFile smallSite).value = (.ok nav, filled) ∧
      nav.readingOrder = [⟨0⟩, ⟨1⟩, ⟨2⟩, ⟨3⟩, ⟨4⟩] ∧ nav.IsForest filled := by
  have horder : (build (some smallSpec) Page.ofFile smallSite).value.1.toOption.map
      Navigation.readingOrder = some [⟨0⟩, ⟨1⟩, ⟨2⟩, ⟨3⟩, ⟨4⟩] := by
    decide +kernel
  rcases hbuild : (build (some smallSpec) Page.ofFile smallSite).value with ⟨_ | nav, filled⟩
  · rw [hbuild] at horder
    simp [Except.toOption] at horder
  · rw [hbuild] at horder
    exact ⟨nav, filled, rfl, Option.some.inj horder,
      isForest_of_value_build (fun title f => ⟨title, f, rfl⟩) hbuild⟩

end Nav
end DocSite
