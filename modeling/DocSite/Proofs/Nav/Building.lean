import DocSite.Proofs.Nav.Numbering
import DocSite.Proofs.Nav.Orphans

/-!
# What an accepted build goes through

An accepted specification has an arrangement; its parts are made from empty
tables; and what is made is finished (`exists_of_value_build`).  This module
follows the forest through the passes up to the orphans, whatever the factory
puts into the pages.

The numbers of a finished navigation start at zero, so "the numbers given out
between two drafts" are now all numbers there are.  The walk visits each section
and each link once, and the pages that it meets are the first numbers in order
(`filterMap_page?_walk_ofReading`).  So the reading order begins with them, and the orphans
take the numbers after them.
-/

namespace DocSite
namespace Nav

open Drafting

/-- What a build reads, from the catalog without its pages. -/
def readingOf (spec : Option Spec) (factory : PageFactory) (catalog : Catalog) :
    Journal (Except SpecError (List Item) × Draft) :=
  (Reading.convert factory [] (effectiveSpec spec (Draft.start catalog).catalog)).run.run
    (Draft.start catalog)

theorem build_of_refused {spec : Option Spec} {factory : PageFactory} {catalog : Catalog}
    {refusal : SpecError} {begun : Draft}
    (h : (readingOf spec factory catalog).value = (.error refusal, begun)) :
    build spec factory catalog =
      ⟨(readingOf spec factory catalog).events, .error refusal, begun.catalog.detachAll⟩ := by
  rw [readingOf] at h
  dsimp only [build]
  split
  · rename_i hread
    rw [hread] at h
    cases h
    rfl
  · rename_i hread
    rw [hread] at h
    cases h

theorem build_of_made {spec : Option Spec} {factory : PageFactory} {catalog : Catalog}
    {items : List Item} {made : Draft}
    (h : (readingOf spec factory catalog).value = (.ok items, made)) :
    build spec factory catalog =
      let finished := finish factory items made (sound_of_value_convert h)
      ⟨(readingOf spec factory catalog).events ++ finished.events, .ok finished.value.1,
        finished.value.2⟩ := by
  rw [readingOf] at h
  dsimp only [build]
  split
  · rename_i hread
    rw [hread] at h
    cases h
  · rename_i hread
    cases hread.symm.trans h
    rfl

/-- What has an arrangement is read into its parts, and reports what their making does. -/
theorem readingOf_of_arrange {spec : Option Spec} (factory : PageFactory) {catalog : Catalog}
    {entries : List Entry} (h : arrange [] (effectiveSpec spec catalog.detachAll) = .ok entries) :
    (readingOf spec factory catalog).events =
        ((placeAll factory entries).run (Draft.start catalog)).events ∧
      (readingOf spec factory catalog).value =
        (.ok (placedAll factory entries (Draft.start catalog)).1,
          (placedAll factory entries (Draft.start catalog)).2) := by
  have hfollows := Reading.follows_convert factory [] (effectiveSpec spec catalog.detachAll)
  rw [h] at hfollows
  have hrun : (Reading.convert factory [] (effectiveSpec spec catalog.detachAll)).run =
      Except.ok <$> placeAll factory entries := hfollows
  have hreading : readingOf spec factory catalog =
      (fun done => (Except.ok done.1, done.2)) <$>
        (placeAll factory entries).run (Draft.start catalog) := by
    show (Reading.convert factory [] (effectiveSpec spec catalog.detachAll)).run.run _ = _
    rw [hrun, StateT.run_map]
  rw [hreading]
  exact ⟨Journal.events_map _ _, rfl⟩

/-- An accepted specification is arranged, made and finished. -/
theorem exists_of_value_build {spec : Option Spec} {factory : PageFactory}
    {catalog filled : Catalog}
    {nav : Navigation} (h : (build spec factory catalog).value = (.ok nav, filled)) :
    ∃ (entries : List Entry) (items : List Item) (made : Draft) (hsound : Sound made),
      arrange [] (effectiveSpec spec catalog.detachAll) = .ok entries ∧
      placedAll factory entries (Draft.start catalog) = (items, made) ∧
      (finish factory items made hsound).value = (nav, filled) := by
  dsimp only [build] at h
  split at h
  · simp at h
  · rename_i items made hread
    obtain ⟨entries, harrange, hplaced⟩ := Reading.arrange_of_value_convert hread
    refine ⟨entries, items, made, sound_of_value_convert hread, harrange, hplaced, ?_⟩
    simpa [Prod.ext_iff] using h

/-- What has an arrangement is accepted. -/
theorem exists_value_build_of_arrange {spec : Option Spec} (factory : PageFactory)
    {catalog : Catalog} {entries : List Entry}
    (h : arrange [] (effectiveSpec spec catalog.detachAll) = .ok entries) :
    ∃ nav filled, (build spec factory catalog).value = (.ok nav, filled) := by
  obtain ⟨-, hread⟩ := readingOf_of_arrange factory h
  exact ⟨_, _, congrArg Journal.value (build_of_made hread)⟩

/-- What directories suggest does not depend on the pages that files have. -/
theorem effectiveSpec_detachAll (spec : Option Spec) (catalog : Catalog) :
    effectiveSpec spec catalog.detachAll = effectiveSpec spec catalog := by
  rw [effectiveSpec, effectiveSpec, Catalog.documentation, Catalog.documentation,
    Catalog.files_detachAll, List.filter_map, List.map_map]
  rfl

/-- The navigation of a draft before orphans and neighbours. -/
def Navigation.ofReading (items : List Item) (made : Draft) (hsound : Sound made) : Navigation :=
  (Navigation.ofDraft items made hsound).listPages.assignParents

theorem value_finish (factory : PageFactory) (items : List Item) {made : Draft}
    (hsound : Sound made) :
    (finish factory items made hsound).value =
      let completed := ((Navigation.ofReading items made hsound).addOrphans factory
        made.catalog).value
      (completed.1.assignNeighbours, completed.2) := by
  simp [finish, Navigation.ofReading]

/-! ## The forest of a draft -/

namespace Navigation

theorem sameForest_listPages (nav : Navigation) : SameForest nav nav.listPages :=
  ⟨rfl, fun item => by cases item <;> rfl⟩

theorem within_ofDraft (items : List Item) {made : Draft} (hsound : Sound made) :
    Within made (ofDraft items made hsound) := by
  intro n s hs
  simp [children, section?, ofDraft, hs]

theorem parent?_listPages (nav : Navigation) (item : Item) :
    nav.listPages.parent? item = nav.parent? item := by
  cases item <;> rfl

theorem issued_listPages (nav : Navigation) (item : Item) :
    nav.listPages.Issued item = nav.Issued item := by
  cases item <;> rfl

/-- Nothing in a new draft knows a section around it. -/
theorem parent?_ofDraft (items : List Item) {made : Draft} (hsound : Sound made)
    (h : Unplaced made) (item : Item) : (ofDraft items made hsound).parent? item = none := by
  cases item with
  | ofPage id =>
    exact Option.bind_eq_none_iff.2 fun p hp => h.pages p (List.mem_of_getElem? hp)
  | ofSection id =>
    exact Option.bind_eq_none_iff.2 fun s hs => h.sections s (List.mem_of_getElem? hs)
  | ofLink id =>
    exact Option.bind_eq_none_iff.2 fun l hl => h.links l (List.mem_of_getElem? hl)

variable {factory : PageFactory} {entries : List Entry} {catalog : Catalog} {items : List Item}
  {made : Draft}

/-- The walk through what was made from empty tables meets every number once. -/
theorem numbered_walk_ofDraft
    (hplaced : placedAll factory entries (Draft.start catalog) = (items, made))
    (hsound : Sound made) :
    Numbered (Draft.start catalog) made (ofDraft items made hsound).walk := by
  have hwithin : Within (placedAll factory entries (Draft.start catalog)).2
      (ofDraft items made hsound) := by
    rw [hplaced]
    exact within_ofDraft items hsound
  have hnumbered := numbered_placedAll factory entries (Draft.start catalog) hwithin
  rw [hplaced] at hnumbered
  rw [walk_eq_flatMap_below]
  exact hnumbered

theorem sameForest_ofReading (items : List Item) {made : Draft} (hsound : Sound made) :
    SameForest (ofDraft items made hsound) (ofReading items made hsound) :=
  (sameForest_listPages _).trans (sameParts_assignParents _).toSameForest

theorem numbered_walk_ofReading
    (hplaced : placedAll factory entries (Draft.start catalog) = (items, made))
    (hsound : Sound made) :
    Numbered (Draft.start catalog) made (ofReading items made hsound).walk := by
  rw [(sameForest_ofReading items hsound).walk]
  exact numbered_walk_ofDraft hplaced hsound

/-- The pages of the forest are the first numbers, in the order of the walk. -/
theorem filterMap_page?_walk_ofReading
    (hplaced : placedAll factory entries (Draft.start catalog) = (items, made))
    (hsound : Sound made) :
    (ofReading items made hsound).walk.filterMap Item.page? =
      (List.range made.pages.length).map PageId.mk := by
  rw [(numbered_walk_ofReading hplaced hsound).pages, Draft.start, List.length_nil,
    List.Ico.zero_bot]

theorem readingOrder_ofReading
    (hplaced : placedAll factory entries (Draft.start catalog) = (items, made))
    (hsound : Sound made) :
    (ofReading items made hsound).readingOrder = (List.range made.pages.length).map PageId.mk := by
  rw [ofReading, (sameParts_assignParents _).readingOrder, listPages,
    ← filterMap_page?_walk_ofReading hplaced hsound, (sameForest_ofReading items hsound).walk]
  rfl

/-- The walk visits what has a number, and nothing else. -/
theorem mem_walk_ofDraft_iff
    (hplaced : placedAll factory entries (Draft.start catalog) = (items, made))
    (hsound : Sound made) {item : Item} :
    item ∈ (ofDraft items made hsound).walk ↔ (ofDraft items made hsound).Issued item := by
  have hnumbered := numbered_walk_ofDraft hplaced hsound
  rw [← List.count_pos_iff]
  cases item with
  | ofPage id => rw [hnumbered.count_ofPage]; split <;> simp_all [Issued, ofDraft, Draft.start]
  | ofSection id =>
    rw [hnumbered.count_ofSection]; split <;> simp_all [Issued, ofDraft, Draft.start]
  | ofLink id => rw [hnumbered.count_ofLink]; split <;> simp_all [Issued, ofDraft, Draft.start]

/-- A section with something in it is visited, and so is what is in it. -/
theorem mem_walk_of_mem_children_ofDraft
    (hplaced : placedAll factory entries (Draft.start catalog) = (items, made))
    (hsound : Sound made) {item : Item} {id : SectionId}
    (h : item ∈ (ofDraft items made hsound).children (.ofSection id)) :
    .ofSection id ∈ (ofDraft items made hsound).walk ∧
      item ∈ (ofDraft items made hsound).walk := by
  have hsection : .ofSection id ∈ (ofDraft items made hsound).walk :=
    (mem_walk_ofDraft_iff hplaced hsound).2 (index_lt_of_mem_children h)
  exact ⟨hsection, mem_walk_of_mem_children hsection h⟩

theorem unplaced_start (catalog : Catalog) : Unplaced (Draft.start catalog) where
  pages := by simp [Draft.start]
  sections := by simp [Draft.start]
  links := by simp [Draft.start]
  attached := by
    intro f hf
    rw [Draft.start, Catalog.files_detachAll] at hf
    obtain ⟨g, -, rfl⟩ := List.mem_map.1 hf
    simp [SourceFile.detach]

theorem unplaced_of_placedAll (hfactory : MakesNewPages factory)
    (hplaced : placedAll factory entries (Draft.start catalog) = (items, made)) :
    Unplaced made := by
  have hmade := unplaced_placedAll hfactory entries (unplaced_start catalog)
  rwa [hplaced] at hmade

/-- An item of the forest has a section as its parent exactly when it is in it. -/
theorem parent?_ofReading_eq_some_iff (hfactory : MakesNewPages factory)
    (hplaced : placedAll factory entries (Draft.start catalog) = (items, made))
    (hsound : Sound made) (item : Item) (id : SectionId) :
    (ofReading items made hsound).parent? item = some id ↔
      item ∈ (ofReading items made hsound).children (.ofSection id) := by
  rw [ofReading, (sameParts_assignParents _).children]
  have hlisted := sameForest_listPages (ofDraft items made hsound)
  apply parent?_assignParents_eq_some_iff
  · intro item
    rw [parent?_listPages]
    exact parent?_ofDraft items hsound (unplaced_of_placedAll hfactory hplaced) item
  · intro item id hchild
    rw [hlisted.children] at hchild
    rw [issued_listPages, ← mem_walk_ofDraft_iff hplaced hsound]
    exact (mem_walk_of_mem_children_ofDraft hplaced hsound hchild).2
  · intro item id id' hchild hchild'
    rw [hlisted.children] at hchild hchild'
    exact Item.ofSection.inj (eq_of_mem_children (numbered_walk_ofDraft hplaced hsound).nodup
      (mem_walk_of_mem_children_ofDraft hplaced hsound hchild).1
      (mem_walk_of_mem_children_ofDraft hplaced hsound hchild').1 hchild hchild')

end Navigation

/-! ## The finished navigation -/

/-- What a finished navigation has of the draft behind it, and what became of the
files. -/
structure Finished (catalog : Catalog) (made : Draft) (nav : Navigation) (filled : Catalog) :
    Prop where
  numbered : Numbered (Draft.start catalog) made nav.walk
  sections : nav.sectionTable.length = made.sections.length
  links : nav.linkTable.length = made.links.length
  grown : made.pages.length ≤ nav.pageTable.length
  /-- The pages are read in the order of their numbers. -/
  readingOrder : nav.readingOrder = (List.range nav.pageTable.length).map PageId.mk
  /-- The pages that are not in the forest are attached to files in their order. -/
  attached : (filled.files.filterMap SourceFile.page).filter (made.pages.length ≤ ·.index) =
    (List.Ico made.pages.length nav.pageTable.length).map PageId.mk
  parents : ∀ item id, nav.parent? item = some id ↔ item ∈ nav.children (.ofSection id)

/-- The pages in the forest are those that were made while reading. -/
theorem Finished.mem_walk_ofPage_iff {catalog filled : Catalog} {made : Draft} {nav : Navigation}
    (h : Finished catalog made nav filled) (id : PageId) :
    .ofPage id ∈ nav.walk ↔ id.index < made.pages.length := by
  rw [← List.count_pos_iff, h.numbered.count_ofPage]
  split <;> simp_all [Draft.start]

theorem finished_of_placedAll {factory : PageFactory} (hfactory : MakesNewPages factory)
    {entries : List Entry} {catalog filled : Catalog} {items : List Item} {made : Draft}
    (hplaced : placedAll factory entries (Draft.start catalog) = (items, made))
    (hsound : Sound made) {nav : Navigation}
    (h : (finish factory items made hsound).value = (nav, filled)) :
    Finished catalog made nav filled := by
  rw [value_finish, Prod.mk.injEq] at h
  obtain ⟨rfl, rfl⟩ := h
  have hread : Navigation.SameParts
      (Navigation.ofDraft items made hsound).listPages (Navigation.ofReading items made hsound) :=
    Navigation.sameParts_assignParents _
  have hpages : (Navigation.ofReading items made hsound).pageTable.length = made.pages.length :=
    hread.pages
  obtain ⟨horphans, hparents, hsections, hlinks, hgrown, horder, hattached, -⟩ :=
    Navigation.orphaned_addOrphans hfactory.parent_eq_none made.catalog
      (Navigation.ofReading items made hsound)
      (hpages ▸ (Navigation.unplaced_of_placedAll hfactory hplaced).attached)
  have hneighbours := Navigation.sameParts_assignNeighbours
    ((Navigation.ofReading items made hsound).addOrphans factory made.catalog).value.1
  have hforest := horphans.trans hneighbours.toSameForest
  rw [hpages] at hgrown horder hattached
  exact {
    numbered := by
      rw [hforest.walk]
      exact Navigation.numbered_walk_ofReading hplaced hsound
    sections := hneighbours.sections.trans (hsections.trans hread.sections)
    links := hneighbours.links.trans (hlinks.trans hread.links)
    grown := hneighbours.pages ▸ hgrown
    readingOrder := by
      rw [hneighbours.readingOrder, hneighbours.pages, horder,
        Navigation.readingOrder_ofReading hplaced hsound, ← List.Ico.zero_bot, ← List.map_append,
        List.Ico.append_consecutive (Nat.zero_le _) hgrown, List.Ico.zero_bot]
    attached := hneighbours.pages ▸ hattached
    parents := fun item id => by
      rw [Navigation.parent?_assignNeighbours, hparents, hforest.children]
      exact Navigation.parent?_ofReading_eq_some_iff hfactory hplaced hsound item id }

theorem exists_finished_of_value_build {spec : Option Spec} {factory : PageFactory}
    {catalog filled : Catalog} {nav : Navigation} (hfactory : MakesNewPages factory)
    (h : (build spec factory catalog).value = (.ok nav, filled)) :
    ∃ made, Finished catalog made nav filled := by
  obtain ⟨entries, items, made, hsound, -, hplaced, hfinish⟩ := exists_of_value_build h
  exact ⟨made, finished_of_placedAll hfactory hplaced hsound hfinish⟩

/-! ## A small site -/

/-- Three documents, one of them in a directory, and an image. -/
def smallSite : Catalog :=
  (Catalog.ofFiles (["index.md", "guide/a.md", "logo.png", "b.md"].map fun name =>
    .ofPath ⟨name⟩ ⟨"docs"⟩ ⟨"site"⟩ true)).value

/-- A section in a section, a document named twice under two spellings, an image
and an address; one document is left out. -/
def smallSpec : Spec :=
  .list [.leaf "index.md", .entry "Guide" (.mapping [("Start", .leaf "./guide/a.md"),
    ("More", .list [.leaf "logo.png", .entry "Again" (.leaf "guide/../guide/a.md")])]),
    .entry "Elsewhere" (.leaf "https://example.org")]

/-- How the small specification is arranged. -/
def smallEntries : List Entry :=
  [.leaf none "index.md", .group "Guide" [.leaf (some "Start") "./guide/a.md",
    .group "More" [.leaf none "logo.png", .leaf (some "Again") "guide/../guide/a.md"]],
    .leaf (some "Elsewhere") "https://example.org"]

/-- The small specification is accepted, and four of its leaves name files. -/
theorem exists_finished_smallSite : ∃ nav filled made,
    (build (some smallSpec) Page.ofFile smallSite).value = (.ok nav, filled) ∧
      Finished smallSite made nav filled ∧ made.pages.length = 4 ∧ made.sections.length = 2 := by
  have harrange : arrange [] (effectiveSpec (some smallSpec) smallSite.detachAll) =
      .ok smallEntries := rfl
  obtain ⟨nav, filled, hbuild⟩ := exists_value_build_of_arrange Page.ofFile harrange
  obtain ⟨entries, items, made, hsound, harrange', hplaced, hfinish⟩ := exists_of_value_build hbuild
  obtain rfl := Except.ok.inj (harrange.symm.trans harrange')
  refine ⟨nav, filled, made, hbuild, finished_of_placedAll (fun title f => ⟨title, f, rfl⟩) hplaced
    hsound hfinish, ?_, ?_⟩
  · exact (congrArg (·.2.pages.length) hplaced).symm.trans rfl
  · exact (congrArg (·.2.sections.length) hplaced).symm.trans rfl

end Nav
end DocSite
