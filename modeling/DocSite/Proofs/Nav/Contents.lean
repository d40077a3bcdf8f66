import DocSite.Proofs.Nav.Building

/-!
# What is in the parts

The passes that finish a navigation tell its parts where they stand, and they add the
pages of orphans behind the others.  What a part says of itself stays as it was when
the specification was read: the title of a section and the items in it, the title and
the address of a link, and everything about a page but its place.

So the tables of a draft are those of the finished navigation, as far as they reach and
but for places (`continues_of_finish`), and a number of the draft leads to the same
part in both (`Drafting.Holds`).

A page is made in two ways only, for a leaf and for an orphan, and both times the
factory makes it for a file of the catalog.  So every page of the finished navigation
says of itself what the factory puts into the page of some file (`made_of_value_build`),
and no section is active yet.
-/

namespace DocSite
namespace Nav

/-- A section without what it knows of its place. -/
def Section.withoutPlace (s : Section) : Section :=
  { s with parent := none }

/-- A link without what it knows of its place. -/
def Link.withoutPlace (l : Link) : Link :=
  { l with parent := none }

namespace Navigation

/-- A navigation continues another: it has the same items and the same parts, which may
know other things about their places, and perhaps further pages. -/
structure Continues (nav other : Navigation) : Prop where
  items : other.items = nav.items
  pages : nav.pageTable.map Page.withoutPlace <+: other.pageTable.map Page.withoutPlace
  sections : other.sectionTable.map Section.withoutPlace =
    nav.sectionTable.map Section.withoutPlace
  links : other.linkTable.map Link.withoutPlace = nav.linkTable.map Link.withoutPlace

variable {nav other third : Navigation}

theorem Continues.refl (nav : Navigation) : Continues nav nav :=
  ⟨rfl, List.prefix_rfl, rfl, rfl⟩

theorem Continues.trans (h : Continues nav other) (h' : Continues other third) :
    Continues nav third :=
  ⟨h'.items.trans h.items, h.pages.trans h'.pages, h'.sections.trans h.sections,
    h'.links.trans h.links⟩

theorem continues_setParent (nav : Navigation) (parent : SectionId) (child : Item)
    (h : child.rank ≤ parent.index) : Continues nav (nav.setParent parent child h) := by
  cases child with
  | ofPage id =>
    have hpages : (nav.setParent parent (.ofPage id) h).pageTable.map Page.withoutPlace =
        nav.pageTable.map Page.withoutPlace := by
      apply map_modify_eq
      intro p
      rfl
    exact ⟨rfl, hpages ▸ List.prefix_rfl, rfl, rfl⟩
  | ofSection id =>
    refine ⟨rfl, List.prefix_rfl, ?_, rfl⟩
    apply map_modify_eq
    intro s
    rfl
  | ofLink id =>
    refine ⟨rfl, List.prefix_rfl, rfl, ?_⟩
    apply map_modify_eq
    intro l
    rfl

theorem continues_adopt (nav : Navigation) (parent : SectionId) :
    Continues nav (nav.adopt parent) :=
  List.foldlRecOn _ _ (Continues.refl nav) fun made hmade child _ =>
    hmade.trans (continues_setParent made parent child.1 _)

theorem continues_assignParents (nav : Navigation) : Continues nav nav.assignParents :=
  List.foldlRecOn _ _ (Continues.refl nav) fun made hmade n _ =>
    hmade.trans (continues_adopt made ⟨n⟩)

theorem continues_addOrphan (nav : Navigation) (p : Page) : Continues nav (nav.addOrphan p) := by
  refine ⟨rfl, ?_, rfl, rfl⟩
  rw [addOrphan, List.map_append]
  exact List.prefix_append _ _

theorem continues_adoptFile (factory : PageFactory) (made : Navigation × List String)
    (f : SourceFile) : Continues made.1 (adoptFile factory made f).2.1 := by
  unfold adoptFile
  split
  · exact Continues.refl made.1
  · exact continues_addOrphan made.1 _

theorem continues_addOrphans (factory : PageFactory) (catalog : Catalog) (nav : Navigation) :
    Continues nav (addOrphans factory catalog nav).value.1 := by
  rw [value_addOrphans]
  exact Catalog.visitFiles_invariant (adoptFile factory)
    (fun (made : Navigation × List String) _ _ => Continues nav made.1)
    (fun made _ f _ hmade => hmade.trans (continues_adoptFile factory made f)) (Continues.refl nav)

theorem continues_assignNeighbours (nav : Navigation) : Continues nav nav.assignNeighbours := by
  have hpages := contents_withNeighbours nav.readingOrder nav.readingOrder.zipIdx nav.pageTable
  exact ⟨rfl, hpages ▸ List.prefix_rfl, rfl, rfl⟩

/-- **Finishing a draft changes no part but for its place.** -/
theorem continues_of_finish {factory : PageFactory} {items : List Item} {made : Draft}
    {hsound : Drafting.Sound made} {filled : Catalog}
    (h : (finish factory items made hsound).value = (nav, filled)) :
    Continues (ofDraft items made hsound) nav := by
  rw [value_finish, Prod.mk.injEq] at h
  obtain ⟨rfl, -⟩ := h
  have hlisted : Continues (ofDraft items made hsound) (ofDraft items made hsound).listPages :=
    ⟨rfl, List.prefix_rfl, rfl, rfl⟩
  exact ((hlisted.trans (continues_assignParents _)).trans
    (continues_addOrphans factory made.catalog _)).trans (continues_assignNeighbours _)

end Navigation

namespace Drafting

/-- A navigation has the parts of a draft under their numbers, but for their places. -/
structure Holds (draft : Draft) (nav : Navigation) : Prop where
  pages : ∀ n p, draft.pages[n]? = some p →
    (nav.page? ⟨n⟩).map Page.withoutPlace = some p.withoutPlace
  sections : ∀ n s, draft.sections[n]? = some s →
    (nav.section? ⟨n⟩).map Section.withoutPlace = some s.withoutPlace
  links : ∀ n l, draft.links[n]? = some l →
    (nav.link? ⟨n⟩).map Link.withoutPlace = some l.withoutPlace

/-- What stands in a table stands in every table that continues it. -/
theorem getElem?_eq_some_of_isPrefix {α : Type} {front whole : List α} (h : front <+: whole)
    {n : Nat} {a : α} (ha : front[n]? = some a) : whole[n]? = some a := by
  obtain ⟨rest, rfl⟩ := h
  obtain ⟨hn, -⟩ := List.getElem?_eq_some_iff.1 ha
  rw [List.getElem?_append_left hn, ha]

variable {draft made : Draft} {nav : Navigation}

theorem Holds.of_grows (h : Holds made nav) (hgrows : Grows draft made) : Holds draft nav where
  pages n p hp := h.pages n p (getElem?_eq_some_of_isPrefix hgrows.pages hp)
  sections n s hs := h.sections n s (getElem?_eq_some_of_isPrefix hgrows.sections hs)
  links n l hl := h.links n l (getElem?_eq_some_of_isPrefix hgrows.links hl)

theorem holds_of_continues {items : List Item} {hsound : Sound made}
    (h : Navigation.Continues (Navigation.ofDraft items made hsound) nav) : Holds made nav where
  pages n p hp := by
    have hfound : (made.pages.map Page.withoutPlace)[n]? = some p.withoutPlace := by
      rw [List.getElem?_map, hp, Option.map_some]
    have hnav := getElem?_eq_some_of_isPrefix h.pages hfound
    rwa [List.getElem?_map] at hnav
  sections n s hs := by
    have hnav := congrArg (·[n]?) h.sections
    simp only [List.getElem?_map] at hnav
    exact hnav.trans (by rw [Navigation.ofDraft, hs, Option.map_some])
  links n l hl := by
    have hnav := congrArg (·[n]?) h.links
    simp only [List.getElem?_map] at hnav
    exact hnav.trans (by rw [Navigation.ofDraft, hl, Option.map_some])

end Drafting

/-! ## Every page is made for a file -/

/-- Pages that a factory has made for files of a catalog, whatever pages the files had
then and whatever the pages have been told of their places since. -/
def MadeForFiles (factory : PageFactory) (files : List SourceFile) (pages : List Page) : Prop :=
  ∀ contents ∈ pages.map Page.withoutPlace, ∃ title f,
    f.detach ∈ files.map SourceFile.detach ∧ contents = (factory title f).withoutPlace

theorem MadeForFiles.append {factory : PageFactory} {files : List SourceFile}
    {pages : List Page} (h : MadeForFiles factory files pages) (title : Option String)
    {f : SourceFile} (hf : f.detach ∈ files.map SourceFile.detach) :
    MadeForFiles factory files (pages ++ [factory title f]) := by
  intro contents hcontents
  rw [List.map_append, List.mem_append] at hcontents
  rcases hcontents with hcontents | hcontents
  · exact h contents hcontents
  · exact ⟨title, f, hf, List.mem_singleton.1 hcontents⟩

theorem MadeForFiles.congr {factory : PageFactory} {files : List SourceFile}
    {pages others : List Page} (h : MadeForFiles factory files pages)
    (hcontents : others.map Page.withoutPlace = pages.map Page.withoutPlace) :
    MadeForFiles factory files others := by
  unfold MadeForFiles
  rw [hcontents]
  exact h

namespace Drafting

variable {factory : PageFactory}

/-- A draft whose files are those of a catalog but for their pages, whose pages were made
for them, and whose sections are not active. -/
structure Fresh (factory : PageFactory) (catalog : Catalog) (draft : Draft) : Prop where
  files : draft.catalog.files.map SourceFile.detach = catalog.files.map SourceFile.detach
  pages : MadeForFiles factory catalog.files draft.pages
  sections : ∀ s ∈ draft.sections, s.active = false

theorem fresh_start (factory : PageFactory) (catalog : Catalog) :
    Fresh factory catalog (Draft.start catalog) where
  files := catalog.map_detach_detachAll
  pages := by simp [MadeForFiles, Draft.start]
  sections := by simp [Draft.start]

theorem keeps_fresh (factory : PageFactory) (catalog : Catalog) :
    Keeps factory (Fresh factory catalog) where
  link draft title target attached hattach h := by
    have hfiles := draft.catalog.map_detach_attach (targetUri target) ⟨draft.pages.length⟩
    rw [hattach] at hfiles
    exact ⟨hfiles.trans h.files, h.pages, h.sections⟩
  page draft title target f attached hattach h := by
    have hfiles := draft.catalog.map_detach_attach (targetUri target) ⟨draft.pages.length⟩
    rw [hattach] at hfiles
    have hf : f ∈ draft.catalog.files := (Catalog.mem_of_attach_eq_some hattach).1
    refine ⟨hfiles.trans h.files, h.pages.append title ?_, h.sections⟩
    rw [← h.files]
    exact List.mem_map_of_mem hf
  group draft title children h := by
    refine ⟨h.files, h.pages, ?_⟩
    intro s hs
    rcases List.mem_append.1 hs with hs | hs
    · exact h.sections s hs
    · rw [List.mem_singleton.1 hs]

end Drafting

namespace Navigation

variable {factory : PageFactory} {files : List SourceFile}

/-- The pages of orphans are made for files like all others. -/
theorem madeForFiles_addOrphans {nav : Navigation} {catalog : Catalog}
    (hfiles : catalog.files.map SourceFile.detach = files.map SourceFile.detach)
    (h : MadeForFiles factory files nav.pageTable) :
    MadeForFiles factory files (nav.addOrphans factory catalog).value.1.pageTable := by
  rw [value_addOrphans]
  refine (Catalog.visitFiles_invariant (adoptFile factory)
    (fun (made : Navigation × List String) _ left =>
      MadeForFiles factory files made.1.pageTable ∧
        ∀ f ∈ left, f.detach ∈ files.map SourceFile.detach)
    (fun made visited f left hmade => ?_) ⟨h, fun f hf => ?_⟩).1
  · obtain ⟨hpages, hleft⟩ := hmade
    refine ⟨?_, fun g hg => hleft g (List.mem_cons_of_mem _ hg)⟩
    unfold adoptFile
    split
    · exact hpages
    · exact hpages.append none (hleft f (List.mem_cons_self ..))
  · rw [← hfiles]
    exact List.mem_map_of_mem hf

end Navigation

/-- **Every page of a built navigation was made for a file of the catalog**, and no
section is active. -/
theorem made_of_value_build {spec : Option Spec} {factory : PageFactory}
    {catalog filled : Catalog} {nav : Navigation}
    (h : (build spec factory catalog).value = (.ok nav, filled)) :
    MadeForFiles factory catalog.files nav.pageTable ∧
      ∀ s ∈ nav.sectionTable, s.active = false := by
  obtain ⟨entries, items, made, hsound, -, hplaced, hfinish⟩ := exists_of_value_build h
  have hfresh := (Drafting.keeps_fresh factory catalog).placedAll entries
    (Drafting.fresh_start factory catalog)
  rw [hplaced] at hfresh
  constructor
  · rw [value_finish, Prod.mk.injEq] at hfinish
    obtain ⟨rfl, -⟩ := hfinish
    have hread : MadeForFiles factory catalog.files
        (Navigation.ofReading items made hsound).pageTable :=
      hfresh.pages.congr (Navigation.sameParts_assignParents _).contents
    exact (Navigation.madeForFiles_addOrphans hfresh.files hread).congr
      (Navigation.sameParts_assignNeighbours _).contents
  · intro s hs
    have hcontents : s.withoutPlace ∈ made.sections.map Section.withoutPlace := by
      have hsections := (Navigation.continues_of_finish hfinish).sections
      exact hsections ▸ List.mem_map_of_mem hs
    obtain ⟨old, hold, heq⟩ := List.mem_map.1 hcontents
    have hactive : old.active = s.active := by
      simpa [Section.withoutPlace] using congrArg Section.active heq
    rw [← hactive]
    exact hfresh.sections old hold

end Nav
end DocSite
