import Mathlib.Data.List.Intervals
import DocSite.Proofs.Catalog.Lookup
import DocSite.Proofs.Nav.Parents

/-!
# Orphans come last

The files of a catalog are visited in their order, and a documentation file
without a page is given one at the end of the table and of the reading order.
So the orphans are the last numbers, they are read in the order in which their
files stand, and each is attached to its file (`orphaned_addOrphans`).  The
forest does not change, and no orphan is in a section.

A file that had a page before keeps it.  That such a page is an older one is the
only thing that has to be known of the files beforehand.
-/

namespace DocSite
namespace Nav
namespace Navigation

variable {factory : PageFactory}

/-- How far the search for orphans has come, when some files have been visited
and others are left. -/
structure Orphaned (base nav : Navigation) (visited left : List SourceFile) : Prop where
  forest : SameForest base nav
  parents : ∀ item, nav.parent? item = base.parent? item
  sections : nav.sectionTable.length = base.sectionTable.length
  links : nav.linkTable.length = base.linkTable.length
  grown : base.pageTable.length ≤ nav.pageTable.length
  readingOrder : nav.readingOrder = base.readingOrder ++
    (List.Ico base.pageTable.length nav.pageTable.length).map PageId.mk
  attached : (visited.filterMap SourceFile.page).filter (base.pageTable.length ≤ ·.index) =
    (List.Ico base.pageTable.length nav.pageTable.length).map PageId.mk
  old : ∀ f ∈ left, ∀ id ∈ f.page, id.index < base.pageTable.length

theorem Orphaned.start (base : Navigation) {files : List SourceFile}
    (h : ∀ f ∈ files, ∀ id ∈ f.page, id.index < base.pageTable.length) :
    Orphaned base base [] files where
  forest := ⟨rfl, fun _ => rfl⟩
  parents := fun _ => rfl
  sections := rfl
  links := rfl
  grown := Nat.le_refl _
  readingOrder := by simp
  attached := by simp
  old := h

variable {base nav : Navigation} {visited left : List SourceFile} {f : SourceFile}

/-- A file that needs no page is passed by. -/
theorem Orphaned.pass (h : Orphaned base nav visited (f :: left)) :
    Orphaned base nav (visited ++ [f]) left :=
  { h with
    attached := by
      rw [List.filterMap_append, List.filter_append, h.attached]
      cases hpage : f.page with
      | none => simp [hpage]
      | some id =>
        have hid := h.old f (List.mem_cons_self ..) id hpage
        simp [hpage, hid]
    old := fun g hg => h.old g (List.mem_cons_of_mem _ hg) }

/-- A file without a page is given the next one. -/
theorem Orphaned.adopt (h : Orphaned base nav visited (f :: left)) (hf : f.page = none) {p : Page}
    (hp : p.parent = none) :
    Orphaned base (nav.addOrphan p) (visited ++ [f.attach ⟨nav.pageTable.length⟩]) left where
  forest := h.forest.trans (sameForest_addOrphan nav p)
  parents := fun item => (parent?_addOrphan nav hp item).trans (h.parents item)
  sections := h.sections
  links := h.links
  grown := by
    rw [addOrphan, List.length_append]
    exact Nat.le_add_right_of_le h.grown
  readingOrder := by
    rw [addOrphan, h.readingOrder, List.length_append, List.length_singleton,
      List.Ico.succ_top h.grown, List.map_append, List.append_assoc]
    rfl
  attached := by
    rw [addOrphan, List.length_append, List.length_singleton, List.Ico.succ_top h.grown,
      List.map_append, ← h.attached, List.filterMap_append, List.filter_append]
    simp [hf, h.grown]
  old := fun g hg => h.old g (List.mem_cons_of_mem _ hg)

theorem orphaned_adoptFile (hfactory : ∀ title f, (factory title f).parent = none)
    (names : List String) (h : Orphaned base nav visited (f :: left)) :
    Orphaned base (adoptFile factory (nav, names) f).2.1
      (visited ++ [(adoptFile factory (nav, names) f).1]) left := by
  unfold adoptFile
  split
  · exact h.pass
  · rename_i hneeds
    have hpage : f.isDocumentation = true ∧ f.page = none := by simpa using hneeds
    exact h.adopt hpage.2 (hfactory none f)

theorem value_addOrphans (factory : PageFactory) (catalog : Catalog) (nav : Navigation) :
    (addOrphans factory catalog nav).value =
      ((catalog.visit (adoptFile factory) (srcUri_adoptFile factory) (nav, [])).2.1,
        (catalog.visit (adoptFile factory) (srcUri_adoptFile factory) (nav, [])).1) := by
  rw [addOrphans]
  split
  rename_i srcUris hvisit
  rw [hvisit]
  cases srcUris <;> simp

theorem detach_adoptFile (factory : PageFactory) (made : Navigation × List String)
    (f : SourceFile) : (adoptFile factory made f).1.detach = f.detach := by
  unfold adoptFile
  split <;> simp

/-- Supplying pages changes nothing about a file but its page. -/
theorem map_detach_addOrphans (factory : PageFactory) (catalog : Catalog) (nav : Navigation) :
    (addOrphans factory catalog nav).value.2.files.map SourceFile.detach =
      catalog.files.map SourceFile.detach := by
  rw [value_addOrphans]
  exact Catalog.map_visitFiles_eq (detach_adoptFile factory) _ _

/-- **Orphans come last**, in the order of their files, and outside the forest. -/
theorem orphaned_addOrphans (hfactory : ∀ title f, (factory title f).parent = none)
    (catalog : Catalog) (base : Navigation)
    (h : ∀ f ∈ catalog.files, ∀ id ∈ f.page, id.index < base.pageTable.length) :
    Orphaned base (addOrphans factory catalog base).value.1
      (addOrphans factory catalog base).value.2.files [] := by
  rw [value_addOrphans]
  exact Catalog.visitFiles_invariant (adoptFile factory)
    (fun (made : Navigation × List String) visited left => Orphaned base made.1 visited left)
    (fun made _ _ _ hmade => orphaned_adoptFile hfactory made.2 hmade) (Orphaned.start base h)

end Navigation
end Nav
end DocSite
