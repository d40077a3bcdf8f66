import DocSite.Proofs.Nav.Building
import DocSite.Proofs.Nav.Leaves

/-!
# The page of a file is the first that is read

A file remembers the first page that was made for it; a navigation finds the page
of a file by searching the reading order.  The two are kept apart and agree in
every built navigation (`attaches_of_value_build`), however often and under
whatever spellings a specification names the file.

The first half is an invariant of the table of pages alone: the page that a file
remembers is the first of its name (`FirstPages`).  One new page of a name, given
to the file of that name, keeps it (`FirstPages.append`), and a page is made in no
other way, neither for a leaf nor for an orphan.  The second half is that numbers
are given out in reading order (`Finished.readingOrder`), so the first of a name
in the table is the first that is read.
-/

namespace DocSite
namespace Nav

/-- A way of making pages that makes the plain page of the file that it is
given, under some title. -/
def MakesPagesOfFiles (factory : PageFactory) : Prop :=
  ∀ title f, ∃ given, factory title f = Page.ofFile given f

theorem MakesPagesOfFiles.makesNewPages {factory : PageFactory}
    (h : MakesPagesOfFiles factory) : Drafting.MakesNewPages factory := by
  intro title f
  obtain ⟨given, hpage⟩ := h title f
  exact ⟨given, f, hpage⟩

theorem MakesPagesOfFiles.srcUri_eq {factory : PageFactory} (h : MakesPagesOfFiles factory)
    (title : Option String) (f : SourceFile) : (factory title f).srcUri = f.srcUri := by
  obtain ⟨given, hpage⟩ := h title f
  rw [hpage, Page.ofFile]

/-! ## The first page of a name -/

/-- Every file has the first page of its name, when the pages have certain names
in the order of their numbers. -/
def FirstPages (files : List SourceFile) (names : List String) : Prop :=
  ∀ f ∈ files, f.page = (names.findIdx? fun name => name = f.srcUri).map PageId.mk

theorem FirstPages.isSome_iff {files : List SourceFile} {names : List String}
    (h : FirstPages files names) {f : SourceFile} (hf : f ∈ files) :
    f.page.isSome ↔ f.srcUri ∈ names := by
  simp [h f hf, List.findIdx?_isSome]

/-- One more page, given to the file of its name unless the file has one. -/
theorem FirstPages.append {files : List SourceFile} {names : List String}
    (h : FirstPages files names) (name : String) :
    FirstPages (files.map fun f => if f.srcUri = name then f.attach ⟨names.length⟩ else f)
      (names ++ [name]) := by
  intro g hg
  obtain ⟨f, hf, rfl⟩ := List.mem_map.1 hg
  rw [List.findIdx?_append]
  by_cases hname : f.srcUri = name
  · rw [if_pos hname, SourceFile.page_attach, SourceFile.srcUri_attach, h f hf]
    cases names.findIdx? fun other => other = f.srcUri <;> simp [hname]
  · have hne : ¬ name = f.srcUri := fun heq => hname heq.symm
    rw [if_neg hname, h f hf]
    simp [hne]

namespace Drafting

theorem keeps_firstPages {factory : PageFactory}
    (hfactory : ∀ title f, (factory title f).srcUri = f.srcUri) :
    Keeps factory fun draft =>
      FirstPages draft.catalog.files (draft.pages.map Page.srcUri) where
  link draft title target catalog hattach h := by
    have hfiles := draft.catalog.files_attach (targetUri target) ⟨draft.pages.length⟩
    have hnone := Catalog.notMem_of_attach_eq_none hattach
    rw [hattach] at hfiles
    rw [hfiles]
    -- no file has the name, so none is changed
    intro g hg
    obtain ⟨f, hf, rfl⟩ := List.mem_map.1 hg
    have hne : f.srcUri ≠ targetUri target := fun heq => hnone (List.mem_map.2 ⟨f, hf, heq⟩)
    rw [if_neg hne]
    exact h f hf
  page draft title target f catalog hattach h := by
    have hfiles := draft.catalog.files_attach (targetUri target) ⟨draft.pages.length⟩
    obtain ⟨-, hname⟩ := Catalog.mem_of_attach_eq_some hattach
    rw [hattach] at hfiles
    have happend := h.append (targetUri target)
    rw [List.length_map] at happend
    rw [hfiles, List.map_append, List.map_singleton, hfactory, hname]
    exact happend
  group draft title children h := h

end Drafting

/-! ## Orphans -/

/-- How far every documentation file has been supplied with a page, when the pages
of the forest have certain names. -/
structure Supplied (read : List String) (nav : Navigation) (orphans : List String)
    (visited left : List SourceFile) : Prop where
  names : nav.pageTable.map Page.srcUri = read ++ orphans
  first : FirstPages (visited ++ left) (read ++ orphans)
  distinct : ((visited ++ left).map SourceFile.srcUri).Nodup
  supplied : ∀ f ∈ visited, f.isDocumentation → f.page.isSome
  /-- An orphan is a documentation file that was not read. -/
  orphan : ∀ name ∈ orphans, isMarkdown name ∧ name ∉ read ∧
    name ∈ (visited ++ left).map SourceFile.srcUri

variable {factory : PageFactory} {read orphans : List String} {nav : Navigation}
  {visited left : List SourceFile} {f : SourceFile}

/-- A file that needs no page is passed by. -/
theorem Supplied.pass (h : Supplied read nav orphans visited (f :: left))
    (hf : f.isDocumentation → f.page.isSome) :
    Supplied read nav orphans (visited ++ [f]) left := by
  have hsplit : visited ++ [f] ++ left = visited ++ f :: left := by simp
  refine ⟨h.names, hsplit ▸ h.first, hsplit ▸ h.distinct, ?_, hsplit ▸ h.orphan⟩
  intro g hg
  rcases List.mem_append.1 hg with hg | hg
  · exact h.supplied g hg
  · rw [List.mem_singleton.1 hg]
    exact hf

/-- Among files of distinct names, changing those of the name of one changes that
one. -/
theorem map_ite_eq_of_nodup {change : SourceFile → SourceFile}
    (h : ((visited ++ f :: left).map SourceFile.srcUri).Nodup) :
    ((visited ++ f :: left).map fun g => if g.srcUri = f.srcUri then change g else g) =
      visited ++ change f :: left := by
  have hne : ∀ g, g ∈ visited ∨ g ∈ left → ¬ g.srcUri = f.srcUri := by
    rw [List.map_append, List.map_cons, List.nodup_middle, List.nodup_cons,
      ← List.map_append, List.mem_map] at h
    intro g hg heq
    exact h.1 ⟨g, List.mem_append.2 hg, heq⟩
  rw [List.map_append, List.map_cons, if_pos rfl]
  congr 1
  · exact (List.map_congr_left fun g hg => if_neg (hne g (Or.inl hg))).trans (List.map_id _)
  · congr 1
    exact (List.map_congr_left fun g hg => if_neg (hne g (Or.inr hg))).trans (List.map_id _)

/-- A documentation file without a page is given the next one. -/
theorem Supplied.adopt (h : Supplied read nav orphans visited (f :: left)) {p : Page}
    (hp : p.srcUri = f.srcUri) (hf : f.isDocumentation) (hpage : f.page = none) :
    Supplied read (nav.addOrphan p) (orphans ++ [f.srcUri])
      (visited ++ [f.attach ⟨nav.pageTable.length⟩]) left := by
  have hlength : (read ++ orphans).length = nav.pageTable.length := by
    rw [← h.names, List.length_map]
  have hnames : (visited ++ [f.attach ⟨nav.pageTable.length⟩] ++ left).map SourceFile.srcUri =
      (visited ++ f :: left).map SourceFile.srcUri := by
    simp
  have hmem : f ∈ visited ++ f :: left := List.mem_append_right _ (List.mem_cons_self ..)
  constructor
  · rw [Navigation.addOrphan, List.map_append, h.names, List.map_singleton, hp, List.append_assoc]
  · have hfirst := h.first.append f.srcUri
    rw [map_ite_eq_of_nodup h.distinct, hlength, List.append_assoc] at hfirst
    simpa using hfirst
  · rw [hnames]
    exact h.distinct
  · intro g hg
    rcases List.mem_append.1 hg with hg | hg
    · exact h.supplied g hg
    · rw [List.mem_singleton.1 hg]
      simp [hpage]
  · intro name hname
    rw [hnames]
    rcases List.mem_append.1 hname with hname | hname
    · exact h.orphan name hname
    · rw [List.mem_singleton.1 hname]
      refine ⟨hf, fun hread => ?_, List.mem_map_of_mem hmem⟩
      have hsome := (h.first.isSome_iff hmem).2 (List.mem_append_left _ hread)
      simp [hpage] at hsome

theorem supplied_adoptFile (hfactory : ∀ title f, (factory title f).srcUri = f.srcUri)
    (h : Supplied read nav orphans visited (f :: left)) :
    Supplied read (Navigation.adoptFile factory (nav, orphans) f).2.1
      (Navigation.adoptFile factory (nav, orphans) f).2.2
      (visited ++ [(Navigation.adoptFile factory (nav, orphans) f).1]) left := by
  unfold Navigation.adoptFile
  split
  · rename_i hneedless
    exact h.pass fun hf => by simpa [hf] using hneedless
  · rename_i hneeds
    have hf : f.isDocumentation = true ∧ f.page = none := by simpa using hneeds
    exact h.adopt (hfactory none f) hf.1 hf.2

/-- After the search for orphans every documentation file has a page, and every
file that has one has the first of its name. -/
theorem exists_supplied_addOrphans (hfactory : ∀ title f, (factory title f).srcUri = f.srcUri)
    (catalog : Catalog) (base : Navigation)
    (h : FirstPages catalog.files (base.pageTable.map Page.srcUri)) :
    ∃ orphans, Supplied (base.pageTable.map Page.srcUri)
      (base.addOrphans factory catalog).value.1 orphans
      (base.addOrphans factory catalog).value.2.files [] := by
  rw [Navigation.value_addOrphans]
  refine ⟨_, Catalog.visitFiles_invariant (Navigation.adoptFile factory)
    (fun (made : Navigation × List String) visited left =>
      Supplied (base.pageTable.map Page.srcUri) made.1 made.2 visited left)
    (fun made _ _ _ hmade => supplied_adoptFile hfactory hmade) ?_⟩
  exact ⟨by simp, by simpa using h, catalog.distinct, by simp, by simp⟩

/-! ## Agreement -/

theorem find?_range_length {α : Type} (entries : List α) (p : α → Bool) :
    ((List.range entries.length).find? fun n => entries[n]?.any p) = entries.findIdx? p := by
  induction entries with
  | nil => rfl
  | cons a rest ih =>
    rw [List.length_cons, List.range_succ_eq_map, List.find?_cons, List.findIdx?_cons, ← ih,
      List.find?_map]
    have hshift : ((fun n => (a :: rest)[n]?.any p) ∘ Nat.succ) = fun n => rest[n]?.any p := by
      funext n
      rw [Function.comp_apply, List.getElem?_cons_succ]
    rw [hshift]
    cases h : p a <;> simp [h]

/-- Where the pages are read in the order of their numbers, the first of a name
that is read is the first of that name. -/
theorem pageOfFile?_eq
    (h : nav.readingOrder = (List.range nav.pageTable.length).map PageId.mk) (srcUri : String) :
    nav.pageOfFile? srcUri =
      ((nav.pageTable.map Page.srcUri).findIdx? fun name => name = srcUri).map PageId.mk := by
  rw [Navigation.pageOfFile?, h, List.find?_map, List.findIdx?_map, ← find?_range_length]
  rfl

/-- What the pages of files are in the navigation of a specification with certain
leaves. -/
structure Attaches (targets : List String) (catalog : Catalog) (nav : Navigation)
    (filled : Catalog) : Prop where
  /-- The files are those of the catalog, and only their pages are new. -/
  files : filled.files.map SourceFile.detach = catalog.files.map SourceFile.detach
  /-- Every documentation file has a page. -/
  documentation : ∀ f ∈ filled.files, f.isDocumentation → f.page.isSome
  /-- The page that a file has is the first of that file that is read. -/
  first : ∀ f ∈ filled.files, ∀ id ∈ f.page, nav.pageOfFile? f.srcUri = some id
  /-- Another file has a page exactly when a leaf names it. -/
  other : ∀ f ∈ filled.files, ¬ f.isDocumentation →
    (f.page.isSome ↔ ∃ target ∈ targets, targetUri target = f.srcUri)
  /-- A page is outside the forest exactly when it is that of a documentation file
  which no leaf names. -/
  outside : ∀ id p, nav.page? id = some p → ∃ f ∈ filled.files, f.srcUri = p.srcUri ∧
    (.ofPage id ∉ nav.walk ↔
      f.isDocumentation ∧ ∀ target ∈ targets, targetUri target ≠ f.srcUri)

/-- The names of the pages that are read are those that leaves look up and the
catalog has. -/
theorem srcUris_pages_of_placedAll {entries : List Entry} {catalog : Catalog} {items : List Item}
    {made : Draft} (hfactory : MakesPagesOfFiles factory)
    (hplaced : Drafting.placedAll factory entries (Draft.start catalog) = (items, made)) :
    made.pages.map Page.srcUri =
      ((Entry.targetsAll entries).map targetUri).filter (· ∈ catalog.srcUris) := by
  have hnames := Drafting.srcUris_pages_placedAll hfactory.srcUri_eq entries (Draft.start catalog)
  have hstart : catalog.detachAll.srcUris = catalog.srcUris :=
    Catalog.srcUris_eq_of_map_detach_eq catalog.map_detach_detachAll
  rw [hplaced] at hnames
  simpa [Draft.start, hstart] using hnames

theorem firstPages_of_placedAll {entries : List Entry} {catalog : Catalog} {items : List Item}
    {made : Draft} (hfactory : MakesPagesOfFiles factory)
    (hplaced : Drafting.placedAll factory entries (Draft.start catalog) = (items, made)) :
    FirstPages made.catalog.files (made.pages.map Page.srcUri) := by
  have hstart : FirstPages (Draft.start catalog).catalog.files [] := by
    intro f hf
    rw [Draft.start, Catalog.files_detachAll] at hf
    obtain ⟨g, -, rfl⟩ := List.mem_map.1 hf
    rfl
  have hmade := (Drafting.keeps_firstPages hfactory.srcUri_eq).placedAll entries hstart
  rwa [hplaced] at hmade

theorem exists_supplied_of_finish {entries : List Entry} {catalog filled : Catalog}
    {items : List Item} {made : Draft} (hfactory : MakesPagesOfFiles factory)
    (hplaced : Drafting.placedAll factory entries (Draft.start catalog) = (items, made))
    (hsound : Drafting.Sound made)
    (h : (finish factory items made hsound).value = (nav, filled)) :
    ∃ orphans, Supplied (made.pages.map Page.srcUri) nav orphans filled.files [] := by
  rw [value_finish, Prod.mk.injEq] at h
  obtain ⟨rfl, rfl⟩ := h
  have hread : (Navigation.ofReading items made hsound).pageTable.map Page.srcUri =
      made.pages.map Page.srcUri :=
    (Navigation.sameParts_assignParents _).srcUris
  have hfirst := firstPages_of_placedAll hfactory hplaced
  rw [← hread] at hfirst ⊢
  obtain ⟨orphans, hsupplied⟩ := exists_supplied_addOrphans hfactory.srcUri_eq made.catalog
    (Navigation.ofReading items made hsound) hfirst
  exact ⟨orphans, { hsupplied with
    names := (Navigation.sameParts_assignNeighbours _).srcUris.trans hsupplied.names }⟩

theorem map_detach_of_finish {entries : List Entry} {catalog filled : Catalog}
    {items : List Item} {made : Draft}
    (hplaced : Drafting.placedAll factory entries (Draft.start catalog) = (items, made))
    (hsound : Drafting.Sound made)
    (h : (finish factory items made hsound).value = (nav, filled)) :
    filled.files.map SourceFile.detach = catalog.files.map SourceFile.detach := by
  rw [value_finish, Prod.mk.injEq] at h
  obtain ⟨-, rfl⟩ := h
  have hgrows := (Drafting.grows_placedAll factory entries (Draft.start catalog)).files
  rw [hplaced] at hgrows
  rw [Navigation.map_detach_addOrphans, hgrows, Draft.start, Catalog.map_detach_detachAll]

namespace Supplied

variable {files : List SourceFile} {targets : List String}

/-- A file that is no documentation has a page exactly when its name was read. -/
theorem isSome_page_iff (h : Supplied read nav orphans files []) (hf : f ∈ files)
    (hkind : ¬ f.isDocumentation) : f.page.isSome ↔ f.srcUri ∈ read := by
  have hfirst := h.first
  rw [List.append_nil] at hfirst
  rw [hfirst.isSome_iff hf, List.mem_append, or_iff_left]
  intro horphan
  exact hkind (h.orphan f.srcUri horphan).1

/-- A page of the table is one that was read exactly when its number is small, and
exactly when its name was read. -/
theorem lt_length_iff (h : Supplied read nav orphans files []) {id : PageId} {p : Page}
    (hp : nav.page? id = some p) : id.index < read.length ↔ p.srcUri ∈ read := by
  have hname : (read ++ orphans)[id.index]? = some p.srcUri := by
    rw [← h.names, List.getElem?_map]
    exact congrArg (Option.map Page.srcUri) hp
  rw [List.getElem?_append] at hname
  split at hname
  · rename_i hlt
    exact iff_of_true hlt (List.mem_of_getElem? hname)
  · rename_i hge
    exact iff_of_false hge (h.orphan _ (List.mem_of_getElem? hname)).2.1

theorem mem_append_of_page? (h : Supplied read nav orphans files []) {id : PageId} {p : Page}
    (hp : nav.page? id = some p) : p.srcUri ∈ read ++ orphans := by
  rw [← h.names]
  exact List.mem_map_of_mem (List.mem_of_getElem? hp)

theorem srcUri_mem_of_page? (h : Supplied read nav orphans files []) {id : PageId} {p : Page}
    (hp : nav.page? id = some p) (hread : ∀ name ∈ read, name ∈ files.map SourceFile.srcUri) :
    p.srcUri ∈ files.map SourceFile.srcUri := by
  rcases List.mem_append.1 (h.mem_append_of_page? hp) with hname | hname
  · exact hread _ hname
  · simpa using (h.orphan _ hname).2.2

theorem isMarkdown_of_notMem (h : Supplied read nav orphans files []) {id : PageId} {p : Page}
    (hp : nav.page? id = some p) (hread : p.srcUri ∉ read) : isMarkdown p.srcUri :=
  (h.orphan _ ((List.mem_append.1 (h.mem_append_of_page? hp)).resolve_left hread)).1

end Supplied

/-- **The page of a file is the first of that file that is read**, and files and
pages belong together as the leaves say. -/
theorem attaches_of_value_build {spec : Option Spec} {catalog filled : Catalog}
    (hfactory : MakesPagesOfFiles factory)
    (h : (build spec factory catalog).value = (.ok nav, filled)) :
    Attaches (effectiveSpec spec catalog).targets catalog nav filled := by
  obtain ⟨entries, items, made, hsound, harrange, hplaced, hfinish⟩ := exists_of_value_build h
  have hfinished := finished_of_placedAll hfactory.makesNewPages hplaced hsound hfinish
  have hfiles := map_detach_of_finish hplaced hsound hfinish
  obtain ⟨orphans, hsupplied⟩ := exists_supplied_of_finish hfactory hplaced hsound hfinish
  have hlength : (made.pages.map Page.srcUri).length = made.pages.length := List.length_map _
  -- a name was read exactly when a file has it and a leaf looks it up
  have hread : ∀ name, name ∈ made.pages.map Page.srcUri ↔
      (∃ target ∈ (effectiveSpec spec catalog).targets, targetUri target = name) ∧
        name ∈ filled.srcUris := by
    rw [effectiveSpec_detachAll] at harrange
    have hsrcUris : filled.srcUris = catalog.srcUris := by
      simpa [Catalog.srcUris, Function.comp_def] using congrArg (List.map SourceFile.srcUri) hfiles
    intro name
    rw [srcUris_pages_of_placedAll hfactory hplaced, targetsAll_of_arrange _ harrange, hsrcUris]
    simp
  have hfirst := hsupplied.first
  rw [List.append_nil] at hfirst
  exact {
    files := hfiles
    documentation := hsupplied.supplied
    first := fun f hf id hid => by
      rw [pageOfFile?_eq hfinished.readingOrder, hsupplied.names, ← hfirst f hf]
      exact hid
    other := fun f hf hkind => by
      rw [hsupplied.isSome_page_iff hf hkind, hread]
      exact and_iff_left (List.mem_map_of_mem hf)
    outside := fun id p hp => by
      obtain ⟨f, hf, hname⟩ := List.mem_map.1
        (hsupplied.srcUri_mem_of_page? hp fun name hname => ((hread name).1 hname).2)
      have hnamed : p.srcUri ∈ made.pages.map Page.srcUri ↔
          ∃ target ∈ (effectiveSpec spec catalog).targets, targetUri target = f.srcUri := by
        rw [hread, hname]
        exact and_iff_left (hname ▸ List.mem_map_of_mem hf)
      refine ⟨f, hf, hname, ?_⟩
      rw [hfinished.mem_walk_ofPage_iff, ← hlength, hsupplied.lt_length_iff hp]
      constructor
      · intro hread
        refine ⟨?_, fun target htarget heq => hread (hnamed.2 ⟨target, htarget, heq⟩)⟩
        rw [SourceFile.isDocumentation, hname]
        exact hsupplied.isMarkdown_of_notMem hp hread
      · rintro ⟨-, hleaves⟩ hread
        obtain ⟨target, htarget, heq⟩ := hnamed.1 hread
        exact hleaves target htarget heq }

theorem exists_attaches_smallSite : ∃ nav filled,
    (build (some smallSpec) Page.ofFile smallSite).value = (.ok nav, filled) ∧
      filled.files.map SourceFile.page = [some ⟨0⟩, some ⟨1⟩, some ⟨2⟩, some ⟨4⟩] ∧
      Attaches smallSpec.targets smallSite nav filled := by
  have hok : (build (some smallSpec) Page.ofFile smallSite).value.1.toOption.isSome := by
    decide +kernel
  have hpages : (build (some smallSpec) Page.ofFile smallSite).value.2.files.map
      SourceFile.page = [some ⟨0⟩, some ⟨1⟩, some ⟨2⟩, some ⟨4⟩] := by
    decide +kernel
  rcases hbuild : (build (some smallSpec) Page.ofFile smallSite).value with ⟨_ | nav, filled⟩
  · rw [hbuild] at hok
    simp [Except.toOption] at hok
  · rw [hbuild] at hpages
    exact ⟨nav, filled, rfl, hpages,
      attaches_of_value_build (fun title f => ⟨title, rfl⟩) hbuild⟩

end Nav
end DocSite
