import Mathlib
import DocSite.Proofs.Theme.Additions

/-!
# Where the files of themes lie

A file that a theme brings by a relative path is read from the theme and published in the
site; one that is brought by an absolute path is where the path says, on both sides
(`Catalog.liesIn_of_addThemeFiles`).

Nobody has to write an absolute path for that.  A theme is listed by the names of its
files, a name may hold backslashes, and these are read as slashes afterwards: so a single
file in a theme can bring any file there is (`Catalog.exists_added_outside`).
-/

namespace DocSite
namespace Catalog

/-- **Files of themes stay in their theme and in the site, unless their path is absolute.**
What themes add is found in a theme under its path.  By a relative path it is read from
that theme and published in the site; by an absolute path it is read from there, and
published in the same place. -/
theorem liesIn_of_addThemeFiles {fs : FileSystem} {search : ThemeSearch} {c : Catalog}
    {candidates : List String} {journal : Journal (Nat × Catalog)}
    (h : c.addThemeFiles fs search candidates = .ok journal) :
    ∃ added, journal.value.2.files = c.files ++ added ∧
      ∀ f ∈ added, ∃ candidate ∈ candidates, ∃ dir ∈ search.dirs,
        search.locate? fs (ThemeSearch.slashed candidate) = some dir ∧
        f = .ofPath ⟨ThemeSearch.slashed candidate⟩ dir search.site search.directoryUrls ∧
        if f.path.isAbsolute then f.srcPath = f.path.normalize ∧ f.destPath = f.path.normalize
        else f.srcPath.LiesIn dir.normalize ∧ f.destPath.LiesIn search.site.normalize := by
  obtain ⟨filter, hfilter, added, hfiles, hbrought⟩ := exists_added_of_addThemeFiles h
  refine ⟨added, hfiles, fun f hf => ?_⟩
  obtain ⟨candidate, hcandidate, dir, hbrings⟩ := hbrought f hf
  refine ⟨candidate, hcandidate, dir, hbrings.dir_mem, hbrings.found, hbrings.file, ?_⟩
  split
  · rename_i habsolute
    exact hbrings.srcPath_eq hfilter habsolute
  · rename_i hrelative
    exact hbrings.liesIn hfilter (by simpa using hrelative)

/-! ## A file with backslashes in its name -/

/-- A theme with a style sheet, and with a file whose name is an absolute path when its
backslashes are read as slashes; the file that this path names is there. -/
def plantedTree : FileSystem where
  entries := [(["theme"], .directory), (["theme", "\\etc\\hosts"], .file ⟨#[]⟩ 0),
    (["theme", "style.css"], .file ⟨#[]⟩ 0), (["etc"], .directory),
    (["etc", "hosts"], .file ⟨#[]⟩ 0)]
  cwd := []
  clock := 0
  distinct := by decide
  grounded := by decide
  legal := by decide

/-- The theme of the tree, published in a site beside it. -/
def plantedSearch : ThemeSearch :=
  ⟨[⟨"theme"⟩], ⟨"site"⟩, true, []⟩

theorem isFile_plantedTree :
    plantedTree.isFile ((Path.mk "theme").join ⟨"style.css"⟩) = true ∧
      plantedTree.isFile ((Path.mk "theme").join ⟨"\\etc\\hosts"⟩) = true ∧
      plantedTree.isFile ((Path.mk "theme").join ⟨"/etc/hosts"⟩) = true := by
  have hstyle : plantedTree.locate ((Path.mk "theme").join ⟨"style.css"⟩) =
      .ok (["theme", "style.css"], .file ⟨#[]⟩ 0) :=
    FileSystem.locate_eq_ok_of_follow [] ["theme", "style.css"] (by decide +kernel) (by cbv)
  have hplanted : plantedTree.locate ((Path.mk "theme").join ⟨"\\etc\\hosts"⟩) =
      .ok (["theme", "\\etc\\hosts"], .file ⟨#[]⟩ 0) :=
    FileSystem.locate_eq_ok_of_follow [] ["theme", "\\etc\\hosts"] (by decide +kernel) (by cbv)
  have houtside : plantedTree.locate ((Path.mk "theme").join ⟨"/etc/hosts"⟩) =
      .ok (["etc", "hosts"], .file ⟨#[]⟩ 0) :=
    FileSystem.locate_eq_ok_of_follow [] ["", "etc", "hosts"] (by decide +kernel) (by cbv)
  refine ⟨?_, ?_, ?_⟩
  · rw [FileSystem.isFile, hstyle]
  · rw [FileSystem.isFile, hplanted]
  · rw [FileSystem.isFile, houtside]

theorem listThemeFiles_plantedTree :
    (listThemeFiles plantedTree plantedSearch.dirs).value = ["\\etc\\hosts", "style.css"] := by
  obtain ⟨hstyle, hplanted, -⟩ := isFile_plantedTree
  have htheme : plantedTree.locate ⟨"theme"⟩ = .ok (["theme"], .directory) :=
    FileSystem.locate_eq_ok_of_follow [] ["theme"] (by decide +kernel) (by cbv)
  have hbelow : filesBelow plantedTree ⟨"theme"⟩ ["theme"] = ["\\etc\\hosts", "style.css"] := by
    have hentries : plantedTree.entries = [(["theme"], .directory),
      (["theme", "\\etc\\hosts"], .file ⟨#[]⟩ 0), (["theme", "style.css"], .file ⟨#[]⟩ 0),
      (["etc"], .directory), (["etc", "hosts"], .file ⟨#[]⟩ 0)] := rfl
    rw [filesBelow, hentries]
    simp [hstyle, hplanted]
  have honce : ["\\etc\\hosts", "style.css"].eraseDups = ["\\etc\\hosts", "style.css"] := by
    decide +kernel
  have hsorted : ["\\etc\\hosts", "style.css"].mergeSort (· ≤ ·) =
      ["\\etc\\hosts", "style.css"] :=
    List.mergeSort_of_pairwise (by decide +kernel)
  rw [listThemeFiles, plantedSearch]
  simp [htheme, hbelow, honce, hsorted]

/-- The files that the theme of the tree adds to a catalog without files. -/
theorem exists_addThemeFiles_plantedTree : ∃ journal,
    Catalog.empty.addThemeFiles plantedTree plantedSearch
        (listThemeFiles plantedTree plantedSearch.dirs).value = .ok journal ∧
      journal.value.2.files = ["/etc/hosts", "style.css"].map fun path =>
        .ofPath ⟨path⟩ ⟨"theme"⟩ ⟨"site"⟩ true := by
  obtain ⟨hstyle, -, houtside⟩ := isFile_plantedTree
  have hfilter : (ThemeFilter.ofTemplates plantedSearch.templates).map (fun filter =>
      (filter.accepts "/etc/hosts", filter.accepts "style.css")) = .ok (true, true) := by
    decide +kernel
  cases hread : ThemeFilter.ofTemplates plantedSearch.templates with
  | error refusal => simp [hread, Except.map] at hfilter
  | ok filter =>
    obtain ⟨haccepts, haccepts'⟩ : filter.accepts "/etc/hosts" ∧ filter.accepts "style.css" := by
      simpa [hread, Except.map] using hfilter
    have hslashed : ThemeSearch.slashed "\\etc\\hosts" = "/etc/hosts" ∧
        ThemeSearch.slashed "style.css" = "style.css" := by
      decide +kernel
    have hlocate : plantedSearch.locate? plantedTree "/etc/hosts" = some ⟨"theme"⟩ ∧
        plantedSearch.locate? plantedTree "style.css" = some ⟨"theme"⟩ := by
      simp [ThemeSearch.locate?, plantedSearch, houtside, hstyle]
    have hnames : (SourceFile.ofPath ⟨"/etc/hosts"⟩ ⟨"theme"⟩ ⟨"site"⟩ true).srcUri = "/etc/hosts" ∧
        (SourceFile.ofPath ⟨"style.css"⟩ ⟨"theme"⟩ ⟨"site"⟩ true).srcUri = "style.css" := by
      decide +kernel
    have hadding : ∃ journal, Catalog.empty.addThemeFiles plantedTree plantedSearch
        ["\\etc\\hosts", "style.css"] = .ok journal := by
      rw [Desk.addThemeFiles_eq, hread]
      exact ⟨_, rfl⟩
    obtain ⟨journal, hjournal⟩ := hadding
    obtain ⟨other, hother, hfiles⟩ := files_of_addThemeFiles hjournal
    obtain rfl : filter = other := Except.ok.inj (hread.symm.trans hother)
    rw [listThemeFiles_plantedTree]
    refine ⟨journal, hjournal, ?_⟩
    have hsite : plantedSearch.site = ⟨"site"⟩ ∧ plantedSearch.directoryUrls = true := ⟨rfl, rfl⟩
    rw [hfiles]
    simp [Desk.Listing.addCandidate, Desk.Listing.append, Desk.Listing.has, Catalog.empty,
      hslashed, haccepts, haccepts', hlocate, hnames, hsite]

/-- The style sheet stays in the theme and in the site, and the other file leaves both. -/
theorem exists_liesIn_plantedTree : ∃ journal,
    Catalog.empty.addThemeFiles plantedTree plantedSearch
        (listThemeFiles plantedTree plantedSearch.dirs).value = .ok journal ∧
      journal.value.2.files.map SourceFile.srcUri = ["/etc/hosts", "style.css"] ∧
      ∃ added, journal.value.2.files = [] ++ added ∧
        ∀ f ∈ added, ∃ candidate ∈ (listThemeFiles plantedTree plantedSearch.dirs).value,
          ∃ dir ∈ plantedSearch.dirs,
            plantedSearch.locate? plantedTree (ThemeSearch.slashed candidate) = some dir ∧
            f = .ofPath ⟨ThemeSearch.slashed candidate⟩ dir ⟨"site"⟩ true ∧
            if f.path.isAbsolute then f.srcPath = f.path.normalize ∧ f.destPath = f.path.normalize
            else f.srcPath.LiesIn dir.normalize ∧ f.destPath.LiesIn (Path.mk "site").normalize := by
  obtain ⟨journal, hjournal, hfiles⟩ := exists_addThemeFiles_plantedTree
  refine ⟨journal, hjournal, ?_, liesIn_of_addThemeFiles hjournal⟩
  rw [hfiles]
  decide +kernel

/-- **A theme can bring a file that is neither read from the theme nor published in the
site.** -/
theorem exists_added_outside : ∃ journal,
    Catalog.empty.addThemeFiles plantedTree plantedSearch
        (listThemeFiles plantedTree plantedSearch.dirs).value = .ok journal ∧
      ∃ f ∈ journal.value.2.files, f.srcPath = ⟨"/etc/hosts"⟩ ∧ f.destPath = ⟨"/etc/hosts"⟩ ∧
        (∀ dir ∈ plantedSearch.dirs, ¬ f.srcPath.LiesIn dir.normalize) ∧
        ¬ f.destPath.LiesIn plantedSearch.site.normalize := by
  obtain ⟨journal, hjournal, hfiles⟩ := exists_addThemeFiles_plantedTree
  refine ⟨journal, hjournal, .ofPath ⟨"/etc/hosts"⟩ ⟨"theme"⟩ ⟨"site"⟩ true, ?_, by decide +kernel,
    by decide +kernel, ?_⟩
  · rw [hfiles]
    exact List.mem_cons_self ..
  have hsrc : (SourceFile.ofPath ⟨"/etc/hosts"⟩ ⟨"theme"⟩ ⟨"site"⟩ true).srcPath.components =
      [.root, .name "etc", .name "hosts"] := by decide +kernel
  have hdest : (SourceFile.ofPath ⟨"/etc/hosts"⟩ ⟨"theme"⟩ ⟨"site"⟩ true).destPath.components =
      [.root, .name "etc", .name "hosts"] := by decide +kernel
  have hdirs : (Path.mk "theme").normalize.components.filter (· ≠ .here) = [.name "theme"] ∧
      (Path.mk "site").normalize.components.filter (· ≠ .here) = [.name "site"] := by
    decide +kernel
  constructor
  · intro dir hdir
    obtain rfl := List.mem_singleton.1 hdir
    rintro ⟨names, -, heq⟩
    rw [hsrc, hdirs.1] at heq
    simp at heq
  · rintro ⟨names, -, heq⟩
    rw [hdest, plantedSearch, hdirs.2] at heq
    simp at heq

end Catalog
end DocSite
