import DocSite.Proofs.Discovery.Listing
import DocSite.Proofs.SourceFile.Outputs

/-!
# Where found files are read and written

Discovery takes the names that lead to a file as they stand in the file system, and
each of them is legal; so a found file is read from below the directory of documents,
and it is written below the directory of the site unless it climbs out
(`liesIn_of_discover`).

`crowdedTree` shows both sides: a file `...md` at the top is published as the page `..`
in directory style and written beside the directory of the site, and everything else
stays below it.
-/

namespace DocSite

/-! ## Files that are found -/

variable {fs : FileSystem} {exclude : List String} {docs site : Path} {directoryUrls : Bool}
  {c : Catalog}

/-- A file of a catalog that was discovered is listed, and reached under its names. -/
theorem exists_isListed_of_discover
    (h : (Catalog.discover fs docs site directoryUrls exclude).outcome = .ok c) {f : SourceFile}
    (hf : f ∈ c.files) : ∃ dirs file, IsListed fs exclude docs dirs file ∧ f.Stands dirs file ∧
      f.root = docs ∧ f.site = site ∧ f.directoryUrls = directoryUrls := by
  obtain ⟨paths, hlisting, -, hfiles⟩ := exists_isListing_of_discover h
  rw [hfiles] at hf
  obtain ⟨path, hpath, rfl⟩ := List.mem_map.1 hf
  obtain ⟨dirs, file, rfl, hlisted⟩ := (hlisting.mem_iff path).1 hpath
  exact ⟨dirs, file, hlisted, SourceFile.stands_of_path hlisted.areLegal rfl, rfl, rfl, rfl⟩

/-- **Of a directory in which only files stand, discovery finds these files**, in their
order, when no rule leaves one out and no other page is there beside an index page. -/
theorem exists_discover_of_files {place : Location} {names : List String}
    (hdocs : fs.locate docs = .ok (place, .directory)) (hnames : fs.namesIn? place = some names)
    (hfiles : ∀ name ∈ names, ∃ found content mtime,
      fs.locate (docs.join ⟨name⟩) = .ok (found, .file content mtime))
    (horder : names.Pairwise fun a b => fileOrder a b = true)
    (hindex : "README.md" ∈ names → "index.md" ∉ names) (site : Path) (directoryUrls : Bool) :
    ∃ c, (Catalog.discover fs docs site directoryUrls []).outcome = .ok c ∧
      c.files = names.map fun name => .ofPath ⟨name⟩ docs site directoryUrls := by
  have hclassify : classify fs docs names = .ok (names, []) := by
    have hlook : names.mapM (look fs docs) = .ok (names.map fun name => (name, false)) := by
      refine mapM_eq_ok_iff.2 (List.forall₂_map_right_iff.2 (List.forall₂_same.2 ?_))
      intro name hname
      obtain ⟨found, content, mtime, hfound⟩ := hfiles name hname
      rw [look, hfound]
      rfl
    rw [classify, hlook]
    simp [bind, Except.bind, pure, Except.pure, List.filter_map, Function.comp_def]
  have hkept : (keptFiles [] docs (joined []) names).outcome = .ok names := by
    have hall : ∀ name ∈ names, isKept [] (joined []) names name = true := by
      intro name hname
      have hnot : ¬ (name = "README.md" ∧ "index.md" ∈ names) := by
        rintro ⟨rfl, hbeside⟩
        exact hindex hname hbeside
      simp [isKept, isExcluded, hnot]
    rw [outcome_keptFiles, List.mergeSort_of_pairwise horder, List.filter_eq_self.2 hall]
    exact congrArg Except.ok (List.map_id' names)
  have hdirs : keptDirectories [] (joined []) [] = [] := by
    rw [keptDirectories, List.filter_nil, List.mergeSort_nil]
  have hscan : (scan fs [] [] docs (joined [])).outcome = .ok names :=
    outcome_scan_eq_ok_iff.2 ⟨place, .directory, hdocs, .inr ⟨List.not_mem_nil, names, hnames,
      names, [], hclassify, names, hkept, [], by rw [hdirs]; exact .nil, List.append_nil names⟩⟩
  refine ⟨_, outcome_discover_eq_ok_iff.2 ⟨[], rfl, names, hscan, rfl⟩,
    Catalog.files_value_ofFiles ?_⟩
  -- a name that a file has is the path of the file from the top
  have hsrcUri : ∀ name ∈ names,
      (SourceFile.ofPath ⟨name⟩ docs site directoryUrls).srcUri = name := by
    intro name hname
    obtain ⟨entry, hentry⟩ := Option.isSome_iff_exists.1
      ((FileSystem.mem_namesIn?_iff hnames name).1 hname)
    have hlegal := FileSystem.legal_of_get? hentry name (by simp)
    have hstands : (SourceFile.ofPath ⟨name⟩ docs site directoryUrls).Stands [] name :=
      SourceFile.stands_of_path (areLegal_nil.append_singleton hlegal)
        (congrArg Path.mk (joined_singleton name).symm)
    exact hstands.srcUri.trans (joined_singleton name)
  have hall : (names.map fun name => SourceFile.ofPath ⟨name⟩ docs site directoryUrls).map
      SourceFile.srcUri = names := by
    rw [List.map_map]
    exact (List.map_congr_left hsrcUri).trans (List.map_id' names)
  rw [hall]
  exact FileSystem.nodup_of_namesIn? hnames

/-! ## Below the two directories -/

/-- **What discovery finds is read from below the directory of documents and written
below the directory of the site**, but for a page that climbs out.  Only a site at the
root of the file system has nothing beside it. -/
theorem liesIn_of_discover
    (h : (Catalog.discover fs docs site directoryUrls exclude).outcome = .ok c) :
    ∀ f ∈ c.files, f.srcPath.LiesIn docs.normalize ∧
      (f.destPath.LiesIn site.normalize ↔ ¬ (f.ClimbsOut ∧ site.normalize ≠ ⟨"/"⟩)) := by
  intro f hf
  obtain ⟨dirs, file, -, hstands, rfl, rfl, -⟩ := exists_isListed_of_discover h hf
  exact ⟨hstands.liesIn_srcPath, hstands.liesIn_destPath_iff⟩

/-! ## A page beside the site -/

/-- A directory with a file whose stem is `..`, and with a page that needs a directory
of the name of another file. -/
def crowdedTree : FileSystem where
  entries := [(["docs"], .directory), (["docs", "...md"], .file ⟨#[]⟩ 0),
    (["docs", "LICENSE"], .file ⟨#[]⟩ 0), (["docs", "LICENSE.md"], .file ⟨#[]⟩ 0)]
  cwd := []
  clock := 0
  distinct := by decide
  grounded := by decide
  legal := by decide

theorem exists_outcome_discover_crowdedTree : ∃ c,
    (Catalog.discover crowdedTree ⟨"/docs"⟩ ⟨"/site"⟩ true []).outcome = .ok c ∧
      c.files = ["...md", "LICENSE", "LICENSE.md"].map fun srcUri =>
        .ofPath ⟨srcUri⟩ ⟨"/docs"⟩ ⟨"/site"⟩ true := by
  have hdocs : crowdedTree.locate ⟨"/docs"⟩ = .ok (["docs"], .directory) :=
    FileSystem.locate_eq_ok_of_follow [] ["", "docs"] (by decide +kernel) (by cbv)
  have hdots : crowdedTree.locate ((Path.mk "/docs").join ⟨"...md"⟩) =
      .ok (["docs", "...md"], .file ⟨#[]⟩ 0) :=
    FileSystem.locate_eq_ok_of_follow [] ["", "docs", "...md"] (by decide +kernel) (by cbv)
  have hplain : crowdedTree.locate ((Path.mk "/docs").join ⟨"LICENSE"⟩) =
      .ok (["docs", "LICENSE"], .file ⟨#[]⟩ 0) :=
    FileSystem.locate_eq_ok_of_follow [] ["", "docs", "LICENSE"] (by decide +kernel) (by cbv)
  have hpage : crowdedTree.locate ((Path.mk "/docs").join ⟨"LICENSE.md"⟩) =
      .ok (["docs", "LICENSE.md"], .file ⟨#[]⟩ 0) :=
    FileSystem.locate_eq_ok_of_follow [] ["", "docs", "LICENSE.md"] (by decide +kernel) (by cbv)
  refine exists_discover_of_files hdocs (by decide +kernel) (fun name hname => ?_)
    (by decide +kernel) (by decide) _ _
  obtain rfl | rfl | rfl : name = "...md" ∨ name = "LICENSE" ∨ name = "LICENSE.md" := by
    simpa using hname
  · exact ⟨_, _, _, hdots⟩
  · exact ⟨_, _, _, hplain⟩
  · exact ⟨_, _, _, hpage⟩

/-- The page `...md` is written beside the site. -/
theorem exists_discovered_beside_site : ∃ c,
    (Catalog.discover crowdedTree ⟨"/docs"⟩ ⟨"/site"⟩ true []).outcome = .ok c ∧
      ∃ f ∈ c.files, f.destPath = ⟨"/index.html"⟩ ∧
        ¬ f.destPath.LiesIn (Path.mk "/site").normalize := by
  obtain ⟨c, hdiscover, hfiles⟩ := exists_outcome_discover_crowdedTree
  refine ⟨c, hdiscover, _, by rw [hfiles]; exact List.mem_cons_self .., by decide +kernel, ?_⟩
  have hdest : (SourceFile.ofPath ⟨"...md"⟩ ⟨"/docs"⟩ ⟨"/site"⟩ true).destPath.components =
    [.root, .name "index.html"] := by decide +kernel
  have hsite : (Path.mk "/site").normalize.components.filter (· ≠ .here) =
    [.root, .name "site"] := by decide +kernel
  rintro ⟨names, -, heq⟩
  rw [hdest, hsite] at heq
  simp at heq

/-- Of the three files, the two that are not named by dots are written below the site. -/
theorem liesIn_of_discover_crowdedTree : ∃ c,
    (Catalog.discover crowdedTree ⟨"/docs"⟩ ⟨"/site"⟩ true []).outcome = .ok c ∧
      ∀ f ∈ c.files, f.srcPath.LiesIn (Path.mk "/docs").normalize ∧
        (f.destPath.LiesIn (Path.mk "/site").normalize ↔ f.srcUri ≠ "...md") := by
  obtain ⟨c, hdiscover, hfiles⟩ := exists_outcome_discover_crowdedTree
  refine ⟨c, hdiscover, fun f hf => ?_⟩
  obtain ⟨hsrc, hdest⟩ := liesIn_of_discover hdiscover f hf
  refine ⟨hsrc, hdest.trans (not_congr ?_)⟩
  have hsite : (Path.mk "/site").normalize ≠ ⟨"/"⟩ := by decide +kernel
  have hclimb : ∀ g ∈ c.files, g.ClimbsOut ↔ g.srcUri = "...md" := by
    rw [hfiles]
    decide +kernel
  rw [hclimb f hf]
  exact and_iff_left hsite

end DocSite
