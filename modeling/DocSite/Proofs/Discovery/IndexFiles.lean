import Mathlib
import DocSite.Proofs.Discovery.Visits

/-!
# The two index files of a directory

A file is found when the walk comes to its directory and the file is kept there
(`isListed_iff_visits`), so what is found of one directory can be told by looking at
nothing but this directory (`mem_srcUris_iff_visits`).

For a `README.md` that no rule leaves out this gives one sentence.  It is found unless an
`index.md` stands beside it, and it does not matter whether that one is found
(`readme_or_index_of_discover`): the two are compared as they stand in the directory,
before any rule is tried on the `index.md`.  So a rule that leaves out the `index.md` of a
directory takes both index files from it (`exists_directory_without_index`).
-/

namespace DocSite

variable {fs : FileSystem} {exclude : List String} {docs site : Path} {directoryUrls : Bool}
  {c : Catalog}

/-- What is in a discovered catalog under legal names is what is listed. -/
theorem mem_srcUris_iff_isListed
    (h : (Catalog.discover fs docs site directoryUrls exclude).outcome = .ok c)
    {dirs : List String} {file : String} (hlegal : AreLegal (dirs ++ [file])) :
    joined (dirs ++ [file]) ∈ c.srcUris ↔ IsListed fs exclude docs dirs file := by
  obtain ⟨paths, hlisting, huris, -⟩ := exists_isListing_of_discover h
  rw [huris, List.mem_map]
  constructor
  · rintro ⟨path, hpath, heq⟩
    obtain ⟨dirs', file', rfl, hlisted⟩ := (hlisting.mem_iff path).1 hpath
    obtain ⟨rfl, hfile⟩ := List.append_inj' (joined_inj hlisted.areLegal hlegal (by simp)
      (by simp) heq) rfl
    obtain rfl : file' = file := by simpa using hfile
    exact hlisted
  · intro hlisted
    exact ⟨_, (hlisting.mem_iff _).2 ⟨dirs, file, rfl, hlisted⟩, rfl⟩

/-- **What is found of a directory to which the walk comes** are the files that are kept
there. -/
theorem mem_srcUris_iff_visits
    (h : (Catalog.discover fs docs site directoryUrls exclude).outcome = .ok c)
    {dirs : List String} (hvisit : Visits fs exclude [] docs [] dirs) {file : String}
    (hfile : IsLegalName file) :
    joined (dirs ++ [file]) ∈ c.srcUris ↔ KeepsFile fs exclude (docs.down dirs) dirs file := by
  rw [mem_srcUris_iff_isListed h (hvisit.areLegal.append_singleton hfile), isListed_iff_visits]
  exact and_iff_right hvisit

/-! ## The rule for `README.md` -/

/-- **What becomes of a `README.md`** that no rule leaves out, in a directory to which the
walk comes.  It is found exactly when no `index.md` stands beside it; an `index.md` is
found when it stands there and no rule leaves it out.  So one of the two is found, but not
where an `index.md` stands that a rule leaves out. -/
theorem readme_or_index_of_discover
    (h : (Catalog.discover fs docs site directoryUrls exclude).outcome = .ok c)
    {dirs : List String} (hvisit : Visits fs exclude [] docs [] dirs)
    (hreadme : HasFile fs (docs.down dirs) "README.md")
    (hkept : ¬ IsLeftOut exclude "README.md" (joined (dirs ++ ["README.md"])) false) :
    (joined (dirs ++ ["README.md"]) ∈ c.srcUris ↔ ¬ HasFile fs (docs.down dirs) "index.md") ∧
    (joined (dirs ++ ["index.md"]) ∈ c.srcUris ↔ HasFile fs (docs.down dirs) "index.md" ∧
      ¬ IsLeftOut exclude "index.md" (joined (dirs ++ ["index.md"])) false) ∧
    (joined (dirs ++ ["README.md"]) ∈ c.srcUris ∨ joined (dirs ++ ["index.md"]) ∈ c.srcUris ↔
      ¬ (HasFile fs (docs.down dirs) "index.md" ∧
        IsLeftOut exclude "index.md" (joined (dirs ++ ["index.md"])) false)) := by
  have hfirst : joined (dirs ++ ["README.md"]) ∈ c.srcUris ↔
      ¬ HasFile fs (docs.down dirs) "index.md" := by
    rw [mem_srcUris_iff_visits h hvisit (by decide), KeepsFile, and_iff_right hreadme,
      and_iff_right hkept]
    exact not_congr (and_iff_right rfl)
  have hsecond : joined (dirs ++ ["index.md"]) ∈ c.srcUris ↔
      HasFile fs (docs.down dirs) "index.md" ∧
        ¬ IsLeftOut exclude "index.md" (joined (dirs ++ ["index.md"])) false := by
    have hname : ¬ ("index.md" = "README.md" ∧ HasFile fs (docs.down dirs) "index.md") :=
      fun hboth => absurd hboth.1 (by decide)
    rw [mem_srcUris_iff_visits h hvisit (by decide), KeepsFile, and_iff_left hname]
  refine ⟨hfirst, hsecond, ?_⟩
  rw [hfirst, hsecond]
  by_cases hindex : HasFile fs (docs.down dirs) "index.md" <;> simp [hindex]

/-- Beside the `index.md` of `linkedTree` its `README.md` is not found. -/
theorem exists_readme_linkedTree : ∃ c,
    (Catalog.discover linkedTree ⟨"/docs"⟩ ⟨"/site"⟩ true [".*"]).outcome = .ok c ∧
      HasFile linkedTree ⟨"/docs"⟩ "README.md" ∧ "README.md" ∉ c.srcUris ∧
        "index.md" ∈ c.srcUris := by
  obtain ⟨hdocs, hreadme, hindex⟩ := locate_linkedTree
  have hfile : ∀ name ∈ ["README.md", "index.md"], HasFile linkedTree ⟨"/docs"⟩ name := by
    intro name hname
    rcases List.mem_pair.1 hname with rfl | rfl
    · exact ⟨⟨_, hdocs, by decide⟩, _, _, hreadme, nofun⟩
    · exact ⟨⟨_, hdocs, by decide⟩, _, _, hindex, nofun⟩
  have hkept : ∀ name ∈ ["README.md", "index.md"],
      ¬ IsLeftOut [".*"] name (joined ([] ++ [name])) false := by
    intro name hname
    rw [← isExcluded_iff dotRule_eq, Bool.not_eq_true]
    rcases List.mem_pair.1 hname with rfl | rfl <;> cbv
  have hvisit : Visits linkedTree [".*"] [] ⟨"/docs"⟩ [] [] := ⟨_, hdocs, by simp⟩
  obtain ⟨hdropped, hfound, -⟩ := readme_or_index_of_discover outcome_discover_linkedTree hvisit
    (hfile _ (by simp)) (hkept _ (by simp))
  exact ⟨_, outcome_discover_linkedTree, hfile _ (by simp),
    fun hmem => hdropped.1 hmem (hfile "index.md" (by simp)),
    hfound.2 ⟨hfile _ (by simp), hkept _ (by simp)⟩⟩

/-! ## A rule that leaves out the index file -/

/-- A directory with two index files and nothing else. -/
def indexTree : FileSystem where
  entries := [(["docs"], .directory), (["docs", "README.md"], .file ⟨#[]⟩ 0),
    (["docs", "index.md"], .file ⟨#[]⟩ 0)]
  cwd := []
  clock := 0
  distinct := by decide
  grounded := by decide
  legal := by decide

/-- The rule that leaves out `index.md`. -/
def indexRule : List ExcludeRule :=
  [⟨⟨"index.md".toList.map .char⟩, false, false⟩]

theorem locate_indexTree :
    indexTree.locate ⟨"/docs"⟩ = .ok (["docs"], .directory) ∧
    indexTree.locate ((Path.mk "/docs").join ⟨"README.md"⟩) =
      .ok (["docs", "README.md"], .file ⟨#[]⟩ 0) ∧
    indexTree.locate ((Path.mk "/docs").join ⟨"index.md"⟩) =
      .ok (["docs", "index.md"], .file ⟨#[]⟩ 0) :=
  ⟨FileSystem.locate_eq_ok_of_follow [] ["", "docs"] (by decide +kernel) (by cbv),
    FileSystem.locate_eq_ok_of_follow [] ["", "docs", "README.md"] (by decide +kernel) (by cbv),
    FileSystem.locate_eq_ok_of_follow [] ["", "docs", "index.md"] (by decide +kernel) (by cbv)⟩

theorem hasFile_indexTree : HasFile indexTree ⟨"/docs"⟩ "README.md" ∧
    HasFile indexTree ⟨"/docs"⟩ "index.md" := by
  obtain ⟨hdocs, hreadme, hindex⟩ := locate_indexTree
  exact ⟨⟨⟨_, hdocs, by decide⟩, _, _, hreadme, nofun⟩,
    ⟨_, hdocs, by decide⟩, _, _, hindex, nofun⟩

theorem visits_indexTree (exclude : List String) :
    Visits indexTree exclude [] ⟨"/docs"⟩ [] [] :=
  ⟨_, locate_indexTree.1, List.not_mem_nil⟩

/-- What is found of the two index files is what is kept of them. -/
theorem outcome_scan_indexTree {rules : List ExcludeRule} {kept : List String}
    (hkept : (keptFiles rules ⟨"/docs"⟩ (joined []) ["README.md", "index.md"]).outcome = .ok kept) :
    (scan indexTree rules [] ⟨"/docs"⟩ (joined [])).outcome = .ok kept := by
  have hclassify : classify indexTree ⟨"/docs"⟩ ["README.md", "index.md"] =
      .ok (["README.md", "index.md"], []) := by
    simp only [classify, look, List.mapM_cons, List.mapM_nil, locate_indexTree.2.1,
      locate_indexTree.2.2]
    rfl
  have hdirs : keptDirectories rules (joined []) [] = [] := by
    rw [keptDirectories, List.filter_nil, List.mergeSort_nil]
  exact outcome_scan_eq_ok_iff.2 ⟨["docs"], .directory, locate_indexTree.1, .inr ⟨by decide,
    ["README.md", "index.md"], by decide, _, _, hclassify, _, hkept, [],
    by rw [hdirs]; exact .nil, List.append_nil kept⟩⟩

/-- Of two index files one is left out by a rule and the other one because of the first. -/
theorem exists_directory_without_index : ∃ c,
    (Catalog.discover indexTree ⟨"/docs"⟩ ⟨"/site"⟩ true ["index.md"]).outcome = .ok c ∧
      Visits indexTree ["index.md"] [] ⟨"/docs"⟩ [] [] ∧
      HasFile indexTree ⟨"/docs"⟩ "README.md" ∧
      ¬ IsLeftOut ["index.md"] "README.md" "README.md" false ∧
      "README.md" ∉ c.srcUris ∧ "index.md" ∉ c.srcUris := by
  have hrules : ["index.md"].mapM ExcludeRule.ofText = .ok indexRule := by cbv
  have hkept : (keptFiles indexRule ⟨"/docs"⟩ (joined []) ["README.md", "index.md"]).outcome =
      .ok [] := by
    rw [outcome_keptFiles]
    cbv
  refine ⟨_, outcome_discover_eq_ok_iff.2 ⟨_, hrules, _, outcome_scan_indexTree hkept, rfl⟩,
    visits_indexTree _, hasFile_indexTree.1, ?_, ?_, ?_⟩
  · rw [← isExcluded_iff hrules, Bool.not_eq_true]
    cbv
  · exact List.not_mem_nil
  · exact List.not_mem_nil

end DocSite
