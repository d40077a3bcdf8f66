import Mathlib
import DocSite.Proofs.Discovery.Visits

/-!
# Leaving out on the walk, or afterwards

The walk tries the rules before it goes down: what is below a directory that is left out is
never looked at.  One could also walk the whole tree and try the rules on each path that was
found, on the directories that it passes as well as on the file (`isRetained`).  If the
walk of the whole tree comes to something, the two give the same list
(`outcome_scan_eq_filter`).

Two things could stand against it, and neither does.  Whether a directory is being walked
already depends on the directories above it alone, and these are the same in both walks.
And a `README.md` is dropped for an `index.md` that stands beside it, whether or not a rule
leaves that one out; so no rule brings a `README.md` back.

With more rules the walk comes to fewer directories, so it looks at less and fails in no
other case (`Visits.of_keepsDirectory`).
-/

namespace DocSite

/-- Whether rules leave out what a path from the top leads to; its last piece is its
name. -/
def leavesOut (rules : List ExcludeRule) (path : String) (isDirectory : Bool) : Bool :=
  isExcluded rules (cutLast path).2 path isDirectory

/-- Whether rules retain a file that a path from the top leads to: none of them leaves out a
directory that the path passes, and none the file. -/
def isRetained (rules : List ExcludeRule) (path : String) : Bool :=
  ((pieces path).dropLast.inits.all fun front =>
    front.isEmpty || !leavesOut rules (joined front) true) && !leavesOut rules path false

/-- The texts of rules leave out no directory on the way to a file, and not the file. -/
structure Retains (exclude dirs : List String) (file : String) : Prop where
  directories : ∀ front name rest, dirs = front ++ name :: rest →
    ¬ IsLeftOut exclude name (joined (front ++ [name])) true
  file : ¬ IsLeftOut exclude file (joined (dirs ++ [file])) false

variable {fs : FileSystem} {exclude dirs : List String} {rules : List ExcludeRule} {docs : Path}
  {file : String}

theorem leavesOut_joined_iff (hrules : exclude.mapM ExcludeRule.ofText = .ok rules)
    {names : List String} {name : String} (hlegal : AreLegal (names ++ [name]))
    (isDirectory : Bool) : leavesOut rules (joined (names ++ [name])) isDirectory = true ↔
      IsLeftOut exclude name (joined (names ++ [name])) isDirectory := by
  rw [leavesOut, cutLast_joined hlegal.slashFree, isExcluded_iff hrules]

/-- To ask the path of a file is to ask the names that lead to it. -/
theorem isRetained_joined_iff (hrules : exclude.mapM ExcludeRule.ofText = .ok rules)
    (hlegal : AreLegal (dirs ++ [file])) :
    isRetained rules (joined (dirs ++ [file])) = true ↔ Retains exclude dirs file := by
  have hpieces : pieces (joined (dirs ++ [file])) = dirs ++ [file] :=
    pieces_joined (by simp) hlegal.slashFree
  have hfront : ∀ {front name rest}, dirs = front ++ name :: rest →
      AreLegal (front ++ [name]) := by
    rintro front name rest rfl other hother
    exact hlegal other (List.IsPrefix.subset ⟨rest ++ [file], by simp⟩ hother)
  rw [isRetained, hpieces, List.dropLast_concat, Bool.and_eq_true, List.all_eq_true,
    Bool.not_eq_true', ← Bool.not_eq_true, leavesOut_joined_iff hrules hlegal]
  constructor
  · rintro ⟨hdirs, hfile⟩
    refine ⟨fun front name rest heq => ?_, hfile⟩
    have hinit : front ++ [name] ∈ dirs.inits :=
      (List.mem_inits _ _).2 ⟨rest, by rw [heq]; simp⟩
    rw [← leavesOut_joined_iff hrules (hfront heq)]
    simpa using hdirs _ hinit
  · rintro ⟨hdirs, hfile⟩
    refine ⟨fun front hinit => ?_, hfile⟩
    obtain rfl | ⟨front, name, rfl⟩ := List.eq_nil_or_concat' front
    · rfl
    · obtain ⟨rest, hrest⟩ := (List.mem_inits _ _).1 hinit
      have heq : dirs = front ++ name :: rest := by simpa using hrest.symm
      have hkept := hdirs front name rest heq
      rw [← leavesOut_joined_iff hrules (hfront heq)] at hkept
      simpa using hkept

/-! ## The walk without rules -/

theorem not_isLeftOut_nil {name path : String} {isDirectory : Bool} :
    ¬ IsLeftOut [] name path isDirectory := by
  rintro ⟨_, hmem, -⟩
  exact List.not_mem_nil hmem

theorem keepsDirectory_iff_of_nil {dir : Path} {top : List String} {name : String} :
    KeepsDirectory fs exclude dir top name ↔ KeepsDirectory fs [] dir top name ∧
      ¬ IsLeftOut exclude name (joined (top ++ [name])) true := by
  simp only [KeepsDirectory, not_isLeftOut_nil, not_false_eq_true, and_true]

theorem keepsFile_iff_of_nil {dir : Path} {top : List String} {name : String} :
    KeepsFile fs exclude dir top name ↔ KeepsFile fs [] dir top name ∧
      ¬ IsLeftOut exclude name (joined (top ++ [name])) false := by
  simp only [KeepsFile, not_isLeftOut_nil, not_false_eq_true, true_and]
  rw [and_assoc, and_comm (a := ¬ IsLeftOut exclude name (joined (top ++ [name])) false)]

/-- **What is listed with rules** is what is listed without them and is retained. -/
theorem isListed_iff_retains : IsListed fs exclude docs dirs file ↔
    IsListed fs [] docs dirs file ∧ Retains exclude dirs file := by
  constructor
  · intro h
    exact ⟨⟨fun front name rest heq =>
        (keepsDirectory_iff_of_nil.1 (h.directories front name rest heq)).1,
      (keepsFile_iff_of_nil.1 h.file).1, h.distinct⟩,
      ⟨fun front name rest heq =>
        (keepsDirectory_iff_of_nil.1 (h.directories front name rest heq)).2,
      (keepsFile_iff_of_nil.1 h.file).2⟩⟩
  · rintro ⟨h, hretains⟩
    exact ⟨fun front name rest heq => keepsDirectory_iff_of_nil.2
        ⟨h.directories front name rest heq, hretains.directories front name rest heq⟩,
      keepsFile_iff_of_nil.2 ⟨h.file, hretains.file⟩, h.distinct⟩

/-- The walk that keeps fewer directories comes to fewer. -/
theorem Visits.of_keepsDirectory {fewer : List String}
    (hkeeps : ∀ {dir top name}, KeepsDirectory fs exclude dir top name →
      KeepsDirectory fs fewer dir top name) {opened : List Location} {dir : Path}
    {top : List String} (h : Visits fs exclude opened dir top dirs) :
    Visits fs fewer opened dir top dirs := by
  induction dirs generalizing opened dir top with
  | nil => exact h
  | cons name rest ih =>
    obtain ⟨place, hdir, hnew, hkept, hrest⟩ := h
    exact ⟨place, hdir, hnew, hkeeps hkept, ih hrest⟩

/-- Where the walk without rules comes to something, so does the walk with rules. -/
theorem exists_outcome_scan_of_nil (hrules : exclude.mapM ExcludeRule.ofText = .ok rules)
    {all : List String} (h : (scan fs [] [] docs (joined [])).outcome = .ok all) :
    ∃ found, (scan fs rules [] docs (joined [])).outcome = .ok found := by
  have hnone : ([] : List String).mapM ExcludeRule.ofText = .ok [] := rfl
  obtain ⟨hstart, hall⟩ := (exists_outcome_scan_iff hnone areLegal_nil).1 ⟨all, h⟩
  refine (exists_outcome_scan_iff hrules areLegal_nil).2 ⟨hstart, fun dirs hvisit => ?_⟩
  exact hall dirs (hvisit.of_keepsDirectory fun hkept => (keepsDirectory_iff_of_nil.1 hkept).1)

/-- What is found is the listing. -/
theorem exists_isListing_of_scan (hrules : exclude.mapM ExcludeRule.ofText = .ok rules)
    {found : List String} (h : (scan fs rules [] docs (joined [])).outcome = .ok found) :
    ∃ paths, IsListing fs exclude docs paths ∧ found = paths.map joined := by
  obtain ⟨paths, hfound⟩ := exists_isFound_of_outcome_scan hrules areLegal_nil h
  exact ⟨paths, isListing_of_isFound hfound, hfound.found_eq⟩

/-- **The listing with rules** is the listing without them, filtered. -/
theorem IsListing.filter (hrules : exclude.mapM ExcludeRule.ofText = .ok rules)
    {paths : List (List String)} (h : IsListing fs [] docs paths) :
    IsListing fs exclude docs (paths.filter fun path => isRetained rules (joined path)) where
  ordered := h.ordered.filter _
  mem_iff path := by
    rw [List.mem_filter, h.mem_iff]
    constructor
    · rintro ⟨⟨dirs, file, rfl, hlisted⟩, hretained⟩
      rw [isRetained_joined_iff hrules hlisted.areLegal] at hretained
      exact ⟨dirs, file, rfl, isListed_iff_retains.2 ⟨hlisted, hretained⟩⟩
    · rintro ⟨dirs, file, rfl, hlisted⟩
      obtain ⟨hlisted, hretains⟩ := isListed_iff_retains.1 hlisted
      exact ⟨⟨dirs, file, rfl, hlisted⟩,
        (isRetained_joined_iff hrules hlisted.areLegal).2 hretains⟩

/-- More rules retain less. -/
theorem isRetained_of_subset {fewer : List String} {fewerRules : List ExcludeRule}
    (hrules : exclude.mapM ExcludeRule.ofText = .ok rules)
    (hfewer : fewer.mapM ExcludeRule.ofText = .ok fewerRules) (hsubset : fewer ⊆ exclude)
    {path : String} (h : isRetained rules path = true) : isRetained fewerRules path = true := by
  have hsubrules : fewerRules ⊆ rules := by
    intro rule hrule
    obtain ⟨text, htext, hread⟩ := (mem_iff_of_mapM_eq_ok hfewer rule).1 hrule
    exact (mem_iff_of_mapM_eq_ok hrules rule).2 ⟨text, hsubset htext, hread⟩
  have hleaves : ∀ path isDirectory, leavesOut rules path isDirectory = false →
      leavesOut fewerRules path isDirectory = false := by
    intro path isDirectory hkept
    rw [leavesOut, isExcluded, List.any_eq_false] at hkept ⊢
    exact fun rule hrule => hkept rule (hsubrules hrule)
  simp only [isRetained, Bool.and_eq_true, List.all_eq_true, Bool.or_eq_true,
    Bool.not_eq_true'] at h ⊢
  exact ⟨fun front hfront => (h.1 front hfront).imp_right (hleaves _ _), hleaves _ _ h.2⟩

/-- **To leave out on the walk is to filter afterwards.**  Where the walk without rules comes
to something, the walk with rules does too, and what it finds is what the other one finds,
in the same order, less the files that the rules do not retain.  So fewer rules find as
much, and perhaps more in between. -/
theorem outcome_scan_eq_filter {all : List String}
    (hall : (scan fs [] [] docs "").outcome = .ok all)
    (hrules : exclude.mapM ExcludeRule.ofText = .ok rules) :
    (scan fs rules [] docs "").outcome = .ok (all.filter (isRetained rules)) ∧
    ∀ fewer fewerRules, fewer ⊆ exclude → fewer.mapM ExcludeRule.ofText = .ok fewerRules →
      ∃ found, (scan fs fewerRules [] docs "").outcome = .ok found ∧
        (all.filter (isRetained rules)).Sublist found := by
  rw [← joined_nil] at hall
  have hfilter : ∀ {texts : List String} {rules}, texts.mapM ExcludeRule.ofText = .ok rules →
      (scan fs rules [] docs "").outcome = .ok (all.filter (isRetained rules)) := by
    intro texts rules hrules
    have hnone : ([] : List String).mapM ExcludeRule.ofText = .ok [] := rfl
    obtain ⟨paths, hlisting, hpaths⟩ := exists_isListing_of_scan hnone hall
    obtain ⟨found, hfound⟩ := exists_outcome_scan_of_nil hrules hall
    obtain ⟨kept, hkept, heq⟩ := exists_isListing_of_scan hrules hfound
    obtain rfl := hkept.unique (hlisting.filter hrules)
    rw [← joined_nil, hfound, heq, hpaths, List.filter_map]
    rfl
  refine ⟨hfilter hrules, fun fewer fewerRules hsubset hfewer => ?_⟩
  exact ⟨_, hfilter hfewer, List.monotone_filter_right all fun _ hretained =>
    isRetained_of_subset hrules hfewer hsubset hretained⟩

/-! ## A directory under two names -/

/-- A directory to which a link leads beside it, and in it a link back up. -/
def aliasTree : FileSystem where
  entries := [(["docs"], .directory), (["docs", "index.md"], .file ⟨#[]⟩ 0),
    (["docs", "linked"], .link "shared"), (["docs", "shared"], .directory),
    (["docs", "shared", "page.md"], .file ⟨#[]⟩ 0), (["docs", "shared", "up"], .link "..")]
  cwd := []
  clock := 0
  distinct := by decide
  grounded := by decide
  legal := by decide

theorem locate_aliasTree :
    aliasTree.locate ⟨"/docs"⟩ = .ok (["docs"], .directory) ∧
    aliasTree.locate ((Path.mk "/docs").join ⟨"index.md"⟩) =
      .ok (["docs", "index.md"], .file ⟨#[]⟩ 0) ∧
    ∀ name ∈ ["shared", "linked"],
      aliasTree.locate ((Path.mk "/docs").join ⟨name⟩) = .ok (["docs", "shared"], .directory) ∧
      aliasTree.locate (((Path.mk "/docs").join ⟨name⟩).join ⟨"page.md"⟩) =
        .ok (["docs", "shared", "page.md"], .file ⟨#[]⟩ 0) ∧
      aliasTree.locate (((Path.mk "/docs").join ⟨name⟩).join ⟨"up"⟩) =
        .ok (["docs"], .directory) := by
  refine ⟨FileSystem.locate_eq_ok_of_follow [] ["", "docs"] (by decide +kernel) (by cbv),
    FileSystem.locate_eq_ok_of_follow [] ["", "docs", "index.md"] (by decide +kernel) (by cbv), ?_⟩
  intro name hname
  rcases List.mem_pair.1 hname with rfl | rfl
  · exact ⟨FileSystem.locate_eq_ok_of_follow [] ["", "docs", "shared"] (by decide +kernel) (by cbv),
      FileSystem.locate_eq_ok_of_follow [] ["", "docs", "shared", "page.md"] (by decide +kernel)
        (by cbv),
      FileSystem.locate_eq_ok_of_follow [] ["", "docs", "shared", "up"] (by decide +kernel)
        (by cbv)⟩
  · exact ⟨FileSystem.locate_eq_ok_of_follow [] ["", "docs", "linked"] (by decide +kernel) (by cbv),
      FileSystem.locate_eq_ok_of_follow [] ["", "docs", "linked", "page.md"] (by decide +kernel)
        (by cbv),
      FileSystem.locate_eq_ok_of_follow [] ["", "docs", "linked", "up"] (by decide +kernel)
        (by cbv)⟩

theorem outcome_scan_aliasTree : (scan aliasTree [] [] ⟨"/docs"⟩ "").outcome =
    .ok ["index.md", "linked/page.md", "shared/page.md"] := by
  obtain ⟨hdocs, hindex, hbelow⟩ := locate_aliasTree
  have hwalk : ∀ name ∈ ["linked", "shared"], (scan aliasTree [] [["docs"]]
      ((Path.mk "/docs").join ⟨name⟩) (Url.under "" name)).outcome = .ok [name ++ "/page.md"] := by
    intro name hname
    obtain ⟨hdir, hpage, hup⟩ := hbelow name (by simpa [or_comm] using hname)
    have hclassify : classify aliasTree ((Path.mk "/docs").join ⟨name⟩) ["page.md", "up"] =
        .ok (["page.md"], ["up"]) := by
      simp only [classify, look, List.mapM_cons, List.mapM_nil, hpage, hup]
      rfl
    have hfiles : (keptFiles [] ((Path.mk "/docs").join ⟨name⟩) (Url.under "" name)
        ["page.md"]).outcome = .ok [name ++ "/page.md"] := by
      rw [outcome_keptFiles, List.mergeSort_singleton]
      rcases List.mem_pair.1 hname with rfl | rfl <;> decide +kernel
    have hdirs : keptDirectories [] (Url.under "" name) ["up"] = ["up"] :=
      List.mergeSort_singleton ..
    have hback : (scan aliasTree [] [["docs", "shared"], ["docs"]]
        (((Path.mk "/docs").join ⟨name⟩).join ⟨"up"⟩)
        (Url.under (Url.under "" name) "up")).outcome = .ok [] :=
      outcome_scan_eq_ok_iff.2 ⟨["docs"], .directory, hup, .inl ⟨by decide, rfl⟩⟩
    exact outcome_scan_eq_ok_iff.2 ⟨["docs", "shared"], .directory, hdir, .inr ⟨by decide,
      ["page.md", "up"], by decide, _, _, hclassify, _, hfiles, [[]],
      by rw [hdirs]; exact .cons hback .nil, rfl⟩⟩
  have hclassify : classify aliasTree ⟨"/docs"⟩ ["index.md", "linked", "shared"] =
      .ok (["index.md"], ["linked", "shared"]) := by
    simp only [classify, look, List.mapM_cons, List.mapM_nil, hindex,
      (hbelow "shared" (by simp)).1, (hbelow "linked" (by simp)).1]
    rfl
  have hfiles : (keptFiles [] ⟨"/docs"⟩ "" ["index.md"]).outcome = .ok ["index.md"] := by
    rw [outcome_keptFiles, List.mergeSort_singleton]
    cbv
  have hdirs : keptDirectories [] "" ["linked", "shared"] = ["linked", "shared"] :=
    List.mergeSort_of_pairwise (List.pairwise_pair.2 (by decide))
  exact outcome_scan_eq_ok_iff.2 ⟨["docs"], .directory, hdocs, .inr ⟨by decide,
    ["index.md", "linked", "shared"], by decide, _, _, hclassify, _, hfiles,
    [["linked/page.md"], ["shared/page.md"]],
    by rw [hdirs]; exact .cons (hwalk _ (by simp)) (.cons (hwalk _ (by simp)) .nil), rfl⟩⟩

/-- The rule that leaves out the directory `shared` at the top. -/
def sharedRule : List ExcludeRule :=
  [⟨⟨"shared".toList.map .char⟩, true, true⟩]

/-- The directory that is left out under its name is still found under the name of the link,
and without the rule this is found as well. -/
theorem outcome_scan_aliasTree_sharedRule :
    (scan aliasTree sharedRule [] ⟨"/docs"⟩ "").outcome = .ok ["index.md", "linked/page.md"] ∧
      ∃ found, (scan aliasTree [] [] ⟨"/docs"⟩ "").outcome = .ok found ∧
        ["index.md", "linked/page.md"].Sublist found := by
  have hrules : ["/shared/"].mapM ExcludeRule.ofText = .ok sharedRule := by cbv
  have hnone : ([] : List String).mapM ExcludeRule.ofText = .ok [] := rfl
  have hfilter : ["index.md", "linked/page.md", "shared/page.md"].filter (isRetained sharedRule) =
      ["index.md", "linked/page.md"] := by
    decide +kernel
  obtain ⟨hscan, hfewer⟩ := outcome_scan_eq_filter outcome_scan_aliasTree hrules
  rw [hfilter] at hscan hfewer
  exact ⟨hscan, hfewer [] [] (List.nil_subset _) hnone⟩

end DocSite
