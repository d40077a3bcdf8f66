import Mathlib
import DocSite.Proofs.Catalog.Lookup
import DocSite.Proofs.Discovery.Walk

/-!
# The files that are found below a directory

`IsListed` says which files below a directory are found, in terms of the file
system and of the exclude texts alone: a file is found under the names that lead
to it when each of them but the last is a directory that is walked, the last is a
file that is kept, and no directory on the way is one that is already being
walked.  Neither the recursion of the walk nor the order in which directories are
listed occurs in it.

There is one list of these paths in the order of `Before`, the listing
(`IsListing.unique`).  The walk finds them step by step (`Listed`), and all steps
at once say what `IsListed` says (`listed_iff_isListed`); so discovery finds the
listing (`isListing_of_discover`).
-/

namespace DocSite

/-- The path that is reached from a directory by names, one after the other. -/
def Path.down (dir : Path) (names : List String) : Path :=
  names.foldl (fun path name => path.join ⟨name⟩) dir

@[simp] theorem Path.down_nil (dir : Path) : dir.down [] = dir := rfl

@[simp] theorem Path.down_cons (dir : Path) (name : String) (names : List String) :
    dir.down (name :: names) = (dir.join ⟨name⟩).down names := rfl

/-- Where the directories lead that are passed on the way down by names, from the
one at the top to the last. -/
def passed (fs : FileSystem) (dir : Path) (names : List String) :
    List (Except OsError (Location × Entry)) :=
  names.inits.map fun front => fs.locate (dir.down front)

@[simp] theorem passed_nil (fs : FileSystem) (dir : Path) :
    passed fs dir [] = [fs.locate dir] := rfl

@[simp] theorem passed_cons (fs : FileSystem) (dir : Path) (name : String) (names : List String) :
    passed fs dir (name :: names) = fs.locate dir :: passed fs (dir.join ⟨name⟩) names := by
  simp [passed, Function.comp_def]

/-- A file is found below a directory under the names that lead to it. -/
structure IsListed (fs : FileSystem) (exclude : List String) (docs : Path) (dirs : List String)
    (file : String) : Prop where
  /-- Each directory on the way is walked. -/
  directories : ∀ front name rest, dirs = front ++ name :: rest →
    KeepsDirectory fs exclude (docs.down front) front name
  /-- The file is kept. -/
  file : KeepsFile fs exclude (docs.down dirs) dirs file
  /-- The directories from the top to the last one are different places. -/
  distinct : (passed fs docs dirs).Nodup

/-- Paths are all the files that are found below a directory, in order. -/
structure IsListing (fs : FileSystem) (exclude : List String) (docs : Path)
    (paths : List (List String)) : Prop where
  ordered : paths.Pairwise Before
  mem_iff : ∀ path, path ∈ paths ↔ ∃ dirs file, path = dirs ++ [file] ∧
    IsListed fs exclude docs dirs file

/-- There is one listing of a directory. -/
theorem IsListing.unique {fs : FileSystem} {exclude : List String} {docs : Path}
    {paths others : List (List String)} (h : IsListing fs exclude docs paths)
    (h' : IsListing fs exclude docs others) : paths = others :=
  eq_of_pairwise_before h.ordered h'.ordered fun path =>
    (h.mem_iff path).trans (h'.mem_iff path).symm

variable {fs : FileSystem} {exclude : List String}

/-! ## All steps at once -/

/-- What is found step by step under names, all at once. -/
structure IsListedFrom (fs : FileSystem) (exclude : List String) (opened : List Location)
    (dir : Path) (top dirs : List String) (file : String) : Prop where
  directories : ∀ front name rest, dirs = front ++ name :: rest →
    KeepsDirectory fs exclude (dir.down front) (top ++ front) name
  file : KeepsFile fs exclude (dir.down dirs) (top ++ dirs) file
  distinct : (passed fs dir dirs).Nodup
  unopened : ∀ place ∈ opened, Except.ok (place, .directory) ∉ passed fs dir dirs

theorem isListedFrom_nil_iff {opened : List Location} {dir : Path} {top : List String}
    {file : String} : IsListedFrom fs exclude opened dir top [] file ↔
      ∃ place, fs.locate dir = .ok (place, .directory) ∧ place ∉ opened ∧
        KeepsFile fs exclude dir top file := by
  constructor
  · intro h
    have hkept : KeepsFile fs exclude dir top file := by simpa using h.file
    obtain ⟨place, hdir, -⟩ := hkept.1.1
    exact ⟨place, hdir, fun hopen => h.unopened place hopen (by simp [hdir]), hkept⟩
  · rintro ⟨place, hdir, hnew, hkept⟩
    exact {
      directories := by simp
      file := by simpa using hkept
      distinct := by simp
      unopened := by
        intro other hother hmem
        rw [passed_nil, List.mem_singleton, hdir] at hmem
        obtain ⟨rfl, -⟩ := Prod.mk.inj (Except.ok.inj hmem)
        exact hnew hother }

theorem isListedFrom_cons_iff {opened : List Location} {dir : Path} {top rest : List String}
    {name file : String} : IsListedFrom fs exclude opened dir top (name :: rest) file ↔
      ∃ place, fs.locate dir = .ok (place, .directory) ∧ place ∉ opened ∧
        KeepsDirectory fs exclude dir top name ∧
        IsListedFrom fs exclude (place :: opened) (dir.join ⟨name⟩) (top ++ [name]) rest file := by
  constructor
  · intro h
    have hkept : KeepsDirectory fs exclude dir top name := by
      simpa using h.directories [] name rest rfl
    obtain ⟨place, hdir, -⟩ := hkept.1.1
    have hdistinct := h.distinct
    rw [passed_cons, hdir] at hdistinct
    obtain ⟨hplace, hdistinct⟩ := List.nodup_cons.1 hdistinct
    refine ⟨place, hdir, fun hopen => h.unopened place hopen (by simp [hdir]), hkept, {
      directories := fun front next others heq => by
        simpa using h.directories (name :: front) next others (by rw [heq]; rfl)
      file := by simpa using h.file
      distinct := hdistinct
      unopened := fun other hother hmem => ?_ }⟩
    rcases List.mem_cons.1 hother with rfl | hother
    · exact hplace hmem
    · exact h.unopened other hother (by simp [hmem])
  · rintro ⟨place, hdir, hnew, hkept, h⟩
    refine {
      directories := fun front next others heq => ?_
      file := by simpa using h.file
      distinct := ?_
      unopened := fun other hother hmem => ?_ }
    · rcases List.cons_eq_append_iff.1 heq with ⟨rfl, hfirst⟩ | ⟨front, rfl, hothers⟩
      · obtain ⟨rfl, -⟩ := List.cons.inj hfirst
        simpa using hkept
      · simpa using h.directories front next others hothers
    · rw [passed_cons, hdir]
      exact List.nodup_cons.2 ⟨h.unopened place (by simp), h.distinct⟩
    · rw [passed_cons, hdir] at hmem
      rcases List.mem_cons.1 hmem with heq | hmem
      · obtain ⟨rfl, -⟩ := Prod.mk.inj (Except.ok.inj heq)
        exact hnew hother
      · exact h.unopened other (List.mem_cons_of_mem _ hother) hmem

theorem listed_iff_isListedFrom {opened : List Location} {dir : Path} {top dirs : List String}
    {file : String} : Listed fs exclude opened dir top (dirs ++ [file]) ↔
      IsListedFrom fs exclude opened dir top dirs file := by
  induction dirs generalizing opened dir top with
  | nil =>
    rw [isListedFrom_nil_iff]
    exact Iff.rfl
  | cons name rest ih =>
    rw [List.cons_append, listed_cons_iff name (by simp), isListedFrom_cons_iff]
    simp only [ih]

theorem listed_iff_isListed {docs : Path} {dirs : List String} {file : String} :
    Listed fs exclude [] docs [] (dirs ++ [file]) ↔ IsListed fs exclude docs dirs file := by
  rw [listed_iff_isListedFrom]
  exact ⟨fun h => ⟨h.directories, h.file, h.distinct⟩,
    fun h => ⟨h.directories, h.file, h.distinct, by simp⟩⟩

theorem IsListed.areLegal {docs : Path} {dirs : List String} {file : String}
    (h : IsListed fs exclude docs dirs file) : AreLegal (dirs ++ [file]) :=
  (listed_iff_isListed.2 h).areLegal

/-- The directories that are passed do not depend on the order of listing. -/
theorem FileSystem.SameEntries.passed {other : FileSystem} (h : fs.SameEntries other) (dir : Path)
    (names : List String) : passed other dir names = DocSite.passed fs dir names := by
  simp only [DocSite.passed, h.locate]

theorem IsListed.of_sameEntries {other : FileSystem} (hsame : fs.SameEntries other) {docs : Path}
    {dirs : List String} {file : String} (h : IsListed other exclude docs dirs file) :
    IsListed fs exclude docs dirs file where
  directories front name rest heq :=
    (hsame.keepsDirectory _ _ _).1 (h.directories front name rest heq)
  file := (hsame.keepsFile _ _ _).1 h.file
  distinct := hsame.passed docs dirs ▸ h.distinct

theorem IsListing.of_sameEntries {other : FileSystem} (hsame : fs.SameEntries other)
    {docs : Path} {paths : List (List String)} (h : IsListing other exclude docs paths) :
    IsListing fs exclude docs paths where
  ordered := h.ordered
  mem_iff path := by
    rw [h.mem_iff]
    exact exists_congr fun dirs => exists_congr fun file => and_congr Iff.rfl
      ⟨fun hlisted => hlisted.of_sameEntries hsame,
        fun hlisted => hlisted.of_sameEntries hsame.symm⟩

theorem isListing_of_isFound {docs : Path} {found : List String} {paths : List (List String)}
    (h : IsFound fs exclude [] docs [] found paths) : IsListing fs exclude docs paths where
  ordered := h.ordered
  mem_iff path := by
    rw [h.mem_iff]
    constructor
    · intro hlisted
      obtain heq | ⟨dirs, file, rfl⟩ := List.eq_nil_or_concat' path
      · exact absurd heq hlisted.ne_nil
      · exact ⟨dirs, file, rfl, listed_iff_isListed.1 hlisted⟩
    · rintro ⟨dirs, file, rfl, hlisted⟩
      exact listed_iff_isListed.2 hlisted

/-! ## What discovery makes of it -/

theorem outcome_discover_eq_ok_iff {docs site : Path} {directoryUrls : Bool} {c : Catalog} :
    (Catalog.discover fs docs site directoryUrls exclude).outcome = .ok c ↔
      ∃ rules, exclude.mapM ExcludeRule.ofText = .ok rules ∧
        ∃ found, (scan fs rules [] docs (joined [])).outcome = .ok found ∧
          (Catalog.ofFiles (found.map fun srcUri =>
            .ofPath ⟨srcUri⟩ docs site directoryUrls)).value = c := by
  simp only [Catalog.discover, Finding.outcome_bind, bind_eq_ok_iff, Finding.outcome_liftExcept,
    Finding.outcome_report, Finding.outcome_lift, Except.ok.injEq, exists_const, joined_nil,
    true_and]

/-- Discovery keeps every path that the walk has found, and each under its name. -/
theorem exists_isListing_of_discover {docs site : Path} {directoryUrls : Bool} {c : Catalog}
    (h : (Catalog.discover fs docs site directoryUrls exclude).outcome = .ok c) :
    ∃ paths, IsListing fs exclude docs paths ∧ c.srcUris = paths.map joined ∧
      c.files = paths.map fun path => .ofPath ⟨joined path⟩ docs site directoryUrls := by
  obtain ⟨rules, hrules, found, hscan, rfl⟩ := outcome_discover_eq_ok_iff.1 h
  obtain ⟨paths, hfound⟩ := exists_isFound_of_outcome_scan hrules areLegal_nil hscan
  have hfiles : (found.map fun srcUri => SourceFile.ofPath ⟨srcUri⟩ docs site directoryUrls) =
      paths.map fun path => .ofPath ⟨joined path⟩ docs site directoryUrls := by
    rw [hfound.found_eq, List.map_map]
    rfl
  have hlisted : ∀ path ∈ paths, AreLegal path ∧ path ≠ [] := fun path hpath =>
    have hpath := (hfound.mem_iff path).1 hpath
    ⟨hpath.areLegal, hpath.ne_nil⟩
  have huris : (paths.map fun path => SourceFile.ofPath ⟨joined path⟩ docs site directoryUrls).map
      SourceFile.srcUri = paths.map joined := by
    rw [List.map_map]
    exact List.map_congr_left fun path hpath =>
      portable_joined (hlisted path hpath).1 (hlisted path hpath).2
  have hnodup : (paths.map joined).Nodup :=
    (nodup_of_pairwise_before hfound.ordered).map_on fun path hpath other hother heq =>
      joined_inj (hlisted path hpath).1 (hlisted other hother).1 (hlisted path hpath).2
        (hlisted other hother).2 heq
  rw [Catalog.srcUris, hfiles, Catalog.files_value_ofFiles (huris ▸ hnodup)]
  exact ⟨paths, isListing_of_isFound hfound, huris, rfl⟩

/-- Discovery comes to something whatever the order. -/
theorem exists_discover_of_sameEntries {other : FileSystem} (hsame : fs.SameEntries other)
    {docs site : Path} {directoryUrls : Bool} {c : Catalog}
    (h : (Catalog.discover fs docs site directoryUrls exclude).outcome = .ok c) :
    ∃ c', (Catalog.discover other docs site directoryUrls exclude).outcome = .ok c' := by
  obtain ⟨rules, hrules, found, hscan, -⟩ := outcome_discover_eq_ok_iff.1 h
  obtain ⟨found', hscan'⟩ := exists_outcome_scan_of_sameEntries hsame hrules areLegal_nil hscan
  exact ⟨_, outcome_discover_eq_ok_iff.2 ⟨rules, hrules, found', hscan', rfl⟩⟩

/-- **Discovery finds the listing.**  If it comes to something, the files of the
catalog are the listing of the directory, each path once and in order, and each
file has its path as its name.  In whatever order the directories are listed, it
comes to something and to the same files. -/
theorem isListing_of_discover {docs site : Path} {directoryUrls : Bool} {c : Catalog}
    (h : (Catalog.discover fs docs site directoryUrls exclude).outcome = .ok c) :
    (∃ paths, IsListing fs exclude docs paths ∧ c.srcUris = paths.map joined ∧
      c.files = paths.map fun path => .ofPath ⟨joined path⟩ docs site directoryUrls) ∧
    c.srcUris.Nodup ∧
    ∀ other, fs.SameEntries other → ∃ c',
      (Catalog.discover other docs site directoryUrls exclude).outcome = .ok c' ∧
        c'.files = c.files := by
  obtain ⟨paths, hlisting, huris, hfiles⟩ := exists_isListing_of_discover h
  refine ⟨⟨paths, hlisting, huris, hfiles⟩, c.distinct, fun other hsame => ?_⟩
  obtain ⟨c', h'⟩ := exists_discover_of_sameEntries hsame h
  obtain ⟨others, hlisting', -, hfiles'⟩ := exists_isListing_of_discover h'
  obtain rfl := hlisting.unique (hlisting'.of_sameEntries hsame)
  exact ⟨c', h', hfiles'.trans hfiles.symm⟩

/-- A directory with a link back up, and two index files of which one is left out. -/
def linkedTree : FileSystem where
  entries := [(["docs"], .directory), (["docs", "README.md"], .file ⟨#[]⟩ 0),
    (["docs", "guide"], .directory), (["docs", "guide", "up"], .link ".."),
    (["docs", "guide", "setup.md"], .file ⟨#[]⟩ 0), (["docs", "index.md"], .file ⟨#[]⟩ 0)]
  cwd := []
  clock := 0
  distinct := by decide
  grounded := by decide
  legal := by decide

/-- The rule that leaves out what starts with a dot. -/
def dotRule : List ExcludeRule :=
  [⟨⟨[.char '.', .anySequence]⟩, false, false⟩]

theorem dotRule_eq : [".*"].mapM ExcludeRule.ofText = .ok dotRule := by
  decide +kernel

theorem locate_linkedTree :
    linkedTree.locate ⟨"/docs"⟩ = .ok (["docs"], .directory) ∧
    linkedTree.locate ((Path.mk "/docs").join ⟨"README.md"⟩) =
      .ok (["docs", "README.md"], .file ⟨#[]⟩ 0) ∧
    linkedTree.locate ((Path.mk "/docs").join ⟨"index.md"⟩) =
      .ok (["docs", "index.md"], .file ⟨#[]⟩ 0) :=
  ⟨FileSystem.locate_eq_ok_of_follow [] ["", "docs"] (by decide +kernel) (by cbv),
    FileSystem.locate_eq_ok_of_follow [] ["", "docs", "README.md"] (by decide +kernel) (by cbv),
    FileSystem.locate_eq_ok_of_follow [] ["", "docs", "index.md"] (by decide +kernel) (by cbv)⟩

theorem scan_linkedTree : (scan linkedTree dotRule [] ⟨"/docs"⟩ (joined [])).outcome =
    .ok ["index.md", "guide/setup.md"] := by
  obtain ⟨hdocs, hreadme, hindex⟩ := locate_linkedTree
  have hguide : linkedTree.locate ((Path.mk "/docs").join ⟨"guide"⟩) =
      .ok (["docs", "guide"], .directory) :=
    FileSystem.locate_eq_ok_of_follow [] ["", "docs", "guide"] (by decide +kernel) (by cbv)
  have hup : linkedTree.locate (((Path.mk "/docs").join ⟨"guide"⟩).join ⟨"up"⟩) =
      .ok (["docs"], .directory) :=
    FileSystem.locate_eq_ok_of_follow [] ["", "docs", "guide", "up"] (by decide +kernel) (by cbv)
  have hsetup : linkedTree.locate (((Path.mk "/docs").join ⟨"guide"⟩).join ⟨"setup.md"⟩) =
      .ok (["docs", "guide", "setup.md"], .file ⟨#[]⟩ 0) :=
    FileSystem.locate_eq_ok_of_follow [] ["", "docs", "guide", "setup.md"] (by decide +kernel)
      (by cbv)
  have hbelowUp : (scan linkedTree dotRule [["docs", "guide"], ["docs"]]
      (((Path.mk "/docs").join ⟨"guide"⟩).join ⟨"up"⟩)
      (Url.under (Url.under (joined []) "guide") "up")).outcome = .ok [] :=
    outcome_scan_eq_ok_iff.2 ⟨["docs"], .directory, hup, .inl ⟨by decide, rfl⟩⟩
  have hfilesGuide : (keptFiles dotRule ((Path.mk "/docs").join ⟨"guide"⟩)
      (Url.under (joined []) "guide") ["setup.md"]).outcome = .ok ["guide/setup.md"] := by
    rw [outcome_keptFiles, List.mergeSort_singleton]
    decide +kernel
  have hdirsGuide : keptDirectories dotRule (Url.under (joined []) "guide") ["up"] = ["up"] := by
    rw [keptDirectories, List.filter_cons_of_pos (by decide +kernel), List.filter_nil,
      List.mergeSort_singleton]
  have hclassifyGuide : classify linkedTree ((Path.mk "/docs").join ⟨"guide"⟩) ["up", "setup.md"] =
      .ok (["setup.md"], ["up"]) := by
    simp only [classify, look, List.mapM_cons, List.mapM_nil, hup, hsetup]
    rfl
  have hbelowGuide : (scan linkedTree dotRule [["docs"]] ((Path.mk "/docs").join ⟨"guide"⟩)
      (Url.under (joined []) "guide")).outcome = .ok ["guide/setup.md"] :=
    outcome_scan_eq_ok_iff.2 ⟨["docs", "guide"], .directory, hguide, .inr ⟨by decide,
      ["up", "setup.md"], by decide +kernel, _, _, hclassifyGuide, _, hfilesGuide, [[]],
      by rw [hdirsGuide]; exact .cons hbelowUp .nil, rfl⟩⟩
  have hfiles : (keptFiles dotRule ⟨"/docs"⟩ (joined []) ["README.md", "index.md"]).outcome =
      .ok ["index.md"] := by
    rw [outcome_keptFiles]
    cbv
  have hdirs : keptDirectories dotRule (joined []) ["guide"] = ["guide"] := by
    rw [keptDirectories, List.filter_cons_of_pos (by decide +kernel), List.filter_nil,
      List.mergeSort_singleton]
  have hclassify : classify linkedTree ⟨"/docs"⟩ ["README.md", "guide", "index.md"] =
      .ok (["README.md", "index.md"], ["guide"]) := by
    simp only [classify, look, List.mapM_cons, List.mapM_nil, hreadme, hguide, hindex]
    rfl
  exact outcome_scan_eq_ok_iff.2 ⟨["docs"], .directory, hdocs, .inr ⟨by decide,
      ["README.md", "guide", "index.md"], by decide +kernel, _, _, hclassify, _, hfiles,
      [["guide/setup.md"]], by rw [hdirs]; exact .cons hbelowGuide .nil, rfl⟩⟩

theorem outcome_discover_linkedTree :
    (Catalog.discover linkedTree ⟨"/docs"⟩ ⟨"/site"⟩ true [".*"]).outcome =
      .ok (Catalog.ofFiles (["index.md", "guide/setup.md"].map fun srcUri =>
        .ofPath ⟨srcUri⟩ ⟨"/docs"⟩ ⟨"/site"⟩ true)).value :=
  outcome_discover_eq_ok_iff.2 ⟨_, dotRule_eq, _, scan_linkedTree, rfl⟩

theorem exists_isListing_linkedTree : ∃ c,
    (Catalog.discover linkedTree ⟨"/docs"⟩ ⟨"/site"⟩ true [".*"]).outcome = .ok c ∧
      c.srcUris = ["index.md", "guide/setup.md"] ∧
      ∃ paths, IsListing linkedTree [".*"] ⟨"/docs"⟩ paths ∧ c.srcUris = paths.map joined := by
  obtain ⟨⟨paths, hlisting, huris, -⟩, -⟩ := isListing_of_discover outcome_discover_linkedTree
  exact ⟨_, outcome_discover_linkedTree, by decide +kernel, paths, hlisting, huris⟩

end DocSite
