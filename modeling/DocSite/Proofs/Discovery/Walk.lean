import DocSite.Proofs.Discovery.Directory

/-!
# The walk

The walk goes down from a directory and keeps track of the places that are being
walked.  `Listed` says step by step what is found: a path of one name is a file
that is kept, and a longer path goes through a directory that is kept, with one
more place being walked.

Every step down opens one more directory, so there is an induction over the steps
(`scan_induction`).  By it the walk finds the paths that `Listed` allows, in order
(`exists_isFound_of_outcome_scan`), and whether it comes to something does not
depend on the order in which directories are listed
(`exists_outcome_scan_of_sameEntries`).
-/

namespace DocSite

/-- What is found below a directory, reached from the top by given names, while
some places are being walked already. -/
def Listed (fs : FileSystem) (exclude : List String) (opened : List Location) (dir : Path)
    (top : List String) : List String → Prop
  | [] => False
  | [file] => ∃ place, fs.locate dir = .ok (place, .directory) ∧ place ∉ opened ∧
    KeepsFile fs exclude dir top file
  | name :: next :: rest => ∃ place, fs.locate dir = .ok (place, .directory) ∧ place ∉ opened ∧
    KeepsDirectory fs exclude dir top name ∧
    Listed fs exclude (place :: opened) (dir.join ⟨name⟩) (top ++ [name]) (next :: rest)

variable {fs : FileSystem} {exclude : List String}

/-! ## What is found, by steps -/

theorem Listed.areLegal {opened : List Location} {dir : Path} {top : List String} :
    ∀ {path : List String}, Listed fs exclude opened dir top path → AreLegal path
  | [], h => by simp [Listed] at h
  | [file], h => by
    obtain ⟨-, -, -, hkept⟩ := h
    intro name hname
    rw [List.mem_singleton.1 hname]
    exact isLegalName_of_stands hkept.1.1
  | name :: next :: rest, h => by
    obtain ⟨_, -, -, hkept, hrest⟩ := h
    intro other hother
    rcases List.mem_cons.1 hother with rfl | hother
    · exact isLegalName_of_stands hkept.1.1
    · exact Listed.areLegal hrest other hother

theorem listed_cons_iff {opened : List Location} {dir : Path} {top rest : List String}
    (name : String) (hne : rest ≠ []) : Listed fs exclude opened dir top (name :: rest) ↔
      ∃ place, fs.locate dir = .ok (place, .directory) ∧ place ∉ opened ∧
        KeepsDirectory fs exclude dir top name ∧
        Listed fs exclude (place :: opened) (dir.join ⟨name⟩) (top ++ [name]) rest := by
  obtain ⟨next, others, rfl⟩ := List.exists_cons_of_ne_nil hne
  exact Iff.rfl

theorem Listed.ne_nil {opened : List Location} {dir : Path} {top path : List String}
    (h : Listed fs exclude opened dir top path) : path ≠ [] := by
  rintro rfl
  simp [Listed] at h

/-- Nothing is found below a directory that is being walked already. -/
theorem not_listed_of_mem_opened {opened : List Location} {dir : Path} {top path : List String}
    {place : Location} {entry : Entry} (hdir : fs.locate dir = .ok (place, entry))
    (hopen : place ∈ opened) : ¬ Listed fs exclude opened dir top path := by
  intro h
  have hnew : ∀ other, fs.locate dir = .ok (other, .directory) → other ∈ opened := by
    intro other hother
    obtain ⟨rfl, -⟩ := Prod.mk.inj (Except.ok.inj (hdir.symm.trans hother))
    exact hopen
  match path, h with
  | [_], ⟨other, hother, hnot, _⟩ => exact hnot (hnew other hother)
  | _ :: _ :: _, ⟨other, hother, hnot, _⟩ => exact hnot (hnew other hother)

/-- What is found below a directory that is not being walked is a file of it or is
found in one of its directories. -/
theorem listed_iff_of_notMem {opened : List Location} {dir : Path} {top path : List String}
    {place : Location} (hdir : fs.locate dir = .ok (place, .directory)) (hnew : place ∉ opened) :
    Listed fs exclude opened dir top path ↔
      (∃ file, path = [file] ∧ KeepsFile fs exclude dir top file) ∨
      ∃ name rest, path = name :: rest ∧ KeepsDirectory fs exclude dir top name ∧
        Listed fs exclude (place :: opened) (dir.join ⟨name⟩) (top ++ [name]) rest := by
  have hplace : ∀ other, fs.locate dir = .ok (other, .directory) ↔ other = place := by
    intro other
    simp [hdir, eq_comm]
  match path with
  | [] => simp [Listed]
  | [file] => simp [Listed, hplace, hnew]
  | name :: next :: rest => simp [Listed, hplace, hnew]

/-- What was found below a directory: some texts, which are paths in order. -/
structure IsFound (fs : FileSystem) (exclude : List String) (opened : List Location) (dir : Path)
    (top : List String) (found : List String) (paths : List (List String)) : Prop where
  found_eq : found = paths.map fun path => joined (top ++ path)
  ordered : paths.Pairwise Before
  mem_iff : ∀ path, path ∈ paths ↔ Listed fs exclude opened dir top path

/-- What is found in several directories, one after the other. -/
theorem exists_paths_of_forall₂ {opened : List Location} {dir : Path} {top names : List String}
    {belows : List (List String)}
    (h : List.Forall₂ (fun name below => ∃ paths, IsFound fs exclude opened (dir.join ⟨name⟩)
      (top ++ [name]) below paths) names belows)
    (hsorted : names.Pairwise fun a b => bytes a < bytes b) :
    ∃ paths : List (List String), belows.flatten = paths.map (fun path => joined (top ++ path)) ∧
      paths.Pairwise Before ∧ ∀ path, path ∈ paths ↔ ∃ name ∈ names, ∃ rest, path = name :: rest ∧
        Listed fs exclude opened (dir.join ⟨name⟩) (top ++ [name]) rest := by
  induction h with
  | nil => exact ⟨[], by simp⟩
  | @cons name below names belows hfirst _ ih =>
    obtain ⟨hbefore, hsorted⟩ := List.pairwise_cons.1 hsorted
    obtain ⟨first, hfound⟩ := hfirst
    obtain ⟨others, hothers, hordered, hmem⟩ := ih hsorted
    refine ⟨first.map (name :: ·) ++ others, ?_, ?_, ?_⟩
    · rw [List.flatten_cons, hfound.found_eq, hothers, List.map_append, List.map_map]
      simp [Function.comp_def]
    · refine List.pairwise_append.2 ⟨hfound.ordered.map _ fun _ _ => Before.cons name, hordered, ?_⟩
      intro path hpath other hother
      obtain ⟨rest, hrest, rfl⟩ := List.mem_map.1 hpath
      obtain ⟨name', hname', rest', rfl, hlisted⟩ := (hmem other).1 hother
      exact before_cons_of_bytes_lt (hbefore name' hname') ((hfound.mem_iff rest).1 hrest).ne_nil
        hlisted.ne_nil
    · intro path
      rw [List.mem_append, List.mem_map, hmem, List.exists_mem_cons_iff]
      simp only [hfound.mem_iff, and_comm, eq_comm]

/-- **One step of the walk**, when it comes to something: a directory that is being
walked already has nothing, and any other has its own files and what is found in
its directories. -/
theorem outcome_scan_eq_ok_iff {rules : List ExcludeRule} {opened : List Location} {dir : Path}
    {fromTop : String} {found : List String} :
    (scan fs rules opened dir fromTop).outcome = .ok found ↔
      ∃ place entry, fs.locate dir = .ok (place, entry) ∧
        (place ∈ opened ∧ [] = found ∨
          place ∉ opened ∧ ∃ names, fs.namesIn? place = some names ∧
            ∃ files dirs, classify fs dir names = .ok (files, dirs) ∧
              ∃ kept, (keptFiles rules dir fromTop files).outcome = .ok kept ∧
                ∃ belows, List.Forall₂ (fun name below => (scan fs rules (place :: opened)
                    (dir.join ⟨name⟩) (Url.under fromTop name)).outcome = .ok below)
                    (keptDirectories rules fromTop dirs) belows ∧
                  kept ++ belows.flatten = found) := by
  rw [scan, Finding.outcome_bind, bind_eq_ok_iff, Finding.outcome_liftExcept, Prod.exists]
  refine exists_congr fun place => exists_congr fun entry =>
    and_congr atPath_eq_ok_iff ?_
  dsimp only
  split
  · rename_i hopen
    simp only [Finding.outcome_bind, bind_eq_ok_iff, Finding.outcome_report,
      Finding.outcome_pure, Except.ok.injEq, exists_const, hopen, not_true_eq_false, false_and,
      or_false, true_and]
  · rename_i hnew
    split
    · rename_i hnames
      simp [hnew, hnames]
    · rename_i names hnames
      simp only [Finding.outcome_bind, bind_eq_ok_iff, Finding.outcome_liftExcept, Prod.exists,
        Finding.outcome_mapM, mapM_eq_ok_iff, Finding.outcome_pure, Except.ok.injEq, hnames,
        Option.some.injEq, exists_eq_left', hnew, false_and, false_or, not_false_eq_true, true_and]

/-- **What holds of every step of the walk holds of what it comes to.**  The walk
ends because each step down opens one more directory. -/
theorem scan_induction {rules : List ExcludeRule}
    (hrules : exclude.mapM ExcludeRule.ofText = .ok rules)
    {motive : List Location → Path → List String → List String → Prop}
    (hloop : ∀ {opened dir top place entry}, fs.locate dir = .ok (place, entry) →
      place ∈ opened → motive opened dir top [])
    (hstep : ∀ {opened dir top place names files dirs kept belows}, AreLegal top →
      fs.locate dir = .ok (place, .directory) → place ∉ opened →
      fs.namesIn? place = some names → classify fs dir names = .ok (files, dirs) →
      (keptFiles rules dir (joined top) files).outcome = .ok kept →
      List.Forall₂
        (fun name below => motive (place :: opened) (dir.join ⟨name⟩) (top ++ [name]) below)
        (keptDirectories rules (joined top) dirs) belows →
      motive opened dir top (kept ++ belows.flatten))
    {opened : List Location} {dir : Path} {top : List String} (htop : AreLegal top)
    {found : List String} (h : (scan fs rules opened dir (joined top)).outcome = .ok found) :
    motive opened dir top found := by
  induction hlength : (unopened fs opened).length using Nat.strong_induction_on
    generalizing opened dir top found with
  | _ n ih =>
    obtain ⟨place, entry, hdir, ⟨hopen, rfl⟩ | ⟨hnew, names, hnames, files, dirs,
      hclassify, kept, hkept, belows, hbelows, rfl⟩⟩ := outcome_scan_eq_ok_iff.1 h
    · exact hloop hdir hopen
    have hplace := FileSystem.get?_of_namesIn? hnames
    obtain rfl : entry = .directory :=
      Option.some.inj ((FileSystem.get?_of_locate hdir).symm.trans hplace)
    have hsmaller : (unopened fs (place :: opened)).length < n :=
      hlength ▸ length_unopened_cons_lt (FileSystem.mem_directories_of_get? hplace) hnew
    have hlegal : ∀ name ∈ keptDirectories rules (joined top) dirs, AreLegal (top ++ [name]) := by
      intro name hname
      rw [mem_keptDirectories_iff hrules htop (reads_of_classify hdir hnames hclassify)] at hname
      exact htop.append_singleton (isLegalName_of_stands hname.1.1)
    refine hstep htop hdir hnew hnames hclassify hkept
      (((List.forall₂_and_left _ _).2 ⟨hlegal, hbelows⟩).imp ?_)
    rintro name below ⟨hname, hscan⟩
    rw [under_joined htop] at hscan
    exact ih _ hsmaller hname hscan rfl

/-- **What the walk finds** is what may be found, in order. -/
theorem exists_isFound_of_outcome_scan {rules : List ExcludeRule}
    (hrules : exclude.mapM ExcludeRule.ofText = .ok rules) {opened : List Location} {dir : Path}
    {top : List String} (htop : AreLegal top) {found : List String}
    (h : (scan fs rules opened dir (joined top)).outcome = .ok found) :
    ∃ paths, IsFound fs exclude opened dir top found paths := by
  refine scan_induction (motive := fun opened dir top found =>
    ∃ paths, IsFound fs exclude opened dir top found paths) hrules ?_ ?_ htop h
  · intro opened dir top place entry hdir hopen
    exact ⟨[], rfl, .nil, fun path => by simp [not_listed_of_mem_opened hdir hopen]⟩
  · intro opened dir top place names files dirs kept belows htop hdir hnew hnames hclassify hkept
      hbelows
    have hreads := reads_of_classify hdir hnames hclassify
    obtain ⟨keptNames, houtcome, hfiles, hmemFiles⟩ := exists_outcome_keptFiles hrules htop hreads
    obtain rfl := Except.ok.inj (hkept.symm.trans houtcome)
    have hmemDirs := mem_keptDirectories_iff hrules htop hreads
    obtain ⟨others, hothers, hordered, hmemOthers⟩ :=
      exists_paths_of_forall₂ hbelows (pairwise_keptDirectories rules (joined top) hreads)
    refine ⟨keptNames.map (fun file => [file]) ++ others, ?_, ?_, ?_⟩
    · rw [List.map_append, List.map_map, hothers]
      rfl
    · refine List.pairwise_append.2 ⟨hfiles.map _ fun _ _ hbefore => hbefore, hordered, ?_⟩
      intro path hpath other hother
      obtain ⟨file, -, rfl⟩ := List.mem_map.1 hpath
      obtain ⟨name, -, rest, rfl, hlisted⟩ := (hmemOthers other).1 hother
      exact before_singleton_cons file name hlisted.ne_nil
    · intro path
      rw [List.mem_append, List.mem_map, hmemOthers, listed_iff_of_notMem hdir hnew]
      simp only [hmemFiles, hmemDirs]
      grind

/-! ## Whatever the order in which directories are listed -/

section

variable {other : FileSystem}

theorem FileSystem.SameEntries.hasFile (h : fs.SameEntries other) (dir : Path) (name : String) :
    HasFile other dir name ↔ HasFile fs dir name := by
  simp only [HasFile, Stands, h.locate, h.get?]

theorem FileSystem.SameEntries.hasDirectory (h : fs.SameEntries other) (dir : Path)
    (name : String) : HasDirectory other dir name ↔ HasDirectory fs dir name := by
  simp only [HasDirectory, Stands, h.locate, h.get?]

theorem FileSystem.SameEntries.keepsFile (h : fs.SameEntries other) (dir : Path)
    (top : List String) (name : String) :
    KeepsFile other exclude dir top name ↔ KeepsFile fs exclude dir top name := by
  simp only [KeepsFile, h.hasFile]

theorem FileSystem.SameEntries.keepsDirectory (h : fs.SameEntries other) (dir : Path)
    (top : List String) (name : String) :
    KeepsDirectory other exclude dir top name ↔ KeepsDirectory fs exclude dir top name := by
  simp only [KeepsDirectory, h.hasDirectory]

/-- A directory that can be read can be read in any order. -/
theorem FileSystem.SameEntries.exists_classify (h : fs.SameEntries other) {dir : Path}
    {place : Location} {names files dirs : List String} (hnames : fs.namesIn? place = some names)
    (hclassify : classify fs dir names = .ok (files, dirs)) :
    ∃ names' files' dirs', other.namesIn? place = some names' ∧
      classify other dir names' = .ok (files', dirs') := by
  obtain ⟨names', hnames'⟩ :=
    exists_namesIn?_of_get? ((h.get? place).trans (get?_of_namesIn? hnames))
  have hmem : ∀ name, name ∈ names' ↔ name ∈ names := by
    intro name
    rw [mem_namesIn?_iff hnames', mem_namesIn?_iff hnames, h.get?]
  obtain ⟨files', dirs', hclassify'⟩ := exists_classify_eq_ok_iff.2 fun name hname => by
    rw [h.locate]
    exact exists_classify_eq_ok_iff.1 ⟨files, dirs, hclassify⟩ name ((hmem name).1 hname)
  exact ⟨names', files', dirs', hnames', hclassify'⟩

/-- **The walk comes to something whatever the order.** -/
theorem exists_outcome_scan_of_sameEntries (hsame : fs.SameEntries other)
    {rules : List ExcludeRule} (hrules : exclude.mapM ExcludeRule.ofText = .ok rules)
    {opened : List Location} {dir : Path} {top : List String} (htop : AreLegal top)
    {found : List String} (h : (scan fs rules opened dir (joined top)).outcome = .ok found) :
    ∃ found', (scan other rules opened dir (joined top)).outcome = .ok found' := by
  refine scan_induction (motive := fun opened dir top _ =>
    ∃ found', (scan other rules opened dir (joined top)).outcome = .ok found') hrules ?_ ?_ htop h
  · intro opened dir top place entry hdir hopen
    exact ⟨[], outcome_scan_eq_ok_iff.2
      ⟨place, entry, (hsame.locate dir).trans hdir, .inl ⟨hopen, rfl⟩⟩⟩
  · intro opened dir top place names files dirs kept belows htop hdir hnew hnames hclassify _
      hbelows
    have hdir' := (hsame.locate dir).trans hdir
    obtain ⟨names', files', dirs', hnames', hclassify'⟩ := hsame.exists_classify hnames hclassify
    have hreads := reads_of_classify hdir hnames hclassify
    have hreads' := reads_of_classify hdir' hnames' hclassify'
    obtain ⟨kept', hkept', -⟩ := exists_outcome_keptFiles hrules htop hreads'
    have hcomes := ((List.forall₂_and_left (R := fun _ _ => True) _ _).1
      (hbelows.imp fun _ _ hcomes => ⟨hcomes, trivial⟩)).1
    have hbelow : ∀ name ∈ keptDirectories rules (joined top) dirs', ∃ below, (scan other rules
        (place :: opened) (dir.join ⟨name⟩) (Url.under (joined top) name)).outcome = .ok below := by
      intro name hname
      rw [mem_keptDirectories_iff hrules htop hreads', hsame.keepsDirectory,
        ← mem_keptDirectories_iff hrules htop hreads] at hname
      rw [under_joined htop]
      exact hcomes name hname
    obtain ⟨belows', hbelows'⟩ := exists_mapM_eq_ok_iff.2 hbelow
    exact ⟨_, outcome_scan_eq_ok_iff.2 ⟨place, .directory, hdir', .inr ⟨hnew, names', hnames',
      files', dirs', hclassify', _, hkept', belows', mapM_eq_ok_iff.1 hbelows', rfl⟩⟩⟩

end

end DocSite
