import DocSite.Proofs.Discovery.Listing

/-!
# The directories that the walk comes to

What the walk finds is one question, and whether it comes to an end is another.  The
second has a short answer.  The walk comes to a directory by names that are kept
(`Visits`), and there it looks at everything that has a name, through links and before
any rule is tried.  So it fails exactly when the top is no directory or when one of the
names that it looks at leads nowhere (`exists_outcome_scan_iff`).

Nothing else fails: neither a rule that leaves out what was looked at, nor a loop, nor
anything in a directory to which the walk does not come.
-/

namespace DocSite

/-- The walk comes to a directory by names, while some places are being walked
already. -/
def Visits (fs : FileSystem) (exclude : List String) (opened : List Location) (dir : Path)
    (top : List String) : List String → Prop
  | [] => ∃ place, fs.locate dir = .ok (place, .directory) ∧ place ∉ opened
  | name :: rest => ∃ place, fs.locate dir = .ok (place, .directory) ∧ place ∉ opened ∧
    KeepsDirectory fs exclude dir top name ∧
    Visits fs exclude (place :: opened) (dir.join ⟨name⟩) (top ++ [name]) rest

/-- Something leads on from a directory under a name. -/
def LeadsOn (fs : FileSystem) (dir : Path) (name : String) : Prop :=
  ∃ found, fs.locate (dir.join ⟨name⟩) = .ok found

/-- Whatever the walk looks at leads somewhere. -/
def AllLead (fs : FileSystem) (exclude : List String) (opened : List Location) (dir : Path)
    (top : List String) : Prop :=
  ∀ dirs, Visits fs exclude opened dir top dirs → ∀ name, Stands fs (dir.down dirs) name →
    LeadsOn fs (dir.down dirs) name

variable {fs : FileSystem} {exclude : List String} {opened : List Location} {dir : Path}
  {top : List String}

theorem Visits.exists_place {dirs : List String} (h : Visits fs exclude opened dir top dirs) :
    ∃ place, fs.locate (dir.down dirs) = .ok (place, .directory) := by
  induction dirs generalizing opened dir top with
  | nil =>
    obtain ⟨place, hdir, -⟩ := h
    exact ⟨place, hdir⟩
  | cons name rest ih =>
    obtain ⟨place, -, -, -, hrest⟩ := h
    exact ih hrest

/-- A file is found step by step when the walk comes to its directory and the file is kept
there. -/
theorem listed_iff_visits {dirs : List String} {file : String} :
    Listed fs exclude opened dir top (dirs ++ [file]) ↔
      Visits fs exclude opened dir top dirs ∧
        KeepsFile fs exclude (dir.down dirs) (top ++ dirs) file := by
  induction dirs generalizing opened dir top with
  | nil =>
    rw [List.append_nil]
    constructor
    · rintro ⟨place, hdir, hnew, hkept⟩
      exact ⟨⟨place, hdir, hnew⟩, hkept⟩
    · rintro ⟨⟨place, hdir, hnew⟩, hkept⟩
      exact ⟨place, hdir, hnew, hkept⟩
  | cons name rest ih =>
    have hnames : top ++ name :: rest = top ++ [name] ++ rest := by simp
    rw [List.cons_append, listed_cons_iff name (by simp), hnames, Path.down_cons]
    simp only [ih, Visits]
    constructor
    · rintro ⟨place, hdir, hnew, hkept, hvisit, hfile⟩
      exact ⟨⟨place, hdir, hnew, hkept, hvisit⟩, hfile⟩
    · rintro ⟨⟨place, hdir, hnew, hkept, hvisit⟩, hfile⟩
      exact ⟨place, hdir, hnew, hkept, hvisit, hfile⟩

theorem isListed_iff_visits {docs : Path} {dirs : List String} {file : String} :
    IsListed fs exclude docs dirs file ↔
      Visits fs exclude [] docs [] dirs ∧ KeepsFile fs exclude (docs.down dirs) dirs file := by
  rw [← listed_iff_isListed, listed_iff_visits, List.nil_append]

theorem Visits.areLegal {dirs : List String} (h : Visits fs exclude opened dir top dirs) :
    AreLegal dirs := by
  induction dirs generalizing opened dir top with
  | nil => exact areLegal_nil
  | cons name rest ih =>
    obtain ⟨_, -, -, hkept, hrest⟩ := h
    intro other hother
    rcases List.mem_cons.1 hother with rfl | hother
    · exact isLegalName_of_stands hkept.1.1
    · exact ih hrest other hother

/-- Nothing is looked at below a directory that is being walked already. -/
theorem allLead_of_mem_opened {place : Location} {entry : Entry}
    (hdir : fs.locate dir = .ok (place, entry)) (hopen : place ∈ opened) :
    AllLead fs exclude opened dir top := by
  intro dirs hvisit
  have hnew : ∃ other, fs.locate dir = .ok (other, .directory) ∧ other ∉ opened := by
    cases dirs with
    | nil => exact hvisit
    | cons name rest =>
      obtain ⟨other, hother, hnew, -⟩ := hvisit
      exact ⟨other, hother, hnew⟩
  obtain ⟨other, hother, hnew⟩ := hnew
  obtain ⟨rfl, -⟩ := Prod.mk.inj (Except.ok.inj (hdir.symm.trans hother))
  exact absurd hopen hnew

/-- What is looked at below a directory is what it has and what is looked at below the
directories in it that are kept. -/
theorem allLead_iff_of_notMem {place : Location} (hdir : fs.locate dir = .ok (place, .directory))
    (hnew : place ∉ opened) : AllLead fs exclude opened dir top ↔
      (∀ name, Stands fs dir name → LeadsOn fs dir name) ∧
      ∀ name, KeepsDirectory fs exclude dir top name →
        AllLead fs exclude (place :: opened) (dir.join ⟨name⟩) (top ++ [name]) := by
  constructor
  · intro h
    exact ⟨h [] ⟨place, hdir, hnew⟩, fun name hkept dirs hvisit =>
      h (name :: dirs) ⟨place, hdir, hnew, hkept, hvisit⟩⟩
  · rintro ⟨hhere, hbelow⟩ dirs hvisit
    cases dirs with
    | nil => exact hhere
    | cons name rest =>
      obtain ⟨other, hother, -, hkept, hrest⟩ := hvisit
      obtain ⟨rfl, -⟩ := Prod.mk.inj (Except.ok.inj (hdir.symm.trans hother))
      exact hbelow name hkept rest hrest

/-- Whether one step of the walk comes to something, without what it finds. -/
theorem exists_outcome_scan_step_iff {rules : List ExcludeRule}
    (hrules : exclude.mapM ExcludeRule.ofText = .ok rules) (htop : AreLegal top) :
    (∃ found, (scan fs rules opened dir (joined top)).outcome = .ok found) ↔
      ∃ place entry, fs.locate dir = .ok (place, entry) ∧
        (place ∈ opened ∨ place ∉ opened ∧ entry = .directory ∧
          (∀ name, Stands fs dir name → LeadsOn fs dir name) ∧
          ∀ name, KeepsDirectory fs exclude dir top name → ∃ below, (scan fs rules
            (place :: opened) (dir.join ⟨name⟩) (joined (top ++ [name]))).outcome = .ok below) := by
  constructor
  · rintro ⟨found, hfound⟩
    obtain ⟨place, entry, hdir, ⟨hopen, -⟩ | ⟨hnew, names, hnames, files, dirs, hclassify, -, -,
      belows, hbelows, -⟩⟩ := outcome_scan_eq_ok_iff.1 hfound
    · exact ⟨place, entry, hdir, .inl hopen⟩
    obtain rfl : entry = .directory := Option.some.inj
      ((FileSystem.get?_of_locate hdir).symm.trans (FileSystem.get?_of_namesIn? hnames))
    refine ⟨place, _, hdir, .inr ⟨hnew, rfl, fun name hname => ?_, fun name hkept => ?_⟩⟩
    · rw [← mem_names_iff_stands hdir hnames] at hname
      obtain ⟨found, entry, hlead⟩ := exists_classify_eq_ok_iff.1 ⟨_, _, hclassify⟩ name hname
      exact ⟨_, hlead⟩
    · have hreads := reads_of_classify hdir hnames hclassify
      rw [← mem_keptDirectories_iff hrules htop hreads] at hkept
      rw [← under_joined htop]
      exact exists_mapM_eq_ok_iff.1 ⟨_, mapM_eq_ok_iff.2 hbelows⟩ name hkept
  · rintro ⟨place, entry, hdir, hopen | ⟨hnew, rfl, hhere, hbelow⟩⟩
    · exact ⟨[], outcome_scan_eq_ok_iff.2 ⟨place, entry, hdir, .inl ⟨hopen, rfl⟩⟩⟩
    obtain ⟨names, hnames⟩ := FileSystem.exists_namesIn?_of_get? (FileSystem.get?_of_locate hdir)
    obtain ⟨files, dirs, hclassify⟩ := exists_classify_eq_ok_iff.2 fun name hname => by
      obtain ⟨⟨found, entry⟩, hlead⟩ := hhere name ((mem_names_iff_stands hdir hnames name).1 hname)
      exact ⟨found, entry, hlead⟩
    have hreads := reads_of_classify hdir hnames hclassify
    have hwalk : ∀ name ∈ keptDirectories rules (joined top) dirs, ∃ below, (scan fs rules
        (place :: opened) (dir.join ⟨name⟩) (Url.under (joined top) name)).outcome = .ok below := by
      intro name hname
      rw [mem_keptDirectories_iff hrules htop hreads] at hname
      rw [under_joined htop]
      exact hbelow name hname
    obtain ⟨belows, hbelows⟩ := exists_mapM_eq_ok_iff.2 hwalk
    exact ⟨_, outcome_scan_eq_ok_iff.2 ⟨place, _, hdir, .inr ⟨hnew, names, hnames, files, dirs,
      hclassify, _, outcome_keptFiles .., belows, mapM_eq_ok_iff.1 hbelows, rfl⟩⟩⟩

/-- **The walk comes to something** exactly when it starts at a directory, or at a place
that is being walked, and whatever it looks at leads somewhere. -/
theorem exists_outcome_scan_iff {rules : List ExcludeRule}
    (hrules : exclude.mapM ExcludeRule.ofText = .ok rules) (htop : AreLegal top) :
    (∃ found, (scan fs rules opened dir (joined top)).outcome = .ok found) ↔
      (∃ place entry, fs.locate dir = .ok (place, entry) ∧
        (place ∈ opened ∨ entry = .directory)) ∧
      AllLead fs exclude opened dir top := by
  induction hlength : (unopened fs opened).length using Nat.strong_induction_on
    generalizing opened dir top with
  | _ n ih =>
    -- below a directory the walk comes to something when everything there leads somewhere
    have hbelow : ∀ {place name}, fs.locate dir = .ok (place, .directory) → place ∉ opened →
        KeepsDirectory fs exclude dir top name →
        ((∃ below, (scan fs rules (place :: opened) (dir.join ⟨name⟩)
            (joined (top ++ [name]))).outcome = .ok below) ↔
          AllLead fs exclude (place :: opened) (dir.join ⟨name⟩) (top ++ [name])) := by
      intro place name hdir hnew hkept
      have hsmaller : (unopened fs (place :: opened)).length < n :=
        hlength ▸ length_unopened_cons_lt
          (FileSystem.mem_directories_of_get? (FileSystem.get?_of_locate hdir)) hnew
      rw [ih _ hsmaller (htop.append_singleton (isLegalName_of_stands hkept.1.1)) rfl]
      obtain ⟨below, hname⟩ := hkept.1.2
      exact and_iff_right ⟨below, _, hname, .inr rfl⟩
    rw [exists_outcome_scan_step_iff hrules htop]
    constructor
    · rintro ⟨place, entry, hdir, hopen | ⟨hnew, rfl, hhere, hwalk⟩⟩
      · exact ⟨⟨place, entry, hdir, .inl hopen⟩, allLead_of_mem_opened hdir hopen⟩
      · exact ⟨⟨place, _, hdir, .inr rfl⟩, (allLead_iff_of_notMem hdir hnew).2
          ⟨hhere, fun name hkept => (hbelow hdir hnew hkept).1 (hwalk name hkept)⟩⟩
    · rintro ⟨⟨place, entry, hdir, hstart⟩, hall⟩
      refine ⟨place, entry, hdir, ?_⟩
      by_cases hopen : place ∈ opened
      · exact .inl hopen
      obtain rfl := hstart.resolve_left hopen
      obtain ⟨hhere, hall⟩ := (allLead_iff_of_notMem hdir hopen).1 hall
      exact .inr ⟨hopen, rfl, hhere, fun name hkept =>
        (hbelow hdir hopen hkept).2 (hall name hkept)⟩

end DocSite
