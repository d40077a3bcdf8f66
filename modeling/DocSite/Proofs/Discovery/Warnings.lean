import DocSite.Proofs.Discovery.Visits
import DocSite.Proofs.Warnings

/-!
# The warnings of the walk

The walk warns in two cases: a directory has a `README.md` that it would keep if there were
no `index.md`, and a directory is reached that is being walked already.  It warns once for
each (`exists_isWarned_of_outcome_scan`): the row of its warnings is decided by the file system
and the texts of the rules, and nothing else is a warning.

A directory that is reached by several ways is visited several times, so what is counted is
not places but the names that lead there (`dropped`, `loops` in `warnings_discover`).
-/

namespace DocSite

namespace Finding

variable {α β : Type}

/-- The warnings of a finding. -/
def warnings (x : Finding α) : List Event :=
  x.run.warnings

@[simp] theorem warnings_pure (a : α) : (pure a : Finding α).warnings = [] := rfl

@[simp] theorem warnings_liftExcept (result : Except FileError α) :
    warnings (liftExcept result : Finding α) = [] := by
  cases result <;> rfl

theorem warnings_report (e : Event) : (report e).warnings = if e.isWarning then [e] else [] := by
  rw [← Journal.warnings_report, warnings, report, ExceptT.run_lift, Journal.warnings_map]

theorem warnings_lift (x : Journal α) :
    warnings (ExceptT.lift x : Finding α) = x.warnings := by
  rw [warnings, ExceptT.run_lift, Journal.warnings_map]

/-- Where the first step comes to something, the second one warns after it. -/
theorem warnings_bind {x : Finding α} {a : α} (h : x.outcome = .ok a) (next : α → Finding β) :
    (x >>= next).warnings = x.warnings ++ (next a).warnings := by
  show (x.run >>= ExceptT.bindCont fun a => (next a).run).warnings = _
  rw [Journal.warnings_bind]
  have hvalue : x.run.value = .ok a := h
  rw [hvalue]
  rfl

/-- Where a step comes to something for each of many, each warns in turn. -/
theorem warnings_mapM {f : α → Finding β} {as : List α} {bs : List β}
    (h : List.Forall₂ (fun a b => (f a).outcome = .ok b) as bs) :
    (as.mapM f).warnings = as.flatMap fun a => (f a).warnings := by
  induction h with
  | nil => rfl
  | @cons a b rest others hfirst hrest ih =>
    have houtcome : (rest.mapM f).outcome = .ok others := by
      rw [outcome_mapM]
      exact mapM_eq_ok_iff.2 hrest
    rw [List.mapM_cons, warnings_bind hfirst, warnings_bind houtcome, ih, List.flatMap_cons,
      warnings_pure, List.append_nil]

theorem warnings_filterMapM {f : α → Finding (Option β)} {g : α → Option β}
    (h : ∀ a, (f a).outcome = .ok (g a)) (as : List α) :
    (as.filterMapM f).warnings = as.flatMap fun a => (f a).warnings := by
  induction as with
  | nil => rfl
  | cons a rest ih =>
    rw [List.filterMapM_cons, warnings_bind (h a), List.flatMap_cons]
    cases g a with
    | none => exact congrArg (_ ++ ·) ih
    | some b =>
      show _ ++ (rest.filterMapM f >>= fun others => pure (b :: others)).warnings = _
      rw [warnings_bind (outcome_filterMapM h rest), ih, warnings_pure, List.append_nil]

end Finding

/-- A directory, reached from the top by given names, has a `README.md` that no rule leaves
out, and an `index.md`. -/
def DropsReadme (fs : FileSystem) (exclude : List String) (dir : Path) (top : List String) : Prop :=
  HasFile fs dir "README.md" ∧
    ¬ IsLeftOut exclude "README.md" (joined (top ++ ["README.md"])) false ∧
    HasFile fs dir "index.md"

/-- The walk comes by names to a place that it is walking already, while some places are
being walked. -/
def Loops (fs : FileSystem) (exclude : List String) (opened : List Location) (dir : Path)
    (top : List String) : List String → Prop
  | [] => ∃ place entry, fs.locate dir = .ok (place, entry) ∧ place ∈ opened
  | name :: rest => ∃ place, fs.locate dir = .ok (place, .directory) ∧ place ∉ opened ∧
    KeepsDirectory fs exclude dir top name ∧
    Loops fs exclude (place :: opened) (dir.join ⟨name⟩) (top ++ [name]) rest

/-- What the walk warns of in the directory that it reaches by names. -/
def Warns (fs : FileSystem) (exclude : List String) (opened : List Location) (dir : Path)
    (top dirs : List String) (e : Event) : Prop :=
  (Visits fs exclude opened dir top dirs ∧
      DropsReadme fs exclude (dir.down dirs) (top ++ dirs) ∧ e = .readmeSkipped (dir.down dirs)) ∨
    Loops fs exclude opened dir top dirs ∧ ∃ place entry,
      fs.locate (dir.down dirs) = .ok (place, entry) ∧
        e = .directoryLoop (dir.down dirs) (FileSystem.canonicalPath place)

variable {fs : FileSystem} {exclude : List String} {rules : List ExcludeRule}
  {opened : List Location} {dir : Path} {top : List String} {place : Location}

theorem Loops.exists_place {dirs : List String} (h : Loops fs exclude opened dir top dirs) :
    ∃ place entry, fs.locate (dir.down dirs) = .ok (place, entry) := by
  induction dirs generalizing opened dir top with
  | nil =>
    obtain ⟨place, entry, hdir, -⟩ := h
    exact ⟨place, entry, hdir⟩
  | cons name rest ih =>
    obtain ⟨_, -, -, -, hrest⟩ := h
    exact ih hrest

/-- The walk comes to a place that it is walking when it comes to a directory, and a directory
in it that is kept leads back to a place that was being walked at the start, or to that of a
directory on the way. -/
theorem loops_concat_iff {dirs : List String} {name : String} :
    Loops fs exclude opened dir top (dirs ++ [name]) ↔ Visits fs exclude opened dir top dirs ∧
      KeepsDirectory fs exclude (dir.down dirs) (top ++ dirs) name ∧ ∃ place entry,
        fs.locate ((dir.down dirs).join ⟨name⟩) = .ok (place, entry) ∧
          (place ∈ opened ∨ ∃ front, front <+: dirs ∧
            fs.locate (dir.down front) = .ok (place, .directory)) := by
  induction dirs generalizing opened dir top with
  | nil =>
    simp only [List.nil_append, Loops, Visits, Path.down_nil, List.append_nil, List.prefix_nil,
      exists_eq_left, List.mem_cons]
    constructor
    · rintro ⟨here, hdir, hnew, hkept, place, entry, hplace, rfl | hopen⟩
      · exact ⟨⟨place, hdir, hnew⟩, hkept, place, entry, hplace, .inr hdir⟩
      · exact ⟨⟨here, hdir, hnew⟩, hkept, place, entry, hplace, .inl hopen⟩
    · rintro ⟨⟨here, hdir, hnew⟩, hkept, place, entry, hplace, hopen | hback⟩
      · exact ⟨here, hdir, hnew, hkept, place, entry, hplace, .inr hopen⟩
      · exact ⟨here, hdir, hnew, hkept, place, entry, hplace,
          .inl (Prod.mk.inj (Except.ok.inj (hback.symm.trans hdir))).1⟩
  | cons first rest ih =>
    have hnames : top ++ first :: rest = top ++ [first] ++ rest := by simp
    simp only [List.cons_append, Loops, Visits, ih, Path.down_cons, hnames]
    constructor
    · rintro ⟨here, hdir, hnew, hfirst, hvisit, hkept, place, entry, hplace, hback⟩
      refine ⟨⟨here, hdir, hnew, hfirst, hvisit⟩, hkept, place, entry, hplace, ?_⟩
      rcases hback with hopen | ⟨front, hfront, hback⟩
      · rcases List.mem_cons.1 hopen with rfl | hopen
        · exact .inr ⟨[], List.nil_prefix, hdir⟩
        · exact .inl hopen
      · exact .inr ⟨first :: front, List.cons_prefix_cons.2 ⟨rfl, hfront⟩, hback⟩
    · rintro ⟨⟨here, hdir, hnew, hfirst, hvisit⟩, hkept, place, entry, hplace, hback⟩
      refine ⟨here, hdir, hnew, hfirst, hvisit, hkept, place, entry, hplace, ?_⟩
      rcases hback with hopen | ⟨front, hfront, hback⟩
      · exact .inl (List.mem_cons_of_mem _ hopen)
      · rcases List.prefix_cons_iff.1 hfront with rfl | ⟨others, rfl, hothers⟩
        · obtain ⟨rfl, -⟩ := Prod.mk.inj (Except.ok.inj (hback.symm.trans hdir))
          exact .inl (List.mem_cons_self ..)
        · exact .inr ⟨others, hothers, hback⟩

/-- At a place that is being walked there is one thing to warn of. -/
theorem warns_iff_of_mem_opened {entry : Entry} (hdir : fs.locate dir = .ok (place, entry))
    (hopen : place ∈ opened) {dirs : List String} {e : Event} :
    Warns fs exclude opened dir top dirs e ↔
      dirs = [] ∧ e = .directoryLoop dir (FileSystem.canonicalPath place) := by
  have hnew : ∀ other, fs.locate dir = .ok (other, .directory) → other ∈ opened := by
    intro other hother
    obtain ⟨rfl, -⟩ := Prod.mk.inj (Except.ok.inj (hdir.symm.trans hother))
    exact hopen
  cases dirs with
  | nil =>
    constructor
    · rintro (⟨⟨other, hother, hnot⟩, -⟩ | ⟨-, other, _, hother, rfl⟩)
      · exact absurd (hnew other hother) hnot
      · obtain ⟨rfl, -⟩ := Prod.mk.inj (Except.ok.inj (hdir.symm.trans hother))
        exact ⟨rfl, rfl⟩
    · rintro ⟨-, rfl⟩
      exact .inr ⟨⟨place, entry, hdir, hopen⟩, place, entry, hdir, rfl⟩
  | cons name rest =>
    refine iff_of_false ?_ (by simp)
    rintro (⟨⟨other, hother, hnot, -⟩, -⟩ | ⟨⟨other, hother, hnot, -⟩, -⟩)
    · exact hnot (hnew other hother)
    · exact hnot (hnew other hother)

/-- In a directory that is not being walked there is its `README.md` to warn of, and what
there is below its directories. -/
theorem warns_iff_of_notMem (hdir : fs.locate dir = .ok (place, .directory)) (hnew : place ∉ opened)
    {dirs : List String} {e : Event} : Warns fs exclude opened dir top dirs e ↔
      dirs = [] ∧ DropsReadme fs exclude dir top ∧ e = .readmeSkipped dir ∨
      ∃ name rest, dirs = name :: rest ∧ KeepsDirectory fs exclude dir top name ∧
        Warns fs exclude (place :: opened) (dir.join ⟨name⟩) (top ++ [name]) rest e := by
  have hplace : ∀ other entry, fs.locate dir = .ok (other, entry) ↔
      other = place ∧ entry = .directory := by
    intro other entry
    simp [hdir, eq_comm]
  cases dirs with
  | nil => simp [Warns, Visits, Loops, hplace, hnew]
  | cons name rest =>
    have hnames : top ++ name :: rest = top ++ [name] ++ rest := by simp
    simp only [Warns, Visits, Loops, hplace, Path.down_cons, hnames]
    constructor
    · rintro (⟨⟨_, ⟨rfl, -⟩, -, hkept, hvisit⟩, hdrop⟩ | ⟨⟨_, ⟨rfl, -⟩, -, hkept, hloop⟩, hback⟩)
      · exact .inr ⟨name, rest, rfl, hkept, .inl ⟨hvisit, hdrop⟩⟩
      · exact .inr ⟨name, rest, rfl, hkept, .inr ⟨hloop, hback⟩⟩
    · rintro (⟨hnil, -⟩ | ⟨_, _, heq, hkept, hwarns⟩)
      · cases hnil
      · cases heq
        rcases hwarns with ⟨hvisit, hdrop⟩ | ⟨hloop, hback⟩
        · exact .inl ⟨⟨place, ⟨rfl, trivial⟩, hnew, hkept, hvisit⟩, hdrop⟩
        · exact .inr ⟨⟨place, ⟨rfl, trivial⟩, hnew, hkept, hloop⟩, hback⟩

/-! ## Each once -/

theorem flatMap_ite_eq {α β : Type} [DecidableEq α] {as : List α} (h : as.Nodup) (a : α)
    (bs : List β) : (as.flatMap fun b => if b = a then bs else []) = if a ∈ as then bs else [] := by
  induction as with
  | nil => simp
  | cons first rest ih =>
    obtain ⟨hfirst, hrest⟩ := List.nodup_cons.1 h
    rw [List.flatMap_cons, ih hrest]
    by_cases heq : first = a
    · subst heq
      simp [hfirst]
    · simp [heq, Ne.symm heq]

theorem warnings_keptFile (rules : List ExcludeRule) (dir : Path) (fromTop : String)
    (files : List String) (name : String) : (keptFile rules dir fromTop files name).warnings =
      if name = "README.md" then
        if isExcluded rules "README.md" (Url.under fromTop "README.md") false = false ∧
          "index.md" ∈ files then [.readmeSkipped dir] else []
      else [] := by
  rw [keptFile]
  by_cases hname : name = "README.md"
  · subst hname
    cases hout : isExcluded rules "README.md" (Url.under fromTop "README.md") false with
    | true => simp
    | false =>
      by_cases hindex : "index.md" ∈ files
      · simp only [hindex, and_self, if_true, Bool.false_eq_true, if_false]
        rw [Finding.warnings_bind (Finding.outcome_report _), Finding.warnings_report,
          Finding.warnings_pure, List.append_nil]
        rfl
      · simp [hindex]
  · simp only [hname, false_and, if_false]
    split <;> exact Finding.warnings_pure _

/-- The files of one directory give one warning, or none. -/
theorem warnings_keptFiles (rules : List ExcludeRule) (dir : Path) (fromTop : String)
    {files : List String} (hfiles : files.Nodup) :
    (keptFiles rules dir fromTop files).warnings =
      if "README.md" ∈ files ∧ isExcluded rules "README.md" (Url.under fromTop "README.md") false =
        false ∧ "index.md" ∈ files then [.readmeSkipped dir] else [] := by
  have hsteps : keptFiles rules dir fromTop files =
      (files.mergeSort fileOrder).filterMapM (keptFile rules dir fromTop files) := rfl
  have hsorted : (files.mergeSort fileOrder).Nodup :=
    (List.mergeSort_perm files _).nodup_iff.2 hfiles
  rw [hsteps, Finding.warnings_filterMapM (outcome_keptFile rules dir fromTop files)]
  simp only [warnings_keptFile, flatMap_ite_eq hsorted, List.mem_mergeSort, ite_and]

theorem dropsReadme_iff (hrules : exclude.mapM ExcludeRule.ofText = .ok rules)
    (htop : AreLegal top) {files dirs : List String} (hreads : Reads fs dir files dirs) :
    DropsReadme fs exclude dir top ↔ "README.md" ∈ files ∧
      isExcluded rules "README.md" (Url.under (joined top) "README.md") false = false ∧
        "index.md" ∈ files := by
  rw [DropsReadme, hreads.mem_files, hreads.mem_files, ← isExcluded_iff hrules, under_joined htop,
    Bool.not_eq_true]

theorem warnings_scan_of_mem_opened {entry : Entry} (hdir : fs.locate dir = .ok (place, entry))
    (hopen : place ∈ opened) (fromTop : String) : (scan fs rules opened dir fromTop).warnings =
      [.directoryLoop dir (FileSystem.canonicalPath place)] := by
  have hplace : (liftExcept (atPath dir (fs.locate dir)) : Finding (Location × Entry)).outcome =
      .ok (place, entry) := by
    rw [Finding.outcome_liftExcept, atPath_eq_ok_iff, hdir]
  rw [scan, Finding.warnings_bind hplace, Finding.warnings_liftExcept, List.nil_append]
  dsimp only
  rw [dif_pos hopen, Finding.warnings_bind (Finding.outcome_report _), Finding.warnings_report,
    Finding.warnings_pure, List.append_nil]
  rfl

/-- A directory that is not being walked has the warnings of its files, and then those of its
directories. -/
theorem warnings_scan_of_notMem {fromTop : String} {names files dirs kept : List String}
    {belows : List (List String)} (hdir : fs.locate dir = .ok (place, .directory))
    (hnew : place ∉ opened) (hnames : fs.namesIn? place = some names)
    (hclassify : classify fs dir names = .ok (files, dirs))
    (hkept : (keptFiles rules dir fromTop files).outcome = .ok kept)
    (hbelows : List.Forall₂ (fun name below => (scan fs rules (place :: opened)
      (dir.join ⟨name⟩) (Url.under fromTop name)).outcome = .ok below)
      (keptDirectories rules fromTop dirs) belows) :
    (scan fs rules opened dir fromTop).warnings = (keptFiles rules dir fromTop files).warnings ++
      (keptDirectories rules fromTop dirs).flatMap fun name =>
        (scan fs rules (place :: opened) (dir.join ⟨name⟩) (Url.under fromTop name)).warnings := by
  have hplace : (liftExcept (atPath dir (fs.locate dir)) : Finding (Location × Entry)).outcome =
      .ok (place, .directory) := by
    rw [Finding.outcome_liftExcept, atPath_eq_ok_iff, hdir]
  have hread : (liftExcept (classify fs dir names) : Finding _).outcome = .ok (files, dirs) := by
    rw [Finding.outcome_liftExcept, hclassify]
  rw [scan, Finding.warnings_bind hplace, Finding.warnings_liftExcept, List.nil_append]
  dsimp only
  rw [dif_neg hnew]
  split
  · rename_i hnone
    rw [hnames] at hnone
    cases hnone
  · rename_i others hothers
    obtain rfl : names = others := Option.some.inj (hnames.symm.trans hothers)
    have hwalk : ((keptDirectories rules fromTop dirs).mapM fun name => scan fs rules
        (place :: opened) (dir.join ⟨name⟩) (Url.under fromTop name)).outcome = .ok belows := by
      rw [Finding.outcome_mapM]
      exact mapM_eq_ok_iff.2 hbelows
    rw [Finding.warnings_bind hread, Finding.warnings_liftExcept, List.nil_append,
      Finding.warnings_bind hkept, Finding.warnings_bind hwalk, Finding.warnings_mapM hbelows,
      Finding.warnings_pure, List.append_nil]

/-- Reports are the warnings that there are, each once, and each stands beside the names of
the directory that it is about. -/
structure IsWarned (warns : List String → Event → Prop) (reports : List Event)
    (warned : List (List String × Event)) : Prop where
  distinct : warned.Nodup
  mem_iff : ∀ dirs e, (dirs, e) ∈ warned ↔ warns dirs e
  reports_eq : reports = warned.map Prod.snd

theorem isWarned_nil : IsWarned (fun _ _ => False) [] [] :=
  ⟨List.nodup_nil, by simp, rfl⟩

theorem isWarned_singleton (dirs : List String) (e : Event) :
    IsWarned (fun dirs' e' => dirs' = dirs ∧ e' = e) [e] [(dirs, e)] :=
  ⟨List.nodup_singleton _, by simp, rfl⟩

theorem IsWarned.congr {warns warns' : List String → Event → Prop} {reports : List Event}
    {warned : List (List String × Event)} (h : IsWarned warns reports warned)
    (hiff : ∀ dirs e, warns dirs e ↔ warns' dirs e) : IsWarned warns' reports warned :=
  ⟨h.distinct, fun dirs e => (h.mem_iff dirs e).trans (hiff dirs e), h.reports_eq⟩

theorem IsWarned.append {warns warns' : List String → Event → Prop} {reports reports' : List Event}
    {warned warned' : List (List String × Event)} (h : IsWarned warns reports warned)
    (h' : IsWarned warns' reports' warned') (hdisjoint : ∀ dirs e, warns dirs e → ¬ warns' dirs e) :
    IsWarned (fun dirs e => warns dirs e ∨ warns' dirs e) (reports ++ reports')
      (warned ++ warned') where
  distinct := by
    refine List.nodup_append.2 ⟨h.distinct, h'.distinct, ?_⟩
    rintro ⟨dirs, e⟩ hmem _ hmem' rfl
    exact hdisjoint dirs e ((h.mem_iff dirs e).1 hmem) ((h'.mem_iff dirs e).1 hmem')
  mem_iff dirs e := by rw [List.mem_append, h.mem_iff, h'.mem_iff]
  reports_eq := by rw [List.map_append, h.reports_eq, h'.reports_eq]

/-- What is warned of below a directory is warned of in it with one more name in front. -/
theorem IsWarned.cons {warns : List String → Event → Prop} {reports : List Event}
    {warned : List (List String × Event)} (h : IsWarned warns reports warned) (name : String) :
    IsWarned (fun dirs e => ∃ rest, dirs = name :: rest ∧ warns rest e) reports
      (warned.map (Prod.map (name :: ·) id)) where
  distinct := h.distinct.map (by
    rintro ⟨dirs, e⟩ ⟨dirs', e'⟩ heq
    simpa using heq)
  mem_iff dirs e := by
    simp only [List.mem_map, Prod.exists, Prod.map, id, Prod.mk.injEq, h.mem_iff]
    constructor
    · rintro ⟨rest, _, hwarns, rfl, rfl⟩
      exact ⟨rest, rfl, hwarns⟩
    · rintro ⟨rest, rfl, hwarns⟩
      exact ⟨rest, e, hwarns, rfl, rfl⟩
  reports_eq := by
    rw [h.reports_eq, List.map_map]
    rfl

/-- What is warned of below several directories, one after the other. -/
theorem exists_isWarned_flatMap {names : List String} (hnames : names.Nodup)
    {warns : String → List String → Event → Prop} {reports : String → List Event}
    (h : ∀ name ∈ names, ∃ warned, IsWarned (warns name) (reports name) warned) :
    ∃ warned, IsWarned (fun dirs e => ∃ name rest, dirs = name :: rest ∧ name ∈ names ∧
      warns name rest e) (names.flatMap reports) warned := by
  induction names with
  | nil => exact ⟨[], isWarned_nil.congr (by simp)⟩
  | cons name others ih =>
    obtain ⟨hname, hothers⟩ := List.nodup_cons.1 hnames
    obtain ⟨first, hfirst⟩ := h name (List.mem_cons_self ..)
    obtain ⟨rest, hrest⟩ := ih hothers fun other hother => h other (List.mem_cons_of_mem _ hother)
    refine ⟨_, ((hfirst.cons name).append hrest ?_).congr fun dirs e => ?_⟩
    · rintro dirs e ⟨below, rfl, -⟩ ⟨_, _, heq, hmem, -⟩
      obtain ⟨rfl, -⟩ := List.cons.inj heq
      exact hname hmem
    · constructor
      · rintro (⟨below, rfl, hwarns⟩ | ⟨other, below, rfl, hmem, hwarns⟩)
        · exact ⟨name, below, rfl, List.mem_cons_self .., hwarns⟩
        · exact ⟨other, below, rfl, List.mem_cons_of_mem _ hmem, hwarns⟩
      · rintro ⟨other, below, rfl, hmem, hwarns⟩
        rcases List.mem_cons.1 hmem with rfl | hmem
        · exact .inl ⟨below, rfl, hwarns⟩
        · exact .inr ⟨other, below, rfl, hmem, hwarns⟩

/-- **The walk warns once for each thing there is to warn of**, and of nothing else. -/
theorem exists_isWarned_of_outcome_scan (hrules : exclude.mapM ExcludeRule.ofText = .ok rules)
    (htop : AreLegal top) {found : List String}
    (h : (scan fs rules opened dir (joined top)).outcome = .ok found) : ∃ warned,
      IsWarned (Warns fs exclude opened dir top) (scan fs rules opened dir (joined top)).warnings
        warned := by
  refine (scan_induction (motive := fun opened dir top found =>
    (scan fs rules opened dir (joined top)).outcome = .ok found ∧ ∃ warned,
      IsWarned (Warns fs exclude opened dir top) (scan fs rules opened dir (joined top)).warnings
        warned) hrules ?_ ?_ htop h).2
  · intro opened dir top place entry hdir hopen
    refine ⟨outcome_scan_eq_ok_iff.2 ⟨place, entry, hdir, .inl ⟨hopen, rfl⟩⟩, ?_⟩
    rw [warnings_scan_of_mem_opened hdir hopen]
    exact ⟨_, (isWarned_singleton [] _).congr fun dirs e =>
      (warns_iff_of_mem_opened hdir hopen).symm⟩
  · intro opened dir top place names files dirs kept belows htop hdir hnew hnames hclassify hkept
      hbelows
    have hreads := reads_of_classify hdir hnames hclassify
    have hmemDirs := mem_keptDirectories_iff hrules htop hreads
    have houtcomes : List.Forall₂ (fun name below => (scan fs rules (place :: opened)
        (dir.join ⟨name⟩) (Url.under (joined top) name)).outcome = .ok below)
        (keptDirectories rules (joined top) dirs) belows := by
      refine hbelows.imp fun name below hbelow => ?_
      rw [under_joined htop]
      exact hbelow.1
    refine ⟨outcome_scan_eq_ok_iff.2 ⟨place, .directory, hdir, .inr ⟨hnew, names, hnames, files,
      dirs, hclassify, kept, hkept, belows, houtcomes, rfl⟩⟩, ?_⟩
    rw [warnings_scan_of_notMem hdir hnew hnames hclassify hkept houtcomes,
      warnings_keptFiles rules dir (joined top) hreads.files_nodup]
    have hwalk := ((List.forall₂_and_left (R := fun _ _ => True) _ _).1
      (hbelows.imp fun _ _ hbelow => ⟨hbelow.2, trivial⟩)).1
    have hdistinct : (keptDirectories rules (joined top) dirs).Nodup := by
      refine (pairwise_keptDirectories rules (joined top) hreads).imp ?_
      rintro name _ hlt rfl
      exact List.lt_irrefl _ hlt
    obtain ⟨below, hbelow⟩ := exists_isWarned_flatMap hdistinct hwalk
    simp only [← under_joined htop] at hbelow
    have hhere : ∃ here, IsWarned (fun dirs e => dirs = [] ∧ DropsReadme fs exclude dir top ∧
        e = .readmeSkipped dir) (if "README.md" ∈ files ∧ isExcluded rules "README.md"
          (Url.under (joined top) "README.md") false = false ∧ "index.md" ∈ files
          then [Event.readmeSkipped dir] else []) here := by
      rw [dropsReadme_iff hrules htop hreads]
      split
      · exact ⟨_, (isWarned_singleton [] _).congr (by simp [*])⟩
      · exact ⟨_, isWarned_nil.congr (by simp [*])⟩
    obtain ⟨here, hhere⟩ := hhere
    refine ⟨_, (hhere.append hbelow ?_).congr fun dirs e => ?_⟩
    · rintro dirs e ⟨rfl, -⟩ ⟨_, _, heq, -⟩
      cases heq
    · rw [warns_iff_of_notMem hdir hnew]
      simp only [hmemDirs]

/-- What discovery warns of is what the walk warns of. -/
theorem warnings_discover {docs site : Path} {directoryUrls : Bool} {found : List String}
    (hrules : exclude.mapM ExcludeRule.ofText = .ok rules)
    (hscan : (scan fs rules [] docs (joined [])).outcome = .ok found) :
    (Catalog.discover fs docs site directoryUrls exclude).warnings =
      (scan fs rules [] docs (joined [])).warnings := by
  have hread : (liftExcept (exclude.mapM ExcludeRule.ofText) : Finding _).outcome = .ok rules := by
    rw [Finding.outcome_liftExcept, hrules]
  rw [Catalog.discover, Finding.warnings_bind hread, Finding.warnings_liftExcept, List.nil_append,
    ← joined_nil, Finding.warnings_bind hscan, Finding.warnings_bind (Finding.outcome_report _),
    Finding.warnings_report, Finding.warnings_lift, Catalog.warnings_ofFiles]
  exact List.append_nil _

/-! ## Two kinds -/

/-- A report of a loop. -/
def Event.isLoop : Event → Bool
  | directoryLoop .. => true
  | _ => false

/-- The directories that warnings of one kind are about, where each has one of that kind. -/
theorem IsWarned.exists_part {warns : List String → Event → Prop} {reports : List Event}
    {warned : List (List String × Event)} (h : IsWarned warns reports warned) (kind : Event → Bool)
    (hone : ∀ dirs e e', warns dirs e → warns dirs e' → kind e → kind e' → e = e') :
    ∃ part : List (List String), part.Nodup ∧
      (∀ dirs, dirs ∈ part ↔ ∃ e, warns dirs e ∧ kind e) ∧ part.length = reports.countP kind := by
  refine ⟨(warned.filter fun w => kind w.2).map Prod.fst, ?_, fun dirs => ?_, ?_⟩
  · refine (h.distinct.filter _).map_on ?_
    rintro ⟨dirs, e⟩ hmem ⟨_, e'⟩ hmem' rfl
    rw [List.mem_filter, h.mem_iff] at hmem hmem'
    exact Prod.ext rfl (hone dirs e e' hmem.1 hmem'.1 hmem.2 hmem'.2)
  · simp [h.mem_iff]
  · rw [List.length_map, h.reports_eq, List.countP_map, List.countP_eq_length_filter]
    rfl

/-- **What discovery warns of**: each directory that it visits and whose `README.md` it drops
for an `index.md`, and each one that it skips because it is walking it already.  Each of
these gives one warning, and there are no others. -/
theorem exists_length_warnings_discover {docs site : Path} {directoryUrls : Bool} {c : Catalog}
    (h : (Catalog.discover fs docs site directoryUrls exclude).outcome = .ok c) :
    ∃ dropped loops : List (List String), dropped.Nodup ∧ loops.Nodup ∧
      (∀ dirs, dirs ∈ dropped ↔
        Visits fs exclude [] docs [] dirs ∧ DropsReadme fs exclude (docs.down dirs) dirs) ∧
      (∀ dirs, dirs ∈ loops ↔ Loops fs exclude [] docs [] dirs) ∧
      (Catalog.discover fs docs site directoryUrls exclude).warnings.length =
        dropped.length + loops.length := by
  obtain ⟨rules, hrules, found, hscan, -⟩ := outcome_discover_eq_ok_iff.1 h
  obtain ⟨warned, hwarned⟩ := exists_isWarned_of_outcome_scan hrules areLegal_nil hscan
  have hdrop : ∀ dirs e, Warns fs exclude [] docs [] dirs e ∧ (!e.isLoop) = true ↔
      (Visits fs exclude [] docs [] dirs ∧ DropsReadme fs exclude (docs.down dirs) dirs) ∧
        e = .readmeSkipped (docs.down dirs) := by
    intro dirs e
    constructor
    · rintro ⟨⟨hvisit, hdrop, rfl⟩ | ⟨-, _, _, -, rfl⟩, hkind⟩
      · exact ⟨⟨hvisit, hdrop⟩, rfl⟩
      · cases hkind
    · rintro ⟨⟨hvisit, hdrop⟩, rfl⟩
      exact ⟨.inl ⟨hvisit, hdrop, rfl⟩, rfl⟩
  have hloop : ∀ dirs e, Warns fs exclude [] docs [] dirs e ∧ e.isLoop = true ↔
      Loops fs exclude [] docs [] dirs ∧ ∃ place entry,
        fs.locate (docs.down dirs) = .ok (place, entry) ∧
          e = .directoryLoop (docs.down dirs) (FileSystem.canonicalPath place) := by
    intro dirs e
    constructor
    · rintro ⟨⟨-, -, rfl⟩ | hloop, hkind⟩
      · cases hkind
      · exact hloop
    · rintro ⟨hloop, place, entry, hplace, rfl⟩
      exact ⟨.inr ⟨hloop, place, entry, hplace, rfl⟩, rfl⟩
  obtain ⟨dropped, hdistinct, hdropped, hcount⟩ := hwarned.exists_part (fun e => !e.isLoop)
    fun dirs e e' hwarns hwarns' hkind hkind' =>
      ((hdrop dirs e).1 ⟨hwarns, hkind⟩).2.trans ((hdrop dirs e').1 ⟨hwarns', hkind'⟩).2.symm
  obtain ⟨loops, hdistinct', hloops, hcount'⟩ := hwarned.exists_part Event.isLoop
    fun dirs e e' hwarns hwarns' hkind hkind' => by
      obtain ⟨-, place, entry, hplace, rfl⟩ := (hloop dirs e).1 ⟨hwarns, hkind⟩
      obtain ⟨-, other, _, hother, rfl⟩ := (hloop dirs e').1 ⟨hwarns', hkind'⟩
      obtain ⟨rfl, -⟩ := Prod.mk.inj (Except.ok.inj (hplace.symm.trans hother))
      rfl
  refine ⟨dropped, loops, hdistinct, hdistinct', fun dirs => ?_, fun dirs => ?_, ?_⟩
  · simp only [hdropped, hdrop, exists_and_left, exists_eq, and_true]
  · rw [hloops]
    simp only [hloop, exists_and_left, and_iff_left_iff_imp]
    intro hback
    obtain ⟨place, entry, hplace⟩ := hback.exists_place
    exact ⟨_, place, entry, hplace, rfl⟩
  · rw [warnings_discover hrules hscan, hcount, hcount', Nat.add_comm]
    simpa using List.length_eq_countP_add_countP Event.isLoop

end DocSite
