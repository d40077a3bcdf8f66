import DocSite.Discovery
import DocSite.Proofs.Discovery.Order
import DocSite.Proofs.FileSystem.Lookup
import DocSite.Proofs.Path.Portable
import DocSite.Proofs.Refusal

/-!
# What is found in one directory

One step of the walk reads one directory: it sorts the names into files and
directories, looking through links, and leaves some of both out.  Here it is said
which names are left, without the order in which the directory was listed and
without the steps that were taken: `KeepsFile` and `KeepsDirectory` look at the
file system and at the texts of the exclude rules only.

What a finding reports does not matter here: `Finding.outcome` forgets it, and the
outcome of two steps is made of the outcomes of the two (`Finding.outcome_bind`).
-/

namespace DocSite

namespace Finding

variable {α β : Type}

/-- What a finding comes to, whatever it reports. -/
def outcome (x : Finding α) : Except FileError α :=
  x.run.value

@[simp] theorem outcome_pure (a : α) : (pure a : Finding α).outcome = .ok a := rfl

@[simp] theorem outcome_report (e : Event) : (report e).outcome = .ok () := rfl

@[simp] theorem outcome_throw (refusal : FileError) :
    (throw refusal : Finding α).outcome = .error refusal := rfl

@[simp] theorem outcome_lift (x : Journal α) :
    outcome (ExceptT.lift x : Finding α) = .ok x.value := rfl

@[simp] theorem outcome_liftExcept (result : Except FileError α) :
    outcome (liftExcept result : Finding α) = result := by
  cases result <;> rfl

theorem outcome_bind (x : Finding α) (next : α → Finding β) :
    (x >>= next).outcome = x.outcome >>= fun a => (next a).outcome := by
  show (x.run >>= ExceptT.bindCont fun a => (next a).run).value = _
  rw [Journal.value_bind, outcome]
  cases x.run.value <;> rfl

/-- The outcome of the same step for many is the outcome of each. -/
theorem outcome_mapM (f : α → Finding β) (as : List α) :
    (as.mapM f).outcome = as.mapM fun a => (f a).outcome := by
  induction as with
  | nil => rfl
  | cons a rest ih =>
    simp only [List.mapM_cons, outcome_bind, ih, outcome_pure]
    rfl

theorem outcome_filterMapM {f : α → Finding (Option β)} {g : α → Option β}
    (h : ∀ a, (f a).outcome = .ok (g a)) (as : List α) :
    (as.filterMapM f).outcome = .ok (as.filterMap g) := by
  induction as with
  | nil => rfl
  | cons a rest ih =>
    rw [List.filterMapM_cons, outcome_bind, h, List.filterMap_cons]
    cases hg : g a with
    | none => exact ih
    | some b =>
      show (rest.filterMapM f >>= fun others => pure (b :: others)).outcome = _
      rw [outcome_bind, ih]
      rfl

end Finding

/-! ## What the rules leave out -/

/-- Exclude texts leave out what has a name and a path from the top.  A text with
a slash before it is a pattern of the path and any other one of the name, and one
with a slash behind it leaves out directories only. -/
def IsLeftOut (exclude : List String) (name path : String) (isDirectory : Bool) : Prop :=
  ∃ text ∈ exclude, (text.toList.getLast? = some '/' → isDirectory = true) ∧
    ∃ glob, Glob.ofText (stripSlashes text) = .ok glob ∧
      glob.isMatch (if text.toList.head? = some '/' then path else name) = true

theorem ExcludeRule.ofText_eq_ok_iff {text : String} {rule : ExcludeRule} :
    ofText text = .ok rule ↔ ∃ glob, Glob.ofText (stripSlashes text) = .ok glob ∧
      rule = ⟨glob, text.toList.getLast? = some '/', text.toList.head? = some '/'⟩ := by
  rw [ofText, readPattern]
  cases Glob.ofText (stripSlashes text) with
  | error cause => simp [bind, Except.bind]
  | ok glob => simp [bind, Except.bind, pure, Except.pure, eq_comm]

/-- The rules leave out what the texts leave out from which they were read. -/
theorem isExcluded_iff {exclude : List String} {rules : List ExcludeRule}
    (h : exclude.mapM ExcludeRule.ofText = .ok rules) (name path : String) (isDirectory : Bool) :
    isExcluded rules name path isDirectory = true ↔ IsLeftOut exclude name path isDirectory := by
  rw [isExcluded, List.any_eq_true, IsLeftOut]
  constructor
  · rintro ⟨rule, hrule, hexcludes⟩
    obtain ⟨text, htext, hread⟩ := (mem_iff_of_mapM_eq_ok h rule).1 hrule
    obtain ⟨glob, hglob, rfl⟩ := ExcludeRule.ofText_eq_ok_iff.1 hread
    rw [ExcludeRule.excludes, Bool.and_eq_true] at hexcludes
    refine ⟨text, htext, fun hslash => ?_, glob, hglob, by simpa using hexcludes.2⟩
    simpa [hslash] using hexcludes.1
  · rintro ⟨text, htext, hdir, glob, hglob, hmatch⟩
    refine ⟨_, (mem_iff_of_mapM_eq_ok h _).2
      ⟨text, htext, ExcludeRule.ofText_eq_ok_iff.2 ⟨glob, hglob, rfl⟩⟩, ?_⟩
    rw [ExcludeRule.excludes, Bool.and_eq_true]
    refine ⟨?_, by simpa using hmatch⟩
    by_cases hslash : text.toList.getLast? = some '/'
    · simp [hdir hslash]
    · simp [hslash]

/-! ## What a directory has -/

/-- Something stands under a name in the directory to which a path leads. -/
def Stands (fs : FileSystem) (dir : Path) (name : String) : Prop :=
  ∃ place, fs.locate dir = .ok (place, .directory) ∧ (fs.get? (place ++ [name])).isSome

/-- A directory has a file of a name, perhaps through a link. -/
def HasFile (fs : FileSystem) (dir : Path) (name : String) : Prop :=
  Stands fs dir name ∧
    ∃ place entry, fs.locate (dir.join ⟨name⟩) = .ok (place, entry) ∧ entry ≠ .directory

/-- A directory has a directory of a name, perhaps through a link. -/
def HasDirectory (fs : FileSystem) (dir : Path) (name : String) : Prop :=
  Stands fs dir name ∧ ∃ place, fs.locate (dir.join ⟨name⟩) = .ok (place, .directory)

/-- A file of a directory, reached from the top by given names, that is kept: no
rule leaves it out, and it is no `README.md` beside an `index.md`. -/
def KeepsFile (fs : FileSystem) (exclude : List String) (dir : Path) (top : List String)
    (name : String) : Prop :=
  HasFile fs dir name ∧ ¬ IsLeftOut exclude name (joined (top ++ [name])) false ∧
    ¬ (name = "README.md" ∧ HasFile fs dir "index.md")

/-- A directory of a directory that is walked: no rule leaves it out. -/
def KeepsDirectory (fs : FileSystem) (exclude : List String) (dir : Path) (top : List String)
    (name : String) : Prop :=
  HasDirectory fs dir name ∧ ¬ IsLeftOut exclude name (joined (top ++ [name])) true

/-- What was read of a directory: each of its files once and each of its
directories once. -/
structure Reads (fs : FileSystem) (dir : Path) (files dirs : List String) : Prop where
  files_nodup : files.Nodup
  dirs_nodup : dirs.Nodup
  mem_files : ∀ name, name ∈ files ↔ HasFile fs dir name
  mem_dirs : ∀ name, name ∈ dirs ↔ HasDirectory fs dir name

theorem atPath_eq_ok_iff {α : Type} {path : Path} {result : Except OsError α} {a : α} :
    atPath path result = .ok a ↔ result = .ok a := by
  cases result <;> simp [atPath]

/-- Looking at a name tells what its path leads to. -/
theorem look_eq_ok_iff {fs : FileSystem} {dir : Path} {name : String} {kind : String × Bool} :
    look fs dir name = .ok kind ↔
      ∃ place entry, fs.locate (dir.join ⟨name⟩) = .ok (place, entry) ∧
        (name, decide (entry = .directory)) = kind := by
  simp only [look, bind_eq_ok_iff, atPath_eq_ok_iff, Prod.exists, pure, Except.pure,
    Except.ok.injEq]

/-- The names of a directory are sorted when every one of them leads somewhere. -/
theorem exists_classify_eq_ok_iff {fs : FileSystem} {dir : Path} {names : List String} :
    (∃ files dirs, classify fs dir names = .ok (files, dirs)) ↔
      ∀ name ∈ names, ∃ place entry, fs.locate (dir.join ⟨name⟩) = .ok (place, entry) := by
  have hlook : ∀ name, (∃ kind, look fs dir name = .ok kind) ↔
      ∃ place entry, fs.locate (dir.join ⟨name⟩) = .ok (place, entry) := by
    intro name
    simp only [look_eq_ok_iff]
    exact ⟨fun ⟨_, place, entry, hfound, _⟩ => ⟨place, entry, hfound⟩,
      fun ⟨place, entry, hfound⟩ => ⟨_, place, entry, hfound, rfl⟩⟩
  simp only [← hlook]
  rw [← exists_mapM_eq_ok_iff]
  constructor
  · rintro ⟨_, _, h⟩
    obtain ⟨kinds, hkinds, -⟩ := bind_eq_ok_iff.1 h
    exact ⟨kinds, hkinds⟩
  · rintro ⟨kinds, hkinds⟩
    exact ⟨_, _, bind_eq_ok_iff.2 ⟨kinds, hkinds, rfl⟩⟩

theorem mem_iff_of_mapM_look {fs : FileSystem} {dir : Path} {names : List String}
    {kinds : List (String × Bool)} (h : names.mapM (look fs dir) = .ok kinds) (name : String)
    (isDirectory : Bool) : (name, isDirectory) ∈ kinds ↔ name ∈ names ∧
      ∃ place entry, fs.locate (dir.join ⟨name⟩) = .ok (place, entry) ∧
        decide (entry = .directory) = isDirectory := by
  rw [mem_iff_of_mapM_eq_ok h]
  constructor
  · rintro ⟨other, hother, hlook⟩
    obtain ⟨place, entry, hfound, hkind⟩ := look_eq_ok_iff.1 hlook
    obtain ⟨rfl, rfl⟩ := Prod.mk.inj hkind.symm
    exact ⟨hother, place, entry, hfound, rfl⟩
  · rintro ⟨hname, place, entry, hfound, rfl⟩
    exact ⟨name, hname, look_eq_ok_iff.2 ⟨place, entry, hfound, rfl⟩⟩

/-- Looking keeps the names. -/
theorem map_fst_of_mapM_look {fs : FileSystem} {dir : Path} {names : List String}
    {kinds : List (String × Bool)} (h : names.mapM (look fs dir) = .ok kinds) :
    kinds.map Prod.fst = names := by
  have hsame : List.Forall₂ (fun name kind => name = kind.1) names kinds :=
    (mapM_eq_ok_iff.1 h).imp fun name kind hlook => by
      obtain ⟨place, entry, -, rfl⟩ := look_eq_ok_iff.1 hlook
      rfl
  exact (List.forall₂_eq_eq_eq ▸ List.forall₂_map_right_iff.2 hsame).symm

/-- The names that are listed are those under which something stands. -/
theorem mem_names_iff_stands {fs : FileSystem} {dir : Path} {place : Location}
    {names : List String} (hdir : fs.locate dir = .ok (place, .directory))
    (hnames : fs.namesIn? place = some names) (name : String) :
    name ∈ names ↔ Stands fs dir name := by
  rw [FileSystem.mem_namesIn?_iff hnames, Stands]
  constructor
  · exact fun hname => ⟨place, hdir, hname⟩
  · rintro ⟨other, hother, hname⟩
    obtain ⟨rfl, -⟩ := Prod.mk.inj (Except.ok.inj (hdir.symm.trans hother))
    exact hname

theorem reads_of_classify {fs : FileSystem} {dir : Path} {place : Location}
    {names files dirs : List String} (hdir : fs.locate dir = .ok (place, .directory))
    (hnames : fs.namesIn? place = some names) (h : classify fs dir names = .ok (files, dirs)) :
    Reads fs dir files dirs := by
  obtain ⟨kinds, hkinds, h⟩ := bind_eq_ok_iff.1 h
  obtain ⟨rfl, rfl⟩ := Prod.mk.inj (Except.ok.inj h)
  have hstands := mem_names_iff_stands hdir hnames
  have hnodup : (kinds.map Prod.fst).Nodup :=
    map_fst_of_mapM_look hkinds ▸ FileSystem.nodup_of_namesIn? hnames
  exact {
    files_nodup := hnodup.sublist (List.filter_sublist.map _)
    dirs_nodup := hnodup.sublist (List.filter_sublist.map _)
    mem_files := by
      intro name
      simp [HasFile, mem_iff_of_mapM_look hkinds, hstands, and_assoc]
    mem_dirs := by
      intro name
      simp [HasDirectory, mem_iff_of_mapM_look hkinds, hstands, and_assoc] }

theorem isLegalName_of_stands {fs : FileSystem} {dir : Path} {name : String}
    (h : Stands fs dir name) : IsLegalName name := by
  obtain ⟨place, -, hname⟩ := h
  obtain ⟨entry, hentry⟩ := Option.isSome_iff_exists.1 hname
  exact FileSystem.legal_of_get? hentry name (by simp)

/-! ## What is kept of a directory -/

section

variable {fs : FileSystem} {exclude : List String} {rules : List ExcludeRule} {dir : Path}
  {top files dirs : List String}

/-- Whether a file is kept, as it is decided for one name after the other. -/
def isKept (rules : List ExcludeRule) (fromTop : String) (files : List String)
    (name : String) : Bool :=
  !(isExcluded rules name (Url.under fromTop name) false ||
    decide (name = "README.md" ∧ "index.md" ∈ files))

/-- One file, if it is kept, as a path from the top. -/
def keptFile (rules : List ExcludeRule) (dir : Path) (fromTop : String) (files : List String)
    (name : String) : Finding (Option String) := do
  let path := Url.under fromTop name
  if isExcluded rules name path false then return none
  else if name = "README.md" ∧ "index.md" ∈ files then do
    Finding.report (.readmeSkipped dir)
    return none
  else return some path

theorem outcome_keptFile (rules : List ExcludeRule) (dir : Path) (fromTop : String)
    (files : List String) (name : String) : (keptFile rules dir fromTop files name).outcome =
      .ok (if isKept rules fromTop files name then some (Url.under fromTop name) else none) := by
  rw [keptFile]
  by_cases hout : isExcluded rules name (Url.under fromTop name) false = true
  · simp [isKept, hout]
  · by_cases hreadme : name = "README.md" ∧ "index.md" ∈ files
    · rw [if_neg hout, if_pos hreadme, Finding.outcome_bind]
      simp [isKept, hreadme, bind, Except.bind]
    · simp [isKept, hout, hreadme]

theorem outcome_keptFiles (rules : List ExcludeRule) (dir : Path) (fromTop : String)
    (files : List String) :
    (keptFiles rules dir fromTop files).outcome = .ok
      (((files.mergeSort fileOrder).filter (isKept rules fromTop files)).map
        (Url.under fromTop)) := by
  have hsteps : keptFiles rules dir fromTop files =
      (files.mergeSort fileOrder).filterMapM (keptFile rules dir fromTop files) := rfl
  rw [hsteps, Finding.outcome_filterMapM (outcome_keptFile rules dir fromTop files),
    ← List.filterMap_filter, List.filterMap_eq_map']

theorem exists_outcome_keptFiles (hrules : exclude.mapM ExcludeRule.ofText = .ok rules)
    (htop : AreLegal top) (hreads : Reads fs dir files dirs) :
    ∃ kept : List String, (keptFiles rules dir (joined top) files).outcome =
        .ok (kept.map fun name => joined (top ++ [name])) ∧
      kept.Pairwise FileBefore ∧ ∀ name, name ∈ kept ↔ KeepsFile fs exclude dir top name := by
  refine ⟨(files.mergeSort fileOrder).filter (isKept rules (joined top) files), ?_, ?_, ?_⟩
  · rw [outcome_keptFiles]
    exact congrArg Except.ok (List.map_congr_left fun name _ => under_joined htop name)
  · exact (pairwise_fileBefore_mergeSort hreads.files_nodup).sublist List.filter_sublist
  · intro name
    rw [List.mem_filter, (List.mergeSort_perm _ _).mem_iff, hreads.mem_files, KeepsFile, isKept,
      ← isExcluded_iff hrules, ← under_joined htop, ← hreads.mem_files "index.md",
      Bool.not_eq_true', Bool.or_eq_false_iff, decide_eq_false_iff_not, Bool.not_eq_true]

theorem pairwise_keptDirectories (rules : List ExcludeRule) (fromTop : String)
    (hreads : Reads fs dir files dirs) :
    (keptDirectories rules fromTop dirs).Pairwise fun a b => bytes a < bytes b :=
  pairwise_bytes_mergeSort (hreads.dirs_nodup.filter _)

theorem mem_keptDirectories_iff (hrules : exclude.mapM ExcludeRule.ofText = .ok rules)
    (htop : AreLegal top) (hreads : Reads fs dir files dirs) (name : String) :
    name ∈ keptDirectories rules (joined top) dirs ↔ KeepsDirectory fs exclude dir top name := by
  rw [keptDirectories, (List.mergeSort_perm _ _).mem_iff, List.mem_filter, hreads.mem_dirs,
    under_joined htop, KeepsDirectory, ← isExcluded_iff hrules, Bool.not_eq_true']
  simp

end

end DocSite
