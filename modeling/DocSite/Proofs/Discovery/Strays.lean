import DocSite.Proofs.Discovery.Places
import DocSite.Proofs.FileSystem.Way
import DocSite.Text.Lossy

/-!
# Names that are no texts

In a file system every name is a text.  An operating system also lets a file have a name
that is not one, and here such a file is kept beside the file system: a stray, with the
bytes of its name and with what a look at it tells.

A walk gets each name as bytes, looks at what is there under these bytes, and then goes
on with the text that is shown for them (`scanAmong`).  A text is shown as itself, so where
there are no strays this is the walk of `scan`, and discovery is what it was
(`discoverAmong_nil`).

Strays are not found as what they are.  Several of them may be shown as one text, and then
a catalog has one file for all of them, and nothing need stand at the path of that file
(`exists_strays_discovered_once`).
-/

namespace DocSite

/-- An entry of a directory with a name that is no text. -/
structure Stray where
  /-- The place of the directory. -/
  around : Location
  name : List UInt8
  not_text : ¬ ∃ text, utf8Bytes text = name
  /-- Whether it leads to a directory, if it leads anywhere. -/
  isDirectory : Except OsError Bool

/-- A name that is a text, in bytes, and whether it leads to a directory. -/
def textEntry (fs : FileSystem) (dir : Path) (name : String) : List UInt8 × Except OsError Bool :=
  (utf8Bytes name, (fs.locate (dir.join ⟨name⟩)).map fun found => decide (found.2 = .directory))

/-- What a directory lists: names that are texts, and those of the strays in it. -/
def entriesAmong (fs : FileSystem) (strays : List Stray) (dir : Path) (place : Location)
    (names : List String) : List (List UInt8 × Except OsError Bool) :=
  names.map (textEntry fs dir) ++
    (strays.filter fun stray => stray.around = place).map fun stray =>
      (stray.name, stray.isDirectory)

/-- The text that is shown for a name, and whether a directory is what the name
leads to. -/
def lookAt (dir : Path) (entry : List UInt8 × Except OsError Bool) :
    Except FileError (String × Bool) := do
  let name := lossyText entry.1
  let isDirectory ← atPath (dir.join ⟨name⟩) entry.2
  return (name, isDirectory)

/-- The names of a directory, as they are shown, sorted into files and directories. -/
def classifyEntries (dir : Path) (entries : List (List UInt8 × Except OsError Bool)) :
    Except FileError (List String × List String) := do
  let kinds ← entries.mapM (lookAt dir)
  return ((kinds.filter fun k => !k.2).map Prod.fst, (kinds.filter fun k => k.2).map Prod.fst)

/-- The files below a directory as paths from the top, some of whose names may be no texts. -/
def scanAmong (fs : FileSystem) (strays : List Stray) (rules : List ExcludeRule)
    (opened : List Location) (dir : Path) (fromTop : String) : Finding (List String) := do
  let (place, _) ← liftExcept (atPath dir (fs.locate dir))
  if hopen : place ∈ opened then
    Finding.report (.directoryLoop dir (FileSystem.canonicalPath place))
    return []
  else
    match hnames : fs.namesIn? place with
    | none => throw (.io dir .notADirectory)
    | some names =>
      have := length_unopened_cons_lt
        (FileSystem.mem_directories_of_get? (FileSystem.get?_of_namesIn? hnames)) hopen
      let (files, dirs) ← liftExcept
        (classifyEntries dir (entriesAmong fs strays dir place names))
      let found ← keptFiles rules dir fromTop files
      let below ← (keptDirectories rules fromTop dirs).mapM fun name =>
        scanAmong fs strays rules (place :: opened) (dir.join ⟨name⟩) (Url.under fromTop name)
      return found ++ below.flatten
termination_by (unopened fs opened).length

/-- The catalog of the files below a directory that no rule leaves out, under the texts that
are shown for their names. -/
def Catalog.discoverAmong (fs : FileSystem) (strays : List Stray) (docs site : Path)
    (directoryUrls : Bool) (exclude : List String) : Finding Catalog := do
  let rules ← liftExcept (exclude.mapM ExcludeRule.ofText)
  let srcUris ← scanAmong fs strays rules [] docs ""
  Finding.report (.discovered srcUris.length docs)
  ExceptT.lift (ofFiles (srcUris.map fun srcUri => .ofPath ⟨srcUri⟩ docs site directoryUrls))

variable {fs : FileSystem} {strays : List Stray} {rules : List ExcludeRule}
  {opened : List Location} {dir docs site : Path} {fromTop : String}

/-! ## One step of the walk -/

/-- A directory without directories in it has the files that are kept. -/
theorem outcome_scanAmong_of_classifyEntries {place : Location} {names files kept : List String}
    (hdir : fs.locate dir = .ok (place, .directory)) (hnew : place ∉ opened)
    (hnames : fs.namesIn? place = some names)
    (hclassify : classifyEntries dir (entriesAmong fs strays dir place names) = .ok (files, []))
    (hkept : (keptFiles rules dir fromTop files).outcome = .ok kept) :
    (scanAmong fs strays rules opened dir fromTop).outcome = .ok kept := by
  have hdirs : keptDirectories rules fromTop [] = [] := by
    rw [keptDirectories, List.filter_nil, List.mergeSort_nil]
  rw [scanAmong, Finding.outcome_bind, Finding.outcome_liftExcept]
  refine bind_eq_ok_iff.2 ⟨(place, .directory), atPath_eq_ok_iff.2 hdir, ?_⟩
  dsimp only
  rw [dif_neg hnew]
  split
  · rename_i hnone
    simp [hnames] at hnone
  · rename_i others hothers
    obtain rfl : names = others := Option.some.inj (hnames.symm.trans hothers)
    rw [Finding.outcome_bind, Finding.outcome_liftExcept]
    refine bind_eq_ok_iff.2 ⟨_, hclassify, ?_⟩
    dsimp only
    rw [Finding.outcome_bind, hdirs, List.mapM_nil]
    refine bind_eq_ok_iff.2 ⟨_, hkept, ?_⟩
    rw [pure_bind, List.flatten_nil, List.append_nil, Finding.outcome_pure]

/-! ## Without strays -/

/-- A name that is a text is looked at under itself. -/
theorem lookAt_textEntry (name : String) :
    lookAt dir (textEntry fs dir name) = look fs dir name := by
  rw [lookAt, look, textEntry, lossyText_utf8Bytes]
  rcases fs.locate (dir.join ⟨name⟩) with _ | ⟨_, _⟩ <;> rfl

theorem classifyEntries_nil (place : Location) (names : List String) :
    classifyEntries dir (entriesAmong fs [] dir place names) = classify fs dir names := by
  have hlook : (names.map (textEntry fs dir)).mapM (lookAt dir) = names.mapM (look fs dir) := by
    rw [List.mapM_map]
    exact mapM_congr fun name _ => lookAt_textEntry name
  rw [classifyEntries, classify, entriesAmong, List.filter_nil, List.map_nil, List.append_nil,
    hlook]

/-- **Without strays the walk is that of the texts.** -/
theorem scanAmong_nil :
    scanAmong fs [] rules opened dir fromTop = scan fs rules opened dir fromTop := by
  induction hlength : (unopened fs opened).length using Nat.strong_induction_on
    generalizing opened dir fromTop with
  | _ n ih =>
    cases hlocate : fs.locate dir with
    | error e =>
      have hfailed : ∀ next : Location × Entry → Finding (List String),
          (liftExcept (atPath dir (fs.locate dir)) >>= next) = throw (.io dir e) := by
        intro next
        rw [hlocate]
        rfl
      rw [scanAmong, scan, hfailed, hfailed]
    | ok found =>
      obtain ⟨place, entry⟩ := found
      have hfound : ∀ next : Location × Entry → Finding (List String),
          (liftExcept (atPath dir (fs.locate dir)) >>= next) = next (place, entry) := by
        intro next
        rw [hlocate]
        rfl
      by_cases hopen : place ∈ opened
      · rw [scanAmong, scan, hfound, hfound]
        dsimp only
        rw [dif_pos hopen, dif_pos hopen]
      · rw [scanAmong, hfound]
        dsimp only
        rw [dif_neg hopen]
        -- the other walk looks for names in the place on its own
        split <;> rename_i hnames <;> rw [scan, hfound] <;> dsimp only <;> rw [dif_neg hopen] <;>
          split <;> rename_i hnames'
        · rfl
        · simp [hnames] at hnames'
        · simp [hnames] at hnames'
        · rename_i names others
          obtain rfl : names = others := Option.some.inj (hnames.symm.trans hnames')
          have hless := length_unopened_cons_lt
            (FileSystem.mem_directories_of_get? (FileSystem.get?_of_namesIn? hnames)) hopen
          have hbelow : ∀ name, scanAmong fs [] rules (place :: opened) (dir.join ⟨name⟩)
              (Url.under fromTop name) =
                scan fs rules (place :: opened) (dir.join ⟨name⟩) (Url.under fromTop name) :=
            fun name => ih _ (hlength ▸ hless) rfl
          simp only [classifyEntries_nil, hbelow]

/-- **Where every name is a text, discovery among strays is discovery.** -/
theorem discoverAmong_nil (fs : FileSystem) (docs site : Path) (directoryUrls : Bool)
    (exclude : List String) : Catalog.discoverAmong fs [] docs site directoryUrls exclude =
      Catalog.discover fs docs site directoryUrls exclude := by
  simp only [Catalog.discoverAmong, Catalog.discover, scanAmong_nil]

/-! ## Two names that are shown alike -/

/-- A directory of documents in which no name is a text. -/
def strayTree : FileSystem where
  entries := [(["docs"], .directory)]
  cwd := []
  clock := 0
  distinct := by decide
  grounded := by decide
  legal := by decide

/-- Two pages in it. -/
def strayPages : List Stray :=
  [⟨["docs"], [0xFE, 0x2E, 0x6D, 0x64], by rw [← utf8Bytes_lossyText_eq_iff]; decide, .ok false⟩,
    ⟨["docs"], [0xFF, 0x2E, 0x6D, 0x64], by rw [← utf8Bytes_lossyText_eq_iff]; decide, .ok false⟩]

/-- Two pages are found as one, and nothing stands at its path. -/
theorem exists_strays_discovered_once : ∃ c,
    (Catalog.discoverAmong strayTree strayPages ⟨"docs"⟩ ⟨"site"⟩ true []).outcome = .ok c ∧
      strayPages.length = 2 ∧ (strayPages.map Stray.name).Nodup ∧
      c.files.map SourceFile.srcUri = ["\uFFFD.md"] ∧
      ∀ f ∈ c.files, strayTree.locate f.srcPath = .error .notFound := by
  have hdocs : strayTree.locate ⟨"docs"⟩ = .ok (["docs"], .directory) :=
    FileSystem.locate_eq_ok_of_follow [] ["docs"] (by decide +kernel) (by cbv)
  have hclassify :
      classifyEntries ⟨"docs"⟩ (entriesAmong strayTree strayPages ⟨"docs"⟩ ["docs"] []) =
        .ok (["\uFFFD.md", "\uFFFD.md"], []) := by
    rfl
  have hkept : (keptFiles [] ⟨"docs"⟩ "" ["\uFFFD.md", "\uFFFD.md"]).outcome =
      .ok ["\uFFFD.md", "\uFFFD.md"] := by
    rw [outcome_keptFiles]
    cbv
  have hscan := outcome_scanAmong_of_classifyEntries hdocs List.not_mem_nil (by decide +kernel)
    hclassify hkept
  have hfiles : (Catalog.ofFiles (["\uFFFD.md", "\uFFFD.md"].map fun srcUri =>
      .ofPath ⟨srcUri⟩ ⟨"docs"⟩ ⟨"site"⟩ true)).value.files =
        [.ofPath ⟨"\uFFFD.md"⟩ ⟨"docs"⟩ ⟨"site"⟩ true] := by
    decide +kernel
  have hdiscover : (Catalog.discoverAmong strayTree strayPages ⟨"docs"⟩ ⟨"site"⟩ true []).outcome =
      .ok (Catalog.ofFiles (["\uFFFD.md", "\uFFFD.md"].map fun srcUri =>
        .ofPath ⟨srcUri⟩ ⟨"docs"⟩ ⟨"site"⟩ true)).value := by
    rw [Catalog.discoverAmong, Finding.outcome_bind, Finding.outcome_liftExcept]
    refine bind_eq_ok_iff.2 ⟨[], rfl, ?_⟩
    rw [Finding.outcome_bind]
    exact bind_eq_ok_iff.2 ⟨_, hscan, rfl⟩
  refine ⟨_, hdiscover, rfl, by decide, ?_, fun f hf => ?_⟩
  · rw [hfiles]
    decide +kernel
  · rw [hfiles] at hf
    obtain rfl := List.mem_singleton.1 hf
    have hpath : (SourceFile.ofPath ⟨"\uFFFD.md"⟩ ⟨"docs"⟩ ⟨"site"⟩ true).srcPath =
        ⟨"docs/\uFFFD.md"⟩ := by
      decide +kernel
    have hread : FileSystem.IsReadable ⟨"docs/\uFFFD.md"⟩ :=
      ⟨by decide +kernel, by decide +kernel, by decide +kernel⟩
    have hsteps : FileSystem.startOf ⟨"docs/\uFFFD.md"⟩ strayTree.cwd = [] ∧
        pieces "docs/\uFFFD.md" = ["docs", "\uFFFD.md"] := by
      decide +kernel
    have hresolve : strayTree.resolve true ⟨"docs/\uFFFD.md"⟩ =
        .ok (.absent ["docs"] "\uFFFD.md") := by
      rw [FileSystem.resolve_of_isReadable hread, hsteps.1, hsteps.2]
      cbv
    rw [hpath, FileSystem.locate_eq_error_of_resolve hresolve]

end DocSite
