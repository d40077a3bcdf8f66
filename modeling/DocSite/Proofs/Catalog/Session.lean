import DocSite.Proofs.Catalog.Lookup
import DocSite.Theme

/-!
# Catalogs in use

Somebody who works with catalogs makes them, copies them, adds and takes out
files, looks files up, changes them in place, reads the index, adds what themes
bring along; in any order, and with several catalogs on the desk.  This module
compares such a session with one in which there is no index and no catalog, but
plain lists of files that are searched from the front (`Desk.Listing`).

The two sessions give the same answers and the same reports and leave the same
files (`Desk.session_listing`), for every row of commands.  So nobody can tell
whether an index was there when something was asked.  It comes from one fact
about each operation (`Desk.perform_listing`); the session adds nothing but an
induction.
-/

namespace DocSite
namespace Desk

/-! ## What can be asked -/

/-- A change that can be made to a file in place. -/
inductive Edit where
  /-- The file is published elsewhere or in the other style. -/
  | publish (site : Path) (directoryUrls : Bool)
  | attach (id : PageId)
  | detach
  deriving DecidableEq, Inhabited, Repr

namespace Edit

/-- A file after a change. -/
def apply (f : SourceFile) : Edit → SourceFile
  | publish site directoryUrls => f.publishedAt site directoryUrls
  | attach id => f.attach id
  | detach => f.detach

/-- A file after some changes in turn. -/
def applyAll (edits : List Edit) (f : SourceFile) : SourceFile :=
  edits.foldl apply f

theorem srcUri_applyAll (edits : List Edit) (f : SourceFile) :
    (applyAll edits f).srcUri = f.srcUri := by
  induction edits generalizing f with
  | nil => rfl
  | cons e rest ih =>
    rw [applyAll, List.foldl_cons]
    refine (ih (apply f e)).trans ?_
    cases e <;> rfl

/-- A visited file after the changes that are meant for it, and the changes meant
for the files after it. -/
def applyNext : List (List Edit) → SourceFile → SourceFile × List (List Edit)
  | [], f => (f, [])
  | edits :: rest, f => (applyAll edits f, rest)

theorem srcUri_applyNext (edits : List (List Edit)) (f : SourceFile) :
    (applyNext edits f).1.srcUri = f.srcUri := by
  cases edits with
  | nil => rfl
  | cons first rest => exact srcUri_applyAll first f

end Edit

/-- What can be asked of a catalog. -/
inductive Request where
  | append (f : SourceFile)
  | remove (srcUri : String)
  | get (srcUri : String)
  /-- The file of a name is looked up and changed. -/
  | change (srcUri : String) (edits : List Edit)
  | contains (srcUri : String)
  /-- Where each name stands. -/
  | index
  /-- All files in order. -/
  | list
  /-- The files are visited in order, and each is changed as is said for its
  position. -/
  | visit (edits : List (List Edit))
  | addThemeFiles (fs : FileSystem) (search : ThemeSearch) (candidates : List String)

/-- What is answered. -/
inductive Answer where
  | truth (holds : Bool)
  | file (found : Option SourceFile)
  | index (positions : List (String × Nat))
  | list (files : List SourceFile)
  /-- How many files were added, if the patterns can be read. -/
  | count (added : Except FileError Nat)
  | done

/-- What a catalog answers, and the catalog that is left. -/
def perform (c : Catalog) : Request → Journal (Answer × Catalog)
  | .append f => do
    let (added, larger) ← c.append f
    return (.truth added, larger)
  | .remove srcUri => return (.file (c.remove srcUri).1, (c.remove srcUri).2)
  | .get srcUri => return (.file (c.get srcUri).1, (c.get srcUri).2)
  | .change srcUri edits =>
    let (found, changed) := c.update srcUri (Edit.applyAll edits) (Edit.srcUri_applyAll edits)
    return (.file found, changed)
  | .contains srcUri => return (.truth (c.contains srcUri).1, (c.contains srcUri).2)
  | .index => return (.index c.consult.1, c.consult.2)
  | .list => return (.list c.files, c)
  | .visit edits => return (.done, (c.visit Edit.applyNext Edit.srcUri_applyNext edits).1)
  | .addThemeFiles fs search candidates =>
    match c.addThemeFiles fs search candidates with
    | .error refusal => return (.count (.error refusal), c)
    | .ok adding => do
      let (added, larger) ← adding
      return (.count (.ok added), larger)

/-! ## The same without an index -/

namespace Listing

/-- Whether a list has a file of a name. -/
def has (files : List SourceFile) (srcUri : String) : Bool :=
  files.any fun f => f.srcUri = srcUri

/-- A file put at the end of a list, unless the list has its name. -/
def append (files : List SourceFile) (f : SourceFile) : Journal (Bool × List SourceFile) :=
  if has files f.srcUri then do
    Journal.report (.duplicateFile f.srcUri)
    return (false, files)
  else return (true, files ++ [f])

/-- The files of a list, the first of each name. -/
def ofFiles (files : List SourceFile) : Journal (List SourceFile) :=
  files.foldlM (fun made f => return (← append made f).2) []

/-- A candidate of themes added to a list, if it is published, new, and found. -/
def addCandidate (fs : FileSystem) (search : ThemeSearch) (filter : ThemeFilter)
    (made : Nat × List SourceFile) (candidate : String) : Journal (Nat × List SourceFile) :=
  let path := ThemeSearch.slashed candidate
  if filter.accepts path && !has made.2 path then
    match search.locate? fs path with
    | none => return made
    | some dir => do
      let (added, larger) ← append made.2 (.ofPath ⟨path⟩ dir search.site search.directoryUrls)
      return (if added then made.1 + 1 else made.1, larger)
  else return made

/-- What a list of files answers that is searched from the front, and the list
that is left. -/
def perform (files : List SourceFile) : Request → Journal (Answer × List SourceFile)
  | .append f => do
    let (added, larger) ← append files f
    return (.truth added, larger)
  | .remove srcUri =>
    return (.file (files.find? fun f => f.srcUri = srcUri),
      files.eraseP fun f => f.srcUri = srcUri)
  | .get srcUri => return (.file (files.find? fun f => f.srcUri = srcUri), files)
  | .change srcUri edits =>
    return (.file (files.find? fun f => f.srcUri = srcUri),
      files.modify (files.findIdx fun f => f.srcUri = srcUri) (Edit.applyAll edits))
  | .contains srcUri => return (.truth (has files srcUri), files)
  | .index => return (.index (files.map SourceFile.srcUri).zipIdx, files)
  | .list => return (.list files, files)
  | .visit edits => return (.done, files.mapIdx fun n f => Edit.applyAll (edits.getD n []) f)
  | .addThemeFiles fs search candidates =>
    match ThemeFilter.ofTemplates search.templates with
    | .error refusal => return (.count (.error refusal), files)
    | .ok filter => do
      let (added, larger) ← candidates.foldlM (addCandidate fs search filter) (0, files)
      return (.count (.ok added), larger)

end Listing

/-! ## One operation -/

/-- What is seen of an answer and the catalog that is left: the files. -/
def seen {α : Type} (answer : α × Catalog) : α × List SourceFile :=
  (answer.1, answer.2.files)

theorem append_listing (c : Catalog) (f : SourceFile) :
    seen <$> c.append f = Listing.append c.files f := by
  ext1
  · rw [Journal.events_map, c.events_append, Listing.append, Listing.has]
    split <;> simp_all [Journal.report]
  · rw [Journal.value_map, seen, c.fst_value_append, c.files_append, Listing.append, Listing.has]
    split <;> simp_all

/-- Two folds of which one sees what the other does. -/
theorem map_foldlM {α β γ : Type} {view : α → β} {step : α → γ → Journal α}
    {step' : β → γ → Journal β} (h : ∀ a x, view <$> step a x = step' (view a) x) (a : α)
    (xs : List γ) : view <$> xs.foldlM step a = xs.foldlM step' (view a) := by
  induction xs generalizing a with
  | nil => simp
  | cons x rest ih => simp [← h, ih]

theorem ofFiles_listing (files : List SourceFile) :
    Catalog.files <$> Catalog.ofFiles files = Listing.ofFiles files := by
  refine map_foldlM (fun c f => ?_) Catalog.empty files
  rw [← append_listing]
  simp [seen]

theorem addCandidate_listing (fs : FileSystem) (search : ThemeSearch) (filter : ThemeFilter)
    (made : Nat × Catalog) (candidate : String) :
    seen <$> Catalog.addCandidate fs search filter made candidate =
      Listing.addCandidate fs search filter (seen made) candidate := by
  have hknown := made.2.fst_contains (ThemeSearch.slashed candidate)
  rw [Catalog.addCandidate, Listing.addCandidate, Listing.has]
  by_cases haccepts : filter.accepts (ThemeSearch.slashed candidate)
  · by_cases hhas : (made.2.files.any fun f => f.srcUri = ThemeSearch.slashed candidate)
    · rw [hhas] at hknown
      simp [haccepts, hknown, hhas, seen]
    · rw [Bool.not_eq_true] at hhas
      rw [hhas] at hknown
      cases hlocate : search.locate? fs (ThemeSearch.slashed candidate) with
      | none => simp [haccepts, hknown, hhas, seen]
      | some dir =>
        have happend := append_listing (made.2.contains (ThemeSearch.slashed candidate)).2
          (.ofPath ⟨ThemeSearch.slashed candidate⟩ dir search.site search.directoryUrls)
        rw [Catalog.files_contains] at happend
        simp [haccepts, hknown, hhas, ← happend, seen]
        rfl
  · simp [haccepts, seen]

theorem addThemeFiles_eq (c : Catalog) (fs : FileSystem) (search : ThemeSearch)
    (candidates : List String) :
    c.addThemeFiles fs search candidates =
      (ThemeFilter.ofTemplates search.templates).map fun filter =>
        candidates.foldlM (Catalog.addCandidate fs search filter) (0, c) := by
  rw [Catalog.addThemeFiles]
  cases ThemeFilter.ofTemplates search.templates <;> rfl

/-- The files changed one after the other are those changed by position. -/
theorem visitFiles_applyNext (files : List SourceFile) (edits : List (List Edit)) :
    (Catalog.visitFiles Edit.applyNext edits files).1 =
      files.mapIdx fun n f => Edit.applyAll (edits.getD n []) f := by
  induction files generalizing edits with
  | nil => rfl
  | cons f rest ih =>
    cases edits with
    | nil => simp [Catalog.visitFiles, Edit.applyNext, Edit.applyAll, ih]
    | cons first others => simp [Catalog.visitFiles, Edit.applyNext, ih]

/-- **A catalog answers as its list of files does**, with the same reports, and
leaves the list that the list leaves. -/
theorem perform_listing (c : Catalog) (request : Request) :
    seen <$> perform c request = Listing.perform c.files request := by
  cases request with
  | append f =>
    rw [Listing.perform, ← append_listing]
    simp [Desk.perform, seen]
  | remove srcUri =>
    simp [Desk.perform, Listing.perform, seen, c.fst_remove, c.files_remove_eq_eraseP]
  | get srcUri => simp [Desk.perform, Listing.perform, seen, c.fst_get]
  | change srcUri edits =>
    simp [Desk.perform, Listing.perform, seen, c.fst_update, c.files_update_eq_modify]
  | contains srcUri => simp [Desk.perform, Listing.perform, Listing.has, seen, c.fst_contains]
  | index => simp [Desk.perform, Listing.perform, seen, c.fst_consult]
  | list => simp [Desk.perform, Listing.perform, seen]
  | visit edits =>
    simp [Desk.perform, Listing.perform, seen, Catalog.visit, visitFiles_applyNext]
  | addThemeFiles fs search candidates =>
    rw [Desk.perform, Listing.perform, addThemeFiles_eq]
    cases ThemeFilter.ofTemplates search.templates with
    | error refusal => rfl
    | ok filter =>
      have hfold : _ = candidates.foldlM (Listing.addCandidate fs search filter) (0, c.files) :=
        map_foldlM (addCandidate_listing fs search filter) (0, c) candidates
      simp only [Except.map, ← hfold, map_bind, bind_map_left, map_pure, seen]

/-! ## A session -/

/-- What can be done at a desk of catalogs. -/
inductive Command where
  /-- A catalog of some files is put on the desk. -/
  | make (files : List SourceFile)
  /-- A copy of the catalog of a number is put on the desk. -/
  | copy (n : Nat)
  /-- Something is asked of the catalog of a number. -/
  | ask (n : Nat) (request : Request)

section Session

variable {α β : Type} (make : List SourceFile → Journal α)
  (perform : α → Request → Journal (Answer × α))

/-- What is answered to a command, and the desk that is left.  A number that
belongs to nothing is not answered. -/
def obey (desk : List α) : Command → Journal (Option Answer × List α)
  | .make files => do
    let made ← make files
    return (none, desk ++ [made])
  | .copy n => return (none, desk ++ desk[n]?.toList)
  | .ask n request =>
    match desk[n]? with
    | none => return (none, desk)
    | some asked => do
      let (answer, left) ← perform asked request
      return (some answer, desk.set n left)

/-- The answers to a row of commands, and the desk that is left. -/
def session : List Command → List α → Journal (List (Option Answer) × List α)
  | [], desk => return ([], desk)
  | command :: rest, desk => do
    let (answer, desk) ← obey make perform desk command
    let (answers, desk) ← session rest desk
    return (answer :: answers, desk)

variable {make perform} {make' : List SourceFile → Journal β}
  {perform' : β → Request → Journal (Answer × β)} {view : α → β}

theorem obey_map (hmake : ∀ files, view <$> make files = make' files)
    (hperform : ∀ asked request,
      (fun done => (done.1, view done.2)) <$> perform asked request = perform' (view asked) request)
    (desk : List α) (command : Command) :
    (fun done => (done.1, done.2.map view)) <$> obey make perform desk command =
      obey make' perform' (desk.map view) command := by
  cases command with
  | make files => simp [obey, ← hmake]
  | copy n => simp [obey, List.getElem?_map]; cases desk[n]? <;> rfl
  | ask n request =>
    rw [obey, obey, List.getElem?_map]
    cases desk[n]? with
    | none => simp
    | some asked => simp [← hperform, List.map_set]

/-- Where every single operation is seen as another, so is every session. -/
theorem session_map (hmake : ∀ files, view <$> make files = make' files)
    (hperform : ∀ asked request,
      (fun done => (done.1, view done.2)) <$> perform asked request = perform' (view asked) request)
    (commands : List Command) (desk : List α) :
    (fun done => (done.1, done.2.map view)) <$> session make perform commands desk =
      session make' perform' commands (desk.map view) := by
  induction commands generalizing desk with
  | nil => simp [session]
  | cons command rest ih =>
    rw [session, session, ← obey_map hmake hperform]
    simp [← ih]

end Session

/-! ## A session with catalogs -/

/-- A catalog that is a map from names to files in the order in which they came. -/
structure IsOrderedMap (c : Catalog) : Prop where
  /-- No two files have the same name. -/
  distinct : c.srcUris.Nodup
  /-- The index has each name at its position, and nothing else. -/
  positions : ∀ srcUri n, (srcUri, n) ∈ c.consult.1 ↔ c.srcUris[n]? = some srcUri
  /-- A file whose name is taken is refused. -/
  append_known : ∀ f, f.srcUri ∈ c.srcUris →
    (c.append f).value.1 = false ∧ (c.append f).value.2.files = c.files
  /-- A file whose name is new goes to the end. -/
  append_new : ∀ f, f.srcUri ∉ c.srcUris →
    (c.append f).value.1 = true ∧ (c.append f).value.2.files = c.files ++ [f]
  /-- What is not taken out stays in its order. -/
  remove : ∀ srcUri, (c.remove srcUri).2.files = c.files.filter fun f => f.srcUri ≠ srcUri

theorem any_srcUri_iff (c : Catalog) (srcUri : String) :
    (c.files.any fun f => f.srcUri = srcUri) = true ↔ srcUri ∈ c.srcUris := by
  simp [Catalog.srcUris]

theorem isOrderedMap (c : Catalog) : IsOrderedMap c where
  distinct := c.distinct
  positions srcUri n := by
    rw [c.fst_consult, List.mem_zipIdx_iff_getElem?]
    rfl
  append_known f hf := by
    rw [c.fst_value_append, c.files_append, (any_srcUri_iff c f.srcUri).2 hf]
    exact ⟨rfl, rfl⟩
  append_new f hf := by
    have hany : (c.files.any fun g => g.srcUri = f.srcUri) = false := by
      rw [← Bool.not_eq_true, any_srcUri_iff]
      exact hf
    rw [c.fst_value_append, c.files_append, hany]
    exact ⟨rfl, rfl⟩
  remove := c.files_remove

/-- **Catalogs are ordered maps, whatever is done with them.**  A session with
catalogs gives the answers and the reports of the session with plain lists, it
leaves the same files, and every catalog that it leaves is an ordered map. -/
theorem session_listing (commands : List Command) (desk : List Catalog) :
    (fun done => (done.1, done.2.map Catalog.files)) <$>
        session Catalog.ofFiles Desk.perform commands desk =
      session Listing.ofFiles Listing.perform commands (desk.map Catalog.files) ∧
    ∀ c ∈ (session Catalog.ofFiles Desk.perform commands desk).value.2, IsOrderedMap c :=
  ⟨session_map ofFiles_listing perform_listing commands desk, fun c _ => isOrderedMap c⟩

/-- Three files; the last is looked up, the one in the middle is taken out, and the
last is changed and looked up again. -/
def lookupsAroundRemoval : List Command :=
  [.make (["a.md", "b.md", "c.css"].map fun name => .ofPath ⟨name⟩ ⟨"docs"⟩ ⟨"site"⟩ true),
    .ask 0 (.get "c.css"), .ask 0 (.remove "b.md"), .ask 0 (.change "c.css" [.attach ⟨7⟩]),
    .ask 0 (.contains "b.md")]

theorem exists_isOrderedMap_lookupsAroundRemoval :
    ∃ c ∈ (session Catalog.ofFiles Desk.perform lookupsAroundRemoval []).value.2,
      c.files.map SourceFile.page = [none, some ⟨7⟩] ∧ IsOrderedMap c := by
  have hleft : (session Catalog.ofFiles Desk.perform lookupsAroundRemoval []).value.2.map
      (fun c => c.files.map SourceFile.page) = [[none, some ⟨7⟩]] := by
    decide +kernel
  obtain ⟨c, hc, hpages⟩ := List.mem_map.1 (hleft ▸ List.mem_singleton_self _)
  exact ⟨c, hc, hpages, (session_listing lookupsAroundRemoval []).2 c hc⟩

end Desk
end DocSite
