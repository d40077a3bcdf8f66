import DocSite.Event
import DocSite.SourceFile

/-!
# The files of a site

A catalog holds the files of a site in the order in which they were found, and
never two files of one name.  A file that is already there is refused and
reported, not replaced: whoever adds first wins, which is how files of the
documentation come before those of a theme.

## The index

Files are asked for by name far more often than they are added, so a catalog
keeps an index from names to positions.  It is built when somebody first asks,
and it is dropped when a file comes or goes, because every later file then
stands elsewhere.  Asking is therefore an operation that leaves a catalog
behind: `consult`, `get` and `contains` answer together with the catalog in
which the index is there.  What may be changed about a file in place is
everything but its name, so such a change leaves the index as it is.

Two things hold of every catalog, and they are part of the type: no name occurs
twice, and an index that is there is the one that would be built now.  Each
operation below rebuilds both proofs.  The second is the one that a forgotten
`index := none` would break.
-/

namespace DocSite

/-- Where names stand. -/
abbrev Positions := List (String × Nat)

/-- Where the names of some files stand. -/
def positionsOf (files : List SourceFile) : Positions :=
  (files.map SourceFile.srcUri).zipIdx

theorem lookup_zipIdx (names : List String) (start : Nat) (name : String) :
    (names.zipIdx start).lookup name =
      (names.findIdx? fun other => other = name).map (· + start) := by
  induction names generalizing start with
  | nil => rfl
  | cons other rest ih =>
    rw [List.zipIdx_cons, List.lookup_cons, List.findIdx?_cons, ih]
    by_cases h : name = other
    · subst h
      simp
    · have hne : ¬ other = name := fun heq => h heq.symm
      simp [beq_eq_false_iff_ne.2 h, hne, Function.comp_def, Nat.add_comm, Nat.add_left_comm]

/-- The index finds a name where a search of the files finds it. -/
theorem lookup_positionsOf (files : List SourceFile) (srcUri : String) :
    (positionsOf files).lookup srcUri = files.findIdx? fun f => f.srcUri = srcUri := by
  simp [positionsOf, lookup_zipIdx, List.findIdx?_map, Function.comp_def]

/-- What a change leaves of an entry stays the same of all of them. -/
theorem map_modify_eq {α β : Type} {g : α → β} {change : α → α} (h : ∀ a, g (change a) = g a)
    (n : Nat) (entries : List α) : (entries.modify n change).map g = entries.map g := by
  induction entries generalizing n with
  | nil => cases n <;> rfl
  | cons a rest ih => cases n <;> simp [h, ih]

/-- Files in order, no two of one name, and perhaps where their names stand. -/
structure Catalog where
  files : List SourceFile
  /-- The index, if somebody has asked since a file last came or went. -/
  index : Option Positions
  distinct : (files.map SourceFile.srcUri).Nodup
  indexed : ∀ positions ∈ index, positions = positionsOf files

namespace Catalog

/-- The catalog without files. -/
def empty : Catalog :=
  ⟨[], none, by simp, by simp⟩

instance : Inhabited Catalog := ⟨empty⟩

/-- The names of the files in order. -/
def srcUris (c : Catalog) : List String :=
  c.files.map SourceFile.srcUri

/-- The number of files. -/
def size (c : Catalog) : Nat :=
  c.files.length

/-! ## Asking -/

/-- Where the names stand: what the index says, or what it would say. -/
def positions (c : Catalog) : Positions :=
  c.index.getD (positionsOf c.files)

theorem positions_eq (c : Catalog) : c.positions = positionsOf c.files := by
  cases h : c.index with
  | none => simp [positions, h]
  | some found => simpa [positions, h] using c.indexed found (by simp [h])

/-- The same files, with the index there. -/
def indexBuilt (c : Catalog) : Catalog :=
  ⟨c.files, some c.positions, c.distinct, by simp [positions_eq]⟩

@[simp] theorem files_indexBuilt (c : Catalog) : c.indexBuilt.files = c.files := rfl

/-- The index of a catalog. -/
def consult (c : Catalog) : Positions × Catalog :=
  (c.positions, c.indexBuilt)

/-- The position at which the index of a catalog has a name. -/
def position? (c : Catalog) (srcUri : String) : Option Nat :=
  c.positions.lookup srcUri

theorem position?_eq (c : Catalog) (srcUri : String) :
    c.position? srcUri = c.files.findIdx? fun f => f.srcUri = srcUri := by
  rw [position?, positions_eq, lookup_positionsOf]

/-- Whether there is a file of a name. -/
def contains (c : Catalog) (srcUri : String) : Bool × Catalog :=
  ((c.position? srcUri).isSome, c.indexBuilt)

/-- The file of a name. -/
def get (c : Catalog) (srcUri : String) : Option SourceFile × Catalog :=
  ((c.position? srcUri).bind fun n => c.files[n]?, c.indexBuilt)

/-! ## Adding and removing -/

theorem nodup_append_of_position?_eq_none {c : Catalog} {f : SourceFile}
    (h : c.position? f.srcUri = none) : ((c.files ++ [f]).map SourceFile.srcUri).Nodup := by
  rw [position?_eq, List.findIdx?_eq_none_iff] at h
  rw [List.map_append, List.nodup_append]
  refine ⟨c.distinct, by simp, ?_⟩
  intro srcUri hmem other hother
  obtain ⟨g, hg, rfl⟩ := List.mem_map.1 hmem
  rw [List.map_singleton, List.mem_singleton] at hother
  rw [hother]
  simpa using h g hg

/-- A file put at the end, if its name is new; a file whose name is taken is
reported and left out.  The answer says which. -/
def append (c : Catalog) (f : SourceFile) : Journal (Bool × Catalog) :=
  match h : c.position? f.srcUri with
  | some _ => do
    Journal.report (.duplicateFile f.srcUri)
    return (false, c.indexBuilt)
  | none =>
    return (true, ⟨c.files ++ [f], none, nodup_append_of_position?_eq_none h, by simp⟩)

/-- The catalog of a list of files, the first of each name. -/
def ofFiles (files : List SourceFile) : Journal Catalog :=
  files.foldlM (fun c f => return (← c.append f).2) empty

/-- The file of a name taken out. -/
def remove (c : Catalog) (srcUri : String) : Option SourceFile × Catalog :=
  match c.position? srcUri with
  | none => (none, c.indexBuilt)
  | some n =>
    (c.files[n]?, ⟨c.files.eraseIdx n, none,
      c.distinct.sublist ((List.eraseIdx_sublist ..).map _), by simp⟩)

/-! ## Changing files in place -/

/-- The file at a position changed in a way that keeps its name. -/
def modifyAt (c : Catalog) (n : Nat) (change : SourceFile → SourceFile)
    (h : ∀ f, (change f).srcUri = f.srcUri) : Catalog :=
  ⟨c.files.modify n change, c.index, by rw [map_modify_eq h]; exact c.distinct,
    by rw [positionsOf, map_modify_eq h]; exact c.indexed⟩

/-- The file of a name as it is, and the catalog in which it is changed in a way
that keeps the name. -/
def update (c : Catalog) (srcUri : String) (change : SourceFile → SourceFile)
    (h : ∀ f, (change f).srcUri = f.srcUri) : Option SourceFile × Catalog :=
  match c.position? srcUri with
  | none => (none, c.indexBuilt)
  | some n => (c.files[n]?, c.indexBuilt.modifyAt n change h)

/-- Files changed one after the other by a step that remembers something. -/
def visitFiles {σ : Type} (step : σ → SourceFile → SourceFile × σ) :
    σ → List SourceFile → List SourceFile × σ
  | s, [] => ([], s)
  | s, f :: rest =>
    let (g, s) := step s f
    let (visited, s) := visitFiles step s rest
    (g :: visited, s)

/-- What every step leaves of a file stays the same of all of them. -/
theorem map_visitFiles_eq {σ β : Type} {g : SourceFile → β}
    {step : σ → SourceFile → SourceFile × σ} (h : ∀ s f, g (step s f).1 = g f) (s : σ)
    (files : List SourceFile) : (visitFiles step s files).1.map g = files.map g := by
  induction files generalizing s with
  | nil => rfl
  | cons f rest ih => simp [visitFiles, h, ih]

/-- Every file changed, in order, by a step that keeps names and remembers
something. -/
def visit {σ : Type} (c : Catalog) (step : σ → SourceFile → SourceFile × σ)
    (h : ∀ s f, (step s f).1.srcUri = f.srcUri) (s : σ) : Catalog × σ :=
  (⟨(visitFiles step s c.files).1, c.index, by rw [map_visitFiles_eq h]; exact c.distinct,
    by rw [positionsOf, map_visitFiles_eq h]; exact c.indexed⟩, (visitFiles step s c.files).2)

/-- Every file changed in a way that keeps its name. -/
def mapFiles (c : Catalog) (change : SourceFile → SourceFile)
    (h : ∀ f, (change f).srcUri = f.srcUri) : Catalog :=
  (c.visit (fun (_ : Unit) f => (change f, ())) (fun _ f => h f) ()).1

@[simp] theorem files_mapFiles (c : Catalog) (change : SourceFile → SourceFile)
    (h : ∀ f, (change f).srcUri = f.srcUri) :
    (c.mapFiles change h).files = c.files.map change := by
  show (visitFiles (fun (_ : Unit) f => (change f, ())) () c.files).1 = _
  induction c.files with
  | nil => rfl
  | cons f rest ih => simp [visitFiles, ih]

/-- The file of a name given a page, unless it has one. -/
def attach (c : Catalog) (srcUri : String) (id : PageId) : Option SourceFile × Catalog :=
  c.update srcUri (fun f => f.attach id) (by simp)

/-- The page of the file of a name taken away. -/
def detach (c : Catalog) (srcUri : String) : Option SourceFile × Catalog :=
  c.update srcUri SourceFile.detach (by simp)

/-- All files without their pages. -/
def detachAll (c : Catalog) : Catalog :=
  c.mapFiles SourceFile.detach (by simp)

/-- The file of a name published elsewhere or in the other style. -/
def publish (c : Catalog) (srcUri : String) (site : Path) (directoryUrls : Bool) :
    Option SourceFile × Catalog :=
  c.update srcUri (fun f => f.publishedAt site directoryUrls) (by simp)

/-- All files published elsewhere or in the other style. -/
def publishAll (c : Catalog) (site : Path) (directoryUrls : Bool) : Catalog :=
  c.mapFiles (fun f => f.publishedAt site directoryUrls) (by simp)

/-! ## Files of one kind -/

/-- The Markdown files. -/
def documentation (c : Catalog) : List SourceFile :=
  c.files.filter SourceFile.isDocumentation

/-- The documents that are published as they are. -/
def staticPages (c : Catalog) : List SourceFile :=
  c.files.filter SourceFile.isStaticPage

/-- The files that are no documents. -/
def media (c : Catalog) : List SourceFile :=
  c.files.filter SourceFile.isMedia

/-- The scripts. -/
def scripts (c : Catalog) : List SourceFile :=
  c.files.filter SourceFile.isScript

/-- The style sheets. -/
def stylesheets (c : Catalog) : List SourceFile :=
  c.files.filter SourceFile.isStylesheet

end Catalog
end DocSite
