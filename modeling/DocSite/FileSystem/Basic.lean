import DocSite.Path.Normal

/-!
# A file system

A file system is a list of places, each with what stands there: a file with its
bytes and the time at which they were written, a directory, or a symbolic link
with the text that it leads to.  A place is the list of names that lead to it
from the root; the root itself is not listed, because it is always there and
always a directory.  The list is in the order in which the places came to be,
and that is the order in which a directory is listed.

Three things hold of every file system, and they are part of the type: no place
is listed twice, every place lies in a directory, and every name is one that a
file can have.  So a place can be looked up by itself, without walking to it,
and what is below a directory is what has the directory's place as a beginning.

Names are texts.  An operating system lets a name be any row of bytes, and a name
that is not the UTF-8 form of a text has no place here.

A file may have several names: hard links, as they are called, though they are
not links, for none of them leads to another.  The file is what stands at each of
its places, and writing to one place writes the file.  Which places these are is
kept beside the list (`hardLinked`); every other file has one name.

Nothing that stands somewhere is closed to a program.  It can read every file, and
list every directory.

A file system also knows the place from which relative paths are read, and what
time it is.  The time does not pass: it is later than that of any file that was
there before a program started, and that is all a program can tell.
-/

namespace DocSite

/-- The names that lead from the root to a place. -/
abbrev Location := List String

/-- What stands at a place. -/
inductive Entry where
  | file (content : ByteArray) (mtime : Nat)
  | directory
  | link (target : String)
  deriving Inhabited

/-- Two entries are the same when they are of one kind and hold the same. -/
instance : DecidableEq Entry
  | .file c m, .file d n =>
    decidable_of_decidable_of_iff (p := c.data = d.data ∧ m = n)
      (by rw [Entry.file.injEq, ByteArray.ext_iff])
  | .directory, .directory => isTrue rfl
  | .link s, .link t =>
    decidable_of_decidable_of_iff (p := s = t) (by rw [Entry.link.injEq])
  | .file .., .directory | .file .., .link _ | .directory, .file .. | .directory, .link _
  | .link _, .file .. | .link _, .directory => isFalse nofun

/-- A name that a file or directory can have. -/
def IsLegalName (name : String) : Prop :=
  name ≠ "" ∧ name ≠ "." ∧ name ≠ ".." ∧ SlashFree name

instance (name : String) : Decidable (IsLegalName name) :=
  inferInstanceAs (Decidable (_ ∧ _ ∧ _ ∧ _))

/-- What a place in a list of places holds; the root is always a directory. -/
def lookupEntry (entries : List (Location × Entry)) (place : Location) : Option Entry :=
  if place = [] then some .directory else entries.lookup place

/-- Where there are no files, no two have a place in common. -/
theorem pairwise_disjoint_nil : ([] : List (List Location)).Pairwise
    fun names others => ∀ place ∈ names, place ∉ others :=
  List.Pairwise.nil

/-- A file system as a running program sees it. -/
structure FileSystem where
  entries : List (Location × Entry)
  /-- The place from which relative paths are read. -/
  cwd : Location
  /-- The time, in seconds. -/
  clock : Nat
  distinct : (entries.map Prod.fst).Nodup
  grounded : ∀ e ∈ entries, e.1 ≠ [] ∧ lookupEntry entries e.1.dropLast = some .directory
  legal : ∀ e ∈ entries, ∀ name ∈ e.1, IsLegalName name
  /-- The files that have several names, each by the places of its names. -/
  hardLinked : List (List Location) := []
  /-- No place is that of two files. -/
  hardLinked_disjoint :
    hardLinked.Pairwise fun names others => ∀ place ∈ names, place ∉ others := by
      exact pairwise_disjoint_nil
  /-- At all places of a file the same file stands. -/
  hardLinked_file : ∀ names ∈ hardLinked, ∃ content mtime,
    ∀ place ∈ names, (place, Entry.file content mtime) ∈ entries := by simp

namespace FileSystem

/-- The file system in which only the root is there. -/
def empty (cwd : Location) (clock : Nat) : FileSystem where
  entries := []
  cwd
  clock
  distinct := by simp
  grounded := by simp
  legal := by simp

instance : Inhabited FileSystem := ⟨empty [] 0⟩

/-- What stands at a place. -/
def get? (fs : FileSystem) (place : Location) : Option Entry :=
  lookupEntry fs.entries place

/-- The places that are directories, the root first. -/
def directories (fs : FileSystem) : List Location :=
  [] :: (fs.entries.filter fun e => e.2 = .directory).map Prod.fst

theorem lookup_eq_some_of_mem {entries : List (Location × Entry)}
    (hdistinct : (entries.map Prod.fst).Nodup) {e : Location × Entry} (h : e ∈ entries) :
    entries.lookup e.1 = some e.2 := by
  induction entries with
  | nil => simp at h
  | cons first rest ih =>
    obtain ⟨place, entry⟩ := first
    simp only [List.map_cons, List.nodup_cons] at hdistinct
    rcases List.mem_cons.1 h with rfl | h
    · simp
    · have hne : e.1 ≠ place := fun heq =>
        hdistinct.1 (heq ▸ List.mem_map_of_mem h)
      simp [List.lookup_cons, beq_eq_false_iff_ne.2 hne, ih hdistinct.2 h]

theorem mem_of_lookup_eq_some {entries : List (Location × Entry)} {place : Location}
    {entry : Entry} (h : entries.lookup place = some entry) : (place, entry) ∈ entries := by
  induction entries with
  | nil => simp at h
  | cons first rest ih =>
    obtain ⟨other, found⟩ := first
    by_cases heq : place = other
    · subst heq
      simp at h
      simp [h]
    · simp only [List.lookup_cons, beq_eq_false_iff_ne.2 heq] at h
      exact List.mem_cons_of_mem _ (ih h)

theorem mem_directories_of_get? {fs : FileSystem} {place : Location}
    (h : fs.get? place = some .directory) : place ∈ fs.directories := by
  unfold get? lookupEntry at h
  split at h
  · simp_all [directories]
  · refine List.mem_cons_of_mem _ (List.mem_map.2 ⟨(place, .directory), ?_, rfl⟩)
    exact List.mem_filter.2 ⟨mem_of_lookup_eq_some h, by simp⟩

/-! ## The names of a file -/

/-- The places of what stands at a place: itself, and the others if it is a file that
has several names. -/
def namesOf (fs : FileSystem) (place : Location) : List Location :=
  (fs.hardLinked.find? fun names => names.contains place).getD [place]

theorem find?_contains_eq_some_of_mem {files : List (List Location)} {names : List Location}
    {place : Location}
    (hdisjoint : files.Pairwise fun names others => ∀ place ∈ names, place ∉ others)
    (hnames : names ∈ files) (hplace : place ∈ names) :
    files.find? (fun names => names.contains place) = some names := by
  induction files with
  | nil => simp at hnames
  | cons first rest ih =>
    obtain ⟨hfirst, hrest⟩ := List.pairwise_cons.1 hdisjoint
    rcases List.mem_cons.1 hnames with rfl | hnames
    · exact List.find?_cons_of_pos (by simpa using hplace)
    · have hnot : place ∉ first := fun hmem => hfirst names hnames place hmem hplace
      rw [List.find?_cons_of_neg (by simpa using hnot), ih hrest hnames]

theorem namesOf_eq_of_mem {fs : FileSystem} {names : List Location} {place : Location}
    (hnames : names ∈ fs.hardLinked) (hplace : place ∈ names) : fs.namesOf place = names := by
  rw [namesOf, find?_contains_eq_some_of_mem fs.hardLinked_disjoint hnames hplace, Option.getD_some]

/-- A place is the only one of what stands there, or one of several names of a file. -/
theorem namesOf_cases (fs : FileSystem) (place : Location) :
    fs.namesOf place = [place] ∧ (∀ names ∈ fs.hardLinked, place ∉ names) ∨
      fs.namesOf place ∈ fs.hardLinked ∧ place ∈ fs.namesOf place := by
  cases hfind : fs.hardLinked.find? fun names => names.contains place with
  | none =>
    refine .inl ⟨by rw [namesOf, hfind, Option.getD_none], fun names hnames hplace => ?_⟩
    simpa [hplace] using List.find?_eq_none.1 hfind names hnames
  | some names =>
    have hplace := List.find?_some hfind
    rw [namesOf, hfind, Option.getD_some]
    exact .inr ⟨List.mem_of_find?_eq_some hfind, by simpa using hplace⟩

/-- Each name of a file has all of them. -/
theorem namesOf_eq_of_mem_namesOf {fs : FileSystem} {place other : Location}
    (h : other ∈ fs.namesOf place) : fs.namesOf other = fs.namesOf place := by
  obtain ⟨honly, -⟩ | ⟨hnames, -⟩ := fs.namesOf_cases place
  · rw [honly] at h
    rw [List.mem_singleton.1 h]
  · exact namesOf_eq_of_mem hnames h

theorem get?_of_mem {fs : FileSystem} {e : Location × Entry} (h : e ∈ fs.entries) :
    fs.get? e.1 = some e.2 := by
  rw [get?, lookupEntry, if_neg (fs.grounded e h).1, lookup_eq_some_of_mem fs.distinct h]

/-- **At all places of a file the same stands.** -/
theorem get?_of_mem_namesOf {fs : FileSystem} {place other : Location}
    (h : other ∈ fs.namesOf place) : fs.get? other = fs.get? place := by
  obtain ⟨honly, -⟩ | ⟨hnames, hplace⟩ := fs.namesOf_cases place
  · rw [honly] at h
    rw [List.mem_singleton.1 h]
  · obtain ⟨content, mtime, hfile⟩ := fs.hardLinked_file _ hnames
    rw [get?_of_mem (hfile other h), get?_of_mem (hfile place hplace)]

/-- A list of places with what stands at some of them replaced. -/
def replaced (entries : List (Location × Entry)) (places : List Location) (entry : Entry) :
    List (Location × Entry) :=
  entries.map fun e => if places.contains e.1 then (e.1, entry) else e

theorem map_fst_replaced (entries : List (Location × Entry)) (places : List Location)
    (entry : Entry) : (replaced entries places entry).map Prod.fst = entries.map Prod.fst := by
  simp only [replaced, List.map_map]
  apply List.map_congr_left
  intro e _
  by_cases h : e.1 ∈ places <;> simp [h]

theorem lookup_replaced_of_not_mem {entries : List (Location × Entry)} {places : List Location}
    {other : Location} (entry : Entry) (h : other ∉ places) :
    (replaced entries places entry).lookup other = entries.lookup other := by
  induction entries with
  | nil => rfl
  | cons first rest ih =>
    obtain ⟨p, e⟩ := first
    rw [replaced, List.map_cons, ← replaced]
    by_cases hp : other = p
    · subst hp
      simp [h]
    · split <;> simp [List.lookup_cons, beq_eq_false_iff_ne.2 hp, ih]

theorem lookup_append_of_isSome {entries more : List (Location × Entry)} {place : Location}
    {entry : Entry} (h : entries.lookup place = some entry) :
    (entries ++ more).lookup place = some entry := by
  simp [List.lookup_append, h]

/-- A file may be put in the place of what is no directory, under all names that it has. -/
def overwrite (fs : FileSystem) (place : Location) (content : ByteArray)
    (h : fs.get? place ≠ some .directory) : FileSystem where
  entries := replaced fs.entries (fs.namesOf place) (.file content fs.clock)
  cwd := fs.cwd
  clock := fs.clock
  distinct := by rw [map_fst_replaced]; exact fs.distinct
  grounded := by
    intro e he
    obtain ⟨old, hold, rfl⟩ := List.mem_map.1 he
    have hplace : (if (fs.namesOf place).contains old.1 then
        (old.1, Entry.file content fs.clock) else old).1 = old.1 := by
      split <;> rfl
    rw [hplace]
    obtain ⟨hne, hdir⟩ := fs.grounded old hold
    refine ⟨hne, ?_⟩
    unfold lookupEntry at hdir ⊢
    split
    · rfl
    · rename_i hroot
      rw [if_neg hroot] at hdir
      -- The directory around a file is not the file, so it is still there.
      rw [lookup_replaced_of_not_mem]
      · exact hdir
      · intro hmem
        refine h ((get?_of_mem_namesOf hmem).symm.trans ?_)
        rw [get?, lookupEntry, if_neg hroot, hdir]
  legal := by
    intro e he
    obtain ⟨old, hold, rfl⟩ := List.mem_map.1 he
    intro name hname
    refine fs.legal old hold name ?_
    split at hname <;> exact hname
  hardLinked := fs.hardLinked
  hardLinked_disjoint := fs.hardLinked_disjoint
  hardLinked_file := by
    intro names hnames
    obtain ⟨old, mtime, hfile⟩ := fs.hardLinked_file names hnames
    by_cases heq : fs.namesOf place = names
    · refine ⟨content, fs.clock, fun other hother => List.mem_map.2 ⟨_, hfile other hother, ?_⟩⟩
      rw [if_pos (List.contains_iff_mem.2 (heq ▸ hother))]
    · -- a file with other names is another one
      refine ⟨old, mtime, fun other hother => List.mem_map.2 ⟨_, hfile other hother, if_neg ?_⟩⟩
      intro hcontains
      have hmem := List.contains_iff_mem.1 hcontains
      exact heq ((namesOf_eq_of_mem_namesOf hmem).symm.trans (namesOf_eq_of_mem hnames hother))

/-- Something new may be put into a directory under a legal name. -/
def insert (fs : FileSystem) (dir : Location) (name : String) (entry : Entry)
    (hdir : fs.get? dir = some .directory) (hnew : fs.get? (dir ++ [name]) = none)
    (hname : IsLegalName name) (hlegal : ∀ n ∈ dir, IsLegalName n) : FileSystem where
  entries := fs.entries ++ [(dir ++ [name], entry)]
  cwd := fs.cwd
  clock := fs.clock
  distinct := by
    rw [List.map_append, List.nodup_append]
    refine ⟨fs.distinct, by simp, ?_⟩
    simp only [List.map_cons, List.map_nil, List.mem_singleton, forall_eq]
    intro place hplace heq
    obtain ⟨e, he, rfl⟩ := List.mem_map.1 hplace
    have hsome := lookup_eq_some_of_mem fs.distinct he
    rw [heq] at hsome
    simp [get?, lookupEntry, hsome] at hnew
  grounded := by
    intro e he
    have keep : ∀ place, lookupEntry fs.entries place = some .directory →
        lookupEntry (fs.entries ++ [(dir ++ [name], entry)]) place = some .directory := by
      intro place hplace
      unfold lookupEntry at hplace ⊢
      split
      · rfl
      · rename_i hroot
        rw [if_neg hroot] at hplace
        exact lookup_append_of_isSome hplace
    rcases List.mem_append.1 he with he | he
    · exact ⟨(fs.grounded e he).1, keep _ (fs.grounded e he).2⟩
    · rw [List.mem_singleton.1 he]
      exact ⟨by simp, keep _ (by simpa [get?] using hdir)⟩
  legal := by
    intro e he n hn
    rcases List.mem_append.1 he with he | he
    · exact fs.legal e he n hn
    · rw [List.mem_singleton.1 he] at hn
      rcases List.mem_append.1 hn with hn | hn
      · exact hlegal n hn
      · rw [List.mem_singleton.1 hn]; exact hname
  hardLinked := fs.hardLinked
  hardLinked_disjoint := fs.hardLinked_disjoint
  hardLinked_file := by
    intro names hnames
    obtain ⟨content, mtime, hfile⟩ := fs.hardLinked_file names hnames
    exact ⟨content, mtime, fun place hplace => List.mem_append_left _ (hfile place hplace)⟩

theorem legal_of_get? {fs : FileSystem} {place : Location} {entry : Entry}
    (h : fs.get? place = some entry) : ∀ n ∈ place, IsLegalName n := by
  unfold get? lookupEntry at h
  split at h
  · simp_all
  · exact fs.legal _ (mem_of_lookup_eq_some h)

theorem disjoint_map_filter {files : List (List Location)}
    (h : files.Pairwise fun names others => ∀ place ∈ names, place ∉ others)
    (keep : Location → Bool) :
    (files.map fun names => names.filter keep).Pairwise
      fun names others => ∀ place ∈ names, place ∉ others := by
  refine h.map _ fun names others hdisjoint place hplace => ?_
  have hnot := hdisjoint place (List.mem_filter.1 hplace).1
  exact fun hmem => hnot (List.mem_filter.1 hmem).1

/-- The names that a file keeps are names of the file that is kept. -/
theorem exists_file_of_mem_map_filter (fs : FileSystem) (keep : Location → Bool) :
    ∀ names ∈ fs.hardLinked.map fun names => names.filter keep, ∃ content mtime,
      ∀ place ∈ names, (place, Entry.file content mtime) ∈ fs.entries.filter fun e => keep e.1 := by
  intro names hnames
  obtain ⟨before, hbefore, rfl⟩ := List.mem_map.1 hnames
  obtain ⟨content, mtime, hfile⟩ := fs.hardLinked_file before hbefore
  refine ⟨content, mtime, fun place hplace => ?_⟩
  obtain ⟨hmem, hkept⟩ := List.mem_filter.1 hplace
  exact List.mem_filter.2 ⟨hfile place hmem, hkept⟩

/-- A place and everything below it may be taken away. -/
def erase (fs : FileSystem) (place : Location) : FileSystem where
  entries := fs.entries.filter fun e => !place.isPrefixOf e.1
  cwd := fs.cwd
  clock := fs.clock
  distinct := fs.distinct.sublist ((List.filter_sublist).map _)
  grounded := by
    intro e he
    obtain ⟨hmem, hout⟩ := List.mem_filter.1 he
    obtain ⟨hne, hdir⟩ := fs.grounded e hmem
    refine ⟨hne, ?_⟩
    unfold lookupEntry at hdir ⊢
    split
    · rfl
    · rename_i hroot
      rw [if_neg hroot] at hdir
      have hkept : (e.1.dropLast, Entry.directory) ∈
          fs.entries.filter fun e => !place.isPrefixOf e.1 := by
        refine List.mem_filter.2 ⟨mem_of_lookup_eq_some hdir, ?_⟩
        simp only [Bool.not_eq_true', ← Bool.not_eq_true, List.isPrefixOf_iff_prefix] at hout ⊢
        exact fun hp => hout (hp.trans (List.dropLast_prefix e.1))
      exact lookup_eq_some_of_mem (fs.distinct.sublist ((List.filter_sublist).map _)) hkept
  legal := fun e he => fs.legal e (List.mem_filter.1 he).1
  hardLinked := fs.hardLinked.map fun names => names.filter fun other => !place.isPrefixOf other
  hardLinked_disjoint := disjoint_map_filter fs.hardLinked_disjoint _
  hardLinked_file := fs.exists_file_of_mem_map_filter _

/-- The file system as it is seen from another place. -/
def seenFrom (fs : FileSystem) (cwd : Location) : FileSystem :=
  { fs with cwd }

end FileSystem
end DocSite
