import Mathlib.Data.List.Nodup
import DocSite.FileSystem.Resolve
import DocSite.Proofs.Refusal

/-!
# What looking up depends on

A file system is a list of places, and the order of the list is the order in
which directories are listed.  Nothing else depends on it: where a path leads is
decided by what stands at each place (`follow_congr`), and so is which names a
directory has (`mem_namesIn?_iff`), each of them once.  Two lists of the same
places with the same entries are therefore one file system whose directories are
listed in two orders (`get?_eq_of_perm`).
-/

namespace DocSite
namespace FileSystem

variable {fs other : FileSystem}

theorem lookup_eq_some_iff {entries : List (Location × Entry)}
    (h : (entries.map Prod.fst).Nodup) (place : Location) (entry : Entry) :
    entries.lookup place = some entry ↔ (place, entry) ∈ entries :=
  ⟨mem_of_lookup_eq_some, fun hmem => lookup_eq_some_of_mem h hmem⟩

/-- What stands at a place does not depend on the order of the places. -/
theorem get?_eq_of_perm (h : other.entries.Perm fs.entries) (place : Location) :
    other.get? place = fs.get? place := by
  rw [get?, get?, lookupEntry, lookupEntry]
  split
  · rfl
  · apply Option.ext
    intro entry
    rw [lookup_eq_some_iff other.distinct, lookup_eq_some_iff fs.distinct, h.mem_iff]

theorem get?_append_singleton (place : Location) (name : String) :
    fs.get? (place ++ [name]) = fs.entries.lookup (place ++ [name]) := by
  rw [get?, lookupEntry, if_neg (by simp)]

/-! ## The names in a directory -/

theorem dropLast_eq_and_getLast?_eq_iff {place around : Location} {name : String} :
    place.dropLast = around ∧ place.getLast? = some name ↔ place = around ++ [name] := by
  constructor
  · rintro ⟨rfl, hlast⟩
    exact (List.dropLast_append_getLast? name hlast).symm
  · rintro rfl
    simp

/-- A directory has the names under which something stands in it. -/
theorem mem_namesIn?_iff {place : Location} {names : List String}
    (h : fs.namesIn? place = some names) (name : String) :
    name ∈ names ↔ (fs.get? (place ++ [name])).isSome := by
  rw [namesIn?] at h
  split at h
  · obtain rfl := Option.some.inj h
    rw [get?_append_singleton, Option.isSome_iff_exists, List.mem_filterMap]
    constructor
    · rintro ⟨e, he, hname⟩
      split at hname
      · rename_i haround
        have hplace := dropLast_eq_and_getLast?_eq_iff.1 ⟨haround, hname⟩
        exact ⟨e.2, hplace ▸ lookup_eq_some_of_mem fs.distinct he⟩
      · simp at hname
    · rintro ⟨entry, hentry⟩
      exact ⟨(place ++ [name], entry), mem_of_lookup_eq_some hentry, by simp⟩
  · simp at h

/-- Each name of a directory is listed once. -/
theorem nodup_of_namesIn? {place : Location} {names : List String}
    (h : fs.namesIn? place = some names) : names.Nodup := by
  rw [namesIn?] at h
  split at h
  · obtain rfl := Option.some.inj h
    have hnames := fs.distinct.filterMap
      (f := fun other => if other.dropLast = place then other.getLast? else none) (by
        intro first second name hfirst hsecond
        split at hfirst
        · split at hsecond
          · rename_i hdir hdir'
            rw [dropLast_eq_and_getLast?_eq_iff.1 ⟨hdir, hfirst⟩,
              dropLast_eq_and_getLast?_eq_iff.1 ⟨hdir', hsecond⟩]
          · simp at hsecond
        · simp at hfirst)
    rwa [List.filterMap_map] at hnames
  · simp at h

theorem exists_namesIn?_of_get? {place : Location} (h : fs.get? place = some .directory) :
    ∃ names, fs.namesIn? place = some names :=
  ⟨_, if_pos h⟩

/-! ## Where paths lead -/

/-- Where a path leads depends on nothing but what stands at each place. -/
theorem follow_congr (h : ∀ place, other.get? place = fs.get? place) (followLast : Bool)
    (budget : Nat) (here : Location) (steps : List String) :
    other.follow followLast budget here steps = fs.follow followLast budget here steps := by
  fun_induction follow fs followLast budget here steps <;> rw [follow] <;> grind

/-- What a path leads to is what stands at the place to which it leads. -/
theorem get?_of_follow {followLast : Bool} {budget : Nat} {here : Location} {steps : List String}
    {place : Location} {entry : Entry}
    (h : fs.follow followLast budget here steps = .ok (.present place entry)) :
    fs.get? place = some entry := by
  fun_induction follow fs followLast budget here steps <;> grind

theorem get?_of_resolve {followLast : Bool} {path : Path} {place : Location} {entry : Entry}
    (h : fs.resolve followLast path = .ok (.present place entry)) : fs.get? place = some entry := by
  rw [resolve] at h
  split_ifs at h
  exact get?_of_follow h

theorem get?_of_locate {path : Path} {place : Location} {entry : Entry}
    (h : fs.locate path = .ok (place, entry)) : fs.get? place = some entry := by
  obtain ⟨target, hresolve, h⟩ := bind_eq_ok_iff.1 h
  cases target with
  | absent dir name => exact absurd h throw_ne_ok
  | present found kind =>
    obtain ⟨rfl, rfl⟩ := Prod.mk.inj (Except.ok.inj h)
    exact get?_of_resolve hresolve

/-- A path that can be read leads where its pieces lead. -/
theorem locate_eq_ok_of_follow {path : Path} (here : Location) (steps : List String)
    {place : Location} {entry : Entry}
    (hpath : path.text.toList.contains (Char.ofNat 0) = false ∧ path.text ≠ "" ∧
      path.text.utf8ByteSize ≤ pathLimit ∧ startOf path fs.cwd = here ∧ pieces path.text = steps)
    (h : fs.follow true linkBudget here steps = .ok (.present place entry)) :
    fs.locate path = .ok (place, entry) := by
  obtain ⟨hheld, hne, hlength, rfl, rfl⟩ := hpath
  rw [FileSystem.locate, resolve, hheld, if_neg Bool.false_ne_true, if_neg hne,
    if_neg (Nat.not_lt.2 hlength), h]
  rfl

/-- Two file systems with the same entries at the same places, read from the same
place, perhaps in another order. -/
structure SameEntries (fs other : FileSystem) : Prop where
  entries : other.entries.Perm fs.entries
  cwd : other.cwd = fs.cwd

theorem SameEntries.symm (h : SameEntries fs other) : SameEntries other fs :=
  ⟨h.entries.symm, h.cwd.symm⟩

theorem SameEntries.get? (h : SameEntries fs other) (place : Location) :
    other.get? place = fs.get? place :=
  get?_eq_of_perm h.entries place

theorem SameEntries.locate (h : SameEntries fs other) (path : Path) :
    other.locate path = fs.locate path := by
  rw [FileSystem.locate, FileSystem.locate, resolve, resolve, h.cwd, follow_congr h.get?]

end FileSystem
end DocSite
