import DocSite.Catalog

/-!
# A catalog answers as a search of its files

Every operation of a catalog that is given a name goes through the index.  Here
each of them is said without it, on the list of files alone: `get` finds what a
search from the front finds, `contains` whether there is such a file, `update`
changes the files of that name, `remove` leaves them out, and `append` refuses a
name that is there.  An index that is there and one that is not make no
difference, so nothing below mentions it.

Since no name occurs twice, "the files of a name" are one file or none.
-/

namespace DocSite
namespace Catalog

variable (c : Catalog)

/-- The position of a name in a list of distinct names belongs to one file. -/
theorem srcUri_eq_iff_of_findIdx? {files : List SourceFile} {srcUri : String} {n : Nat}
    (hdistinct : (files.map SourceFile.srcUri).Nodup)
    (h : (files.findIdx? fun f => f.srcUri = srcUri) = some n) {m : Nat}
    (hm : m < files.length) : files[m].srcUri = srcUri ↔ n = m := by
  obtain ⟨hn, hfound, -⟩ := List.findIdx?_eq_some_iff_getElem.1 h
  have hname : files[n].srcUri = srcUri := by simpa using hfound
  constructor
  · intro hother
    have hn' : n < (files.map SourceFile.srcUri).length := by simpa using hn
    have hm' : m < (files.map SourceFile.srcUri).length := by simpa using hm
    have hsame : (files.map SourceFile.srcUri)[n] = (files.map SourceFile.srcUri)[m] := by
      rw [List.getElem_map, List.getElem_map, hname, hother]
    exact (List.getElem_inj hdistinct).1 hsame
  · rintro rfl
    exact hname

theorem find?_srcUri_eq_none_iff (srcUri : String) :
    (c.files.find? fun f => f.srcUri = srcUri) = none ↔ srcUri ∉ c.srcUris := by
  simp [srcUris]

theorem mem_of_find?_srcUri {c : Catalog} {srcUri : String} {f : SourceFile}
    (h : (c.files.find? fun f => f.srcUri = srcUri) = some f) : f ∈ c.files ∧ f.srcUri = srcUri :=
  ⟨List.mem_of_find?_eq_some h, by simpa using List.find?_some h⟩

/-! ## Asking -/

theorem fst_get (srcUri : String) :
    (c.get srcUri).1 = c.files.find? fun f => f.srcUri = srcUri := by
  rw [get, position?_eq, List.find?_eq_bind_findIdx?_getElem?]

theorem fst_contains (srcUri : String) :
    (c.contains srcUri).1 = c.files.any fun f => f.srcUri = srcUri := by
  rw [contains, position?_eq, List.findIdx?_isSome]

theorem fst_consult : c.consult.1 = (c.files.map SourceFile.srcUri).zipIdx :=
  c.positions_eq

/-- Asking leaves the files as they are. -/
@[simp] theorem files_get (srcUri : String) : (c.get srcUri).2.files = c.files := rfl

@[simp] theorem files_contains (srcUri : String) : (c.contains srcUri).2.files = c.files := rfl

@[simp] theorem files_consult : c.consult.2.files = c.files := rfl

/-! ## Adding and removing -/

theorem fst_value_append (f : SourceFile) :
    (c.append f).value.1 = !(c.files.any fun g => g.srcUri = f.srcUri) := by
  rw [← fst_contains, contains]
  unfold append
  split <;> simp_all

theorem files_append (f : SourceFile) :
    (c.append f).value.2.files =
      if (c.files.any fun g => g.srcUri = f.srcUri) then c.files else c.files ++ [f] := by
  rw [← fst_contains, contains]
  unfold append
  split <;> simp_all

theorem events_append (f : SourceFile) :
    (c.append f).events =
      if (c.files.any fun g => g.srcUri = f.srcUri) then [.duplicateFile f.srcUri] else [] := by
  rw [← fst_contains, contains]
  unfold append
  split <;> simp_all [Journal.report]

/-- Files of different names are all added. -/
theorem files_value_foldlM_append {files : List SourceFile} {c : Catalog}
    (h : ((c.files ++ files).map SourceFile.srcUri).Nodup) :
    (files.foldlM (fun c f => return (← c.append f).2) c : Journal Catalog).value.files =
      c.files ++ files := by
  induction files generalizing c with
  | nil => simp
  | cons f rest ih =>
    have hnew : (c.files.any fun g => g.srcUri = f.srcUri) = false := by
      rw [List.map_append, List.nodup_append] at h
      rw [List.any_eq_false]
      intro g hg
      simpa using h.2.2 g.srcUri (List.mem_map_of_mem hg) f.srcUri (by simp)
    have hfiles : (c.append f).value.2.files = c.files ++ [f] := by
      rw [files_append, hnew, if_neg Bool.false_ne_true]
    rw [List.foldlM_cons, Journal.value_bind, Journal.value_bind, Journal.value_pure, ih]
    · rw [hfiles, List.append_assoc, List.singleton_append]
    · rwa [hfiles, List.append_assoc, List.singleton_append]

theorem files_value_ofFiles {files : List SourceFile}
    (h : (files.map SourceFile.srcUri).Nodup) : (ofFiles files).value.files = files :=
  files_value_foldlM_append h

theorem fst_remove (srcUri : String) :
    (c.remove srcUri).1 = c.files.find? fun f => f.srcUri = srcUri := by
  rw [List.find?_eq_bind_findIdx?_getElem?, ← position?_eq, remove]
  cases c.position? srcUri <;> rfl

/-- Taking out the first file of a name takes out every file of that name. -/
theorem eraseP_eq_filter {files : List SourceFile}
    (hdistinct : (files.map SourceFile.srcUri).Nodup) (srcUri : String) :
    (files.eraseP fun f => f.srcUri = srcUri) = files.filter fun f => f.srcUri ≠ srcUri := by
  induction files with
  | nil => rfl
  | cons f rest ih =>
    rw [List.map_cons, List.nodup_cons] at hdistinct
    by_cases h : f.srcUri = srcUri
    · rw [List.eraseP_cons_of_pos (by simpa using h), List.filter_cons_of_neg (by simpa using h)]
      refine (List.filter_eq_self.2 fun g hg => ?_).symm
      have hne : g.srcUri ≠ srcUri := fun heq =>
        hdistinct.1 (List.mem_map.2 ⟨g, hg, heq.trans h.symm⟩)
      simpa using hne
    · rw [List.eraseP_cons_of_neg (by simpa using h), List.filter_cons_of_pos (by simpa using h),
        ih hdistinct.2]

theorem files_remove_eq_eraseP (srcUri : String) :
    (c.remove srcUri).2.files = c.files.eraseP fun f => f.srcUri = srcUri := by
  rw [List.eraseP_eq_eraseIdx, ← position?_eq, remove]
  cases c.position? srcUri <;> rfl

theorem files_remove (srcUri : String) :
    (c.remove srcUri).2.files = c.files.filter fun f => f.srcUri ≠ srcUri := by
  rw [files_remove_eq_eraseP, eraseP_eq_filter c.distinct]

/-! ## Changing files in place -/

theorem fst_update (srcUri : String) (change : SourceFile → SourceFile)
    (h : ∀ f, (change f).srcUri = f.srcUri) :
    (c.update srcUri change h).1 = c.files.find? fun f => f.srcUri = srcUri := by
  rw [List.find?_eq_bind_findIdx?_getElem?, ← position?_eq, update]
  cases c.position? srcUri <;> rfl

theorem files_update_eq_modify (srcUri : String) (change : SourceFile → SourceFile)
    (h : ∀ f, (change f).srcUri = f.srcUri) :
    (c.update srcUri change h).2.files =
      c.files.modify (c.files.findIdx fun f => f.srcUri = srcUri) change := by
  rw [update]
  cases hposition : c.position? srcUri with
  | none =>
    rw [position?_eq, List.findIdx?_eq_none_iff_findIdx_eq] at hposition
    rw [List.modify_eq_self (Nat.le_of_eq hposition.symm)]
    rfl
  | some n =>
    rw [position?_eq, List.findIdx?_eq_some_iff_findIdx_eq] at hposition
    rw [hposition.2]
    rfl

theorem files_update (srcUri : String) (change : SourceFile → SourceFile)
    (h : ∀ f, (change f).srcUri = f.srcUri) :
    (c.update srcUri change h).2.files =
      c.files.map fun f => if f.srcUri = srcUri then change f else f := by
  rw [update]
  cases hposition : c.position? srcUri with
  | none =>
    rw [position?_eq, List.findIdx?_eq_none_iff] at hposition
    refine ((List.map_congr_left fun f hf => ?_).trans (List.map_id _)).symm
    have hne : ¬ f.srcUri = srcUri := by simpa using hposition f hf
    rw [if_neg hne, id]
  | some n =>
    rw [position?_eq] at hposition
    show c.files.modify n change = _
    apply List.ext_getElem
    · simp
    · intro m hm _
      have hm' : m < c.files.length := by simpa using hm
      rw [List.getElem_modify, List.getElem_map]
      simp only [srcUri_eq_iff_of_findIdx? c.distinct hposition hm']

theorem fst_attach (srcUri : String) (id : PageId) :
    (c.attach srcUri id).1 = c.files.find? fun f => f.srcUri = srcUri :=
  c.fst_update srcUri _ _

theorem files_attach (srcUri : String) (id : PageId) :
    (c.attach srcUri id).2.files =
      c.files.map fun f => if f.srcUri = srcUri then f.attach id else f :=
  c.files_update srcUri _ _

/-- Attaching changes nothing about a file but its page. -/
theorem map_detach_attach (srcUri : String) (id : PageId) :
    (c.attach srcUri id).2.files.map SourceFile.detach = c.files.map SourceFile.detach := by
  rw [files_attach, List.map_map]
  refine List.map_congr_left fun f _ => ?_
  rw [Function.comp_apply]
  split <;> simp

theorem files_detach (srcUri : String) :
    (c.detach srcUri).2.files = c.files.map fun f => if f.srcUri = srcUri then f.detach else f :=
  c.files_update srcUri _ _

/-- What there is to attach to is found, and what is found has the name. -/
theorem mem_of_attach_eq_some {srcUri : String} {id : PageId} {f : SourceFile} {attached : Catalog}
    {c : Catalog} (h : c.attach srcUri id = (some f, attached)) :
    f ∈ c.files ∧ f.srcUri = srcUri := by
  apply mem_of_find?_srcUri
  rw [← fst_attach c srcUri id, h]

theorem notMem_of_attach_eq_none {srcUri : String} {id : PageId} {attached : Catalog}
    {c : Catalog} (h : c.attach srcUri id = (none, attached)) : srcUri ∉ c.srcUris := by
  rw [← find?_srcUri_eq_none_iff, ← fst_attach c srcUri id, h]

theorem files_detachAll : c.detachAll.files = c.files.map SourceFile.detach :=
  c.files_mapFiles _ _

/-- Taking the pages away changes nothing but the pages. -/
theorem map_detach_detachAll :
    c.detachAll.files.map SourceFile.detach = c.files.map SourceFile.detach := by
  rw [files_detachAll, List.map_map]
  rfl

/-- Catalogs that differ in the pages of their files at most have the same names. -/
theorem srcUris_eq_of_map_detach_eq {c other : Catalog}
    (h : other.files.map SourceFile.detach = c.files.map SourceFile.detach) :
    other.srcUris = c.srcUris := by
  simpa [srcUris, Function.comp_def] using congrArg (List.map SourceFile.srcUri) h

/-! ## Visiting files -/

/-- What holds of what has been visited and what is left, and is kept when one
more file is visited, holds when nothing is left. -/
theorem visitFiles_invariant {σ : Type} (step : σ → SourceFile → SourceFile × σ)
    (P : σ → List SourceFile → List SourceFile → Prop)
    (hstep : ∀ s visited f left, P s visited (f :: left) →
      P (step s f).2 (visited ++ [(step s f).1]) left)
    {s : σ} {files : List SourceFile} (h : P s [] files) :
    P (visitFiles step s files).2 (visitFiles step s files).1 [] := by
  have hgoal : ∀ (left : List SourceFile) (s : σ) (visited : List SourceFile), P s visited left →
      P (visitFiles step s left).2 (visited ++ (visitFiles step s left).1) [] := by
    intro left
    induction left with
    | nil =>
      intro s visited hvisited
      simpa [visitFiles] using hvisited
    | cons f rest ih =>
      intro s visited hvisited
      simpa [visitFiles] using ih _ _ (hstep s visited f rest hvisited)
  exact hgoal files s [] h

end Catalog
end DocSite
