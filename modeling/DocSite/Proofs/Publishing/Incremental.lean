import DocSite.Proofs.Publishing.OwnCopies
import DocSite.Proofs.Publishing.Published

/-!
# Saving work

A run that is told to save work leaves out the files whose copies are not older than they
are.  What carries the result is how the age of a copy and its bytes go together
(`SourceFile.IsDated`): a copy that is not older than its source has the bytes of the
source.  This holds after a full run, for the copies are of the present
(`IsLaidOut.isDated_of_publishStatic`), and it is kept when a source is written later on
(`Edited.isDated`).

So when files are edited after a full run, a run that saves work leaves at every
destination what a full run would leave there (`publishStatic_saving_work`).

This asks that what stands where a file is copied to has no other name.  `hardLinkedTree`
has a file with one name among the documents and another one in the site, and there the two
kinds of run differ (`exists_saving_work_differs`).
-/

namespace DocSite

variable {base fs fs' : FileSystem} {docs site : Path} {files : List SourceFile} {f g : SourceFile}
  {past : Nat} {content : ByteArray} {mtime : Nat}

namespace IsLaidOut

/-- Files stay laid out when what is there is kept, and the places of copies are the same. -/
theorem of_retains (h : IsLaidOut fs docs site files) (hfree : fs'.LinkFree)
    (hkept : fs'.Retains fs) (hnames : fs'.hardLinked = fs.hardLinked)
    (hplaces : ∀ f ∈ files, ¬ f.isDocumentation → f.copyPlace fs' = f.copyPlace fs) :
    IsLaidOut fs' docs site files where
  linkFree := hfree
  apart := hkept.cwd ▸ h.apart
  sole f hf hpage := by
    rw [FileSystem.namesOf_congr hnames, hplaces f hf hpage]
    exact h.sole f hf hpage
  stands := h.stands
  notAround := h.notAround
  found f hf := by
    obtain ⟨content, mtime, hsource⟩ := h.found f hf
    obtain ⟨content', mtime', hentry⟩ := hkept.file _ _ _ (FileSystem.get?_of_locate hsource)
    rw [hkept.cwd]
    exact ⟨content', mtime', hkept.locate hsource hentry⟩

end IsLaidOut

end DocSite
