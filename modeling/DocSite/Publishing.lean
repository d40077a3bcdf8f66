import DocSite.Catalog
import DocSite.FileError
import DocSite.FileSystem.Operations

/-!
# Copying files into the site

Everything that is no Markdown is published as it is: its bytes are written to
its place in the site, and the directories around that place are made.  A run
that is told to save work leaves out the files whose copies are not older than
they are.

A file that lies at the place of its own copy is left alone, so other tools may put
files straight into the site.  Only places are compared: a file that has one name
there and another one among the documents is not told from its copy.  Where a
directory stands at the place of the copy, the copy is put into it.

The first failure ends the run.  What was copied before stays, and what was
reported before is reported.
-/

namespace DocSite

/-- Copying files: it may fail, it changes a file system, and it reports. -/
abbrev Copying := ExceptT FileError (StateT FileSystem Journal)

namespace Copying

/-- A report made while copying. -/
def report (e : Event) : Copying Unit :=
  ExceptT.lift (StateT.lift (Journal.report e))

/-- Refuse if the operating system does. -/
def allow {α : Type} (path : Path) (result : Except OsError α) : Copying α :=
  liftExcept (atPath path result)

end Copying

/-- Whether the copy of a file is missing, or older than the file. -/
def SourceFile.isModified (fs : FileSystem) (f : SourceFile) : Except FileError Bool := do
  if fs.isFile f.destPath then
    let copied ← atPath f.destPath (fs.modified f.destPath)
    let written ← atPath f.srcPath (fs.modified f.srcPath)
    return copied < written
  else return true

/-- The directories around a path made, as far as they are named. -/
def ensureParent (path : Path) : Copying Unit := do
  match path.parent? with
  | none => return ()
  | some parent =>
    let (made, result) := (← get).ensureDirectory parent
    set made
    Copying.allow parent result

/-- Where a copy goes: to the path itself, or into the directory there. -/
def copyTarget (fs : FileSystem) (source target : Path) : Path :=
  match source.fileName? with
  | some name => if fs.isDirectory target then target.join ⟨name⟩ else target
  | none => target

/-- The bytes at one path copied to another. -/
def copyTo (source target : Path) : Copying Unit := do
  ensureParent target
  let fs ← get
  let target := copyTarget fs source target
  unless fs.isSameFile source target do
    set (← Copying.allow target (fs.copyFile source target))

/-- A file copied into the site, unless work is to be saved and its copy is up to
date. -/
def SourceFile.publish (onlyModified : Bool) (f : SourceFile) : Copying Unit := do
  let needed ← if onlyModified then liftExcept (f.isModified (← get)) else pure true
  if needed then
    Copying.report (.copying f.srcUri)
    copyTo f.srcPath f.destPath
  else Copying.report (.copyUpToDate f.srcUri)

/-- Every file that is no Markdown copied into the site; the answer is how many
there are. -/
def Catalog.publishStatic (onlyModified : Bool) (c : Catalog) : Copying Nat := do
  let files := c.files.filter fun f => !f.isDocumentation
  files.forM (SourceFile.publish onlyModified)
  return files.length

end DocSite
