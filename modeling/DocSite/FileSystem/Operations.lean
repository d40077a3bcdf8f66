import DocSite.FileSystem.Resolve

/-!
# Changing a file system by paths

Making directories, writing files and copying them, as a program asks for them:
by path, with the refusals of the operating system.  An operation that is
refused half-way leaves behind what it has done, so each answers with the file
system that it leaves, beside the refusal if there is one.

Two paths may be compared by the places to which they lead (`isSameFile`), or by
the files that stand there (`isOneFile`).  For a file with several names these are
two questions.
-/

namespace DocSite
namespace FileSystem

/-- Something new under the name at the end of a path, which must be free. -/
def create (fs : FileSystem) (path : Path) (entry : Entry) : Except OsError FileSystem :=
  match fs.resolve false path with
  | .error e => .error e
  | .ok (.present ..) => .error .alreadyExists
  | .ok (.absent dir name) =>
    if h : fs.get? dir = some .directory ∧ fs.get? (dir ++ [name]) = none ∧ IsLegalName name then
      .ok (fs.insert dir name entry h.1 h.2.1 h.2.2 (legal_of_get? h.1))
    else .error .notFound

/-- A new directory. -/
def makeDirectory (fs : FileSystem) (path : Path) : Except OsError FileSystem :=
  fs.create path .directory

/-- A path and the paths of the directories around it, innermost first, as far
as they are named. -/
def pathsUp (path : Path) : List Path :=
  let steps := path.components
  (List.range steps.length).map fun n => Path.ofComponents (steps.take (steps.length - n))

/-- The first of some paths made a directory, and the others before it as far as
that is needed.  A directory that is there already is fine. -/
def makeDirectories (fs : FileSystem) : List Path → FileSystem × Except OsError Unit
  | [] => (fs, .ok ())
  | path :: around =>
    match fs.makeDirectory path with
    | .ok made => (made, .ok ())
    | .error .notFound =>
      match makeDirectories fs around with
      | (made, .error e) => (made, .error e)
      | (made, .ok ()) =>
        match made.makeDirectory path with
        | .ok last => (last, .ok ())
        | .error e => (made, if made.isDirectory path then .ok () else .error e)
    | .error e => (fs, if fs.isDirectory path then .ok () else .error e)

/-- A directory and all directories around it. -/
def ensureDirectory (fs : FileSystem) (path : Path) : FileSystem × Except OsError Unit :=
  fs.makeDirectories (pathsUp path)

/-- A file at a place that is free or holds no directory. -/
def writeTo (fs : FileSystem) (content : ByteArray) : Target → Except OsError FileSystem
  | .present place _ =>
    if h : fs.get? place ≠ some .directory then .ok (fs.overwrite place content h)
    else .error .isADirectory
  | .absent dir name =>
    if h : fs.get? dir = some .directory ∧ fs.get? (dir ++ [name]) = none ∧ IsLegalName name then
      .ok (fs.insert dir name (.file content fs.clock) h.1 h.2.1 h.2.2 (legal_of_get? h.1))
    else .error .notFound

/-- The bytes of a file written to a path, through links. -/
def writeFile (fs : FileSystem) (path : Path) (content : ByteArray) :
    Except OsError FileSystem := do
  fs.writeTo content (← fs.resolve true path)

/-- The bytes of the file that a path leads to. -/
def readFile (fs : FileSystem) (path : Path) : Except OsError ByteArray := do
  match ← fs.locate path with
  | (_, .file content _) => return content
  | _ => throw .isADirectory

/-- Whether two paths lead to one file, under whatever names. -/
def isOneFile (fs : FileSystem) (p q : Path) : Bool :=
  match fs.locate p, fs.locate q with
  | .ok (a, _), .ok (b, _) => (fs.namesOf a).contains b
  | _, _ => false

/-- The bytes of one file written to another path.  What is there is emptied before the
bytes are read, so a file that is copied to a name of its own is left empty. -/
def copyFile (fs : FileSystem) (source target : Path) : Except OsError FileSystem := do
  match ← fs.locate source with
  | (_, .file content _) =>
    fs.writeFile target (if fs.isOneFile source target then .empty else content)
  | _ => throw .notAFile

theorem copyFile_of_locate {fs : FileSystem} {source : Path} {place : Location}
    {content : ByteArray} {mtime : Nat}
    (h : fs.locate source = .ok (place, .file content mtime)) (target : Path) :
    fs.copyFile source target =
      fs.writeFile target (if fs.isOneFile source target then .empty else content) := by
  rw [copyFile, h]
  rfl

/-- Whether two paths lead to the same place. -/
def isSameFile (fs : FileSystem) (p q : Path) : Bool :=
  match fs.locate p, fs.locate q with
  | .ok (a, _), .ok (b, _) => a = b
  | _, _ => false

/-! ## Laying out a file system -/

/-- A file system in which a path holds an entry that came to be at a given
time, with the directories around it. -/
def install (fs : FileSystem) (path : Path) (entry : Entry) : Except OsError FileSystem := do
  let (made, result) := fs.ensureDirectory (path.parent?.getD ⟨""⟩)
  result
  match entry with
  | .directory =>
    let (made, result) := made.ensureDirectory path
    result
    return made
  | .link target => made.create path (.link target)
  | .file content mtime =>
    return { ← ({ made with clock := mtime }).writeFile path content with clock := fs.clock }

/-- What stands at a path taken away, with everything below it. -/
def remove (fs : FileSystem) (path : Path) : Except OsError FileSystem := do
  match ← fs.resolve false path with
  | .present place _ => return fs.erase place
  | .absent .. => throw .notFound

/-- Everything below the directory that a path leads to, each by the names that
lead to it from there, directories with a slash at the end; in the order of these
texts. -/
def contents? (fs : FileSystem) (path : Path) : Option (List (String × Entry)) :=
  match fs.locate path with
  | .ok (place, .directory) =>
    let below := fs.entries.filterMap fun e =>
      if place.isPrefixOf e.1 && e.1 != place then
        let name := joined (e.1.drop place.length)
        some (if e.2 = .directory then name ++ "/" else name, e.2)
      else none
    some (below.mergeSort fun a b => a.1 ≤ b.1)
  | _ => none

end FileSystem
end DocSite
