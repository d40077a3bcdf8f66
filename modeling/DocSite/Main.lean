import DocSite.CommandLine.Response

/-!
# The program

The program looks at the files that a command line is about, lets
`CommandLine.respond` answer it, and then writes the files that are new and
prints the answer.  It looks first for the configuration, because the
configuration says which directories matter: those of the documents, of the
site, and of the themes.  Links are looked at together with what they lead to.
-/

namespace DocSite
namespace Program

/-- A path as it is seen from a directory. -/
def absolute (cwd : String) (path : Path) : String :=
  ((Path.mk cwd).join path).normalize.text

/-- What stands at a path, and the paths that it leads on to. -/
def lookAt (path : String) : IO (Option Entry × List String) := do
  let around ← IO.FS.realPath ((Path.mk path).parent?.getD ⟨"/"⟩).text
  let place := around / (((Path.mk path).fileName?).getD ".")
  let metadata ← place.symlinkMetadata
  match metadata.type with
  | .dir =>
    let inside := (← place.readDir).toList
    return (some .directory, inside.map fun e => ((Path.mk path).join ⟨e.fileName⟩).text)
  | .symlink =>
    let target ← IO.FS.realPath place
    return (some (.link target.toString), [target.toString])
  | .file =>
    return (some (.file (← IO.FS.readBinFile place) metadata.modified.sec.toNat), [])
  | .other => return (none, [])

/-- A file system with what stands at some paths and at all that they lead on
to. -/
partial def gather (fs : FileSystem) (seen : List String) : List String → IO FileSystem
  | [] => return fs
  | path :: rest => do
    if seen.contains path then gather fs seen rest
    else
      match ← (lookAt path).toBaseIO with
      | .ok (some entry, more) =>
        let clock := match entry with
          | .file _ mtime => max fs.clock (mtime + 1)
          | .directory | .link _ => fs.clock
        let larger := (fs.install ⟨path⟩ entry).toOption.getD fs
        gather { larger with clock } (path :: seen) (more ++ rest)
      | .ok (none, _) | .error _ => gather fs (path :: seen) rest

/-- The variables of the environment. -/
def readEnvironment : IO Environment := do
  match ← (IO.FS.readBinFile "/proc/self/environ").toBaseIO with
  | .error _ => return []
  | .ok bytes =>
    return (bytes.toList.splitOn 0).filterMap fun setting =>
      let name := setting.takeWhile (· ≠ 61)
      (String.fromUTF8? ⟨name.toArray⟩).map fun decoded =>
        (decoded, match String.fromUTF8? ⟨(setting.drop (name.length + 1)).toArray⟩ with
          | some text => .text text
          | none => .undecodable)

/-- The file system as far as a command line is about it. -/
def readFileSystem (cwd : String) (env : Environment) (arguments : List String) :
    IO FileSystem := do
  let .ok i := CommandLine.Invocation.ofArguments arguments | return .empty [] 0
  let bare := FileSystem.empty ((pieces cwd).filter (· ≠ "")) 0
  let here := (bare.install ⟨cwd⟩ .directory).toOption.getD bare
  let candidates := match i.config with
    | some path => [absolute cwd path]
    | none => (FileSystem.pathsUp ⟨cwd⟩).map fun dir => absolute cwd (dir.join ⟨Settings.fileName⟩)
  let configured ← gather here [] candidates
  match Settings.load configured env i.config (some i.overrides) with
  | .error _ => return configured
  | .ok s => gather configured [] ((s.docsDir :: s.siteDir :: s.themeDirs).map (absolute cwd))

/-- What is new in a file system, written. -/
def writeChanges (before after : FileSystem) : IO Unit :=
  after.entries.forM fun (place, entry) => do
    if before.get? place ≠ some entry then
      let path := (FileSystem.canonicalPath place).text
      match entry with
      | .directory => IO.FS.createDirAll path
      | .file content _ => IO.FS.writeBinFile path content
      | .link _ => return ()

end Program
end DocSite

open DocSite in
/-- The program. -/
def main (arguments : List String) : IO UInt32 := do
  let cwd := (← IO.currentDir).toString
  let env ← Program.readEnvironment
  let fs ← Program.readFileSystem cwd env arguments
  let answer := CommandLine.respond fs env arguments
  Program.writeChanges fs answer.fs
  IO.print answer.printed
  answer.remarks.forM fun line => IO.eprintln line
  return answer.exitCode.toUInt32
