import DocSite.FileSystem.Resolve
import DocSite.Glob

/-!
# Failures while finding and copying files

Two things can fail: the operating system refuses something, at a path that the
message names, or a pattern in the settings cannot be read.
-/

namespace DocSite

/-- Why files could not be found or copied. -/
inductive FileError where
  /-- The operating system refuses something at a path. -/
  | io (path : Path) (cause : OsError)
  /-- A pattern cannot be read. -/
  | pattern (text : String) (cause : GlobError)
  deriving DecidableEq, Inhabited, Repr

/-- The wording of a failure. -/
def FileError.message : FileError → String
  | io path cause => s!"I/O error at {path}: {cause.message}"
  | pattern text cause => s!"Invalid pattern '{text}': {cause.message}"

/-- A refusal of the operating system as a failure at a path. -/
def atPath {α : Type} (path : Path) : Except OsError α → Except FileError α
  | .ok a => .ok a
  | .error cause => .error (.io path cause)

/-- The pattern that a text spells, or the failure to read it under the name
under which it stands in the settings. -/
def readPattern (name text : String) : Except FileError Glob :=
  match Glob.ofText text with
  | .ok g => .ok g
  | .error cause => .error (.pattern name cause)

end DocSite
