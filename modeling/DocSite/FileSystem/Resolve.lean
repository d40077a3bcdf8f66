import DocSite.FileSystem.Basic

/-!
# From a path to a place

A path is read piece by piece from the root or from the current place.  Every
piece but the last must lead to a directory, and so must the last when a slash
follows it: the empty piece behind that slash asks for one.  `..` goes to the
directory that really lies around the current place, whatever links led there.

A symbolic link is followed by reading its text in front of what is left of the
path, from the directory in which the link lies.  Links may lead in circles, so
a path may follow only so many of them (`linkBudget`), and one that needs more
is refused.  That also bounds the reading: either a link is spent or a piece is.

Names and paths have a greatest length, and one character no path can hold.

A path may be asked for in two ways.  When the last piece is followed, the
answer tells of what the link leads to, and otherwise of the link itself.  A path
whose last piece is not there, in a directory that is, is not a failure yet: the
answer names the directory and the free name, and who asks decides what that
means.
-/

namespace DocSite

/-- Why the operating system refuses something. -/
inductive OsError where
  | notFound
  | notADirectory
  | alreadyExists
  | isADirectory
  | tooManyLinks
  /-- A path, or a name in it, is longer than any can be. -/
  | nameTooLong
  /-- A path holds the character that ends a path. -/
  | cutShort
  /-- The source of a copy is no file. -/
  | notAFile
  deriving DecidableEq, Inhabited, Repr

/-- The wording of a refusal. -/
def OsError.message : OsError → String
  | notFound => "No such file or directory (os error 2)"
  | notADirectory => "Not a directory (os error 20)"
  | alreadyExists => "File exists (os error 17)"
  | isADirectory => "Is a directory (os error 21)"
  | tooManyLinks => "Too many levels of symbolic links (os error 40)"
  | nameTooLong => "File name too long (os error 36)"
  | cutShort => "file name contained an unexpected NUL byte"
  | notAFile => "the source path is neither a regular file nor a symlink to a regular file"

namespace FileSystem

/-- What a path leads to. -/
inductive Target where
  /-- Something that is there. -/
  | present (place : Location) (entry : Entry)
  /-- A free name in a directory. -/
  | absent (dir : Location) (name : String)
  deriving DecidableEq, Inhabited

/-- How many links a path may follow. -/
def linkBudget : Nat := 40

/-- How many bytes a name may have. -/
def nameLimit : Nat := 255

/-- How many bytes a path may have. -/
def pathLimit : Nat := 4095

/-- Where the text of a link, or a path, starts that is read at a place. -/
def startOf (path : Path) (here : Location) : Location :=
  if path.isAbsolute then [] else here

/-- What the pieces of a path lead to from a place, when so many more links may
be followed. -/
def follow (fs : FileSystem) (followLast : Bool) (budget : Nat) (here : Location)
    (steps : List String) : Except OsError Target :=
  match steps with
  | [] =>
    match fs.get? here with
    | some entry => .ok (.present here entry)
    | none => .error .notFound
  | step :: rest =>
    match fs.get? here with
    | some .directory =>
      if step = "" ∨ step = "." then follow fs followLast budget here rest
      else if step = ".." then follow fs followLast budget here.dropLast rest
      else if nameLimit < step.utf8ByteSize then .error .nameTooLong
      else
        match fs.get? (here ++ [step]) with
        | none => if rest.isEmpty then .ok (.absent here step) else .error .notFound
        | some (.link target) =>
          if rest.isEmpty && !followLast then .ok (.present (here ++ [step]) (.link target))
          else
            match budget with
            | 0 => .error .tooManyLinks
            | budget + 1 =>
              follow fs followLast budget (startOf ⟨target⟩ here) (pieces target ++ rest)
        | some _ => follow fs followLast budget (here ++ [step]) rest
    | some (.file ..) => .error .notADirectory
    | some (.link _) | none => .error .notFound
termination_by (budget, steps.length)

/-- What a path leads to; the empty path leads nowhere. -/
def resolve (fs : FileSystem) (followLast : Bool) (path : Path) : Except OsError Target :=
  if path.text.toList.contains (Char.ofNat 0) then .error .cutShort
  else if path.text = "" then .error .notFound
  else if pathLimit < path.text.utf8ByteSize then .error .nameTooLong
  else fs.follow followLast linkBudget (startOf path fs.cwd) (pieces path.text)

/-- Where a path leads when every link is followed, and what stands there. -/
def locate (fs : FileSystem) (path : Path) : Except OsError (Location × Entry) := do
  match ← fs.resolve true path with
  | .present place entry => return (place, entry)
  | .absent .. => throw .notFound

/-- The path of a place from the root, without links and detours. -/
def canonicalPath (place : Location) : Path :=
  ⟨"/" ++ joined place⟩

/-- Whether a path leads to anything. -/
def pathExists (fs : FileSystem) (path : Path) : Bool :=
  (fs.locate path).isOk

/-- Whether a path leads to a directory. -/
def isDirectory (fs : FileSystem) (path : Path) : Bool :=
  match fs.locate path with
  | .ok (_, .directory) => true
  | _ => false

/-- Whether a path leads to a file. -/
def isFile (fs : FileSystem) (path : Path) : Bool :=
  match fs.locate path with
  | .ok (_, .file ..) => true
  | _ => false

/-- When what a path leads to was last written. -/
def modified (fs : FileSystem) (path : Path) : Except OsError Nat := do
  match ← fs.locate path with
  | (_, .file _ mtime) => return mtime
  | _ => return fs.clock

/-- The names in the directory at a place, if there is one, in the order in
which they came to be. -/
def namesIn? (fs : FileSystem) (place : Location) : Option (List String) :=
  if fs.get? place = some .directory then
    some (fs.entries.filterMap fun e =>
      if e.1.dropLast = place then e.1.getLast? else none)
  else none

theorem get?_of_namesIn? {fs : FileSystem} {place : Location} {names : List String}
    (h : fs.namesIn? place = some names) : fs.get? place = some .directory := by
  unfold namesIn? at h
  split at h
  · assumption
  · simp at h

end FileSystem
end DocSite
