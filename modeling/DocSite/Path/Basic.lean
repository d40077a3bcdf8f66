import DocSite.Text.Pieces

/-!
# Paths of a file system

A path is kept as it was written.  Two spellings of one path are different
values, since messages show the spelling: a configuration found at
`x//tome.toml` has the directory `x`, and one that names `./docs` reports
`./docs`.  What a path *means* is read off by `Path.components`, which forgets
repeated slashes and every `.` but a leading one; two paths are the same place
by name, `Path.SameAs`, when they have the same components.

The leading `.` is kept because `.` alone has to be something: without it the
current directory and the empty path would be one path, and only the first of
them can be opened.

Operations that build paths (`join`, `parent?`) work on the spelling and keep as
much of it as they can; operations that ask about a path (`fileName?`,
`StartsWith`) work on the components.
-/

namespace DocSite

/-- A path of the file system, as it was written. -/
structure Path where
  text : String
  deriving DecidableEq, Inhabited, Repr

instance : ToString Path := ⟨Path.text⟩

/-- One step of a path.  `here` occurs only at the start of a relative path. -/
inductive Component where
  | root
  | here
  | up
  | name (text : String)
  deriving DecidableEq, Inhabited, Repr

namespace Component

/-- The step that a piece between slashes stands for; an empty piece and `.`
stand for none. -/
def ofPiece? (piece : String) : Option Component :=
  if piece = "" ∨ piece = "." then none
  else if piece = ".." then some .up
  else some (.name piece)

/-- The piece that stands for a step; the root has the empty one, so that
joining pieces puts a slash behind it. -/
def piece : Component → String
  | root => ""
  | here => "."
  | up => ".."
  | name text => text

end Component

namespace Path

/-- A path is absolute when it starts at the root. -/
def isAbsolute (p : Path) : Bool :=
  p.text.toList.head? == some '/'

/-- The step before the first piece that counts: the root of an absolute path,
the current directory of one that is written from `.`. -/
def lead (p : Path) : Option Component :=
  if p.isAbsolute then some .root
  else if (pieces p.text).head? = some "." then some .here
  else none

/-- The steps of a path in order. -/
def components (p : Path) : List Component :=
  p.lead.toList ++ (pieces p.text).filterMap Component.ofPiece?

/-- Two paths name the same place step by step, however they are spelled. -/
def SameAs (p q : Path) : Prop :=
  p.components = q.components

instance (p q : Path) : Decidable (p.SameAs q) :=
  inferInstanceAs (Decidable (_ = _))

/-- The steps of `q` are the first steps of `p`. -/
def StartsWith (p q : Path) : Prop :=
  q.components <+: p.components

instance (p q : Path) : Decidable (p.StartsWith q) :=
  inferInstanceAs (Decidable (_ <+: _))

/-- The path written from given steps, with one slash between two of them. -/
def ofComponents (steps : List Component) : Path :=
  if steps = [.root] then ⟨"/"⟩ else ⟨joined (steps.map Component.piece)⟩

/-- `p` followed by `q`; an absolute `q` stands on its own.  A slash is put
between them unless there is one or `p` is empty, so joining an empty `q` leaves
a slash at the end. -/
def join (p q : Path) : Path :=
  if q.isAbsolute then q
  else if p.text = "" ∨ p.text.toList.getLast? = some '/' then ⟨p.text ++ q.text⟩
  else ⟨p.text ++ "/" ++ q.text⟩

/-- The path that is reached by joining the pieces of a text one after the
other.  A leading slash is lost on the way, and doubled ones collapse. -/
def ofPieces (parts : List String) : Path :=
  parts.foldl (fun p part => p.join ⟨part⟩) ⟨""⟩

/-- Pieces without those at the end that stand for no step. -/
def trimmed (parts : List String) : List String :=
  (parts.reverse.dropWhile fun part => (Component.ofPiece? part).isNone).reverse

/-- The path less its last step, spelled as it was written up to there.  The
root and the empty path have none. -/
def parent? (p : Path) : Option Path :=
  match p.lead with
  | none =>
    match trimmed (pieces p.text) with
    | [] => none
    | steps => some ⟨joined (trimmed steps.dropLast)⟩
  | some step =>
    match trimmed (pieces p.text).tail with
    | [] => if step = .here then some ⟨""⟩ else none
    | steps =>
      match trimmed steps.dropLast with
      | [] => some (ofComponents [step])
      | above => some ⟨joined (step.piece :: above)⟩

/-- The last step of a path, when it is a name. -/
def fileName? (p : Path) : Option String :=
  match p.components.getLast? with
  | some (.name text) => some text
  | _ => none

end Path

/-- A file name up to its last dot.  A dot at the very start begins no
extension, so `.profile` is all stem. -/
def stemOfName (name : String) : String :=
  match name.toList.reverse.dropWhile (· ≠ '.') with
  | [] | [_] => name
  | _ :: before => String.ofList before.reverse

end DocSite
