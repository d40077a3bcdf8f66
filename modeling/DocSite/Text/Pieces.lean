/-!
# Texts cut at their slashes

Paths of a file system and paths of an address are both written as names with
slashes between them, and both are read by cutting the text at every slash.
What the two readings make of the pieces differs: a path of the file system
forgets empty pieces, an address keeps the last one, because a trailing slash
says that a directory is meant.  So the cut itself loses nothing, and it is kept
apart from either reading.

The cut is `List.splitOn` and its inverse is `List.intercalate`, both from the
standard library, read on strings.  The rest of the library works with whole
pieces and rests on two laws: `joined_pieces` says that nothing is lost, and
`pieces_joined` that pieces free of slashes are found again.
-/

namespace DocSite

/-- What stands between the slashes of a text, in order: one piece more than
there are slashes, so the empty text has one empty piece. -/
def pieces (text : String) : List String :=
  (text.toList.splitOn '/').map String.ofList

/-- The text that has the given pieces between its slashes. -/
def joined (parts : List String) : String :=
  String.ofList (['/'].intercalate (parts.map String.toList))

/-- A text in which no slash stands, so that it can be one piece. -/
def SlashFree (text : String) : Prop :=
  '/' ∉ text.toList

instance (text : String) : Decidable (SlashFree text) :=
  inferInstanceAs (Decidable (_ ∉ _))

/-- Cutting and joining again gives the text back. -/
@[simp] theorem joined_pieces (text : String) : joined (pieces text) = text := by
  simp [joined, pieces, Function.comp_def, List.intercalate_splitOn]

/-- Pieces without a slash survive the round trip, provided there is one: no
text has no pieces at all. -/
theorem pieces_joined {parts : List String} (hne : parts ≠ [])
    (h : ∀ part ∈ parts, SlashFree part) : pieces (joined parts) = parts := by
  have hfree : ∀ l ∈ parts.map String.toList, '/' ∉ l := by
    intro l hl
    obtain ⟨part, hpart, rfl⟩ := List.mem_map.1 hl
    exact h part hpart
  simp [joined, pieces, List.splitOn_intercalate '/' hfree (by simpa using hne),
    Function.comp_def]

theorem pieces_ne_nil (text : String) : pieces text ≠ [] := by
  intro h
  have hcut : text.toList.splitOn '/' = [] := List.map_eq_nil_iff.1 h
  -- An empty cut would have to be the cut of the empty text, which is not empty.
  have hback : ['/'].intercalate (text.toList.splitOn '/') = text.toList :=
    List.intercalate_splitOn '/'
  rw [hcut] at hback
  rw [← hback] at hcut
  simp at hcut

@[simp] theorem joined_nil : joined [] = "" := rfl

@[simp] theorem joined_singleton (part : String) : joined [part] = part := by
  simp [joined, List.intercalate]

/-- A further piece stands behind a slash. -/
theorem joined_cons_cons (p q : String) (ps : List String) :
    joined (p :: q :: ps) = p ++ "/" ++ joined (q :: ps) := by
  apply String.toList_inj.1
  simp [joined, List.intercalate]

/-- A text cut at its last slash: what stands before it, nothing if there is
none, and what stands behind it. -/
def cutLast (text : String) : String × String :=
  (joined (pieces text).dropLast, (pieces text).getLast (pieces_ne_nil text))

end DocSite
