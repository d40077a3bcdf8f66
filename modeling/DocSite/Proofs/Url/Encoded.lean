import DocSite.Proofs.Url.Following
import DocSite.Proofs.Url.Percent

/-!
# Relative addresses of encoded paths

A path may be encoded before or after it is written relative to another one: the text is
the same (`encode_relative`).  Going from one text to another reads the pieces of both,
asks whether they are empty, `.` or `..`, compares them, looks for a dot in the last
piece of the one and for a slash at the end of the other.  Encoding keeps all of this and
feigns none of it: no two pieces are encoded alike, and neither a slash nor a dot comes
from anything else.  So every function on the way is carried over piece by piece.
-/

namespace DocSite
namespace Url

theorem pieces_encode (text : String) : pieces (encode text) = (pieces text).map encode := by
  have hfree : ∀ piece ∈ (pieces text).map encode, SlashFree piece := by
    intro encoded hencoded
    obtain ⟨piece, hpiece, rfl⟩ := List.mem_map.1 hencoded
    exact slashFree_encode (slashFree_of_mem_pieces hpiece)
  have hne : (pieces text).map encode ≠ [] := mt List.map_eq_nil_iff.1 (pieces_ne_nil text)
  calc pieces (encode text) = pieces (encode (joined (pieces text))) := by rw [joined_pieces]
    _ = pieces (joined ((pieces text).map encode)) := by rw [encode_joined]
    _ = (pieces text).map encode := pieces_joined hne hfree

/-! ## The names that an encoded text leads to -/

theorem pushName_map_encode (stack : List String) (piece : String) :
    pushName (stack.map encode) (encode piece) = (pushName stack piece).map encode := by
  simp only [pushName, encode_eq_empty_iff, encode_eq_dot_iff, encode_eq_dotDot_iff]
  split
  · rfl
  · split
    · rw [List.map_tail]
    · rw [List.map_cons]

theorem steps_encode (url : String) : steps (encode url) = (steps url).map encode := by
  have hfold : ∀ parts stack : List String, (parts.map encode).foldl pushName (stack.map encode) =
      (parts.foldl pushName stack).map encode := by
    intro parts
    induction parts with
    | nil => exact fun stack => rfl
    | cons part rest ih =>
      intro stack
      rw [List.map_cons, List.foldl_cons, pushName_map_encode, ih, List.foldl_cons]
  have hread := hfold (pieces url) []
  rw [List.map_nil] at hread
  rw [steps, pieces_encode, hread, steps, List.map_reverse]

theorem cutLast_encode (text : String) :
    cutLast (encode text) = (encode (cutLast text).1, encode (cutLast text).2) := by
  simp only [cutLast, pieces_encode, encode_joined, List.map_dropLast, List.getLast_map]

theorem directoryOf_encode (other : String) :
    directoryOf (encode other) = encode (directoryOf other) := by
  simp only [directoryOf, cutLast_encode, dot_mem_encode_iff]
  split <;> rfl

/-- A text that is encoded ends in a slash when the text does. -/
theorem finalSlash_encode (url : String) : finalSlash (encode url) = finalSlash url := by
  obtain ⟨front, last, hpieces⟩ :=
    (List.eq_nil_or_concat' (pieces url)).resolve_left (pieces_ne_nil url)
  have hlast : SlashFree last := slashFree_of_mem_pieces (by rw [hpieces]; simp)
  rw [← joined_pieces url, hpieces, encode_joined, List.map_append, List.map_singleton,
    finalSlash_joined hlast, finalSlash_joined (slashFree_encode hlast)]
  simp only [encode_eq_empty_iff, ne_eq, List.map_eq_nil_iff]

/-! ## The way between two encoded texts -/

/-- Lists share the same names when all of them are encoded. -/
theorem splitCommon_map_encode (as bs : List String) :
    splitCommon (as.map encode) (bs.map encode) =
      ((splitCommon as bs).1.map encode, (splitCommon as bs).2.map encode) := by
  induction as generalizing bs with
  | nil => rfl
  | cons a as ih =>
    cases bs with
    | nil => rfl
    | cons b bs =>
      simp only [List.map_cons, splitCommon, encode_injective.eq_iff]
      split
      · exact ih bs
      · rfl

theorem detour_map_encode (start goal : List String) :
    detour (start.map encode) (goal.map encode) = (detour start goal).map encode := by
  simp only [detour, splitCommon_map_encode, List.map_append, List.map_replicate, encode_dotDot,
    List.length_map]

theorem way_map_encode (start goal : List String) :
    way (start.map encode) (goal.map encode) = (way start goal).map encode := by
  simp only [way, detour_map_encode, List.map_eq_nil_iff]
  split
  · rw [List.map_singleton, encode_dot]
  · rfl

/-- **Encoding may come before or after**: the relative address of two encoded texts is
that of the texts, encoded. -/
theorem encode_relative (url other : String) :
    encode (relative url other) = relative (encode url) (encode other) := by
  have hslash : (finalSlash url).map encode = finalSlash url := by
    rw [finalSlash]
    split
    · rw [List.map_singleton, encode_empty]
    · rfl
  rw [relative_eq, relative_eq, encode_joined, List.map_append, hslash, directoryOf_encode,
    steps_encode, steps_encode, way_map_encode, finalSlash_encode]

end Url
end DocSite
