import Mathlib.Data.List.Basic
import DocSite.Text.Pieces

/-!
# Texts put together with slashes

Cutting a text at its slashes goes with putting texts together: the pieces of two
texts with a slash between them are the pieces of the one and then those of the
other (`pieces_append_slash`), and a piece has no slash in it
(`slashFree_of_mem_pieces`).  So whatever reads a text piece by piece reads the
first text and goes on with the second.  A text may also be read from its end, up to
the last place of a slash or of a dot (`dropWhile_reverse_append_cons`).
-/

namespace DocSite

/-- A slash ends one piece and begins another. -/
theorem pieces_append_slash (s t : String) : pieces (s ++ "/" ++ t) = pieces s ++ pieces t := by
  have hcut : (s ++ "/" ++ t).toList = s.toList ++ '/' :: t.toList := by
    simp
  rw [pieces, pieces, pieces, hcut, List.splitOn_append_cons_self, List.map_append]

theorem slashFree_of_mem_splitOn {chars part : List Char} (h : part ∈ chars.splitOn '/') :
    '/' ∉ part := by
  induction chars generalizing part with
  | nil =>
    rw [List.splitOn_nil, List.mem_singleton] at h
    simp [h]
  | cons c rest ih =>
    rw [List.splitOn_cons_eq_if_modifyHead] at h
    split at h
    · rcases List.mem_cons.1 h with rfl | h
      · simp
      · exact ih h
    · rename_i hc
      obtain ⟨first, others, hrest⟩ := List.exists_cons_of_ne_nil (List.splitOn_ne_nil '/' rest)
      rw [hrest] at h ih
      rcases List.mem_cons.1 h with rfl | h
      · rw [List.mem_cons, not_or]
        exact ⟨fun heq => hc (by simp [← heq]), ih (List.mem_cons_self ..)⟩
      · exact ih (List.mem_cons_of_mem _ h)

theorem slashFree_of_mem_pieces {text piece : String} (h : piece ∈ pieces text) :
    SlashFree piece := by
  obtain ⟨part, hpart, rfl⟩ := List.mem_map.1 h
  simpa [SlashFree] using slashFree_of_mem_splitOn hpart

@[simp] theorem pieces_empty : pieces "" = [""] := by
  decide

theorem pieces_of_slashFree {text : String} (h : SlashFree text) : pieces text = [text] := by
  have hpieces := pieces_joined (List.cons_ne_nil text []) (by simpa using h)
  rwa [joined_singleton] at hpieces

theorem joined_append {parts others : List String} (hne : parts ≠ []) (hne' : others ≠ []) :
    joined (parts ++ others) = joined parts ++ "/" ++ joined others := by
  induction parts with
  | nil => exact absurd rfl hne
  | cons first rest ih =>
    cases rest with
    | nil =>
      obtain ⟨second, more, rfl⟩ := List.exists_cons_of_ne_nil hne'
      rw [List.singleton_append, joined_cons_cons, joined_singleton]
    | cons second more =>
      have hrest := ih (List.cons_ne_nil second more)
      rw [List.cons_append] at hrest ⊢
      rw [List.cons_append, joined_cons_cons, hrest, joined_cons_cons]
      simp [String.append_assoc]

/-- A text put together starts as its first piece does. -/
theorem head?_joined_cons {first : String} (h : first ≠ "") (rest : List String) :
    (joined (first :: rest)).toList.head? = first.toList.head? := by
  cases rest with
  | nil => rw [joined_singleton]
  | cons second others =>
    rw [joined_cons_cons, String.append_assoc, String.toList_append,
      List.head?_append_of_ne_nil _ (by simpa using h)]

/-- A text put together ends as its last piece does. -/
theorem getLast?_joined_append {last : String} (h : last ≠ "") (parts : List String) :
    (joined (parts ++ [last])).toList.getLast? = last.toList.getLast? := by
  rcases eq_or_ne parts [] with rfl | hne
  · rw [List.nil_append, joined_singleton]
  · rw [joined_append hne (List.cons_ne_nil _ _), joined_singleton, String.toList_append,
      List.getLast?_append_of_ne_nil _ (by simpa using h)]

/-- Pieces joined together are cut before the last of them. -/
theorem cutLast_joined {parts : List String} {last : String}
    (h : ∀ part ∈ parts ++ [last], SlashFree part) :
    cutLast (joined (parts ++ [last])) = (joined parts, last) := by
  have hpieces : pieces (joined (parts ++ [last])) = parts ++ [last] :=
    pieces_joined (by simp) h
  simp [cutLast, hpieces]

/-! ## The last place of a character -/

theorem ne_of_mem_of_notMem {c : Char} {chars : List Char} (h : c ∉ chars) :
    ∀ other ∈ chars, (other ≠ c : Bool) := by
  intro other hother
  have hne : other ≠ c := fun heq => h (heq ▸ hother)
  simpa using hne

/-- A text that is read from its end up to a character is left with what stands before
the last place of it. -/
theorem dropWhile_reverse_append_cons {c : Char} {back : List Char} (h : c ∉ back)
    (front : List Char) :
    (front ++ c :: back).reverse.dropWhile (· ≠ c) = c :: front.reverse := by
  have hback : c ∉ back.reverse := fun hc => h (List.mem_reverse.1 hc)
  rw [List.reverse_append, List.reverse_cons, List.append_assoc, List.singleton_append,
    List.dropWhile_append_of_pos (ne_of_mem_of_notMem hback), List.dropWhile_cons_of_neg (by simp)]

end DocSite
