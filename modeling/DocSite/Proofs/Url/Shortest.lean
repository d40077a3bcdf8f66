import DocSite.Proofs.Url.Relative

/-!
# A relative address is as short as possible

From the directory of one text to another text there are many ways.  Each is a row of
moves: `..` takes the last name back, if there is one, and a name is put behind the others
(`IsRoute`).  The moves of a relative address are the pieces of it that are neither empty
nor `.` (`moves`), and they are such a way.  No way has fewer moves (`shortest_relative`).

How far a directory is from its goal is the length of the detour: what is left of both
lists behind the names that both start with.  No move brings one nearer by more than one
name (`length_detour_concat`), and nothing is left only at the goal, so a way has at least
as many moves as the detour is long (`IsRoute.length_detour_le`).
-/

namespace DocSite
namespace Url

/-! ## Ways and their moves -/

/-- Moves lead from a row of names to another.  At the root, which has no name, `..` stays
at the root. -/
inductive IsRoute : List String → List String → List String → Prop where
  | done (here : List String) : IsRoute here [] here
  | up {here moves there : List String} (h : IsRoute here.dropLast moves there) :
      IsRoute here (".." :: moves) there
  | down {here moves there : List String} {name : String} (hname : IsLegalName name)
      (h : IsRoute (here ++ [name]) moves there) : IsRoute here (name :: moves) there

/-- The pieces of a text that take a name back or put one behind. -/
def moves (text : String) : List String :=
  (pieces text).filter fun piece => piece ≠ "" ∧ piece ≠ "."

/-- One goes up as often as there are names to take back. -/
theorem IsRoute.up_append {shared moves there : List String} (h : IsRoute shared moves there)
    (up : List String) : IsRoute (shared ++ up) (List.replicate up.length ".." ++ moves) there := by
  induction up using List.reverseRecOn with
  | nil => rwa [List.append_nil]
  | append_singleton up name ih =>
    rw [List.length_append, List.length_singleton, List.replicate_succ, List.cons_append]
    refine .up ?_
    rwa [← List.append_assoc, List.dropLast_concat]

theorem isRoute_of_areLegal {names : List String} (h : AreLegal names) (here : List String) :
    IsRoute here names (here ++ names) := by
  induction names generalizing here with
  | nil =>
    rw [List.append_nil]
    exact .done here
  | cons name rest ih =>
    have hrest := ih (fun other hother => h other (List.mem_cons_of_mem _ hother)) (here ++ [name])
    rw [List.append_assoc, List.singleton_append] at hrest
    exact .down (h name (List.mem_cons_self ..)) hrest

theorem isRoute_detour (start : List String) {goal : List String} (h : AreLegal goal) :
    IsRoute start (detour start goal) goal := by
  obtain ⟨shared, up, down, rfl, rfl, hdetour⟩ := exists_detour_eq start goal
  have hdown : AreLegal down := fun name hname => h name (List.mem_append_right _ hname)
  rw [hdetour]
  exact (isRoute_of_areLegal hdown shared).up_append up

/-! ## How far it is to the goal -/

theorem length_detour (start goal : List String) : (detour start goal).length =
    (splitCommon start goal).1.length + (splitCommon start goal).2.length := by
  rw [detour, List.length_append, List.length_replicate]

theorem detour_self (goal : List String) : detour goal goal = [] := by
  have hall := splitCommon_append goal []
  rw [List.append_nil] at hall
  rw [detour, hall]
  rfl

/-- A directory and one in it are at most one name further from a goal than each other. -/
theorem length_detour_concat (here : List String) (name : String) (goal : List String) :
    (detour here goal).length ≤ (detour (here ++ [name]) goal).length + 1 ∧
      (detour (here ++ [name]) goal).length ≤ (detour here goal).length + 1 := by
  rw [length_detour, length_detour]
  induction here generalizing goal with
  | nil =>
    cases goal with
    | nil => simp [splitCommon]
    | cons first rest =>
      rw [List.nil_append, splitCommon]
      split
      · simp [splitCommon]
        omega
      · simp only [splitCommon, List.length_nil, List.length_cons]
        omega
  | cons other here ih =>
    cases goal with
    | nil => simp [splitCommon]
    | cons first rest =>
      rw [List.cons_append, splitCommon, splitCommon]
      split
      · exact ih rest
      · simp only [List.length_append, List.length_cons, List.length_nil]
        omega

/-- **A way has at least as many moves as the detour is long.** -/
theorem IsRoute.length_detour_le {here moves there : List String} (h : IsRoute here moves there) :
    (detour here there).length ≤ moves.length := by
  induction h with
  | done here => rw [detour_self]
  | @up here moves there _ ih =>
    rw [List.length_cons]
    rcases List.eq_nil_or_concat' here with rfl | ⟨front, last, rfl⟩
    · exact Nat.le_succ_of_le ih
    · rw [List.dropLast_concat] at ih
      have hnear := (length_detour_concat front last there).2
      omega
  | @down here moves there name _ _ ih =>
    rw [List.length_cons]
    have hnear := (length_detour_concat here name there).1
    omega

/-! ## The pieces of a relative address -/

theorem pieces_relative (url other : String) : pieces (relative url other) =
    way (steps (directoryOf other)) (steps url) ++ finalSlash url := by
  have hparts := areParts_way (steps (directoryOf other)) (areLegal_steps url)
  rw [relative_eq]
  refine pieces_joined (List.append_ne_nil_of_left_ne_nil (way_ne_nil _ _) _) fun piece hpiece => ?_
  rcases List.mem_append.1 hpiece with hpiece | hpiece
  · exact hparts.slashFree piece hpiece
  · rw [eq_empty_of_mem_finalSlash hpiece]
    decide

/-- The moves of a relative address are its detour. -/
theorem moves_relative (url other : String) :
    moves (relative url other) = detour (steps (directoryOf other)) (steps url) := by
  obtain ⟨shared, up, down, -, hgoal, hdetour⟩ :=
    exists_detour_eq (steps (directoryOf other)) (steps url)
  have hslash : (finalSlash url).filter (fun piece => piece ≠ "" ∧ piece ≠ ".") = [] := by
    rw [List.filter_eq_nil_iff]
    intro piece hpiece
    rw [eq_empty_of_mem_finalSlash hpiece]
    decide
  rw [moves, pieces_relative, List.filter_append, hslash, List.append_nil, way]
  split
  · rename_i hnil
    rw [hnil]
    rfl
  · rw [List.filter_eq_self]
    intro piece hpiece
    rw [hdetour] at hpiece
    rcases List.mem_append.1 hpiece with hpiece | hpiece
    · rw [List.eq_of_mem_replicate hpiece]
      decide
    · have hlegal := areLegal_steps url piece (hgoal ▸ List.mem_append_right shared hpiece)
      simpa using And.intro hlegal.1 hlegal.2.1

/-- The steps up come first, and there are not more of them than names to take back. -/
theorem exists_pieces_relative_eq (url other : String) : ∃ ups rest,
    pieces (relative url other) = List.replicate ups ".." ++ rest ∧ ".." ∉ rest ∧
      ups ≤ (steps (directoryOf other)).length := by
  have hslash : ".." ∉ finalSlash url := fun hup =>
    absurd (eq_empty_of_mem_finalSlash hup) (by decide)
  obtain ⟨shared, up, down, hstart, hgoal, hdetour⟩ :=
    exists_detour_eq (steps (directoryOf other)) (steps url)
  rw [pieces_relative, way]
  split
  · refine ⟨0, ["."] ++ finalSlash url, rfl, ?_, Nat.zero_le _⟩
    rw [List.mem_append, not_or]
    exact ⟨by decide, hslash⟩
  · refine ⟨up.length, down ++ finalSlash url, by rw [hdetour, List.append_assoc], ?_, ?_⟩
    · rw [List.mem_append, not_or]
      refine ⟨fun hup => ?_, hslash⟩
      exact (areLegal_steps url ".." (hgoal ▸ List.mem_append_right shared hup)).2.2.1 rfl
    · rw [hstart, List.length_append]
      exact Nat.le_add_left _ _

theorem getLast?_relative (url other : String) :
    (relative url other).toList.getLast? = some '/' ↔ url.toList.getLast? = some '/' := by
  have hparts := areParts_way (steps (directoryOf other)) (areLegal_steps url)
  rw [relative_eq, finalSlash]
  split
  · rename_i hslash
    rw [joined_append_singleton (way_ne_nil _ _), String.append_empty]
    simpa using hslash
  · rename_i hslash
    rw [List.append_nil]
    exact iff_of_false (getLast?_joined_ne_slash hparts) hslash

/-- A relative address leads from its directory to its goal. -/
theorem steps_append_relative (url other : String) :
    steps (directoryOf other ++ "/" ++ relative url other) = steps url := by
  have hway := settled_append_way (pieces (directoryOf other)) (areLegal_steps url)
  rw [steps_eq_settled, pieces_append_slash, pieces_relative, ← List.append_assoc, finalSlash]
  split
  · rw [settled_append_empty]
    exact hway
  · rw [List.append_nil]
    exact hway

/-- **A relative address is a shortest way.**  Read from the directory of the text that it
is relative to, it leads where its goal leads, and it ends in a slash when the goal does.
Its steps up come first, and there are not more of them than the directory has names.  Its
moves lead from the directory to the goal, and no other moves that do are fewer. -/
theorem shortest_relative (url other : String) :
    steps (directoryOf other ++ "/" ++ relative url other) = steps url ∧
      ((relative url other).toList.getLast? = some '/' ↔ url.toList.getLast? = some '/') ∧
      (∃ ups rest, pieces (relative url other) = List.replicate ups ".." ++ rest ∧
        ".." ∉ rest ∧ ups ≤ (steps (directoryOf other)).length) ∧
      IsRoute (steps (directoryOf other)) (moves (relative url other)) (steps url) ∧
      ∀ others, IsRoute (steps (directoryOf other)) others (steps url) →
        (moves (relative url other)).length ≤ others.length := by
  refine ⟨steps_append_relative url other, getLast?_relative url other,
    exists_pieces_relative_eq url other, ?_, fun others hroute => ?_⟩
  · rw [moves_relative]
    exact isRoute_detour _ (areLegal_steps url)
  · rw [moves_relative]
    exact hroute.length_detour_le

-- the goal is above the root, and a page of the directory has its name
example : relative "../guide/./b/" "guide//a/x.html" = "../b/" ∧
    moves (relative "../guide/./b/" "guide//a/x.html") = ["..", "b"] ∧
    moves (relative "guide/" "guide/index.html") = [] := by
  decide

end Url
end DocSite
