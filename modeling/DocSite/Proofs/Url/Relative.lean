import Mathlib.Data.List.Infix
import DocSite.Proofs.Url.Address

/-!
# Where a relative address leads

A relative address goes up for every name that it does not share with its goal, and
then down the rest of the goal.  Read from where it starts, it leads to the goal
(`foldl_detour`), since going up takes back exactly the names that are not shared.

As a text, it is the pieces of this detour, a `.` if there are none, and an empty piece
if the goal ends in a slash (`relative_eq`).  A page is looked at from its directory when
its last piece is empty or has a dot (`steps_directoryOf`).
-/

namespace DocSite
namespace Url

/-! ## Names that pieces lead to -/

theorem pushName_of_isLegalName {name : String} (h : IsLegalName name) (stack : List String) :
    pushName stack name = name :: stack := by
  rw [pushName, if_neg (not_or.2 ⟨h.1, h.2.1⟩), if_neg h.2.2.1]

theorem foldl_pushName_of_areLegal {names : List String} (h : AreLegal names)
    (stack : List String) : names.foldl pushName stack = names.reverse ++ stack := by
  induction names generalizing stack with
  | nil => rfl
  | cons name rest ih =>
    rw [List.foldl_cons, pushName_of_isLegalName (h name (List.mem_cons_self ..)),
      ih fun other hother => h other (List.mem_cons_of_mem _ hother)]
    simp

/-- Only legal names are left on a stack. -/
theorem areLegal_foldl_pushName {parts : List String} (h : ∀ part ∈ parts, SlashFree part)
    {stack : List String} (hstack : AreLegal stack) : AreLegal (parts.foldl pushName stack) := by
  induction parts generalizing stack with
  | nil => exact hstack
  | cons part rest ih =>
    refine ih (fun other hother => h other (List.mem_cons_of_mem _ hother)) ?_
    rw [pushName]
    split
    · exact hstack
    · rename_i hskip
      rw [not_or] at hskip
      split
      · exact fun name hname => hstack name (List.mem_of_mem_tail hname)
      · rename_i hup
        intro name hname
        rcases List.mem_cons.1 hname with rfl | hname
        · exact ⟨hskip.1, hskip.2, hup, h name (List.mem_cons_self ..)⟩
        · exact hstack name hname

theorem areLegal_settled {parts : List String} (h : ∀ part ∈ parts, SlashFree part) :
    AreLegal (settled parts) :=
  fun name hname => areLegal_foldl_pushName h areLegal_nil name (List.mem_reverse.1 hname)

theorem steps_eq_settled (url : String) : steps url = settled (pieces url) := rfl

theorem areLegal_steps (url : String) : AreLegal (steps url) :=
  areLegal_settled fun _ hpiece => slashFree_of_mem_pieces hpiece

theorem settled_of_areLegal {names : List String} (h : AreLegal names) : settled names = names := by
  rw [settled, foldl_pushName_of_areLegal h, List.append_nil, List.reverse_reverse]

/-- One piece more takes one more step from legal names. -/
theorem settled_append_singleton {names : List String} (h : AreLegal names) (part : String) :
    settled (names ++ [part]) = (pushName names.reverse part).reverse := by
  rw [settled, List.foldl_append, foldl_pushName_of_areLegal h, List.append_nil, List.foldl_cons,
    List.foldl_nil]

/-- Legal names and one part more lead to a beginning of these. -/
theorem settled_append_singleton_isPrefix {names : List String} (h : AreLegal names)
    (part : String) : settled (names ++ [part]) <+: names ++ [part] := by
  rw [settled_append_singleton h, pushName]
  split
  · rw [List.reverse_reverse]
    exact List.prefix_append _ _
  · split
    · rw [List.tail_reverse, List.reverse_reverse]
      exact (List.dropLast_prefix _).trans (List.prefix_append _ _)
    · rw [List.reverse_cons, List.reverse_reverse]

@[simp] theorem settled_append_empty (parts : List String) :
    settled (parts ++ [""]) = settled parts := by
  simp [settled, pushName]

/-! ## The detour -/

/-- What two lists share is a beginning of both. -/
theorem exists_eq_append_splitCommon (as bs : List String) :
    ∃ shared, as = shared ++ (splitCommon as bs).1 ∧ bs = shared ++ (splitCommon as bs).2 := by
  induction as generalizing bs with
  | nil => exact ⟨[], by simp [splitCommon]⟩
  | cons a as ih =>
    cases bs with
    | nil => exact ⟨[], by simp [splitCommon]⟩
    | cons b bs =>
      rw [splitCommon]
      split
      · rename_i heq
        obtain ⟨shared, has, hbs⟩ := ih bs
        exact ⟨a :: shared, by rw [List.cons_append, ← has], by rw [List.cons_append, ← hbs, heq]⟩
      · exact ⟨[], rfl, rfl⟩

/-- A detour goes up for what it does not share with its goal, and then down. -/
theorem exists_detour_eq (start goal : List String) : ∃ shared up down, start = shared ++ up ∧
    goal = shared ++ down ∧ detour start goal = List.replicate up.length ".." ++ down := by
  obtain ⟨shared, hstart, hgoal⟩ := exists_eq_append_splitCommon start goal
  exact ⟨shared, _, _, hstart, hgoal, rfl⟩

/-- What the goal shares with all of itself is all of it. -/
theorem splitCommon_append (goal rest : List String) :
    splitCommon (goal ++ rest) goal = (rest, []) := by
  induction goal with
  | nil => cases rest <;> rfl
  | cons name goal ih => rw [List.cons_append, splitCommon, if_pos rfl, ih]

/-- Lists that begin differently share nothing. -/
theorem splitCommon_of_head?_ne {as bs : List String} (h : bs = [] ∨ as.head? ≠ bs.head?) :
    splitCommon as bs = (as, bs) := by
  match as, bs with
  | [], _ | _ :: _, [] => simp [splitCommon]
  | a :: as, b :: bs =>
    have hne : a ≠ b := fun heq => h.elim (by simp) fun hhead => hhead (by simp [heq])
    rw [splitCommon, if_neg hne]

theorem foldl_pushName_replicate (count : Nat) (stack : List String) :
    (List.replicate count "..").foldl pushName stack = stack.drop count := by
  induction count generalizing stack with
  | zero => rfl
  | succ count ih =>
    rw [List.replicate_succ, List.foldl_cons, ih, ← List.drop_tail]
    rfl

/-- **A detour leads from its start to its goal.** -/
theorem foldl_detour (start : List String) {goal : List String} (h : AreLegal goal) :
    (detour start goal).foldl pushName start.reverse = goal.reverse := by
  obtain ⟨shared, up, down, rfl, rfl, hdetour⟩ := exists_detour_eq start goal
  have hlegal : AreLegal down := fun name hname => h name (List.mem_append_right _ hname)
  rw [hdetour, List.foldl_append, foldl_pushName_replicate, List.reverse_append,
    List.drop_left' List.length_reverse, foldl_pushName_of_areLegal hlegal, List.reverse_append]

/-- A detour to a goal that is on the way up only goes up. -/
theorem exists_detour_eq_replicate {start goal : List String} (h : goal <+: start) :
    ∃ count, detour start goal = List.replicate count ".." := by
  obtain ⟨rest, rfl⟩ := h
  exact ⟨rest.length, by rw [detour, splitCommon_append]; simp⟩

/-- Every other detour ends as its goal does. -/
theorem getLast?_detour {start goal : List String} (h : ¬ goal <+: start) :
    (detour start goal).getLast? = goal.getLast? := by
  obtain ⟨shared, up, down, rfl, rfl, hdetour⟩ := exists_detour_eq start goal
  have hdown : down ≠ [] := by
    rintro rfl
    exact h (by simp)
  rw [hdetour, List.getLast?_append_of_ne_nil _ hdown, List.getLast?_append_of_ne_nil _ hdown]

theorem areParts_detour (start : List String) {goal : List String} (h : AreLegal goal) :
    AreParts (detour start goal) := by
  obtain ⟨shared, up, down, rfl, rfl, hdetour⟩ := exists_detour_eq start goal
  intro part hpart
  rw [hdetour] at hpart
  rcases List.mem_append.1 hpart with hpart | hpart
  · rw [List.eq_of_mem_replicate hpart]
    exact ⟨by decide, by decide⟩
  · exact h.areParts part (List.mem_append_right _ hpart)

/-! ## The text of a relative address -/

/-- The pieces of a relative address, before the empty one that puts a slash at its
end. -/
def way (start goal : List String) : List String :=
  if detour start goal = [] then ["."] else detour start goal

theorem way_ne_nil (start goal : List String) : way start goal ≠ [] := by
  rw [way]
  split
  · simp
  · assumption

theorem areParts_way (start : List String) {goal : List String} (h : AreLegal goal) :
    AreParts (way start goal) := by
  rw [way]
  split
  · intro part hpart
    rw [List.mem_singleton.1 hpart]
    exact ⟨by decide, by decide⟩
  · exact areParts_detour start h

/-- The piece that puts a slash at the end of an address. -/
def finalSlash (url : String) : List String :=
  if url.toList.getLast? = some '/' then [""] else []

theorem eq_empty_of_mem_finalSlash {url piece : String} (h : piece ∈ finalSlash url) :
    piece = "" := by
  rw [finalSlash] at h
  split at h
  · exact List.mem_singleton.1 h
  · exact absurd h List.not_mem_nil

theorem relative_eq (url other : String) :
    relative url other =
      joined (way (steps (directoryOf other)) (steps url) ++ finalSlash url) := by
  have hparts := areParts_detour (steps (directoryOf other)) (areLegal_steps url)
  have hway : (if joined (detour (steps (directoryOf other)) (steps url)) = "" then "." else
      joined (detour (steps (directoryOf other)) (steps url))) =
      joined (way (steps (directoryOf other)) (steps url)) := by
    rw [way]
    split
    · rename_i hempty
      have hnil : detour (steps (directoryOf other)) (steps url) = [] := by
        by_contra hne
        exact joined_ne_empty hparts hne hempty
      rw [if_pos hnil, joined_singleton]
    · rename_i hfilled
      rw [if_neg fun hnil => hfilled (by rw [hnil, joined_nil])]
  rw [relative, hway, finalSlash]
  split
  · rw [joined_append_singleton (way_ne_nil _ _), String.append_empty]
  · rw [List.append_nil, String.append_empty]

theorem settled_append_way (directory : List String) {goal : List String} (h : AreLegal goal) :
    settled (directory ++ way (settled directory) goal) = goal := by
  have hdetour := foldl_detour (settled directory) h
  have hstack : directory.foldl pushName [] = (settled directory).reverse := by
    rw [settled, List.reverse_reverse]
  rw [way, settled, List.foldl_append, hstack]
  split
  · rename_i hnil
    rw [hnil, List.foldl_nil] at hdetour
    simp only [List.foldl_cons, List.foldl_nil, pushName]
    simpa using hdetour
  · rw [hdetour, List.reverse_reverse]

/-- A page whose last piece is empty or has a dot is looked at from the directory that
its other pieces lead to. -/
theorem steps_directoryOf {front : List String} {last : String}
    (hfree : ∀ part ∈ front ++ [last], SlashFree part) (hlast : last = "" ∨ '.' ∈ last.toList) :
    steps (directoryOf (joined (front ++ [last]))) = settled front := by
  have hpieces : pieces (joined (front ++ [last])) = front ++ [last] :=
    pieces_joined (by simp) hfree
  rw [directoryOf, cutLast_joined hfree]
  by_cases hdot : '.' ∈ last.toList
  · rw [if_pos hdot, steps_eq_settled]
    cases front with
    | nil =>
      rw [joined_nil, pieces_empty]
      rfl
    | cons first rest =>
      rw [pieces_joined (by simp) fun part hpart => hfree part (List.mem_append_left _ hpart)]
  · obtain rfl := hlast.resolve_right hdot
    rw [if_neg hdot, steps_eq_settled, hpieces, settled_append_empty]

end Url
end DocSite
